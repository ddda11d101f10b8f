import GoNavi.Sql.Safety

/-! # The outcomes of the headless policy

`evaluateHeadlessSQLSafety` puts a statement among the disallowed ones, among those that want a
confirmation, or lets it through.  `evaluate_eq` writes its decision as filters of the list of
statements; `headlessPolicy_sound` is the main result: every statement has one outcome, only
read-only statements count as queries, the level `readOnly` authorises read-only texts only, and
a higher level disallows nothing that a lower one permits. -/

namespace GoNavi.Sql

open Scan List

inductive HeadlessOutcome where
  | allowed
  | confirmationRequired
  | disallowed
deriving DecidableEq

section

variable (unicode : UnicodeTables) (gates : DocumentGates) (level : SQLPermissionLevel)
  (dbType : Text)

/-- What the policy inspects of the statement with the given place in the split. -/
def inspectStatement (p : Text × ℕ) : SQLStatementInspection :=
  ⟨p.2 + 1, leadingSQLKeyword unicode p.1, isReadOnlySQLQuery gates dbType p.1⟩

def safetyStatement (p : Text × ℕ) : HeadlessSQLSafetyStatement :=
  ⟨p.2 + 1, leadingSQLKeyword unicode p.1,
    classifyHeadlessSQLOperation gates dbType p.1 (inspectStatement unicode gates dbType p)⟩

def safetyStatements (statements : List Text) : List HeadlessSQLSafetyStatement :=
  statements.zipIdx.map (safetyStatement unicode gates dbType)

/-- The outcome of an operation at a level. -/
def operationOutcome (operation : SQLOperationType) : HeadlessOutcome :=
  if isHeadlessSQLOperationAllowed level operation = false then .disallowed
  else if operation ≠ .query then .confirmationRequired
  else .allowed

/-- The statements with the given outcome. -/
def withOutcome (o : HeadlessOutcome) (items : List HeadlessSQLSafetyStatement) :
    List HeadlessSQLSafetyStatement :=
  items.filter fun item => operationOutcome level item.operation = o

/-- The decision on the statements of a split. -/
def decisionOn (statements : List Text) : HeadlessSQLSafetyDecision :=
  let items := safetyStatements unicode gates dbType statements
  ⟨normalizeHeadlessSQLSafetyLevel level,
    ⟨0, statements.all (isReadOnlySQLQuery gates dbType),
      statements.zipIdx.map (inspectStatement unicode gates dbType)⟩,
    items.any fun item => operationOutcome level item.operation = .confirmationRequired,
    withOutcome level .disallowed items, withOutcome level .confirmationRequired items⟩

/-- Where a decision puts a statement. -/
def HeadlessSQLSafetyDecision.Places (d : HeadlessSQLSafetyDecision)
    (item : HeadlessSQLSafetyStatement) : HeadlessOutcome → Prop
  | .allowed => item ∉ d.confirmRequired ∧ item ∉ d.disallowed
  | .confirmationRequired => item ∈ d.confirmRequired
  | .disallowed => item ∈ d.disallowed

/-- Nothing is disallowed and nothing wants a confirmation. -/
def HeadlessSQLSafetyDecision.Authorises (d : HeadlessSQLSafetyDecision) : Prop :=
  d.disallowed = [] ∧ d.requiresAllowMutating = false

end

/-- How much a level permits. -/
def SQLPermissionLevel.rank : SQLPermissionLevel → ℕ
  | .readOnly | .other _ => 0
  | .readWrite => 1
  | .full => 2

section Decision

variable {unicode : UnicodeTables} {gates : DocumentGates} {level : SQLPermissionLevel}
  {dbType : Text}

theorem safetyStatements_append (statements : List Text) (s : Text) :
    safetyStatements unicode gates dbType (statements ++ [s]) =
      safetyStatements unicode gates dbType statements ++
        [safetyStatement unicode gates dbType (s, statements.length)] := by
  unfold safetyStatements
  rw [zipIdx_append, map_append]
  simp

variable {operation : SQLOperationType}

theorem operationOutcome_eq_disallowed :
    operationOutcome level operation = .disallowed ↔
      isHeadlessSQLOperationAllowed level operation = false := by
  unfold operationOutcome
  split_ifs with h h' <;> simp [h]

theorem operationOutcome_eq_confirmation :
    operationOutcome level operation = .confirmationRequired ↔
      isHeadlessSQLOperationAllowed level operation = true ∧ operation ≠ .query := by
  unfold operationOutcome
  split_ifs with h h' <;> simp_all

theorem withOutcome_append (o : HeadlessOutcome) (items : List HeadlessSQLSafetyStatement)
    (item : HeadlessSQLSafetyStatement) :
    withOutcome level o (items ++ [item]) =
      withOutcome level o items ++
        if operationOutcome level item.operation = o then [item] else [] := by
  unfold withOutcome
  rw [filter_append]
  split_ifs with h <;> simp [h]

variable {s : Text} {statements : List Text}

theorem evaluateStatement_decisionOn (htrim : trimSpace s = s) (hne : s ≠ []) :
    evaluateStatement unicode gates (normalizeHeadlessSQLSafetyLevel level) dbType
        (decisionOn unicode gates level dbType statements) s =
      decisionOn unicode gates level dbType (statements ++ [s]) := by
  have hlength : (decisionOn unicode gates level dbType statements).inspection.statements.length =
      statements.length := by simp [decisionOn]
  have hlevel : isHeadlessSQLOperationAllowed (normalizeHeadlessSQLSafetyLevel level) =
      isHeadlessSQLOperationAllowed level := by
    funext operation
    simp [isHeadlessSQLOperationAllowed]
  have hzip : ([s].zipIdx (0 + statements.length)).map (inspectStatement unicode gates dbType) =
      [inspectStatement unicode gates dbType (s, statements.length)] := by simp
  simp only [evaluateStatement, htrim, hne, if_false, hlength, hlevel]
  change (if isHeadlessSQLOperationAllowed level
      (safetyStatement unicode gates dbType (s, statements.length)).operation = false then _
    else if (safetyStatement unicode gates dbType (s, statements.length)).operation ≠ .query then _
    else _) = _
  simp only [decisionOn, safetyStatements_append, withOutcome_append, all_append,
    any_append, zipIdx_append, map_append, hzip, all_cons, all_nil,
    any_cons, any_nil, Bool.and_true, Bool.or_false]
  by_cases hno : isHeadlessSQLOperationAllowed level
      (safetyStatement unicode gates dbType (s, statements.length)).operation = false
  · rw [if_pos hno, operationOutcome_eq_disallowed.mpr hno]
    simp
    exact ⟨rfl, rfl⟩
  · by_cases hquery : (safetyStatement unicode gates dbType (s, statements.length)).operation =
        .query
    · have hout : operationOutcome level
          (safetyStatement unicode gates dbType (s, statements.length)).operation = .allowed := by
        unfold operationOutcome
        rw [if_neg hno, if_neg (not_not.mpr hquery)]
      rw [if_neg hno, if_neg (not_not.mpr hquery), hout]
      simp
      rfl
    · have hout : operationOutcome level
          (safetyStatement unicode gates dbType (s, statements.length)).operation =
            .confirmationRequired :=
        operationOutcome_eq_confirmation.mpr ⟨by simpa using hno, hquery⟩
      rw [if_neg hno, if_pos hquery, hout]
      simp
      exact ⟨rfl, rfl⟩

theorem foldl_decisionOn (htrim : ∀ s ∈ statements, trimSpace s = s ∧ s ≠ []) :
    statements.foldl (evaluateStatement unicode gates (normalizeHeadlessSQLSafetyLevel level)
        dbType) ⟨normalizeHeadlessSQLSafetyLevel level, ⟨0, true, []⟩, false, [], []⟩ =
      decisionOn unicode gates level dbType statements := by
  induction statements using List.reverseRecOn with
  | nil => rfl
  | append_singleton statements s ih =>
    have hs := htrim s (mem_append_right _ (mem_singleton.mpr rfl))
    rw [foldl_append, ih fun s' hs' => htrim s' (mem_append_left _ hs')]
    exact evaluateStatement_decisionOn hs.1 hs.2

variable {sql : Text}

/-- The decision on a text is that on the statements of its split. -/
theorem evaluate_eq : evaluateHeadlessSQLSafety unicode gates level dbType sql =
    let d := decisionOn unicode gates level dbType (splitSQLStatementsForDialect dbType sql)
    { d with inspection := { d.inspection with
        statementCount := (splitSQLStatementsForDialect dbType sql).length } } := by
  have htrim : ∀ s ∈ splitSQLStatementsForDialect dbType sql, trimSpace s = s ∧ s ≠ [] :=
    fun s hs => trimSpace_of_mem_split hs
  unfold evaluateHeadlessSQLSafety
  simp only
  rw [foldl_decisionOn htrim]
  simp [decisionOn]

variable {o : HeadlessOutcome}

theorem mem_withOutcome {items : List HeadlessSQLSafetyStatement}
    {item : HeadlessSQLSafetyStatement} (h : item ∈ items) :
    item ∈ withOutcome level o items ↔ operationOutcome level item.operation = o := by
  unfold withOutcome
  rw [mem_filter, decide_eq_true_eq]
  exact and_iff_right h

theorem safetyStatement_mem {k : ℕ} (h : statements[k]? = some s) :
    safetyStatement unicode gates dbType (s, k) ∈
      safetyStatements unicode gates dbType statements :=
  mem_map_of_mem (mk_mem_zipIdx_iff_getElem?.mpr h)

/-- A decision places a statement by the outcome of its operation. -/
theorem evaluate_places {k : ℕ} (h : (splitSQLStatementsForDialect dbType sql)[k]? = some s) :
    (evaluateHeadlessSQLSafety unicode gates level dbType sql).Places
        (safetyStatement unicode gates dbType (s, k)) o ↔
      operationOutcome level (safetyStatement unicode gates dbType (s, k)).operation = o := by
  have hmem : safetyStatement unicode gates dbType (s, k) ∈
      safetyStatements unicode gates dbType (splitSQLStatementsForDialect dbType sql) :=
    safetyStatement_mem h
  rw [evaluate_eq]
  cases o with
  | disallowed => exact mem_withOutcome hmem
  | confirmationRequired => exact mem_withOutcome hmem
  | allowed =>
    unfold HeadlessSQLSafetyDecision.Places decisionOn
    simp only [mem_withOutcome hmem]
    generalize operationOutcome level (safetyStatement unicode gates dbType (s, k)).operation = o
    cases o <;> simp

theorem operation_ne_query {k : ℕ} (h : isReadOnlySQLQuery gates dbType s = false) :
    (safetyStatement unicode gates dbType (s, k)).operation ≠ .query := by
  have hitem : (inspectStatement unicode gates dbType (s, k)).readOnly =
      isReadOnlySQLQuery gates dbType s := rfl
  intro hquery
  rcases classifyHeadlessSQLOperation_eq hitem with ⟨-, hread⟩ | ⟨hop, -⟩ | ⟨hop, -⟩
  · rw [hitem, h] at hread
    cases hread
  · exact absurd (hquery.symm.trans hop) (by decide)
  · exact hop (hquery ▸ mem_cons_self)

theorem authorises_readOnly_iff :
    (evaluateHeadlessSQLSafety unicode gates .readOnly dbType sql).Authorises ↔
      ∀ s ∈ splitSQLStatementsForDialect dbType sql, isReadOnlySQLQuery gates dbType s = true := by
  have hnever :
      (evaluateHeadlessSQLSafety unicode gates .readOnly dbType sql).requiresAllowMutating =
        false := by
    rw [evaluate_eq]
    refine any_eq_false.mpr fun item _ => ?_
    rw [decide_eq_true_eq, operationOutcome_eq_confirmation]
    rintro ⟨hallowed, hne⟩
    exact hne (by simpa [isHeadlessSQLOperationAllowed, normalizeHeadlessSQLSafetyLevel]
      using hallowed)
  unfold HeadlessSQLSafetyDecision.Authorises
  rw [evaluate_disallowed]
  exact ⟨fun h => h.1, fun h => ⟨h, hnever⟩⟩

theorem isAllowed_mono {level level' : SQLPermissionLevel} (h : level.rank ≤ level'.rank)
    (hallowed : isHeadlessSQLOperationAllowed level operation = true) :
    isHeadlessSQLOperationAllowed level' operation = true := by
  revert h hallowed
  cases level <;> cases level' <;> cases operation <;>
    simp [SQLPermissionLevel.rank, isHeadlessSQLOperationAllowed, normalizeHeadlessSQLSafetyLevel]

end Decision

/-- The headless policy is a sound partition of the statements of a text, and monotone in the
level. -/
structure HeadlessPolicySound (unicode : UnicodeTables) (gates : DocumentGates)
    (dbType sql : Text) : Prop where
  /-- Every statement of the split is inspected, in order. -/
  inspected : ∀ level, (evaluateHeadlessSQLSafety unicode gates level dbType sql).inspection =
    ⟨(splitSQLStatementsForDialect dbType sql).length,
      (splitSQLStatementsForDialect dbType sql).all (isReadOnlySQLQuery gates dbType),
      (splitSQLStatementsForDialect dbType sql).zipIdx.map
        (inspectStatement unicode gates dbType)⟩
  one : ∀ level k s, (splitSQLStatementsForDialect dbType sql)[k]? = some s →
    ∃! o, (evaluateHeadlessSQLSafety unicode gates level dbType sql).Places
      (safetyStatement unicode gates dbType (s, k)) o
  /-- The decision lists statements of the split only. -/
  listed : ∀ level,
    (evaluateHeadlessSQLSafety unicode gates level dbType sql).disallowed.Sublist
      (safetyStatements unicode gates dbType (splitSQLStatementsForDialect dbType sql)) ∧
    (evaluateHeadlessSQLSafety unicode gates level dbType sql).confirmRequired.Sublist
      (safetyStatements unicode gates dbType (splitSQLStatementsForDialect dbType sql))
  query : ∀ k s, (splitSQLStatementsForDialect dbType sql)[k]? = some s →
    isReadOnlySQLQuery gates dbType s = false →
    (safetyStatement unicode gates dbType (s, k)).operation ≠ .query
  readOnly : (evaluateHeadlessSQLSafety unicode gates .readOnly dbType sql).Authorises ↔
    ∀ s ∈ splitSQLStatementsForDialect dbType sql, isReadOnlySQLQuery gates dbType s = true
  monotone : ∀ level level' k s, level.rank ≤ level'.rank →
    (splitSQLStatementsForDialect dbType sql)[k]? = some s →
    ¬ (evaluateHeadlessSQLSafety unicode gates level dbType sql).Places
      (safetyStatement unicode gates dbType (s, k)) .disallowed →
    ¬ (evaluateHeadlessSQLSafety unicode gates level' dbType sql).Places
      (safetyStatement unicode gates dbType (s, k)) .disallowed

/-- **The headless policy is a sound and monotone partition**, for every database and text. -/
theorem headlessPolicy_sound (unicode : UnicodeTables) (gates : DocumentGates)
    (dbType sql : Text) : HeadlessPolicySound unicode gates dbType sql where
  inspected level := by
    rw [evaluate_eq]
    rfl
  one level k s hs := by
    refine ⟨_, (evaluate_places hs).mpr rfl, fun o ho => ?_⟩
    exact ((evaluate_places hs).mp ho).symm
  listed level := by
    rw [evaluate_eq]
    exact ⟨filter_sublist, filter_sublist⟩
  query k s _ hread := operation_ne_query hread
  readOnly := authorises_readOnly_iff
  monotone level level' k s hrank hs hplaced := by
    rw [evaluate_places hs, operationOutcome_eq_disallowed] at hplaced ⊢
    rw [Bool.not_eq_false] at hplaced ⊢
    exact isAllowed_mono hrank hplaced

end GoNavi.Sql
