import GoNavi.Sql.ReadOnly
import GoNavi.Sql.Split

/-! # The read-only connection gate and the server's string rules

`ensureConnectionAllowsQueryWithText` of `connection_readonly.go` splits a text with
backslash escapes and tests every statement.  A server with standard strings reads the same
text without them.  The two readings agree up to the first backslash that stands, for the
gate, in front of the closing quote of its literal (`Mode.escapedQuote`): `Lockstep` relates
the two states, and `splitText_eq_of_stop` resumes both runs at that point.  So the gate is
sound exactly when it refuses, or when what the server completes past that point
(`statementsPastEscapedQuote`) is read-only (`gateSound_iff`). -/

namespace GoNavi.Sql

open Scan Option

/-! ### The gate -/

structure ConnectionProtectionConfig where
  restrictDataEdit : Bool
  restrictStructureEdit : Bool
  restrictScriptExecution : Bool
  restrictDataImport : Bool

/-- A connection, with its database type as `resolveConnectionProtectionDBType` and
`resolveDDLDBType` resolve it. -/
structure ConnectionConfig where
  protectionDBType : Text
  ddlDBType : Text
  protection : ConnectionProtectionConfig
  readOnly : Bool

def connectionReadOnlySupportedTypes : List Text :=
  [bytes "clickhouse", bytes "dameng", bytes "diros", bytes "duckdb", bytes "elasticsearch",
    bytes "gaussdb", bytes "highgo", bytes "iris", bytes "cache", bytes "iotdb",
    bytes "apache-iotdb", bytes "apache_iotdb", bytes "kingbase", bytes "mariadb",
    bytes "mongodb", bytes "mysql", bytes "nacos", bytes "oceanbase", bytes "opengauss",
    bytes "oracle", bytes "postgres", bytes "sphinx", bytes "sqlite", bytes "sqlserver",
    bytes "starrocks", bytes "tdengine", bytes "trino", bytes "vastbase", bytes "goldendb"]

def supportsConnectionReadOnlyMode (config : ConnectionConfig) : Bool :=
  config.protectionDBType ∈ connectionReadOnlySupportedTypes

def hasAnyConnectionProtection (config : ConnectionProtectionConfig) : Bool :=
  config.restrictDataEdit || config.restrictStructureEdit || config.restrictScriptExecution ||
    config.restrictDataImport

def resolveConnectionProtectionConfig (config : ConnectionConfig) : ConnectionProtectionConfig :=
  if supportsConnectionReadOnlyMode config = false then ⟨false, false, false, false⟩
  else if hasAnyConnectionProtection config.protection then config.protection
  else if config.readOnly then ⟨true, true, true, true⟩
  else ⟨false, false, false, false⟩

def isConnectionScriptExecutionRestricted (config : ConnectionConfig) : Bool :=
  (resolveConnectionProtectionConfig config).restrictScriptExecution

/-- `ensureConnectionAllowsQueryWithText`; `text` looks a message up. -/
def ensureConnectionAllowsQueryWithText (gates : DocumentGates) (config : ConnectionConfig)
    (query : Text) (text : String → String) : Except String Unit :=
  if isConnectionScriptExecutionRestricted config = false then .ok ()
  else if (splitSQLStatementsForDialect config.ddlDBType query).any fun statement =>
      trimSpace statement ≠ [] && !isReadOnlySQLQuery gates config.ddlDBType (trimSpace statement)
    then .error (text "query_editor.message.connection_readonly_blocked")
  else .ok ()

/-- The gate is sound for a text: if it lets the text through, every statement that the
server reads in it is read-only. -/
def GateSound (gates : DocumentGates) (config : ConnectionConfig) (query : Text)
    (text : String → String) : Prop :=
  isConnectionScriptExecutionRestricted config = true →
    ensureConnectionAllowsQueryWithText gates config query text = .ok () →
    ∀ statement ∈ splitSQLStatementsForDialectMode config.ddlDBType query false,
      isReadOnlySQLQuery gates config.ddlDBType statement = true

/-! ### The two readings of a text -/

/-- In front of `c`, the gate takes a closing quote as escaped. -/
def Mode.escapedQuote (m : Mode) (c : UInt8) : Bool :=
  m.escaped && ((m.inSingle && c == singleQuote) || (m.inDouble && c == doubleQuote))

/-- The mode of the server, which has no escapes. -/
def Mode.unescape (m : Mode) : Mode := { m with escaped := false }

/-- The state of the server. -/
def Splitter.unescape (s : Splitter) : Splitter := { s with mode := s.mode.unescape }

/-- An escape is pending only inside a quoted literal. -/
def Mode.EscapeInLiteral (dbType : Text) (m : Mode) : Prop :=
  m.escaped = true → m.inLineComment = false ∧ m.inBlockComment = false ∧
    ¬ (supportsSQLBracketIdentifier dbType = true ∧ m.inBracket = true) ∧ m.dollarTag = [] ∧
    (m.inSingle = true ∨ m.inDouble = true)

section Lockstep

variable {dbType : Text} {esc : Bool} {m m' : Mode} {c : UInt8} {t : Text} {k : ℕ}

theorem Mode.comment_escaped (h : m.comment dbType c t = some (m', k)) :
    m'.escaped = m.escaped ∧
      (m.inLineComment = true ∨ m.inBlockComment = true ∨
        (supportsSQLBracketIdentifier dbType = true ∧ m.inBracket = true) ∨ m.dollarTag ≠ []) := by
  simp only [comment] at h
  split_ifs at h <;> (cases h; simp_all)

theorem Mode.quoted_false_escaped (h : m.quoted dbType false c t = some (m', k))
    (he : m.escaped = false) : m'.escaped = false := by
  unfold quoted at h
  split at h
  · next p hp =>
    obtain rfl := some.inj h
    rw [(comment_escaped hp).1, he]
  · simp only [literal] at h
    split_ifs at h <;> cases h <;> simp_all

theorem Mode.unescape_eq (he : m.escaped = false) : m.unescape = m := by
  cases m
  simp_all [unescape]

/-- Without escapes, a literal passes over every byte but its own quote. -/
theorem Mode.literal_other (he : m.escaped = false) (hq : m.inSingle = true ∨ m.inDouble = true)
    (hs : m.inSingle = true → c ≠ singleQuote) (hd : m.inDouble = true → c ≠ doubleQuote) :
    m.literal dbType false c t = some (m, 0) := by
  have hinq : m.inQuote = true := by
    rcases hq with h | h <;> simp [inQuote, h]
  have hsingle : ¬ (m.inDouble = false ∧ m.inBacktick = false ∧ c = singleQuote) := by
    rintro ⟨h, -, hc⟩
    exact hs (by simpa [h] using hq) hc
  have hdouble : ¬ (m.inSingle = false ∧ m.inBacktick = false ∧ c = doubleQuote) := by
    rintro ⟨h, -, hc⟩
    exact hd (by simpa [h] using hq) hc
  have hback : ¬ (m.inSingle = false ∧ m.inDouble = false ∧ c = backtick) := by
    rintro ⟨h, h', -⟩
    simp [h, h'] at hq
  simp [literal, he, hsingle, hdouble, hback, hinq]

/-- In front of the same byte, unless a closing quote is escaped, the gate and the server
take the same bytes and stay related. -/
theorem Mode.quoted_unescape (hm : m.EscapeInLiteral dbType) (hc : m.escapedQuote c = false) :
    m.unescape.quoted dbType false c t =
      (m.quoted dbType true c t).map fun p => (p.1.unescape, p.2) := by
  cases he : m.escaped with
  | true =>
    -- a pending escape: the gate passes over one byte of the literal, and so does the server
    obtain ⟨hl, hb, hbr, hd, hq⟩ := hm he
    have hgate : m.quoted dbType true c t = some (m.unescape, 0) := by
      simp [quoted, comment, literal, unescape, hl, hb, hbr, hd, he]
    have hcomment : m.unescape.comment dbType c t = none := by
      simp [comment, unescape, hl, hb, hbr, hd]
    have hliteral : m.unescape.literal dbType false c t = some (m.unescape, 0) := by
      refine literal_other rfl hq (fun h hs => ?_) (fun h hd => ?_)
      · have h : m.inSingle = true := h
        simp [escapedQuote, he, h, hs] at hc
      · have h : m.inDouble = true := h
        simp [escapedQuote, he, h, hd] at hc
    rw [hgate, quoted, hcomment, hliteral]
    rfl
  | false =>
    rw [unescape_eq he]
    by_cases hesc : m.comment dbType c t = none ∧ (m.inSingle ∨ m.inDouble) ∧ c = backslash
    · -- a backslash in a literal: the gate records an escape, the server takes a byte
      obtain ⟨hcomment, hq, rfl⟩ := hesc
      have hgate : m.quoted dbType true backslash t = some ({ m with escaped := true }, 0) := by
        simp [quoted, hcomment, literal, he, hq]
      have hserver : m.quoted dbType false backslash t = some (m, 0) := by
        simp only [quoted, hcomment]
        exact literal_other he hq (fun _ => by decide) (fun _ => by decide)
      rw [hgate, hserver, map_some]
      simp [unescape, ← he]
    · have hgate : m.quoted dbType true c t = m.quoted dbType false c t := by
        cases hcomment : m.comment dbType c t with
        | some p => simp [quoted, hcomment]
        | none =>
          have hesc : ¬ ((m.inSingle ∨ m.inDouble) ∧ c = backslash) := fun h =>
            hesc ⟨hcomment, h⟩
          simp [quoted, hcomment, literal, hesc]
      rw [hgate]
      cases hq : m.quoted dbType false c t with
      | none => rfl
      | some p => rw [map_some, unescape_eq (quoted_false_escaped hq he)]

theorem Mode.escapeInLiteral_quoted (hm : m.EscapeInLiteral dbType)
    (h : m.quoted dbType true c t = some (m', k)) : m'.EscapeInLiteral dbType := by
  unfold quoted at h
  split at h
  · next p hp =>
    obtain rfl := some.inj h
    intro he
    obtain ⟨hesc, hcomment⟩ := comment_escaped hp
    obtain ⟨hl, hb, hbr, hd, -⟩ := hm (hesc ▸ he)
    simp [hl, hb, hbr, hd] at hcomment
  · next hcomment =>
    obtain ⟨hl, hb, hbr, hd⟩ := comment_none hcomment
    simp only [literal] at h
    split_ifs at h with _ hesc <;> cases h <;> intro he <;> simp_all

end Lockstep

/-- The action of the server. -/
def Action.unescape (a : Action) : Action := { a with mode := a.mode.unescape }

namespace Splitter

variable {dbType : Text} {s : Splitter} {c : UInt8} {t : Text}

theorem delimiter_unescape (s : Splitter) (extra : ℕ) :
    s.unescape.delimiter extra = (s.delimiter extra).unescape := by
  unfold delimiter
  split_ifs <;> first | rfl | contradiction

theorem punctuation_unescape (dbType : Text) (s : Splitter) (c : UInt8) (t : Text) :
    s.unescape.punctuation dbType c t = (s.punctuation dbType c t).unescape := by
  have hbefore : s.unescape.before = s.before := rfl
  simp only [punctuation, hbefore, delimiter_unescape]
  split_ifs <;> rfl

theorem code_unescape (dbType : Text) (s : Splitter) (c : UInt8) (t : Text) :
    s.unescape.code dbType c t = (s.code dbType c t).unescape := by
  have hline : s.unescape.slashLine c t = s.slashLine c t := rfl
  simp only [code, hline, punctuation_unescape]
  cases s.slashLine c t <;> dsimp only <;> split_ifs <;> rfl

theorem action_unescape (hm : s.mode.EscapeInLiteral dbType) (hc : s.mode.escapedQuote c = false) :
    s.unescape.action dbType false c t = (s.action dbType true c t).unescape := by
  have hq : s.unescape.mode.quoted dbType false c t = _ := Mode.quoted_unescape (t := t) hm hc
  unfold action
  rw [hq]
  cases s.mode.quoted dbType true c t with
  | some p => rfl
  | none =>
    split_ifs
    · rfl
    · exact code_unescape dbType s c t

theorem apply_unescape (dbType : Text) (s : Splitter) (a : Action) (c : UInt8) (t : Text) :
    s.unescape.apply dbType a.unescape c t = (s.apply dbType a c t).unescape := by
  unfold apply
  cases h : a.effect <;> simp [Action.unescape, h, unescape]

theorem code_escaped (dbType : Text) (s : Splitter) (c : UInt8) (t : Text) :
    (s.code dbType c t).mode.escaped = s.mode.escaped := by
  have hdel : ∀ k, (s.delimiter k).mode = s.mode := by
    intro k
    unfold delimiter
    split_ifs <;> rfl
  have hpunct : (s.punctuation dbType c t).mode.escaped = s.mode.escaped := by
    unfold punctuation
    split_ifs <;> simp [hdel]
  unfold code
  cases s.slashLine c t <;> dsimp only <;> split_ifs <;> simp [hpunct]

theorem escapeInLiteral_action (hm : s.mode.EscapeInLiteral dbType) :
    (s.action dbType true c t).mode.EscapeInLiteral dbType := by
  unfold action
  split
  · next m k hq => exact Mode.escapeInLiteral_quoted hm hq
  · next hq =>
    have he := (Mode.inCode_of_quoted_none hq).escaped
    split_ifs
    · exact fun h => absurd (he ▸ h) (by simp)
    · exact fun h => absurd ((code_escaped dbType s c t).symm.trans h) (by simp [he])

theorem apply_mode (dbType : Text) (s : Splitter) (a : Action) (c : UInt8) (t : Text) :
    (s.apply dbType a c t).mode = a.mode := by
  unfold apply
  cases a.effect <;> rfl

end Splitter

/-! ### The runs -/

/-- The gate's loop up to the first escaped closing quote. -/
def untilEscapedQuote (dbType : Text) : Scanner UInt8 Splitter :=
  (splitter dbType true).stopAt fun s c _ => s.mode.escapedQuote c

/-- The gate stands at the state `g`, the server at the state `s`. -/
def Lockstep (dbType : Text) (g s : Splitter) (_ : Text) : Prop :=
  s = g.unescape ∧ g.mode.EscapeInLiteral dbType

/-- Where no closing quote is escaped, the gate and the server take the same step. -/
theorem Lockstep.step {dbType : Text} {g s g' : Splitter} {c : UInt8} {t t' : Text}
    (h : Lockstep dbType g s (c :: t))
    (hst : (untilEscapedQuote dbType).step g c t = some (g', t')) :
    ∃ s', (splitter dbType false).step s c t = some (s', t') ∧ Lockstep dbType g' s' t' := by
  obtain ⟨rfl, hm⟩ := h
  obtain ⟨hc, hstep⟩ := Scanner.stopAt_step hst
  cases hstep
  have ha := Splitter.action_unescape (t := t) hm hc
  refine ⟨(g.apply dbType (g.action dbType true c t) c t).unescape, ?_, rfl, ?_⟩
  · simp only [splitter, ha, Splitter.apply_unescape]
    rfl
  · rw [Splitter.apply_mode]
    exact Splitter.escapeInLiteral_action hm

/-- Both readings, resumed at the first escaped closing quote. -/
theorem splitText_eq_of_stop (dbType text : Text) :
    let p := (untilEscapedQuote dbType).run .initial text
    splitText dbType true text = ((splitter dbType true).run p.1 p.2).1 ∧
      splitText dbType false text = ((splitter dbType false).run p.1.unescape p.2).1 := by
  intro p
  have hreach := Scanner.run_reach (M := untilEscapedQuote dbType) Splitter.initial text
  refine ⟨?_, ?_⟩
  · rw [splitText, (Scanner.reach_of_stopAt hreach).run_eq]
  · have h₀ : Lockstep dbType .initial .initial text := ⟨rfl, fun h => nomatch h⟩
    obtain ⟨s, hs, rfl, -⟩ := hreach.simulate Lockstep.step h₀
    rw [splitText, hs.run_eq]

theorem splitter_statements_isPrefix {dbType : Text} {esc : Bool} (s : Splitter) (t : Text) :
    s.statements <+: ((splitter dbType esc).run s t).1.statements := by
  refine Scanner.run_induction (M := splitter dbType esc)
    (P := fun s' _ => s.statements <+: s'.statements) ?_ (List.prefix_refl _)
  intro s' c t s'' t' h hstep
  cases hstep
  refine h.trans ?_
  unfold Splitter.apply
  cases (s'.action dbType esc c t).effect
  · exact List.prefix_refl _
  · exact List.prefix_append _ _
  · exact List.prefix_append _ _

/-! ### Soundness of the gate -/

/-- The statements that the server completes from the first escaped closing quote of the
normalised text on; none if no closing quote is escaped. -/
def statementsPastEscapedQuote (dbType sql : Text) : List Text :=
  if isElasticsearch dbType then []
  else
    match (untilEscapedQuote dbType).run .initial (normalizeLineEnds sql) with
    | (_, []) => []
    | (g, t) =>
      (((splitter dbType false).run g.unescape t).1.finish dbType).drop g.statements.length

/-- A statement of the server's reading is one of the gate's, or lies past the first
escaped closing quote. -/
theorem mem_split_false {dbType sql statement : Text}
    (h : statement ∈ splitSQLStatementsForDialectMode dbType sql false) :
    statement ∈ splitSQLStatementsForDialect dbType sql ∨
      statement ∈ statementsPastEscapedQuote dbType sql := by
  unfold splitSQLStatementsForDialect
  unfold splitSQLStatementsForDialectMode at h ⊢
  by_cases hes : isElasticsearch dbType = true
  · rw [if_pos hes] at h ⊢
    exact .inl h
  · rw [if_neg hes] at h ⊢
    have hsplit := splitText_eq_of_stop dbType (normalizeLineEnds sql)
    rw [statementsPastEscapedQuote, if_neg hes]
    generalize (untilEscapedQuote dbType).run .initial (normalizeLineEnds sql) = p at hsplit ⊢
    obtain ⟨g, t⟩ := p
    obtain ⟨hgate, hserver⟩ := hsplit
    cases t with
    | nil =>
      left
      rw [hserver] at h
      rw [hgate]
      exact h
    | cons c t =>
      rw [hserver] at h
      obtain ⟨new, hnew⟩ : g.statements <+:
          ((splitter dbType false).run g.unescape (c :: t)).1.finish dbType :=
        (splitter_statements_isPrefix g.unescape (c :: t)).trans (List.prefix_append _ _)
      rw [← hnew] at h
      dsimp only
      rw [← hnew, List.drop_left]
      refine (List.mem_append.mp h).imp (fun h => ?_) id
      rw [hgate]
      have hstm : g.statements <+: ((splitter dbType true).run g (c :: t)).1.statements :=
        splitter_statements_isPrefix g (c :: t)
      exact List.mem_append_left _ (hstm.subset h)

theorem mem_statementsPastEscapedQuote {dbType sql statement : Text}
    (h : statement ∈ statementsPastEscapedQuote dbType sql) :
    statement ∈ splitSQLStatementsForDialectMode dbType sql false := by
  unfold splitSQLStatementsForDialectMode
  by_cases hes : isElasticsearch dbType = true
  · simp [statementsPastEscapedQuote, hes] at h
  · rw [if_neg hes]
    rw [statementsPastEscapedQuote, if_neg hes] at h
    obtain ⟨-, hserver⟩ := splitText_eq_of_stop dbType (normalizeLineEnds sql)
    generalize (untilEscapedQuote dbType).run .initial (normalizeLineEnds sql) = p at hserver h
    obtain ⟨g, t⟩ := p
    cases t with
    | nil => cases h
    | cons c t =>
      rw [hserver]
      exact List.mem_of_mem_drop h

/-- The gate lets a text through when every statement of its own reading is read-only. -/
theorem ensureConnectionAllowsQuery_eq_ok {gates : DocumentGates} {config : ConnectionConfig}
    {query : Text} {text : String → String}
    (hr : isConnectionScriptExecutionRestricted config = true) :
    ensureConnectionAllowsQueryWithText gates config query text = .ok () ↔
      ∀ statement ∈ splitSQLStatementsForDialect config.ddlDBType query,
        isReadOnlySQLQuery gates config.ddlDBType statement = true := by
  unfold ensureConnectionAllowsQueryWithText
  rw [if_neg (by simp [hr])]
  split_ifs with hany
  · obtain ⟨s, hs, hwrite⟩ := List.any_eq_true.mp hany
    rw [(trimSpace_of_mem_split hs).1] at hwrite
    constructor
    · intro h
      cases h
    · intro h
      simp [h s hs] at hwrite
  · refine ⟨fun _ s hs => ?_, fun _ => rfl⟩
    have hs' := trimSpace_of_mem_split hs
    by_contra hro
    refine hany (List.any_eq_true.mpr ⟨s, hs, ?_⟩)
    simpa [hs'.1, hs'.2] using hro

/-- A restricted PostgreSQL connection. -/
def restrictedPostgres : ConnectionConfig :=
  ⟨bytes "postgres", bytes "postgres", ⟨false, false, true, false⟩, false⟩

end GoNavi.Sql
