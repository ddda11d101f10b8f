import GoNavi.Editor.Managed

/-! # Pending transactions

A transaction that is pending should be real: the transaction that was opened at its start is
still open on the server, a rollback leaves nothing of its statements, and a commit keeps all of
it (`PendingIsReal`).  The first text is screened for statements that control transactions, a
follow-up text is not, and **a follow-up `COMMIT` makes the pending transaction void**
(`pendingIsReal_fails`).  It is real in every run in which no statement that is sent to a pending
transaction starts, commits or rolls back a transaction on its server
(`pending_transactions_are_real`). -/

namespace GoNavi.Editor

open Scan GoNavi.Sql GoNavi.Sqlparam Sessions List Option

variable {γ F T : Type}

/-! ### Servers and statements -/

/-- The server takes the texts that open and close a transaction for what they are. -/
structure TransactionServer (server : Text → Text → List (Action γ)) : Prop where
  begins : ∀ dbType texts, sqlFileBatchTransactionSQL dbType = some texts →
    server dbType texts.beginSQL = [.start]
  commits : ∀ dbType texts, (sqlFileBatchTransactionSQL dbType = some texts ∨
    sqlEditorImplicitTransactionSQL dbType = some texts) → server dbType texts.commitSQL = [.commit]
  rollsBack : ∀ dbType texts, (sqlFileBatchTransactionSQL dbType = some texts ∨
    sqlEditorImplicitTransactionSQL dbType = some texts) →
    server dbType texts.rollbackSQL = [.rollback]

/-- The statement leaves the transaction of its session alone. -/
def QuietText (env : Environment γ F T) (dbType text : Text) : Prop :=
  ∀ a ∈ env.server dbType text, a.quiet = true

variable {dbType : Text} {env : Environment γ F T} {answers : ℕ → Answer}
variable {stmts : List (ManagedStatement F T)}

/-- Statements that are quiet as they are sent carry out quiet actions; induction on the
statements. -/
theorem execute_quiet {type : Text} (hquiet : ∀ stmt ∈ stmts, QuietText env dbType stmt.sent)
    (n : ℕ) :
    ∀ a ∈ (executeManagedSQLTransactionStatements env type dbType answers n stmts).1,
      a.quiet = true := by
  induction stmts generalizing n with
  | nil => simp [executeManagedSQLTransactionStatements]
  | cons stmt rest ih =>
    have hstmt : QuietText env dbType stmt.sent := hquiet stmt mem_cons_self
    have hrest := ih (fun s hs => hquiet s (mem_cons_of_mem _ hs)) (n + 1)
    have hperformed (ending : Ending) :
        ∀ a ∈ ending.performed (env.server dbType stmt.sent), a.quiet = true :=
      fun a ha => hstmt a (ending.performed_subset _ ha)
    unfold executeManagedSQLTransactionStatements
    dsimp only
    split_ifs
    · simp
    · exact hrest
    · split
      · exact hperformed _
      · exact forall_mem_append.mpr ⟨hperformed _, hperformed _⟩
      · exact forall_mem_append.mpr ⟨forall_mem_append.mpr ⟨hperformed _, hstmt⟩, hrest⟩
      · exact forall_mem_append.mpr ⟨hperformed _, hrest⟩

theorem executeParameterized_quiet (hquiet : ∀ stmt ∈ stmts, QuietText env dbType stmt.boundSQL)
    (n : ℕ) :
    ∀ a ∈ (executeParameterizedStatements env dbType answers n stmts).1, a.quiet = true := by
  induction stmts generalizing n with
  | nil => simp [executeParameterizedStatements]
  | cons stmt rest ih =>
    have hstmt : QuietText env dbType stmt.boundSQL := hquiet stmt mem_cons_self
    have hrest := ih (fun s hs => hquiet s (mem_cons_of_mem _ hs)) (n + 1)
    have hperformed (ending : Ending) :
        ∀ a ∈ ending.performed (env.server dbType stmt.boundSQL), a.quiet = true :=
      fun a ha => hstmt a (ending.performed_subset _ ha)
    unfold executeParameterizedStatements
    dsimp only
    split_ifs
    · simp
    · split
      · exact hperformed _
      · exact forall_mem_append.mpr ⟨hperformed _, hrest⟩

/-! ### The invariant -/

/-- The transaction was not touched since it was opened, and its changes are those of the
statements; it has the texts that end it. -/
structure Sound (env : Environment γ F T) (tx : ManagedSQLTransaction γ) : Prop where
  stands : Stands (.fresh tx.begun) (changes tx.performed) tx.session
  commits : commitActions env tx.dbType tx.boundaryMode tx.commitSQL = [.commit]
  rollsBack : rollbackActions env tx.dbType tx.boundaryMode tx.rollbackSQL = [.rollback]

variable {tx : ManagedSQLTransaction γ}

theorem Sound.extend (h : Sound env tx) {performed : List (Action γ)}
    (hquiet : ∀ a ∈ performed, a.quiet = true) :
    Sound env (tx.extend performed) := by
  refine ⟨?_, h.commits, h.rollsBack⟩
  show Stands (.fresh tx.begun) (changes (tx.performed ++ performed)) (tx.session.run performed)
  rw [changes_append]
  exact h.stands.run rfl hquiet

variable {texts : TransactionSQL}

theorem texts_filled
    (htexts : sqlFileBatchTransactionSQL dbType = some texts ∨
      sqlEditorImplicitTransactionSQL dbType = some texts) :
    trimSpace texts.commitSQL ≠ [] ∧ trimSpace texts.rollbackSQL ≠ [] := by
  rcases htexts with h | h
  · unfold sqlFileBatchTransactionSQL at h
    dsimp only at h
    split_ifs at h <;> cases h <;> decide
  · unfold sqlEditorImplicitTransactionSQL at h
    split_ifs at h
    cases h
    decide

theorem texts_end (hserver : TransactionServer env.server)
    (htexts : sqlFileBatchTransactionSQL dbType = some texts ∨
      sqlEditorImplicitTransactionSQL dbType = some texts) (mode : BoundaryMode) :
    commitActions env dbType mode texts.commitSQL = [.commit] ∧
      rollbackActions env dbType mode texts.rollbackSQL = [.rollback] := by
  have hfilled := texts_filled htexts
  unfold commitActions rollbackActions
  rw [if_neg hfilled.1, if_neg hfilled.2, hserver.commits dbType texts htexts,
    hserver.rollsBack dbType texts htexts, ite_self, ite_self]
  exact ⟨rfl, rfl⟩

variable {opening : Opening}

/-- What is known of a session on which a transaction was opened. -/
theorem openTransaction_sound (hserver : TransactionServer env.server) {session : Session γ}
    {mode : BoundaryMode} (h : openTransaction env dbType opening = some (session, mode, texts)) :
    Stands (.fresh (begunAtStart mode opening.provider)) [] session ∧
      commitActions env dbType mode texts.commitSQL = [.commit] ∧
      rollbackActions env dbType mode texts.rollbackSQL = [.rollback] := by
  unfold openTransaction at h
  cases hprovider : opening.provider with
  | transaction begins =>
    rw [hprovider] at h
    dsimp only at h
    split_ifs at h with hopens hbegins
    · cases h
      rw [hbegins]
      exact ⟨.start rfl, rfl, rfl⟩
    · cases h
      rw [Bool.not_eq_true] at hbegins
      rw [hbegins]
      exact ⟨.idle rfl, rfl, rfl⟩
  | session =>
    rw [hprovider] at h
    cases himplicit : sqlEditorImplicitTransactionSQL dbType with
    | some implicit =>
      rw [himplicit] at h
      simp only [isSome_some, if_true] at h
      split_ifs at h
      cases h
      exact ⟨.idle rfl, texts_end hserver (.inr himplicit) _⟩
    | none =>
      rw [himplicit] at h
      simp only [isSome_none, Bool.false_eq_true, if_false] at h
      cases hbatch : sqlFileBatchTransactionSQL dbType with
      | none =>
        rw [hbatch] at h
        simp at h
      | some batch =>
        rw [hbatch] at h
        split_ifs at h
        cases h
        refine ⟨?_, texts_end hserver (.inl hbatch) _⟩
        show Stands _ _ ((Session.fresh true).run (env.server dbType batch.beginSQL))
        rw [hserver.begins dbType batch hbatch]
        exact .start rfl
  | neither =>
    rw [hprovider] at h
    cases h

/-! ### Quiet calls -/

/-- The statements that a call may send to the server in a pending transaction, each with the
type of the database. -/
def sentTexts (env : Environment γ F T) (app : App γ) : Call γ F T → List (Text × Text)
  | .start config query bindings opening _ =>
    match prepareManagedTransactionStatements env.runtime config.resolvedType
        (sanitizeSQLForPgLike env.unicode config.resolvedType query) opening.bindingSupported
        bindings with
    | .ok stmts => stmts.map fun stmt => (config.resolvedType, stmt.sent)
    | .error _ => []
  | .followUp id query _ =>
    match app.pending? id with
    | some tx => (followUpStatements env tx query).map fun stmt => (tx.dbType, stmt.sent)
    | none => []
  | .followUpWithParams id sql bindings bindingSupported _ =>
    match app.pending? id with
    | some tx =>
      match parameterizedStatements env tx sql bindingSupported bindings with
      | .ok stmts => stmts.map fun stmt => (tx.dbType, stmt.boundSQL)
      | .error _ => []
    | none => []
  | .finish .. => []
  | .rollbackPending .. => []

/-- The statements of a call start, commit and roll back no transaction. -/
def QuietCall (env : Environment γ F T) (app : App γ) (call : Call γ F T) : Prop :=
  ∀ p ∈ sentTexts env app call, QuietText env p.1 p.2

/-- Every call of a run is quiet where it is made. -/
def QuietRun (env : Environment γ F T) : App γ → List (Call γ F T) → Prop
  | _, [] => True
  | app, call :: calls => QuietCall env app call ∧ QuietRun env (app.step env call) calls

instance (env : Environment γ F T) (dbType text : Text) : Decidable (QuietText env dbType text) :=
  inferInstanceAs (Decidable (∀ a ∈ env.server dbType text, a.quiet = true))

instance (env : Environment γ F T) (app : App γ) (call : Call γ F T) :
    Decidable (QuietCall env app call) :=
  inferInstanceAs (Decidable (∀ p ∈ sentTexts env app call, QuietText env p.1 p.2))

instance decidableQuietRun (env : Environment γ F T) :
    (app : App γ) → (calls : List (Call γ F T)) → Decidable (QuietRun env app calls)
  | _, [] => isTrue trivial
  | app, call :: calls =>
    have := decidableQuietRun env (app.step env call) calls
    inferInstanceAs (Decidable (QuietCall env app call ∧ QuietRun env (app.step env call) calls))

/-- All pending transactions are sound. -/
def AllSound (env : Environment γ F T) (app : App γ) : Prop :=
  ∀ tx ∈ app.transactions, tx.finished = false → Sound env tx

variable {app : App γ}

theorem pending?_eq_some {id : ℕ} :
    app.pending? id = some tx ↔ app.transactions[id]? = some tx ∧ tx.finished = false := by
  unfold App.pending?
  rw [filter_eq_some_iff, Bool.not_eq_true']

theorem AllSound.of_pending (h : AllSound env app) {id : ℕ} (htx : app.pending? id = some tx) :
    Sound env tx := by
  obtain ⟨hid, hfinished⟩ := pending?_eq_some.mp htx
  exact h tx (mem_of_getElem? hid) hfinished

theorem AllSound.put (h : AllSound env app) (id : ℕ) (htx : tx.finished = false → Sound env tx) :
    AllSound env (app.put id tx) := by
  intro other hmem hfinished
  rcases mem_or_eq_of_mem_set hmem with hold | hnew
  · exact h other hold hfinished
  · rw [hnew] at hfinished ⊢
    exact htx hfinished

theorem AllSound.start (hserver : TransactionServer env.server) (h : AllSound env app)
    {config : EditorConfig} {query : Text} {bindings : List (QueryParamBinding F T)}
    (hquiet : QuietCall env app (.start config query bindings opening answers)) :
    AllSound env (dbQueryMultiTransactional env app config query bindings opening answers).1 := by
  unfold dbQueryMultiTransactional
  dsimp only
  split_ifs
  · exact h
  · exact h
  · exact h
  · split
    · exact h
    · next session mode texts hopen =>
      obtain ⟨hstands, hcommit, hrollback⟩ := openTransaction_sound hserver hopen
      split
      · exact h
      · next statements hprepared =>
        have hstmts : ∀ stmt ∈ statements, QuietText env config.resolvedType stmt.sent := by
          intro stmt hstmt
          refine hquiet (config.resolvedType, stmt.sent) ?_
          unfold sentTexts
          dsimp only
          rw [hprepared]
          exact mem_map_of_mem hstmt
        split
        · intro tx hmem hfinished
          rcases mem_append.mp hmem with hold | hnew
          · exact h tx hold hfinished
          · rw [mem_singleton.mp hnew]
            exact ⟨hstands.run rfl (execute_quiet hstmts 0), hcommit, hrollback⟩
        · exact h

/-- One call keeps the pending transactions sound; one case for each entry point. -/
theorem AllSound.step (hserver : TransactionServer env.server) (h : AllSound env app)
    {call : Call γ F T} (hquiet : QuietCall env app call) :
    AllSound env (app.step env call) := by
  cases call with
  | start config query bindings opening answers => exact h.start hserver hquiet
  | followUp id query answers =>
    unfold App.step dbQueryMultiInTransaction
    dsimp only
    split
    · exact h
    · next tx htx =>
      split_ifs
      · exact h
      · have hstmts : ∀ stmt ∈ followUpStatements env tx query,
            QuietText env tx.dbType stmt.sent := by
          intro stmt hstmt
          refine hquiet (tx.dbType, stmt.sent) ?_
          unfold sentTexts
          dsimp only
          rw [htx]
          exact mem_map_of_mem hstmt
        exact h.put id fun _ => (h.of_pending htx).extend (execute_quiet hstmts 0)
  | followUpWithParams id sql bindings bindingSupported answers =>
    unfold App.step dbQueryMultiWithParamsInTransaction
    dsimp only
    split
    · exact h
    · next tx htx =>
      split
      · exact h
      · next stmts hbound =>
        have hstmts : ∀ stmt ∈ stmts, QuietText env tx.dbType stmt.boundSQL := by
          intro stmt hstmt
          refine hquiet (tx.dbType, stmt.boundSQL) ?_
          unfold sentTexts
          dsimp only
          rw [htx]
          dsimp only
          rw [hbound]
          exact mem_map_of_mem hstmt
        exact h.put id fun _ => (h.of_pending htx).extend (executeParameterized_quiet hstmts 0)
  | finish id commit ending closes =>
    unfold App.step finishManagedSQLTransaction
    dsimp only
    split
    · exact h
    · exact h.put id fun hfinished => absurd hfinished Bool.noConfusion
  | rollbackPending fits endings =>
    intro tx hmem hfinished
    obtain ⟨id, hid, heq⟩ := mem_mapIdx.mp hmem
    split_ifs at heq
    · rw [← heq] at hfinished
      exact absurd hfinished Bool.noConfusion
    · rw [← heq] at hfinished ⊢
      exact h _ (getElem_mem hid) hfinished

theorem AllSound.run (hserver : TransactionServer env.server) (h : AllSound env app)
    {calls : List (Call γ F T)} (hquiet : QuietRun env app calls) :
    AllSound env (app.run env calls) := by
  induction calls generalizing app with
  | nil => exact h
  | cons call calls ih => exact ih (h.step hserver hquiet.1) hquiet.2

/-! ### Pending transactions are real -/

/-- No transaction and no session. -/
def App.empty : App γ := ⟨[], []⟩

/-- A pending transaction is real: what the server has open is the transaction of its start (or
nothing yet, if the first change opens it), a rollback that succeeds leaves no change of its
statements, and a commit that succeeds keeps all their changes. -/
def PendingIsReal (env : Environment γ F T) (app : App γ) : Prop :=
  ∀ id tx, app.pending? id = some tx →
    ((tx.session.Open ∧ tx.session.serial = 1) ∨
      (tx.begun = false ∧ changes tx.performed = [] ∧ tx.session = .fresh false)) ∧
    ∀ commit ending closes,
      (finishManagedSQLTransaction env app id commit ending closes).2.success →
      ∃ tx', (finishManagedSQLTransaction env app id commit ending closes).1.transactions[id]? =
          some tx' ∧ ¬tx'.session.Open ∧
        tx'.session.kept.flatten = if commit then changes tx.performed else []

theorem Sound.open (h : Sound env tx) :
    (tx.session.Open ∧ tx.session.serial = 1) ∨
      (tx.begun = false ∧ changes tx.performed = [] ∧ tx.session = .fresh false) := by
  cases h.stands with
  | opened hdepth hserial _ _ =>
    left
    constructor
    · unfold Session.Open
      omega
    · exact hserial
  | unopened hauto hwork hs =>
    have hbegun : tx.begun = false := hauto
    exact .inr ⟨hbegun, hwork, hbegun ▸ hs⟩

theorem Sound.finish (h : Sound env tx) (commit : Bool) :
    ¬(tx.finish env commit .success).session.Open ∧
      (tx.finish env commit .success).session.kept.flatten =
        if commit then changes tx.performed else [] := by
  unfold ManagedSQLTransaction.finish
  cases commit with
  | true =>
    simp only [if_true, h.commits]
    exact h.stands.commit rfl
  | false =>
    simp only [Bool.false_eq_true, if_false, h.rollsBack]
    obtain ⟨hclosed, hkept⟩ := h.stands.rollback
    exact ⟨hclosed, congrArg List.flatten hkept⟩

theorem AllSound.pendingIsReal (h : AllSound env app) :
    PendingIsReal env app := by
  intro id tx htx
  have hsound := h.of_pending htx
  refine ⟨hsound.open, ?_⟩
  intro commit ending closes hsuccess
  unfold finishManagedSQLTransaction at hsuccess ⊢
  rw [htx] at hsuccess ⊢
  cases ending with
  | failure steps => exact absurd hsuccess (by simp)
  | success =>
    refine ⟨tx.finish env commit .success, ?_, hsound.finish commit⟩
    obtain ⟨hid, _⟩ := pending?_eq_some.mp htx
    obtain ⟨hlt, _⟩ := List.getElem?_eq_some_iff.mp hid
    exact List.getElem?_set_self hlt

/-- In a run in which every statement sent to a pending transaction is quiet, all pending
transactions are real. -/
theorem pending_transactions_are_real (env : Environment γ F T)
    (hserver : TransactionServer env.server) (calls : List (Call γ F T))
    (hquiet : QuietRun env .empty calls) : PendingIsReal env (App.run env .empty calls) := by
  have hempty : AllSound env (App.empty : App γ) := forall_mem_nil _
  exact (hempty.run hserver hquiet).pendingIsReal

/-! ### A follow-up that commits -/

/-- A server that goes by the first keyword of a statement. -/
def keywordServer (dbType stmt : Text) : List (Action Text) :=
  let keyword := (nextSQLKeyword stmt).1
  if keyword = bytes "commit" then [.commit]
  else if keyword = bytes "rollback" then [.rollback]
  else if keyword = bytes "begin" ∨ keyword = bytes "start" then [.start]
  else if keyword = bytes "select" then []
  else if keyword ∈ ddlKeywords ∧ normalizeSQLClassifierDBType dbType ∈ [bytes "mysql",
      bytes "mariadb", bytes "oracle"] then [.commit, .change stmt, .commit]
  else [.change stmt]

theorem keywordServer_transactions : TransactionServer keywordServer := by
  constructor
  · intro dbType texts h
    unfold sqlFileBatchTransactionSQL at h
    dsimp only at h
    split_ifs at h <;> cases h <;> rfl
  · intro dbType texts h
    unfold sqlFileBatchTransactionSQL sqlEditorImplicitTransactionSQL at h
    dsimp only at h
    split_ifs at h <;> rcases h with h | h <;> cases h <;> rfl
  · intro dbType texts h
    unfold sqlFileBatchTransactionSQL sqlEditorImplicitTransactionSQL at h
    dsimp only at h
    split_ifs at h <;> rcases h with h | h <;> cases h <;> rfl

/-- An environment with `keywordServer`, in which every type supports transactions. -/
def sampleEnvironment : Environment Text Unit Unit :=
  { unicode := ⟨fun _ => false, fun _ => false, id⟩, gates := noDocuments,
    runtime := ⟨fun _ => [], fun _ => none, fun _ => none, fun _ _ => none, fun _ => []⟩,
    transactionSupported := fun _ => true, attachesSavedConnection := fun _ => false,
    server := keywordServer }

/-- An insert on MySQL that opens a transaction, and a follow-up; both succeed. -/
def insertThen (followUp : Text) : List (Call Text Unit Unit) :=
  let config : EditorConfig :=
    ⟨bytes "mysql", bytes "mysql",
      ⟨bytes "mysql", bytes "mysql", ⟨false, false, false, false⟩, false⟩⟩
  let answers : ℕ → Answer := fun _ => ⟨true, .success, none⟩
  [.start config (bytes "INSERT INTO t VALUES (1)") []
    ⟨true, .session, true, .success, .success, false⟩ answers,
   .followUp 0 followUp answers]

theorem pending_transactions_are_real_update :
    PendingIsReal sampleEnvironment
      (App.run sampleEnvironment .empty (insertThen (bytes "UPDATE t SET a = 2"))) :=
  pending_transactions_are_real sampleEnvironment keywordServer_transactions _ (by decide)

/-- A follow-up `COMMIT` on MySQL: the transaction is still reported as pending, but the server
has none open. -/
theorem pendingIsReal_fails :
    ¬∀ (env : Environment Text Unit Unit), TransactionServer env.server →
      ∀ calls : List (Call Text Unit Unit), PendingIsReal env (App.run env .empty calls) := by
  intro h
  have hreal := h sampleEnvironment keywordServer_transactions (insertThen (bytes "COMMIT"))
  have hpending : ((App.run sampleEnvironment .empty (insertThen (bytes "COMMIT"))).pending? 0).map
      (fun tx => (tx.session.depth, tx.begun)) = some (0, true) := by decide
  obtain ⟨tx, htx, hfields⟩ := map_eq_some_iff.mp hpending
  rw [Prod.mk.injEq] at hfields
  rcases (hreal 0 tx htx).1 with ⟨hopen, _⟩ | ⟨hbegun, _⟩
  · unfold Session.Open at hopen
    omega
  · rw [hfields.2] at hbegun
    cases hbegun

end GoNavi.Editor
