import GoNavi.Editor.Observer
import GoNavi.Editor.Pending
import GoNavi.Machine.Machine
import GoNavi.Machine.Matched

/-! # Audited transactions

The entry points that execute in a managed transaction, with the audit events they append:
`dbQueryMultiTransactionalWithBindings`, `dbQueryMultiInTransaction` and
`DBQueryMultiWithParamsInTransaction`.  The log holds the events about statements; those about
the transaction itself are left out.

In an audited run (`Audited`) every statement that was sent has one event in the log of its
transaction, in order, and no event shows a value that was bound.  The third entry point drops
the events of its executor (`audited_fails`).  **A run is audited if and only if that entry point
executes nothing in it, and no error shows a bound value** (`audited_iff`). -/

namespace GoNavi.Editor

open Scan GoNavi.Sql GoNavi.Sqlparam GoNavi.Sqlfile GoNavi.Sqlaudit List

variable {γ F T : Type}

/-- `"sql-editor-" + uuid`, which has no blanks around it. -/
def TransactionID : Type := { id : Text // trimSpace id = id }

/-- A transaction that is registered. -/
structure AuditedTransaction where
  id : TransactionID
  config : EditorConfig
  dbType : Text
  boundaryMode : BoundaryMode
  session : SessionExecer

structure AuditedApp (F T : Type) where
  /-- `sqlTransactions`, with the latest entry first. -/
  transactions : List AuditedTransaction
  /-- The statements that were sent, for the record. -/
  sent : List (SentStatement F T)
  /-- The events that were handed to the audit log. -/
  events : List Event

def AuditedApp.empty : AuditedApp F T := ⟨[], [], []⟩

/-- What a call leaves: the transactions, and what it adds to the records. -/
structure CallEffect (F T : Type) where
  transactions : List AuditedTransaction
  sent : List (SentStatement F T)
  events : List Event

def AuditedApp.unchanged (app : AuditedApp F T) : CallEffect F T := ⟨app.transactions, [], []⟩

/-! ### The entry points -/

/-- The arguments of a first text, and how it goes. -/
structure TransactionStart (F T : Type) where
  config : EditorConfig
  target : AuditTarget
  query : Text
  queryID : Text
  transactionID : TransactionID
  bindings : List (QueryParamBinding F T)
  opening : Opening
  session : SessionExecer
  replies : ℕ → StatementReply

def statementCount (stmts : List (ManagedStatement F T)) : ℕ :=
  (stmts.filter fun stmt => stmt.text ≠ []).length

def dbQueryMultiTransactionalWithBindings (env : AuditEnvironment γ F T) (app : AuditedApp F T)
    (start : TransactionStart F T) : CallEffect F T :=
  let dbType := start.config.resolvedType
  let query := sanitizeSQLForPgLike env.unicode dbType start.query
  if shouldUseManagedSQLTransaction env.toEnvironment dbType query = false then app.unchanged
  else if (ensureConnectionAllowsQueryWithText env.gates start.config.gate query id).isOk =
      false then app.unchanged
  else if start.opening.reachable = false then app.unchanged
  else
    match openTransaction env.toEnvironment dbType start.opening with
    | none => app.unchanged
    | some (_, mode, _) =>
      match prepareManagedTransactionStatements env.runtime dbType query start.session.args
          start.bindings with
      | .error _ => app.unchanged
      | .ok stmts =>
        let execution := executeManagedSQLTransactionStatementsWithObserver env
          start.transactionID.val start.session dbType dbType start.replies (statementCount stmts)
          (sqlAuditTransactionStatementObserver env.unicode start.target dbType start.queryID
            start.transactionID.val mode) 0 0 stmts
        let transactions :=
          if execution.ok then
            ⟨start.transactionID, start.config, dbType, mode, start.session⟩ :: app.transactions
          else app.transactions
        ⟨transactions, execution.sent, execution.told⟩

/-- The transaction with an id, if it is still registered. -/
def AuditedApp.pending? (app : AuditedApp F T) (transactionID : Text) :
    Option AuditedTransaction :=
  app.transactions.find? fun tx => tx.id.val = trimSpace transactionID

def AuditedTransaction.runConfigType (tx : AuditedTransaction) : Text :=
  if trimSpace tx.config.type = [] then tx.dbType else tx.config.type

def AuditedTransaction.followUpTexts (tx : AuditedTransaction) (unicode : UnicodeTables)
    (query : Text) : List Text :=
  splitSQLStatementsForDialect tx.dbType (sanitizeSQLForPgLike unicode tx.dbType query)

def dbQueryMultiInTransactionAudited (env : AuditEnvironment γ F T) (app : AuditedApp F T)
    (target : AuditTarget) (transactionID query queryID : Text) (replies : ℕ → StatementReply) :
    CallEffect F T :=
  if trimSpace transactionID = [] then app.unchanged
  else
    match app.pending? transactionID with
    | none => app.unchanged
    | some tx =>
      if lowerName tx.runConfigType = bytes "duckdb" ∧ env.attachesSavedConnection query then
        app.unchanged
      else
        let stmts := plainStatements (tx.followUpTexts env.unicode query)
        let execution := executeManagedSQLTransactionStatementsWithObserver env tx.id.val
          tx.session tx.runConfigType tx.dbType replies (statementCount stmts)
          (sqlAuditTransactionStatementObserver env.unicode target tx.dbType queryID
            (trimSpace transactionID) tx.boundaryMode) 0 0 stmts
        ⟨app.transactions, execution.sent, execution.told⟩

/-- The bound statements of a follow-up text with parameters. -/
def AuditedTransaction.parameterizedStatements (tx : AuditedTransaction)
    (env : AuditEnvironment γ F T) (sql : Text) (bindings : List (QueryParamBinding F T)) :
    Except ParameterError (List (ManagedStatement F T)) :=
  if tx.session.args = false then .error .bindingUnsupported
  else
    match bindingsToTypedValues bindings fun _ => none with
    | .error e => .error e
    | .ok values =>
      bindParameterizedStatements env.runtime (tx.followUpTexts env.unicode sql) tx.dbType values

/-- The events of the executor are dropped: the list that is appended is the caller's own, which
stays empty.  There is no row budget here. -/
def dbQueryMultiWithParamsInTransactionAudited (env : AuditEnvironment γ F T)
    (app : AuditedApp F T) (target : AuditTarget) (transactionID sql queryID : Text)
    (bindings : List (QueryParamBinding F T)) (replies : ℕ → StatementReply) : CallEffect F T :=
  if trimSpace transactionID = [] then app.unchanged
  else
    match app.pending? transactionID with
    | none => app.unchanged
    | some tx =>
      match tx.parameterizedStatements env sql bindings with
      | .error _ => app.unchanged
      | .ok stmts =>
        let execution := executeParameterizedStatementsAudited env tx.id.val tx.session
          tx.runConfigType (fun n => { replies n with budgetLeft := true })
          (fun stmt index reply outcome => buildParameterizedStatementAuditEvent env.unicode target
            tx.dbType queryID (normalizeSQLAuditSource (bytes "query_editor")) stmt index
            stmts.length reply outcome) 0 stmts
        let statementAuditEvents : List Event := []
        ⟨app.transactions, execution.sent, statementAuditEvents⟩

inductive AuditedCall (F T : Type) where
  | start (input : TransactionStart F T)
  | followUp (target : AuditTarget) (transactionID query queryID : Text)
      (replies : ℕ → StatementReply)
  | followUpWithParams (target : AuditTarget) (transactionID sql queryID : Text)
      (bindings : List (QueryParamBinding F T)) (replies : ℕ → StatementReply)
  /-- A commit or a rollback: the transaction is no longer registered. -/
  | finish (transactionID : Text)
  /-- The rollback of all transactions that fit. -/
  | rollbackPending (fits : AuditedTransaction → Bool)

def AuditedCall.effect (env : AuditEnvironment γ F T) (app : AuditedApp F T) :
    AuditedCall F T → CallEffect F T
  | .start input => dbQueryMultiTransactionalWithBindings env app input
  | .followUp target transactionID query queryID replies =>
    dbQueryMultiInTransactionAudited env app target transactionID query queryID replies
  | .followUpWithParams target transactionID sql queryID bindings replies =>
    dbQueryMultiWithParamsInTransactionAudited env app target transactionID sql queryID bindings
      replies
  | .finish transactionID =>
    ⟨app.transactions.filter fun tx => tx.id.val ≠ trimSpace transactionID, [], []⟩
  | .rollbackPending fits => ⟨app.transactions.filter fun tx => !fits tx, [], []⟩

def AuditedApp.step (env : AuditEnvironment γ F T) (app : AuditedApp F T)
    (call : AuditedCall F T) : AuditedApp F T :=
  let effect := call.effect env app
  ⟨effect.transactions, app.sent ++ effect.sent, app.events ++ effect.events⟩

/-! ### Audited runs -/

/-- The event is that of the statement, and its error shows no value bound to it. -/
structure Records (shows : Text → Value F T → Bool) (event : Event) (sent : SentStatement F T) :
    Prop where
  type : event.eventType = statementEventType
  transaction : event.transactionID = sent.transactionID
  text : event.sqlText = sent.statement.text
  index : event.statementIndex = sent.index
  status : event.status = sqlAuditStatusFromError false sent.err
  error : event.error = sent.err.getD []
  hides : ∀ v ∈ sent.statement.args, event.error ≠ [] → shows event.error v = false

/-- The statements that reached their session. -/
def AuditedApp.reached (app : AuditedApp F T) : List (SentStatement F T) :=
  app.sent.filter fun sent => !sent.calls.isEmpty

/-- In every transaction, each statement that was sent has its event, in order, and there are no
other events. -/
def Audited (shows : Text → Value F T → Bool) (app : AuditedApp F T) : Prop :=
  Ledger.Matched (Records shows) (·.transactionID) (·.transactionID) app.events app.reached

/-- The call executes a text with parameters in a pending transaction. -/
def AuditedCall.ExecutesParameterized (env : AuditEnvironment γ F T) (app : AuditedApp F T) :
    AuditedCall F T → Prop
  | .followUpWithParams _ transactionID sql _ bindings _ => trimSpace transactionID ≠ [] ∧
      ∃ tx ∈ app.pending? transactionID, (tx.parameterizedStatements env sql bindings).isOk = true
  | _ => False

/-- The error of a statement, if there is one, shows no value bound to it. -/
def SentStatement.Hides (shows : Text → Value F T → Bool) (sent : SentStatement F T) : Prop :=
  ∀ v ∈ sent.statement.args, sent.err.getD [] ≠ [] → shows (sent.err.getD []) v = false

/-- The call executes no text with parameters in a pending transaction, and no error that it
meets shows a bound value. -/
def AuditedCall.Discreet (env : AuditEnvironment γ F T) (shows : Text → Value F T → Bool)
    (app : AuditedApp F T) (call : AuditedCall F T) : Prop :=
  ¬call.ExecutesParameterized env app ∧ ∀ sent ∈ (call.effect env app).sent, sent.Hides shows

/-! ### One call -/

theorem normalizeSQLAuditStatus_fromError (timedOut : Bool) (err : Option Text) :
    normalizeSQLAuditStatus (sqlAuditStatusFromError timedOut err) =
      sqlAuditStatusFromError timedOut err := by
  unfold sqlAuditStatusFromError
  split
  · decide
  · split_ifs <;> decide

variable {shows : Text → Value F T → Bool} {dbType : Text}
variable {mode : BoundaryMode} {target : AuditTarget}

/-- What the observer makes of an observation records the statement, but for the values that its
error may show. -/
theorem Tells.records {unicode : UnicodeTables} {queryID id : Text} (hid : trimSpace id = id)
    {observation : ManagedSQLStatementObservation} {sent : SentStatement F T}
    (hsent : sent.transactionID = id) (htells : Tells observation sent) :
    Records shows (sqlAuditTransactionStatementObserver unicode target dbType queryID id mode
      observation) sent ↔ sent.Hides shows := by
  have herror : (sqlAuditTransactionStatementObserver unicode target dbType queryID id mode
      observation).error = sent.err.getD [] := by
    show observation.err.getD [] = _
    rw [htells.err]
  constructor
  · intro h v hv hne
    rw [← herror] at hne ⊢
    exact h.hides v hv hne
  · intro h
    refine ⟨?_, ?_, htells.statement, ?_, ?_, herror, ?_⟩
    · show trimSpace statementEventType = statementEventType
      decide
    · show trimSpace id = sent.transactionID
      rw [hid, hsent]
    · show (observation.statementIndex : ℤ) = sent.index
      rw [htells.index]
    · show normalizeSQLAuditStatus (sqlAuditStatusFromError false observation.err) = _
      rw [htells.err]
      exact normalizeSQLAuditStatus_fromError false sent.err
    · rw [herror]
      exact h

/-- What a call adds: statements of one transaction that were sent, and an event for each, or no
event at all if it executes a text with parameters. -/
structure Adds (shows : Text → Value F T → Bool) (effect : CallEffect F T) (drops : Prop) :
    Prop where
  one : ∃ id, (∀ sent ∈ effect.sent, sent.transactionID = id ∧ sent.calls ≠ []) ∧
    ∀ event ∈ effect.events, event.transactionID = id
  told : ¬drops → List.Forall₂ (fun event sent => Records shows event sent ↔ sent.Hides shows)
    effect.events effect.sent
  dropped : drops → effect.events = [] ∧ effect.sent ≠ []

theorem Adds.nothing {drops : Prop} (h : ¬drops) (transactions : List AuditedTransaction) :
    Adds shows ⟨transactions, [], []⟩ drops where
  one := ⟨[], forall_mem_nil _,
    forall_mem_nil _⟩
  told := fun _ => .nil
  dropped := fun hdrops => absurd hdrops h

variable {env : AuditEnvironment γ F T} {stmts : List (ManagedStatement F T)}
variable {session : SessionExecer}

/-- Execution under the observer adds an event for each statement. -/
theorem withObserver_adds {type : Text} {replies : ℕ → StatementReply} {count : ℕ}
    {queryID id : Text} (hid : trimSpace id = id) (hsuits : session.Suits stmts)
    (shows : Text → Value F T → Bool) {drops : Prop} (h : ¬drops)
    (transactions : List AuditedTransaction) :
    let execution := executeManagedSQLTransactionStatementsWithObserver env id session type dbType
      replies count (sqlAuditTransactionStatementObserver env.unicode target dbType queryID id mode)
      0 0 stmts
    Adds shows ⟨transactions, execution.sent, execution.told⟩ drops := by
  intro execution
  have htold : List.Forall₂ (fun event sent => event.transactionID = id ∧
      (Records shows event sent ↔ sent.Hides shows)) execution.told execution.sent :=
    withObserver_told (fun observation sent hsent htells =>
      ⟨hid, htells.records hid hsent⟩) 0 0
  refine ⟨⟨id, withObserver_sent hsuits 0 0, ?_⟩, fun _ => htold.imp fun _ _ h => h.2,
    fun hdrops => absurd hdrops h⟩
  exact ((forall₂_and_left _ _).mp htold).1

theorem suits_plain (session : SessionExecer) (texts : List Text) :
    session.Suits (plainStatements texts : List (ManagedStatement F T)) := by
  right
  intro stmt hstmt
  obtain ⟨text, _, rfl⟩ := mem_map.mp hstmt
  rfl

variable {bindings : List (QueryParamBinding F T)}

/-- Prepared statements have arguments only on a session that takes them. -/
theorem suits_prepared {rt : Runtime F T} {query : Text}
    (h : prepareManagedTransactionStatements rt dbType query session.args bindings = .ok stmts) :
    session.Suits stmts := by
  unfold prepareManagedTransactionStatements at h
  split_ifs at h with hbindings hargs
  · cases h
    exact suits_plain session _
  · left
    simpa using hargs

theorem start_adds (env : AuditEnvironment γ F T) (shows : Text → Value F T → Bool)
    (app : AuditedApp F T) (input : TransactionStart F T) :
    Adds shows (dbQueryMultiTransactionalWithBindings env app input) False := by
  unfold dbQueryMultiTransactionalWithBindings
  dsimp only
  split_ifs
  · exact .nothing id _
  · exact .nothing id _
  · exact .nothing id _
  · split
    · exact .nothing id _
    · split
      · exact .nothing id _
      · rename_i hprepared
        exact withObserver_adds input.transactionID.property (suits_prepared hprepared) shows id _

theorem followUp_adds (env : AuditEnvironment γ F T) (shows : Text → Value F T → Bool)
    (app : AuditedApp F T) (target : AuditTarget) (transactionID query queryID : Text)
    (replies : ℕ → StatementReply) :
    Adds shows (dbQueryMultiInTransactionAudited env app target transactionID query queryID replies)
      False := by
  unfold dbQueryMultiInTransactionAudited
  split
  · exact .nothing id _
  · split
    · exact .nothing id _
    · rename_i tx htx
      split
      · exact .nothing id _
      · have hid : tx.id.val = trimSpace transactionID := by
          simpa using find?_some htx
        rw [← hid]
        exact withObserver_adds tx.id.property (suits_plain _ _) shows id _

theorem bindParameterizedStatements_ne_nil {rt : Runtime F T} {texts : List Text}
    {values : Values F T} (h : bindParameterizedStatements rt texts dbType values = .ok stmts) :
    stmts ≠ [] := by
  unfold bindParameterizedStatements at h
  rintro rfl
  split at h
  · cases h
  · cases h
  · rename_i hne _
    exact hne (Except.ok.inj h)

/-- Statements that are bound go to a session that takes arguments, and there is one. -/
theorem parameterizedStatements_ok {tx : AuditedTransaction} {sql : Text}
    (h : tx.parameterizedStatements env sql bindings = .ok stmts) :
    tx.session.args = true ∧ stmts ≠ [] := by
  unfold AuditedTransaction.parameterizedStatements at h
  split at h
  · cases h
  · rename_i hargs
    split at h
    · cases h
    · exact ⟨by simpa using hargs, bindParameterizedStatements_ne_nil h⟩

theorem followUpWithParams_adds (env : AuditEnvironment γ F T) (shows : Text → Value F T → Bool)
    (app : AuditedApp F T) (target : AuditTarget) (transactionID sql queryID : Text)
    (bindings : List (QueryParamBinding F T)) (replies : ℕ → StatementReply) :
    Adds shows (dbQueryMultiWithParamsInTransactionAudited env app target transactionID sql queryID
      bindings replies) (trimSpace transactionID ≠ [] ∧ ∃ tx ∈ app.pending? transactionID,
        (tx.parameterizedStatements env sql bindings).isOk = true) := by
  unfold dbQueryMultiWithParamsInTransactionAudited
  split
  · rename_i hblank
    exact .nothing (fun h => h.1 hblank) _
  · rename_i hid
    cases htx : app.pending? transactionID with
    | none => exact .nothing (fun ⟨_, tx, hmem, _⟩ => by cases hmem) _
    | some tx =>
      dsimp only
      cases hstmts : tx.parameterizedStatements env sql bindings with
      | error e =>
        refine .nothing ?_ _
        rintro ⟨_, tx', hmem, hok⟩
        obtain rfl : tx = tx' := Option.some.inj hmem
        rw [hstmts] at hok
        cases hok
      | ok stmts =>
        obtain ⟨hargs, hne⟩ := parameterizedStatements_ok hstmts
        refine ⟨⟨tx.id.val, parameterized_sent hargs 0, forall_mem_nil _⟩,
          ?_, fun _ => ⟨rfl, parameterized_sent_ne_nil hne rfl⟩⟩
        intro hnot
        exact absurd ⟨hid, tx, rfl, by rw [hstmts]; rfl⟩ hnot

theorem AuditedCall.adds (env : AuditEnvironment γ F T) (shows : Text → Value F T → Bool)
    (app : AuditedApp F T) (call : AuditedCall F T) :
    Adds shows (call.effect env app) (call.ExecutesParameterized env app) := by
  cases call with
  | start input => exact start_adds env shows app input
  | followUp target transactionID query queryID replies =>
    exact followUp_adds env shows app target transactionID query queryID replies
  | followUpWithParams target transactionID sql queryID bindings replies =>
    exact followUpWithParams_adds env shows app target transactionID sql queryID bindings replies
  | finish transactionID => exact .nothing id _
  | rollbackPending fits => exact .nothing id _

/-! ### Runs -/

/-- In no transaction the log has more events than statements were sent. -/
def AuditedApp.Short (app : AuditedApp F T) : Prop :=
  Ledger.Short (·.transactionID) (·.transactionID) app.events app.reached

theorem AuditedApp.step_reached (env : AuditEnvironment γ F T) (app : AuditedApp F T)
    (call : AuditedCall F T) :
    (app.step env call).reached = app.reached ++ (call.effect env app).sent := by
  obtain ⟨id, hsent, _⟩ := (call.adds env (fun _ _ => false) app).one
  unfold AuditedApp.reached AuditedApp.step
  rw [filter_append]
  congr 1
  rw [filter_eq_self]
  intro sent hmem
  simpa using (hsent sent hmem).2

/-- What a call adds is short, and it matches if and only if the call is discreet. -/
theorem AuditedCall.effect_matched (env : AuditEnvironment γ F T)
    (shows : Text → Value F T → Bool) (app : AuditedApp F T) (call : AuditedCall F T) :
    Ledger.Short (·.transactionID) (·.transactionID) (call.effect env app).events
        (call.effect env app).sent ∧
      (Ledger.Matched (Records shows) (·.transactionID) (·.transactionID)
        (call.effect env app).events (call.effect env app).sent ↔ call.Discreet env shows app) := by
  have hadds := call.adds env shows app
  obtain ⟨id, hsent, hevents⟩ := hadds.one
  have hids : ∀ sent ∈ (call.effect env app).sent, sent.transactionID = id :=
    fun sent hmem => (hsent sent hmem).1
  rw [Ledger.matched_iff_of_one hevents hids]
  unfold AuditedCall.Discreet
  by_cases hdrops : call.ExecutesParameterized env app
  · obtain ⟨hempty, hne⟩ := hadds.dropped hdrops
    rw [hempty]
    refine ⟨Ledger.short_nil _, ?_⟩
    constructor
    · intro h
      exact absurd (forall₂_nil_left_iff.mp h) hne
    · intro h
      exact absurd hdrops h.1
  · have htold := hadds.told hdrops
    refine ⟨Ledger.short_of_one hevents hids (Nat.le_of_eq htold.length_eq), ?_⟩
    rw [Ledger.forall₂_iff_forall htold]
    exact ⟨fun h => ⟨hdrops, h⟩, fun h => h.2⟩

variable {app : AuditedApp F T}

theorem AuditedApp.Short.step (h : app.Short) (call : AuditedCall F T) :
    (app.step env call).Short := by
  unfold AuditedApp.Short
  rw [app.step_reached env call]
  exact Ledger.Short.append h (call.effect_matched env (fun _ _ => false) app).1

/-- A call keeps the log audited if and only if it is discreet. -/
theorem audited_step (h : app.Short) (call : AuditedCall F T) :
    Audited shows (app.step env call) ↔ Audited shows app ∧ call.Discreet env shows app := by
  obtain ⟨hshort, hmatched⟩ := call.effect_matched env shows app
  unfold Audited
  rw [app.step_reached env call, ← hmatched]
  exact Ledger.matched_append_iff h hshort

/-- The run lemma: induction on the calls. -/
theorem audited_run (h : app.Short) (calls : List (AuditedCall F T)) :
    Audited shows (Machine.run (AuditedApp.step env) app calls) ↔ Audited shows app ∧
      Machine.Along (AuditedApp.step env) (fun app call => call.Discreet env shows app) app
        calls := by
  induction calls generalizing app with
  | nil => simp
  | cons call calls ih =>
    rw [Machine.run_cons, ih (h.step call), audited_step h call, Machine.Along, and_assoc]

/-- **A run is audited exactly if** no text with parameters is executed in a pending transaction,
and no error shows a bound value. -/
theorem audited_iff (env : AuditEnvironment γ F T) (shows : Text → Value F T → Bool)
    (calls : List (AuditedCall F T)) :
    Audited shows (Machine.run (AuditedApp.step env) .empty calls) ↔
      Machine.Along (AuditedApp.step env) (fun app call => call.Discreet env shows app) .empty
        calls := by
  have hempty : (AuditedApp.empty : AuditedApp F T).Short := Ledger.short_nil _
  rw [audited_run hempty calls]
  exact and_iff_right Ledger.matched_nil

/-! ### A follow-up whose events are lost -/

def sampleAuditEnvironment : AuditEnvironment Text Unit Unit :=
  { toEnvironment := sampleEnvironment
    multiStatementExecutionFailed := fun _ detail => detail
    parameterBindingSessionUnsupported := [] }

/-- An insert on MySQL, and an update with a parameter in its transaction; both succeed. -/
def parameterizedUpdate : List (AuditedCall Unit Unit) :=
  let config : EditorConfig :=
    ⟨bytes "mysql", bytes "mysql",
      ⟨bytes "mysql", bytes "mysql", ⟨false, false, false, false⟩, false⟩⟩
  let done : Reply := ⟨none, false, false, 0, 1, 0, false⟩
  let target : AuditTarget := ⟨[], [], []⟩
  [.start
      { config, target
        query := bytes "INSERT INTO t VALUES (1)"
        queryID := bytes "q1"
        transactionID := ⟨bytes "sql-editor-1", by decide⟩
        bindings := []
        opening := ⟨true, .session, true, .success, .success, true⟩
        session := ⟨false, true, false, true⟩
        replies := fun _ => ⟨true, done, done, 0, 0⟩ },
    .followUpWithParams target (bytes "sql-editor-1") (bytes "UPDATE t SET a = :a") (bytes "q2")
      [⟨bytes "a", bytes "string", .string (bytes "x")⟩] fun _ => ⟨true, done, done, 0, 0⟩]

/-- The update is sent, and the log has no event for it. -/
theorem audited_fails :
    ¬∀ (env : AuditEnvironment Text Unit Unit) (shows : Text → Value Unit Unit → Bool)
      (calls : List (AuditedCall Unit Unit)),
      Audited shows (Machine.run (AuditedApp.step env) .empty calls) := by
  intro h
  have hlength := (h sampleAuditEnvironment (fun _ _ => false) parameterizedUpdate
    (bytes "sql-editor-1")).length_eq
  revert hlength
  decide

end GoNavi.Editor
