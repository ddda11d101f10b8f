import GoNavi.Editor.Managed
import GoNavi.Sqlaudit.Event
import GoNavi.Sqlfile.Batchable

/-! # Execution under audit

The two executors of a managed transaction, with the calls they make on the session and the
events they build: `executeManagedSQLTransactionStatementsWithObserver` tells an observer of each
statement, and `executeParameterizedStatements` builds the events itself
(`methods_db_transaction.go`, `methods_db_params.go`, `methods_sql_audit.go`).

An executor also returns what it sent (`SentStatement`), for the record.  **The observer is told
once of each statement that is sent, in order** (`observed_eq`), and both executors carry out
what the model without audit says (`withObserver_carriesOut`, `parameterized_carriesOut`). -/

namespace GoNavi.Editor

open Scan GoNavi.Sql GoNavi.Sqlparam GoNavi.Sqlfile GoNavi.Sqlaudit Sessions List

variable {γ F T : Type}

/-- The environment, with the texts of the catalog. -/
structure AuditEnvironment (γ F T : Type) extends Environment γ F T where
  /-- `db.backend.error.multi_statement_execution_failed`. -/
  multiStatementExecutionFailed : ℕ → Text → Text
  /-- `errParameterBindingSessionUnsupported`. -/
  parameterBindingSessionUnsupported : Text

/-! ### Sessions -/

/-- The optional interfaces of a session.  A session that takes arguments takes them for queries
and for other statements. -/
structure SessionExecer where
  queryMessages : Bool
  multiQuery : Bool
  multiQueryMessages : Bool
  args : Bool
deriving DecidableEq

inductive SessionCall (F T : Type) where
  | execContext (sql : Text)
  | queryContext (sql : Text)
  | queryContextWithMessages (sql : Text)
  | queryMultiContext (sql : Text)
  | queryMultiContextWithMessages (sql : Text)
  | queryContextWithArgs (sql : Text) (args : List (Value F T))
  | execContextWithArgs (sql : Text) (args : List (Value F T))

/-- The text that a call sends. -/
def SessionCall.sql : SessionCall F T → Text
  | .execContext sql | .queryContext sql | .queryContextWithMessages sql
  | .queryMultiContext sql | .queryMultiContextWithMessages sql
  | .queryContextWithArgs sql _ | .execContextWithArgs sql _ => sql

/-- How a session answers a call. -/
structure Reply where
  error : Option Text
  /-- `errors.Is(err, os.ErrDeadlineExceeded)`. -/
  timedOut : Bool
  /-- `writeExecutionOutcomeUnknown`. -/
  outcomeUnknown : Bool
  /-- How many actions of the statement were carried out in front of the error. -/
  steps : ℕ
  rowsAffected : ℤ
  rowsReturned : ℤ
  /-- What a read brought is nothing to show (`shouldFallbackToPlainQueryAfterMultiResult`). -/
  blank : Bool

def Reply.ending (reply : Reply) : Ending :=
  match reply.error with
  | some _ => .failure reply.steps
  | none => .success

/-- How a session answers for one statement. -/
structure StatementReply where
  /-- The row budget is not used up in front of the statement. -/
  budgetLeft : Bool
  first : Reply
  /-- The answer to the plain query behind a blank one. -/
  again : Reply
  completedAt : ℤ
  durationMs : ℤ

/-! ### One statement -/

def shouldPreferPlainReadQueryResult (dbType : Text) : Bool :=
  normalizedName dbType ∈ [bytes "sqlite", bytes "postgres", bytes "postgresql", bytes "oracle",
    bytes "kingbase", bytes "kingbase8", bytes "kingbasees", bytes "kingbasev8", bytes "highgo",
    bytes "vastbase", bytes "opengauss", bytes "open_gauss", bytes "open-gauss", bytes "gaussdb",
    bytes "gauss_db", bytes "gauss-db", bytes "dameng", bytes "dm", bytes "dm8",
    bytes "tdengine"]

/-- The values bound to a statement. -/
def ManagedStatement.args (stmt : ManagedStatement F T) : List (Value F T) :=
  (stmt.bound.map (·.args)).getD []

def SessionExecer.plainQuery (session : SessionExecer) (sql : Text) : SessionCall F T :=
  if session.queryMessages then .queryContextWithMessages sql else .queryContext sql

/-- The call for a query without arguments, and whether it is for several results. -/
def SessionExecer.query (session : SessionExecer) (plain : Bool) (sql : Text) :
    SessionCall F T × Bool :=
  if plain then (session.plainQuery sql, false)
  else if session.multiQueryMessages then (.queryMultiContextWithMessages sql, true)
  else if session.multiQuery then (.queryMultiContext sql, true)
  else (session.plainQuery sql, false)

/-- The first call for a statement, and whether it is for several results; `none` if the session
has no call for it. -/
def SessionExecer.firstCall (session : SessionExecer) (env : AuditEnvironment γ F T)
    (type dbType : Text) (stmt : ManagedStatement F T) : Option (SessionCall F T × Bool) :=
  let isReadStmt := isReadOnlySQLQuery env.gates type stmt.text
  let tryQueryStmtFirst := shouldTryQueryResultFirst env.unicode type stmt.text
  if isReadStmt || tryQueryStmtFirst then
    if stmt.hasArgs then
      if session.args then some (.queryContextWithArgs stmt.boundSQL stmt.args, false) else none
    else some (session.query (isReadStmt && shouldPreferPlainReadQueryResult dbType) stmt.text)
  else if stmt.hasArgs then
    if session.args then some (.execContextWithArgs stmt.boundSQL stmt.args, false) else none
  else some (.execContext stmt.text, false)

/-- The reply where the session has no call for a statement. -/
def bindingUnsupported (env : AuditEnvironment γ F T) : Reply :=
  ⟨some env.parameterBindingSessionUnsupported, false, false, 0, 0, 0, false⟩

/-- The calls for a statement, and the reply that counts. -/
def SessionExecer.execute (session : SessionExecer) (env : AuditEnvironment γ F T)
    (type dbType : Text) (stmt : ManagedStatement F T) (reply : StatementReply) :
    List (SessionCall F T) × Reply :=
  match session.firstCall env type dbType stmt with
  | none => ([], bindingUnsupported env)
  | some (call, usedMultiResult) =>
    if reply.first.error = none ∧ usedMultiResult ∧
        isReadOnlySQLQuery env.gates type stmt.text ∧ reply.first.blank then
      ([call, session.plainQuery stmt.text], reply.again)
    else ([call], reply.first)

/-- The same for a statement that goes with its arguments, if there are any or not. -/
def SessionExecer.executeBound (session : SessionExecer) (env : AuditEnvironment γ F T)
    (type : Text) (stmt : ManagedStatement F T) (reply : StatementReply) :
    List (SessionCall F T) × Reply :=
  let isReadStmt := isReadOnlySQLQuery env.gates type stmt.text
  let tryQueryStmtFirst := shouldTryQueryResultFirst env.unicode type stmt.text
  if session.args = false then ([], bindingUnsupported env)
  else if isReadStmt || tryQueryStmtFirst then
    ([.queryContextWithArgs stmt.boundSQL stmt.args], reply.first)
  else ([.execContextWithArgs stmt.boundSQL stmt.args], reply.first)

/-! ### Events -/

/-- How the events of a call name its connection. -/
structure AuditTarget where
  connectionID : Text
  connectionFingerprint : Text
  database : Text

structure SQLAuditTransactionEventInput where
  target : AuditTarget
  dbType : Text
  queryID : Text
  transactionID : Text
  eventType : Text
  status : Text
  source : Text
  commitMode : Text
  boundaryMode : Text
  sql : Text
  statementIndex : ℤ
  statementCount : ℤ
  executedCount : ℤ
  failedIndex : ℤ
  outcomeUnknown : Bool
  durationMs : ℤ
  rowsAffected : ℤ
  rowsReturned : ℤ
  err : Option Text

def sqlAuditStatusFromError (timedOut : Bool) : Option Text → Text
  | none => bytes "success"
  | some message =>
    if timedOut then bytes "cancelled"
    else if contains (bytes "context canceled") (lowerName message) ||
        contains (bytes "context cancelled") (lowerName message) then bytes "cancelled"
    else bytes "error"

def normalizeSQLAuditStatus (status : Text) : Text :=
  let status := normalizedName status
  if status ∈ [bytes "success", bytes "cancelled"] then status else bytes "error"

def normalizeSQLAuditSource (source : Text) : Text :=
  let source := normalizedName source
  if source = [] then bytes "query_editor" else source

def normalizeSQLAuditCommitMode (mode : Text) : Text :=
  let mode := normalizedName mode
  if mode ∈ [bytes "auto", bytes "manual", bytes "pending"] then mode else []

def normalizeSQLAuditBoundaryMode (mode : Text) : Text :=
  let mode := normalizedName mode
  if mode ∈ [bytes "driver_api", bytes "text_sql", bytes "implicit"] then mode
  else bytes "unknown"

/-- `buildSQLAuditTransactionEvent`, with the time stamp its callers put in. -/
def buildSQLAuditTransactionEvent (unicode : UnicodeTables) (timestamp : ℤ)
    (input : SQLAuditTransactionEventInput) : Event :=
  { id := [], sequence := 0, timestamp
    eventType := trimSpace input.eventType
    status := normalizeSQLAuditStatus input.status
    connectionID := trimSpace input.target.connectionID
    connectionFingerprint := input.target.connectionFingerprint
    dbType := lower unicode (trimSpace input.dbType)
    database := input.target.database
    queryID := trimSpace input.queryID
    transactionID := trimSpace input.transactionID
    source := normalizeSQLAuditSource input.source
    boundaryMode := normalizeSQLAuditBoundaryMode input.boundaryMode
    commitMode := normalizeSQLAuditCommitMode input.commitMode
    sqlText := input.sql, sqlRedacted := false, sqlFingerprint := []
    statementIndex := input.statementIndex
    statementCount := input.statementCount
    executedCount := input.executedCount
    failedIndex := input.failedIndex
    outcomeUnknown := input.outcomeUnknown
    durationMs := input.durationMs
    rowsAffected := input.rowsAffected
    rowsReturned := input.rowsReturned
    error := input.err.getD []
    prevHash := [], hash := [] }

structure ManagedSQLStatementObservation where
  statement : Text
  statementIndex : ℕ
  statementCount : ℕ
  completedAt : ℤ
  durationMs : ℤ
  rowsAffected : ℤ
  rowsReturned : ℤ
  err : Option Text

def BoundaryMode.text : BoundaryMode → Text
  | .driverAPI => bytes "driver_api"
  | .implicit => bytes "implicit"
  | .textSQL => bytes "text_sql"

def statementEventType : Text := bytes "transaction_statement"

/-- `sqlAuditTransactionStatementObserver`, with `withManagedSQLStatementAuditTimestamp`. -/
def sqlAuditTransactionStatementObserver (unicode : UnicodeTables) (target : AuditTarget)
    (dbType queryID transactionID : Text) (mode : BoundaryMode)
    (observation : ManagedSQLStatementObservation) : Event :=
  buildSQLAuditTransactionEvent unicode observation.completedAt
    { target, dbType, queryID, transactionID
      eventType := statementEventType
      status := sqlAuditStatusFromError false observation.err
      source := bytes "query_editor", commitMode := bytes "pending", boundaryMode := mode.text
      sql := observation.statement
      statementIndex := observation.statementIndex
      statementCount := observation.statementCount
      executedCount := 0, failedIndex := 0, outcomeUnknown := false
      durationMs := observation.durationMs
      rowsAffected := observation.rowsAffected
      rowsReturned := observation.rowsReturned
      err := observation.err }

/-- `sqlAuditTextTransactionMetadata(statement, false)`: the boundary and the commit mode. -/
def sqlAuditTextTransactionMetadata (statement : Text) : Text × Text :=
  let keyword := (nextSQLKeyword statement).1
  if isSQLTransactionControlStatement statement = false then (bytes "implicit", bytes "auto")
  else if keyword ∈ [bytes "commit", bytes "rollback"] then (bytes "text_sql", bytes "manual")
  else (bytes "text_sql", bytes "pending")

/-- `buildParameterizedStatementAuditEvent`; it does not pass the transaction on. -/
def buildParameterizedStatementAuditEvent (unicode : UnicodeTables) (target : AuditTarget)
    (resolvedDBType queryID auditSource : Text) (stmt : ManagedStatement F T)
    (statementIndex statementCount : ℕ) (reply : StatementReply) (outcome : Reply) : Event :=
  let (boundaryMode, commitMode) := sqlAuditTextTransactionMetadata stmt.text
  buildSQLAuditTransactionEvent unicode reply.completedAt
    { target, dbType := resolvedDBType, queryID, transactionID := []
      eventType := bytes "query_statement"
      status := sqlAuditStatusFromError outcome.timedOut outcome.error
      source := auditSource, commitMode, boundaryMode
      sql := stmt.text, statementIndex, statementCount
      executedCount := if outcome.error = none then 1 else 0
      failedIndex := if outcome.error = none then 0 else statementIndex
      outcomeUnknown := outcome.outcomeUnknown
      durationMs := reply.durationMs, rowsAffected := 0, rowsReturned := 0
      err := outcome.error }

/-! ### The executors -/

/-- A statement that was taken up, with the calls that were made for it. -/
structure SentStatement (F T : Type) where
  transactionID : Text
  statement : ManagedStatement F T
  /-- Its position in its text, from `1`. -/
  index : ℕ
  calls : List (SessionCall F T)
  reply : StatementReply
  err : Option Text

/-- What an executor leaves. -/
structure Execution (F T E : Type) where
  sent : List (SentStatement F T)
  told : List E
  ok : Bool

def executeManagedSQLTransactionStatementsWithObserver {E : Type} (env : AuditEnvironment γ F T)
    (transactionID : Text) (session : SessionExecer) (type dbType : Text)
    (replies : ℕ → StatementReply) (statementCount : ℕ)
    (observer : ManagedSQLStatementObservation → E) :
    ℕ → ℕ → List (ManagedStatement F T) → Execution F T E
  | _, _, [] => ⟨[], [], true⟩
  | n, statementIndex, stmt :: rest =>
    let reply := replies n
    let rest := fun statementIndex =>
      executeManagedSQLTransactionStatementsWithObserver env transactionID session type dbType
        replies statementCount observer (n + 1) statementIndex rest
    if reply.budgetLeft = false then ⟨[], [], true⟩
    else if stmt.text = [] then rest statementIndex
    else
      let statementIndex := statementIndex + 1
      let (calls, outcome) := session.execute env type dbType stmt reply
      match outcome.error with
      | some detail =>
        let err := env.multiStatementExecutionFailed statementIndex detail
        ⟨[⟨transactionID, stmt, statementIndex, calls, reply, some err⟩],
          [observer ⟨stmt.text, statementIndex, statementCount, reply.completedAt,
            reply.durationMs, 0, 0, some err⟩], false⟩
      | none =>
        let later := rest statementIndex
        ⟨⟨transactionID, stmt, statementIndex, calls, reply, none⟩ :: later.sent,
          observer ⟨stmt.text, statementIndex, statementCount, reply.completedAt,
            reply.durationMs, outcome.rowsAffected, outcome.rowsReturned, none⟩ :: later.told,
          later.ok⟩

/-- `executeParameterizedStatements` on a session. -/
def executeParameterizedStatementsAudited (env : AuditEnvironment γ F T) (transactionID : Text)
    (session : SessionExecer) (type : Text) (replies : ℕ → StatementReply)
    (auditEvent : ManagedStatement F T → ℕ → StatementReply → Reply → Event) :
    ℕ → List (ManagedStatement F T) → Execution F T Event
  | _, [] => ⟨[], [], true⟩
  | idx, stmt :: rest =>
    let reply := replies idx
    if reply.budgetLeft = false then ⟨[], [], true⟩
    else
      let (calls, outcome) := session.executeBound env type stmt reply
      let event := auditEvent stmt (idx + 1) reply outcome
      match outcome.error with
      | some err => ⟨[⟨transactionID, stmt, idx + 1, calls, reply, some err⟩], [event], false⟩
      | none =>
        let later := executeParameterizedStatementsAudited env transactionID session type replies
          auditEvent (idx + 1) rest
        ⟨⟨transactionID, stmt, idx + 1, calls, reply, none⟩ :: later.sent, event :: later.told,
          later.ok⟩

/-! ### Sessions that suit their statements -/

/-- The session has a call for every statement. -/
def SessionExecer.Suits (session : SessionExecer) (stmts : List (ManagedStatement F T)) : Prop :=
  session.args = true ∨ ∀ stmt ∈ stmts, stmt.hasArgs = false

variable {session : SessionExecer} {rest : List (ManagedStatement F T)}

theorem SessionExecer.Suits.tail {stmt : ManagedStatement F T} (h : session.Suits (stmt :: rest)) :
    session.Suits rest :=
  h.imp id fun hall s hs => hall s (mem_cons_of_mem _ hs)

theorem SessionExecer.Suits.head {stmt : ManagedStatement F T} (h : session.Suits (stmt :: rest)) :
    session.args = true ∨ stmt.hasArgs = false :=
  h.imp id fun hall => hall stmt mem_cons_self

/-- A statement with arguments is sent as bound, one without as it is. -/
theorem ManagedStatement.sent_of_hasArgs {stmt : ManagedStatement F T} (h : stmt.hasArgs = true) :
    stmt.sent = stmt.boundSQL := by
  unfold ManagedStatement.hasArgs at h
  unfold ManagedStatement.sent ManagedStatement.boundSQL
  cases hbound : stmt.bound with
  | none => rw [hbound] at h; cases h
  | some bound =>
    rw [hbound] at h
    have hfilled : bound.args.isEmpty = false := by simpa using h
    simp [hfilled]

theorem ManagedStatement.sent_of_plain {stmt : ManagedStatement F T} (h : stmt.hasArgs = false) :
    stmt.sent = stmt.text := by
  unfold ManagedStatement.hasArgs at h
  unfold ManagedStatement.sent
  cases hbound : stmt.bound with
  | none => rfl
  | some bound =>
    rw [hbound] at h
    have hempty : bound.args.isEmpty = true := by simpa using h
    simp [hempty]

@[simp] theorem SessionExecer.plainQuery_sql (session : SessionExecer) (sql : Text) :
    (session.plainQuery sql : SessionCall F T).sql = sql := by
  unfold SessionExecer.plainQuery
  split <;> rfl

@[simp] theorem SessionExecer.query_sql (session : SessionExecer) (plain : Bool) (sql : Text) :
    (session.query plain sql : SessionCall F T × Bool).1.sql = sql := by
  unfold SessionExecer.query
  split_ifs
  · exact session.plainQuery_sql sql
  · rfl
  · rfl
  · exact session.plainQuery_sql sql

/-- Whether a read is asked for several results. -/
def SessionExecer.asksMulti (session : SessionExecer) (dbType : Text) : Bool :=
  !shouldPreferPlainReadQueryResult dbType && (session.multiQueryMessages || session.multiQuery)

theorem SessionExecer.query_multi (session : SessionExecer) (dbType sql : Text) :
    (session.query (shouldPreferPlainReadQueryResult dbType) sql : SessionCall F T × Bool).2 =
      session.asksMulti dbType := by
  unfold SessionExecer.query SessionExecer.asksMulti
  split_ifs <;> simp_all

variable {env : AuditEnvironment γ F T} {type dbType : Text}

/-- A session that suits a statement has a call for it, which sends the statement; it is for
several results only if the statement goes without arguments. -/
theorem SessionExecer.firstCall_eq_some {stmt : ManagedStatement F T}
    (h : session.args = true ∨ stmt.hasArgs = false) :
    ∃ call multi, session.firstCall env type dbType stmt = some (call, multi) ∧
      call.sql = stmt.sent ∧
      (isReadOnlySQLQuery env.gates type stmt.text = true →
        multi = (!stmt.hasArgs && session.asksMulti dbType)) := by
  unfold SessionExecer.firstCall
  dsimp only
  cases hargs : stmt.hasArgs with
  | true =>
    have hsession : session.args = true := h.resolve_right (by simp [hargs])
    rw [ManagedStatement.sent_of_hasArgs hargs]
    rw [hsession, if_pos rfl, if_pos rfl, if_pos rfl, if_pos rfl]
    split_ifs
    · exact ⟨_, _, rfl, rfl, fun _ => rfl⟩
    · exact ⟨_, _, rfl, rfl, fun _ => rfl⟩
  | false =>
    rw [ManagedStatement.sent_of_plain hargs, if_neg Bool.false_ne_true,
      if_neg Bool.false_ne_true]
    split_ifs with hquery
    · refine ⟨(session.query _ _).1, (session.query _ _).2, rfl, session.query_sql _ _, ?_⟩
      intro hread
      rw [hread, Bool.true_and, session.query_multi]
      rfl
    · refine ⟨_, _, rfl, rfl, ?_⟩
      intro hread
      exact absurd (by rw [hread]; rfl) hquery

/-! ### What the observer is told -/

/-- The observation is of the statement. -/
structure Tells (observation : ManagedSQLStatementObservation) (sent : SentStatement F T) :
    Prop where
  statement : observation.statement = sent.statement.text
  index : observation.statementIndex = sent.index
  err : observation.err = sent.err

variable {replies : ℕ → StatementReply} {stmts : List (ManagedStatement F T)} {E : Type}
variable {count : ℕ} {observer : ManagedSQLStatementObservation → E}

/-- **The observer is told once of each statement**, in order; induction on the statements. -/
theorem withObserver_told {transactionID : Text} {R : E → SentStatement F T → Prop}
    (hR : ∀ observation (sent : SentStatement F T), sent.transactionID = transactionID →
      Tells observation sent → R (observer observation) sent)
    (n index : ℕ) :
    let execution := executeManagedSQLTransactionStatementsWithObserver env transactionID session
      type dbType replies count observer n index stmts
    List.Forall₂ R execution.told execution.sent := by
  induction stmts generalizing n index with
  | nil => exact .nil
  | cons stmt rest ih =>
    unfold executeManagedSQLTransactionStatementsWithObserver
    dsimp only
    split_ifs
    · exact .nil
    · exact ih (n + 1) index
    · split
      · exact .cons (hR _ _ rfl ⟨rfl, rfl, rfl⟩) .nil
      · exact .cons (hR _ _ rfl ⟨rfl, rfl, rfl⟩) (ih (n + 1) (index + 1))

/-- Every statement that was taken up belongs to the transaction and was sent, on a session that
suits the statements. -/
theorem withObserver_sent {transactionID : Text} (hsuits : session.Suits stmts) (n index : ℕ) :
    ∀ sent ∈ (executeManagedSQLTransactionStatementsWithObserver env transactionID session type
      dbType replies count observer n index stmts).sent,
      sent.transactionID = transactionID ∧ sent.calls ≠ [] := by
  induction stmts generalizing n index with
  | nil => exact forall_mem_nil _
  | cons stmt rest ih =>
    have hcalls : (session.execute env type dbType stmt (replies n)).1 ≠ [] := by
      obtain ⟨call, multi, hcall, _⟩ := @SessionExecer.firstCall_eq_some γ F T session env type
        dbType stmt hsuits.head
      unfold SessionExecer.execute
      rw [hcall]
      dsimp only
      split_ifs <;> simp
    unfold executeManagedSQLTransactionStatementsWithObserver
    dsimp only
    split_ifs
    · exact forall_mem_nil _
    · exact ih hsuits.tail (n + 1) index
    · split
      · intro sent hsent
        obtain rfl := mem_singleton.mp hsent
        exact ⟨rfl, hcalls⟩
      · intro sent hsent
        rcases mem_cons.mp hsent with rfl | hsent
        · exact ⟨rfl, hcalls⟩
        · exact ih hsuits.tail (n + 1) (index + 1) sent hsent

variable {auditEvent : ManagedStatement F T → ℕ → StatementReply → Reply → Event}

/-- Bound statements that the session takes are sent, and if there is one and the row budget is
not used up, one is. -/
theorem parameterized_sent {transactionID : Text} (hargs : session.args = true) (idx : ℕ) :
    ∀ sent ∈ (executeParameterizedStatementsAudited env transactionID session type replies
      auditEvent idx stmts).sent, sent.transactionID = transactionID ∧ sent.calls ≠ [] := by
  induction stmts generalizing idx with
  | nil => exact forall_mem_nil _
  | cons stmt rest ih =>
    have hcalls : (session.executeBound env type stmt (replies idx)).1 ≠ [] := by
      unfold SessionExecer.executeBound
      rw [hargs, if_neg (by simp)]
      split <;> simp
    unfold executeParameterizedStatementsAudited
    dsimp only
    split_ifs
    · exact forall_mem_nil _
    · split
      · intro sent hsent
        obtain rfl := mem_singleton.mp hsent
        exact ⟨rfl, hcalls⟩
      · intro sent hsent
        rcases mem_cons.mp hsent with rfl | hsent
        · exact ⟨rfl, hcalls⟩
        · exact ih (idx + 1) sent hsent

theorem parameterized_sent_ne_nil {transactionID : Text} {idx : ℕ} (hstmts : stmts ≠ [])
    (hbudget : (replies idx).budgetLeft = true) :
    (executeParameterizedStatementsAudited env transactionID session type replies auditEvent idx
      stmts).sent ≠ [] := by
  cases stmts with
  | nil => exact absurd rfl hstmts
  | cons stmt rest =>
    unfold executeParameterizedStatementsAudited
    dsimp only
    rw [hbudget, if_neg (by simp)]
    split <;> exact cons_ne_nil _ _

/-! ### What is carried out -/

/-- The reply as the model without audit takes it. -/
def StatementReply.answer (reply : StatementReply) (session : SessionExecer) (dbType : Text) :
    Answer :=
  ⟨reply.budgetLeft, reply.first.ending,
    if session.asksMulti dbType ∧ reply.first.blank then some reply.again.ending else none⟩

/-- The actions that the calls for a statement carry out. -/
def SentStatement.performed (sent : SentStatement F T) (env : AuditEnvironment γ F T)
    (dbType : Text) : List (Action γ) :=
  match sent.calls with
  | [] => []
  | [call] => sent.reply.first.ending.performed (env.server dbType call.sql)
  | call :: again :: _ => sent.reply.first.ending.performed (env.server dbType call.sql) ++
      sent.reply.again.ending.performed (env.server dbType again.sql)

@[simp] theorem Reply.ending_eq_success {reply : Reply} :
    reply.ending = .success ↔ reply.error = none := by
  unfold Reply.ending
  cases reply.error <;> simp

/-- A statement is sent once, or a second time as the plain query behind a blank read. -/
theorem SessionExecer.execute_cases {stmt : ManagedStatement F T}
    (h : session.args = true ∨ stmt.hasArgs = false) (reply : StatementReply) :
    (∃ call again, session.execute env type dbType stmt reply = ([call, again], reply.again) ∧
      call.sql = stmt.sent ∧ again.sql = stmt.sent ∧ reply.first.error = none ∧
      (reply.answer session dbType).runAgain env.gates type stmt = some reply.again.ending) ∨
    ∃ call, session.execute env type dbType stmt reply = ([call], reply.first) ∧
      call.sql = stmt.sent ∧ (reply.first.error = none →
        (reply.answer session dbType).runAgain env.gates type stmt = none) := by
  obtain ⟨call, multi, hcall, hsql, hmulti⟩ := @SessionExecer.firstCall_eq_some γ F T session env
    type dbType stmt h
  have hexecute : session.execute env type dbType stmt reply =
      if reply.first.error = none ∧ multi = true ∧
          isReadOnlySQLQuery env.gates type stmt.text = true ∧ reply.first.blank = true then
        ([call, session.plainQuery stmt.text], reply.again)
      else ([call], reply.first) := by
    unfold SessionExecer.execute
    rw [hcall]
  by_cases hagain : reply.first.error = none ∧ multi = true ∧
      isReadOnlySQLQuery env.gates type stmt.text = true ∧ reply.first.blank = true
  · left
    obtain ⟨hfirst, hm, hread, hblank⟩ := hagain
    have hflags : stmt.hasArgs = false ∧ session.asksMulti dbType = true := by
      have hboth := (hmulti hread).symm.trans hm
      simpa using hboth
    refine ⟨call, session.plainQuery stmt.text, ?_, hsql, ?_, hfirst, ?_⟩
    · rw [hexecute, if_pos ⟨hfirst, hm, hread, hblank⟩]
    · rw [session.plainQuery_sql, ManagedStatement.sent_of_plain hflags.1]
    · simp [Answer.runAgain, StatementReply.answer, hread, hflags.1, hflags.2, hblank]
  · right
    refine ⟨call, by rw [hexecute, if_neg hagain], hsql, ?_⟩
    intro hfirst
    unfold Answer.runAgain StatementReply.answer
    split_ifs with hplain hblank
    · rw [Bool.and_eq_true, Bool.not_eq_true'] at hplain
      refine absurd ⟨hfirst, ?_, hplain.1, hblank.2⟩ hagain
      rw [hmulti hplain.1, hplain.2, hblank.1]
      rfl
    · rfl
    · rfl

/-- The executor with the observer carries out what the executor without it does. -/
theorem withObserver_carriesOut {transactionID : Text} (hsuits : session.Suits stmts)
    (n index : ℕ) :
    let execution := executeManagedSQLTransactionStatementsWithObserver env transactionID session
      type dbType replies count observer n index stmts
    executeManagedSQLTransactionStatements env.toEnvironment type dbType
      (fun n => (replies n).answer session dbType) n stmts =
      (execution.sent.flatMap (·.performed env dbType), execution.ok) := by
  induction stmts generalizing n index with
  | nil => rfl
  | cons stmt rest ih =>
    have hrest := ih hsuits.tail (n + 1)
    unfold executeManagedSQLTransactionStatements
      executeManagedSQLTransactionStatementsWithObserver
    by_cases hbudget : (replies n).budgetLeft = false
    · simp [StatementReply.answer, hbudget]
    by_cases htext : stmt.text = []
    · simp only [StatementReply.answer, hbudget, htext, if_true]
      exact hrest index
    have hleft : ((replies n).answer session dbType).budgetLeft ≠ false := hbudget
    rw [if_neg hleft, if_neg hbudget, if_neg htext, if_neg htext]
    have hending : ((replies n).answer session dbType).ending = (replies n).first.ending := rfl
    rw [hending]
    rcases SessionExecer.execute_cases (γ := γ) hsuits.head (replies n) with
      ⟨call, again, hexecute, hsql, hagain, hfirst, hrun⟩ | ⟨call, hexecute, hsql, hrun⟩
    · rw [hexecute, hrun, Reply.ending_eq_success.mpr hfirst]
      dsimp only
      cases herror : (replies n).again.error with
      | some detail =>
        have hending : (replies n).again.ending = .failure (replies n).again.steps := by
          simp [Reply.ending, herror]
        simp [SentStatement.performed, hending, hsql, hagain, Reply.ending_eq_success.mpr hfirst]
      | none =>
        have hending : (replies n).again.ending = .success := Reply.ending_eq_success.mpr herror
        rw [hending, hrest (index + 1)]
        simp [SentStatement.performed, hending, hsql, hagain, Reply.ending_eq_success.mpr hfirst,
          Ending.performed]
    · rw [hexecute]
      dsimp only
      cases herror : (replies n).first.error with
      | some detail =>
        have hending : (replies n).first.ending = .failure (replies n).first.steps := by
          simp [Reply.ending, herror]
        simp [SentStatement.performed, hending, hsql]
      | none =>
        have hending : (replies n).first.ending = .success := Reply.ending_eq_success.mpr herror
        rw [hending, hrun herror, hrest (index + 1)]
        simp [SentStatement.performed, hending, hsql]

/-- The executor of bound statements carries out what the executor without events does. -/
theorem parameterized_carriesOut {transactionID : Text} (hargs : session.args = true) (idx : ℕ) :
    let execution := executeParameterizedStatementsAudited env transactionID session type replies
      auditEvent idx stmts
    executeParameterizedStatements env.toEnvironment dbType
      (fun n => (replies n).answer session dbType) idx stmts =
      (execution.sent.flatMap (·.performed env dbType), execution.ok) := by
  induction stmts generalizing idx with
  | nil => rfl
  | cons stmt rest ih =>
    have hrest := ih (idx + 1)
    have hexecute : ∃ call, session.executeBound env type stmt (replies idx) =
        ([call], (replies idx).first) ∧ call.sql = stmt.boundSQL := by
      unfold SessionExecer.executeBound
      rw [hargs, if_neg (by simp)]
      split
      · exact ⟨_, rfl, rfl⟩
      · exact ⟨_, rfl, rfl⟩
    obtain ⟨call, hexecute, hsql⟩ := hexecute
    unfold executeParameterizedStatements executeParameterizedStatementsAudited
    by_cases hbudget : (replies idx).budgetLeft = false
    · simp [StatementReply.answer, hbudget]
    have hleft : ((replies idx).answer session dbType).budgetLeft ≠ false := hbudget
    have hending : ((replies idx).answer session dbType).ending = (replies idx).first.ending := rfl
    rw [if_neg hleft, if_neg hbudget, hending, hexecute]
    dsimp only
    cases herror : (replies idx).first.error with
    | some detail =>
      have hending : (replies idx).first.ending = .failure (replies idx).first.steps := by
        simp [Reply.ending, herror]
      simp [SentStatement.performed, hending, hsql]
    | none =>
      have hending : (replies idx).first.ending = .success := Reply.ending_eq_success.mpr herror
      rw [hending, hrest]
      simp [SentStatement.performed, hending, hsql]

end GoNavi.Editor
