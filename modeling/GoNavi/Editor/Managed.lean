import GoNavi.Machine.Session
import GoNavi.Sql.Control
import GoNavi.Sql.Gate
import GoNavi.Sqlparam.Bind

/-! # Managed transactions of the SQL editor

`methods_db_transaction.go` and the entry points of `methods_db_params.go`: a first text opens a
transaction on a session of its own (`dbQueryMultiTransactional`), follow-up texts run in it
(`dbQueryMultiInTransaction`, `dbQueryMultiWithParamsInTransaction`), and it is pending until it
is committed or rolled back (`finishManagedSQLTransaction`).  The calls on one transaction
exclude each other (`tx.mu`), so a call is a step of the application (`App.step`).

The server is a function from the type of a database and a statement to the actions of the
statement on its session.  How the statements end comes with the call. -/

namespace GoNavi.Editor

open Scan GoNavi.Sql GoNavi.Sqlparam Sessions

variable {γ F T : Type}

/-- The runtime, the drivers and the servers. -/
structure Environment (γ F T : Type) where
  unicode : UnicodeTables
  gates : DocumentGates
  runtime : Runtime F T
  /-- `ResolveDataSourceCapability(dbType).Transaction.Supported`, a table of the drivers. -/
  transactionSupported : Text → Bool
  /-- `queryContainsDuckDBSavedConnectionDirective`. -/
  attachesSavedConnection : Text → Bool
  /-- What a statement does to its session, on a server of a type. -/
  server : Text → Text → List (Action γ)

/-- A connection, with the type `resolveDDLDBType` gives it. -/
structure EditorConfig where
  type : Text
  resolvedType : Text
  gate : ConnectionConfig

/-! ### Statements -/

/-- A statement: its text, and what parameter binding made of it. -/
structure ManagedStatement (F T : Type) where
  text : Text
  bound : Option (BindResult F T)

/-- The text that is sent: the bound one only goes with arguments. -/
def ManagedStatement.sent (stmt : ManagedStatement F T) : Text :=
  match stmt.bound with
  | some bound => if bound.args.isEmpty then stmt.text else bound.sql
  | none => stmt.text

/-- The text as binding rewrote it. -/
def ManagedStatement.boundSQL (stmt : ManagedStatement F T) : Text :=
  (stmt.bound.map (·.sql)).getD stmt.text

def ManagedStatement.hasArgs (stmt : ManagedStatement F T) : Bool :=
  match stmt.bound with
  | some bound => !bound.args.isEmpty
  | none => false

structure QueryParamBinding (F T : Type) where
  name : Text
  type : Text
  value : Value F T

inductive ParameterError where
  | bindingUnsupported
  | blankName
  | noExecutableStatement
  | bind (e : BindError)

/-- The last binding of a name counts, and the type is `string` if there is none. -/
def bindingsToTypedValues :
    List (QueryParamBinding F T) → Values F T → Except ParameterError (Values F T)
  | [], values => .ok values
  | binding :: bindings, values =>
    let name := trimSpace binding.name
    let typ := trimSpace binding.type
    if name = [] then .error .blankName
    else bindingsToTypedValues bindings (Function.update values name
      (some ⟨if typ = [] then bytes "string" else typ, binding.value⟩))

def bindStatements (rt : Runtime F T) (dbType : Text) (values : Values F T) :
    List Text → Except ParameterError (List (ManagedStatement F T))
  | [] => .ok []
  | statement :: statements =>
    let trimmed := trimSpace statement
    if trimmed = [] then bindStatements rt dbType values statements
    else
      match bind rt trimmed dbType values with
      | .error e => .error (.bind e)
      | .ok bound =>
        match bindStatements rt dbType values statements with
        | .error e => .error e
        | .ok rest => .ok (⟨trimmed, some bound⟩ :: rest)

def bindParameterizedStatements (rt : Runtime F T) (texts : List Text) (dbType : Text)
    (values : Values F T) : Except ParameterError (List (ManagedStatement F T)) :=
  match bindStatements rt dbType values texts with
  | .error e => .error e
  | .ok [] => .error .noExecutableStatement
  | .ok stmts => .ok stmts

def plainStatements (texts : List Text) : List (ManagedStatement F T) :=
  texts.map fun text => ⟨trimSpace text, none⟩

def prepareManagedTransactionStatements (rt : Runtime F T) (dbType query : Text)
    (bindingSupported : Bool) (bindings : List (QueryParamBinding F T)) :
    Except ParameterError (List (ManagedStatement F T)) :=
  let texts := splitSQLStatementsForDialect dbType query
  if bindings.isEmpty then .ok (plainStatements texts)
  else if bindingSupported = false then .error .bindingUnsupported
  else
    match bindingsToTypedValues bindings fun _ => none with
    | .error e => .error e
    | .ok values => bindParameterizedStatements rt texts dbType values

/-! ### Execution -/

/-- What comes back for one statement. -/
structure Answer where
  /-- The row budget is not used up in front of the statement. -/
  budgetLeft : Bool
  ending : Ending
  /-- The native multi-result call gave nothing to show; if the statement only reads, the
  plain query runs it again, and ends so. -/
  again : Option Ending

/-- How the plain query ends that runs the statement again, if it does. -/
def Answer.runAgain (answer : Answer) (gates : DocumentGates) (type : Text)
    (stmt : ManagedStatement F T) : Option Ending :=
  if isReadOnlySQLQuery gates type stmt.text && !stmt.hasArgs then answer.again else none

/-- The actions that the statements of a list carry out on their session, and whether all that
were sent succeeded. -/
def executeManagedSQLTransactionStatements (env : Environment γ F T) (type dbType : Text)
    (answers : ℕ → Answer) : ℕ → List (ManagedStatement F T) → List (Action γ) × Bool
  | _, [] => ([], true)
  | n, stmt :: rest =>
    let answer := answers n
    if answer.budgetLeft = false then ([], true)
    else if stmt.text = [] then
      executeManagedSQLTransactionStatements env type dbType answers (n + 1) rest
    else
      let actions := env.server dbType stmt.sent
      let first := answer.ending.performed actions
      match answer.ending, answer.runAgain env.gates type stmt with
      | .failure _, _ => (first, false)
      | .success, some (.failure steps) =>
        (first ++ (Ending.failure steps).performed actions, false)
      | .success, some .success =>
        let (later, ok) :=
          executeManagedSQLTransactionStatements env type dbType answers (n + 1) rest
        (first ++ actions ++ later, ok)
      | .success, none =>
        let (later, ok) :=
          executeManagedSQLTransactionStatements env type dbType answers (n + 1) rest
        (first ++ later, ok)

/-- The same for statements that all have been bound; these are sent as bound, with or without
arguments. -/
def executeParameterizedStatements (env : Environment γ F T) (dbType : Text)
    (answers : ℕ → Answer) : ℕ → List (ManagedStatement F T) → List (Action γ) × Bool
  | _, [] => ([], true)
  | n, stmt :: rest =>
    let answer := answers n
    if answer.budgetLeft = false then ([], true)
    else
      let first := answer.ending.performed (env.server dbType stmt.boundSQL)
      match answer.ending with
      | .failure _ => (first, false)
      | .success =>
        let (later, ok) := executeParameterizedStatements env dbType answers (n + 1) rest
        (first ++ later, ok)

/-! ### Screening of the first text -/

/-- `shouldUseManagedSQLTransaction` behind the check of the driver. -/
def managedWrite (gates : DocumentGates) (dbType : Text) : Bool → List Text → Bool
  | hasManagedWrite, [] => hasManagedWrite
  | hasManagedWrite, statement :: statements =>
    let stmt := trimSpace statement
    if stmt = [] then managedWrite gates dbType hasManagedWrite statements
    else if isSQLTransactionControlStatement stmt then false
    else if isReadOnlySQLQuery gates dbType stmt then
      managedWrite gates dbType hasManagedWrite statements
    else if isManagedSQLBlockWrite dbType stmt then
      managedWrite gates dbType true statements
    else if isBatchableWriteSQLStatement gates dbType stmt then
      managedWrite gates dbType true statements
    else false

def shouldUseManagedSQLTransaction (env : Environment γ F T) (dbType query : Text) : Bool :=
  env.transactionSupported dbType &&
    managedWrite env.gates dbType false (splitSQLStatementsForDialect dbType query)

/-- Oracle starts a transaction with the first statement that changes data. -/
def sqlEditorImplicitTransactionSQL (dbType : Text) : Option TransactionSQL :=
  if normalizedName dbType = bytes "oracle" then some ⟨[], bytes "COMMIT", bytes "ROLLBACK"⟩
  else none

/-! ### Transactions -/

inductive BoundaryMode where
  | driverAPI
  | implicit
  | textSQL
deriving DecidableEq

structure ManagedSQLTransaction (γ : Type) where
  config : EditorConfig
  dbType : Text
  boundaryMode : BoundaryMode
  commitSQL : Text
  rollbackSQL : Text
  finished : Bool
  /-- Whether the transaction was started before the first statement; if not, the server starts
  it with the first change. -/
  begun : Bool
  /-- The session on the server. -/
  session : Session γ
  /-- What the statements of the transaction have carried out, for the record. -/
  performed : List (Action γ)

structure App (γ : Type) where
  /-- The transactions that were registered, by number. -/
  transactions : List (ManagedSQLTransaction γ)
  /-- The sessions whose first text failed, as they were left. -/
  abandoned : List (Session γ)

structure QueryResult where
  success : Bool
  transactionPending : Bool
  outcomeUnknown : Bool
  transactionID : Option ℕ
deriving DecidableEq

/-- An answer without a transaction. -/
def refused : QueryResult := ⟨false, false, false, none⟩

/-- What the driver of a connection has for transactions: a handle that starts one, or leaves
that to the first change; sessions; or nothing of these. -/
inductive Provider where
  | transaction (begins : Bool)
  | session
  | neither
deriving DecidableEq

/-- How it goes to open a transaction. -/
structure Opening where
  /-- `ensureDataSourceQueryCapability` and `getDatabase` succeed. -/
  reachable : Bool
  provider : Provider
  opens : Bool
  beginEnding : Ending
  rollbackEnding : Ending
  bindingSupported : Bool

/-- The session a transaction starts on, its boundary mode and its texts. -/
def openTransaction (env : Environment γ F T) (dbType : Text) (opening : Opening) :
    Option (Session γ × BoundaryMode × TransactionSQL) :=
  let batch := sqlFileBatchTransactionSQL dbType
  let texts := (sqlEditorImplicitTransactionSQL dbType <|> batch).getD ⟨[], [], []⟩
  match opening.provider with
  | .transaction begins =>
    if opening.opens = false then none
    else some (if begins then (Session.fresh true).start else .fresh false, .driverAPI, texts)
  | .session =>
    if (sqlEditorImplicitTransactionSQL dbType).isSome then
      if opening.opens = false then none else some (.fresh false, .implicit, texts)
    else if batch.isSome && opening.opens && opening.beginEnding = .success then
      some ((Session.fresh true).run (env.server dbType texts.beginSQL), .textSQL, texts)
    else none
  | .neither => none

/-- The rollback of a transaction: by the handle, or by its text. -/
def rollbackActions (env : Environment γ F T) (dbType : Text) (mode : BoundaryMode)
    (rollbackSQL : Text) : List (Action γ) :=
  if mode = .driverAPI then [.rollback]
  else if trimSpace rollbackSQL = [] then [] else env.server dbType rollbackSQL

def commitActions (env : Environment γ F T) (dbType : Text) (mode : BoundaryMode)
    (commitSQL : Text) : List (Action γ) :=
  if mode = .driverAPI then [.commit]
  else if trimSpace commitSQL = [] then [] else env.server dbType commitSQL

/-- Whether a session of this kind has its transaction started before the first statement. -/
def begunAtStart (mode : BoundaryMode) (provider : Provider) : Bool :=
  match mode with
  | .driverAPI => provider = .transaction true
  | .implicit => false
  | .textSQL => true

/-- `dbQueryMultiTransactionalWithBindings`. -/
def dbQueryMultiTransactional (env : Environment γ F T) (app : App γ) (config : EditorConfig)
    (query : Text) (bindings : List (QueryParamBinding F T)) (opening : Opening)
    (answers : ℕ → Answer) : App γ × QueryResult :=
  let dbType := config.resolvedType
  let query := sanitizeSQLForPgLike env.unicode dbType query
  -- Texts that are not managed go to `DBQueryMulti`, outside of every managed transaction.
  if shouldUseManagedSQLTransaction env dbType query = false then (app, refused)
  else if (ensureConnectionAllowsQueryWithText env.gates config.gate query id).isOk = false then
    (app, refused)
  else if opening.reachable = false then (app, refused)
  else
    match openTransaction env dbType opening with
    | none => (app, refused)
    | some (session, mode, texts) =>
      match prepareManagedTransactionStatements env.runtime dbType query opening.bindingSupported
          bindings with
      | .error _ => ({ app with abandoned := app.abandoned ++ [session] }, refused)
      | .ok statements =>
        let (performed, ok) := executeManagedSQLTransactionStatements env dbType dbType answers 0
          statements
        let session := session.run performed
        if ok then
          ({ app with transactions := app.transactions ++
              [{ config, dbType, boundaryMode := mode, commitSQL := texts.commitSQL,
                 rollbackSQL := texts.rollbackSQL, finished := false,
                 begun := begunAtStart mode opening.provider, session, performed }] },
            ⟨true, true, false, some app.transactions.length⟩)
        else
          let actions := rollbackActions env dbType mode texts.rollbackSQL
          ({ app with abandoned := app.abandoned ++
              [session.run (opening.rollbackEnding.performed actions)] }, refused)

/-- The statements of a follow-up text, and the type they are classified by. -/
def followUpStatements (env : Environment γ F T) (tx : ManagedSQLTransaction γ) (query : Text) :
    List (ManagedStatement F T) :=
  plainStatements (splitSQLStatementsForDialect tx.dbType
    (sanitizeSQLForPgLike env.unicode tx.dbType query))

def runConfigType (tx : ManagedSQLTransaction γ) : Text :=
  if trimSpace tx.config.type = [] then tx.dbType else tx.config.type

/-- The transaction after more of its statements. -/
def ManagedSQLTransaction.extend (tx : ManagedSQLTransaction γ) (performed : List (Action γ)) :
    ManagedSQLTransaction γ :=
  { tx with session := tx.session.run performed, performed := tx.performed ++ performed }

def App.put (app : App γ) (id : ℕ) (tx : ManagedSQLTransaction γ) : App γ :=
  { app with transactions := app.transactions.set id tx }

/-- The transaction with an id, if it is still registered. -/
def App.pending? (app : App γ) (id : ℕ) : Option (ManagedSQLTransaction γ) :=
  app.transactions[id]?.filter fun tx => !tx.finished

def dbQueryMultiInTransaction (env : Environment γ F T) (app : App γ) (id : ℕ) (query : Text)
    (answers : ℕ → Answer) : App γ × QueryResult :=
  match app.pending? id with
  | none => (app, refused)
  | some tx =>
    if lowerName (runConfigType tx) = bytes "duckdb" ∧ env.attachesSavedConnection query then
      (app, ⟨false, true, false, some id⟩)
    else
      let (performed, ok) := executeManagedSQLTransactionStatements env (runConfigType tx) tx.dbType
        answers 0 (followUpStatements env tx query)
      (app.put id (tx.extend performed), ⟨ok, true, false, some id⟩)

/-- The statements of a follow-up text with parameters. -/
def parameterizedStatements (env : Environment γ F T) (tx : ManagedSQLTransaction γ)
    (sql : Text) (bindingSupported : Bool) (bindings : List (QueryParamBinding F T)) :
    Except ParameterError (List (ManagedStatement F T)) :=
  if bindingSupported = false then .error .bindingUnsupported
  else
    match bindingsToTypedValues bindings fun _ => none with
    | .error e => .error e
    | .ok values =>
      bindParameterizedStatements env.runtime (splitSQLStatementsForDialect tx.dbType
        (sanitizeSQLForPgLike env.unicode tx.dbType sql)) tx.dbType values

def dbQueryMultiWithParamsInTransaction (env : Environment γ F T) (app : App γ) (id : ℕ)
    (sql : Text) (bindings : List (QueryParamBinding F T)) (bindingSupported : Bool)
    (answers : ℕ → Answer) : App γ × QueryResult :=
  match app.pending? id with
  | none => (app, refused)
  | some tx =>
    match parameterizedStatements env tx sql bindingSupported bindings with
    | .error _ => (app, ⟨false, true, false, some id⟩)
    | .ok stmts =>
      let (performed, ok) := executeParameterizedStatements env tx.dbType answers 0 stmts
      (app.put id (tx.extend performed), ⟨ok, true, false, some id⟩)

/-- The transaction after its commit or rollback, which ends so. -/
def ManagedSQLTransaction.finish (env : Environment γ F T) (tx : ManagedSQLTransaction γ)
    (commit : Bool) (ending : Ending) : ManagedSQLTransaction γ :=
  let actions :=
    if commit then commitActions env tx.dbType tx.boundaryMode tx.commitSQL
    else rollbackActions env tx.dbType tx.boundaryMode tx.rollbackSQL
  { tx with finished := true, session := tx.session.run (ending.performed actions) }

def finishManagedSQLTransaction (env : Environment γ F T) (app : App γ) (id : ℕ) (commit : Bool)
    (ending : Ending) (closes : Bool) : App γ × QueryResult :=
  match app.pending? id with
  | none => (app, refused)
  | some tx =>
    (app.put id (tx.finish env commit ending),
      if ending ≠ .success then ⟨false, false, true, none⟩ else ⟨closes, false, false, none⟩)

/-- `rollbackPendingSQLTransactionsMatching`: what is left when the window is reloaded or closed
is rolled back. -/
def rollbackPendingSQLTransactionsMatching (env : Environment γ F T) (app : App γ)
    (fits : ManagedSQLTransaction γ → Bool) (endings : ℕ → Ending) : App γ :=
  { app with transactions := app.transactions.mapIdx fun id tx =>
      if tx.finished = false ∧ fits tx then tx.finish env false (endings id) else tx }

/-! ### Runs -/

inductive Call (γ F T : Type) where
  | start (config : EditorConfig) (query : Text) (bindings : List (QueryParamBinding F T))
      (opening : Opening) (answers : ℕ → Answer)
  | followUp (id : ℕ) (query : Text) (answers : ℕ → Answer)
  | followUpWithParams (id : ℕ) (sql : Text) (bindings : List (QueryParamBinding F T))
      (bindingSupported : Bool) (answers : ℕ → Answer)
  | finish (id : ℕ) (commit : Bool) (ending : Ending) (closes : Bool)
  | rollbackPending (fits : ManagedSQLTransaction γ → Bool) (endings : ℕ → Ending)

def App.step (env : Environment γ F T) (app : App γ) : Call γ F T → App γ
  | .start config query bindings opening answers =>
    (dbQueryMultiTransactional env app config query bindings opening answers).1
  | .followUp id query answers => (dbQueryMultiInTransaction env app id query answers).1
  | .followUpWithParams id sql bindings bindingSupported answers =>
    (dbQueryMultiWithParamsInTransaction env app id sql bindings bindingSupported answers).1
  | .finish id commit ending closes =>
    (finishManagedSQLTransaction env app id commit ending closes).1
  | .rollbackPending fits endings => rollbackPendingSQLTransactionsMatching env app fits endings

def App.run (env : Environment γ F T) (app : App γ) (calls : List (Call γ F T)) : App γ :=
  calls.foldl (App.step env) app

end GoNavi.Editor
