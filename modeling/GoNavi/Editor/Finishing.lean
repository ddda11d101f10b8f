import GoNavi.Editor.Audited

/-! # Managed transactions under concurrency

The calls on managed transactions as they interleave.  A first text runs on a session of its own,
step by step, until it registers its transaction or closes the session.  A follow-up looks its
transaction up under the mutex of the map and executes under the mutex of the transaction.  A
commit, a rollback, a reload and a shutdown take transactions out of the map, and then, under the
mutex of each, mark it as finished, send the commit or the rollback, and close the session
(`finishManagedSQLTransaction`, `rollbackPendingSQLTransactionsMatching`).

A critical section of the map is one step; one of a transaction is several.  The log of a
transaction holds the calls on its session.  A call that starts a thread, and a thread that goes
one step further, are the actions of a run; a thread in front of a mutex that is held waits. -/

namespace GoNavi.Editor

open Scan GoNavi.Sql GoNavi.Sqlparam GoNavi.Sqlfile

variable {γ F T : Type}

/-- A call on the session of a transaction. -/
inductive SessionEvent (F T : Type) where
  | begin
  | call (c : SessionCall F T)
  | commit
  | rollback
  | close

/-- A call that neither ends the transaction nor closes the session. -/
def SessionEvent.isWork : SessionEvent F T → Bool
  | .begin | .call _ => true
  | _ => false

/-- How a finisher ends a transaction. -/
inductive Finish where
  | commit
  | rollback
deriving DecidableEq

/-! ### The first text -/

/-- The first text passes the checks in front of the database. -/
def TransactionStart.admitted (env : AuditEnvironment γ F T) (input : TransactionStart F T) :
    Bool :=
  let query := sanitizeSQLForPgLike env.unicode input.config.resolvedType input.query
  shouldUseManagedSQLTransaction env.toEnvironment input.config.resolvedType query &&
    (ensureConnectionAllowsQueryWithText env.gates input.config.gate query id).isOk &&
    input.opening.reachable

/-- The boundary mode and the texts of a transaction, if a session is opened for it. -/
def TransactionStart.opened (env : AuditEnvironment γ F T) (input : TransactionStart F T) :
    Option (BoundaryMode × TransactionSQL) :=
  let dbType := input.config.resolvedType
  let batch := sqlFileBatchTransactionSQL dbType
  let implicitTexts := sqlEditorImplicitTransactionSQL dbType
  let texts := (implicitTexts <|> batch).getD ⟨[], [], []⟩
  if input.admitted env = false ∨ input.opening.opens = false then none
  else
    match input.opening.provider with
    | .transaction _ => some (.driverAPI, texts)
    | .session =>
      if implicitTexts.isSome then some (.implicit, texts)
      else if batch.isSome then some (.textSQL, texts)
      else none
    | .neither => none

/-- The statements of the first text. -/
def TransactionStart.statements (env : AuditEnvironment γ F T) (input : TransactionStart F T) :
    Except ParameterError (List (ManagedStatement F T)) :=
  let dbType := input.config.resolvedType
  prepareManagedTransactionStatements env.runtime dbType
    (sanitizeSQLForPgLike env.unicode dbType input.query) input.session.args input.bindings

/-- The call that ends a transaction; without a handle it takes a text. -/
def endEvents (mode : BoundaryMode) (texts : TransactionSQL) (finish : Finish) :
    List (SessionEvent F T) :=
  let (event, sqlText) :=
    match finish with
    | .commit => (SessionEvent.commit, texts.commitSQL)
    | .rollback => (.rollback, texts.rollbackSQL)
  if mode = .driverAPI then [event] else if trimSpace sqlText = [] then [] else [event]

inductive StartOp (F T : Type) where
  | event (e : SessionEvent F T)
  /-- The transaction goes into `sqlTransactions`. -/
  | register

/-- What `dbQueryMultiTransactionalWithBindings` does with its session, up to its return.  A
`BEGIN` that fails has begun nothing. -/
def dbQueryMultiTransactionalOps (env : AuditEnvironment γ F T) (input : TransactionStart F T) :
    List (StartOp F T) :=
  match input.opened env with
  | none => []
  | some (mode, texts) =>
    let dbType := input.config.resolvedType
    if mode = .textSQL ∧ input.opening.beginEnding ≠ .success then [.event .close]
    else
      let begun := if begunAtStart mode input.opening.provider then [.event .begin] else []
      match input.statements env with
      | .error _ => begun ++ [.event .close]
      | .ok stmts =>
        let execution := executeManagedSQLTransactionStatementsWithObserver env
          input.transactionID.val input.session dbType dbType input.replies (statementCount stmts)
          id 0 0 stmts
        let calls := (execution.sent.flatMap (·.calls)).map fun c => .event (.call c)
        if execution.ok then begun ++ calls ++ [.register]
        else
          let rollback := (endEvents mode texts .rollback).map .event
          begun ++ calls ++ rollback ++ [.event .close]

/-! ### Transactions and threads -/

structure ManagedTransaction (F T : Type) where
  /-- The call that began the transaction. -/
  input : TransactionStart F T
  mode : BoundaryMode
  texts : TransactionSQL
  finished : Bool
  /-- Whether it has been in the map. -/
  registered : Bool
  /-- The calls on its session. -/
  log : List (SessionEvent F T)

def ManagedTransaction.fresh (env : AuditEnvironment γ F T) (input : TransactionStart F T) :
    ManagedTransaction F T :=
  let opened := (input.opened env).getD (.textSQL, ⟨[], [], []⟩)
  ⟨input, opened.1, opened.2, false, false, []⟩

def ManagedTransaction.audited (tx : ManagedTransaction F T) : AuditedTransaction :=
  ⟨tx.input.transactionID, tx.input.config, tx.input.config.resolvedType, tx.mode,
    tx.input.session⟩

inductive FollowUp (F T : Type) where
  | plain (query : Text) (replies : ℕ → StatementReply)
  | withParams (sql : Text) (bindings : List (QueryParamBinding F T))
      (replies : ℕ → StatementReply)

/-- The calls of a follow-up on the session of its transaction. -/
def FollowUp.calls (env : AuditEnvironment γ F T) (tx : AuditedTransaction) :
    FollowUp F T → List (SessionCall F T)
  | .plain query replies =>
    if lowerName tx.runConfigType = bytes "duckdb" ∧ env.attachesSavedConnection query then []
    else
      let stmts := plainStatements (tx.followUpTexts env.unicode query)
      (executeManagedSQLTransactionStatementsWithObserver env tx.id.val tx.session
        tx.runConfigType tx.dbType replies (statementCount stmts) id 0 0 stmts).sent.flatMap
        (·.calls)
  | .withParams sql bindings replies =>
    match tx.parameterizedStatements env sql bindings with
    | .error _ => []
    | .ok stmts =>
      (executeParameterizedStatementsAudited env tx.id.val tx.session tx.runConfigType
        (fun n => { replies n with budgetLeft := true })
        (fun stmt index reply outcome => buildParameterizedStatementAuditEvent env.unicode
          ⟨[], [], []⟩ tx.dbType [] [] stmt index stmts.length reply outcome) 0 stmts).sent.flatMap
        (·.calls)

/-- A call in progress. -/
inductive Thread (F T : Type) where
  /-- A first text, with what it still does. -/
  | starting (i : ℕ) (ops : List (StartOp F T))
  /-- A follow-up in front of the mutex of its transaction. -/
  | following (i : ℕ) (followUp : FollowUp F T)
  /-- A follow-up that holds the mutex, with the calls it still makes. -/
  | executing (i : ℕ) (calls : List (SessionCall F T))
  /-- A finisher with the transactions it took, in front of the mutex of the first. -/
  | finishing (taken : List ℕ) (finish : Finish)
  /-- A finisher that has marked its transaction. -/
  | ending (i : ℕ) (rest : List ℕ) (finish : Finish)
  /-- A finisher that has ended its transaction. -/
  | closing (i : ℕ) (rest : List ℕ) (finish : Finish)
  /-- A finisher that is about to give the mutex back. -/
  | unlocking (i : ℕ) (rest : List ℕ) (finish : Finish)
  | returned

/-- The mutex of a transaction that a thread holds. -/
def Thread.holds : Thread F T → List ℕ
  | .executing i _ | .ending i _ _ | .closing i _ _ | .unlocking i _ _ => [i]
  | _ => []

structure Pool (F T : Type) where
  /-- All transactions, by number. -/
  txs : List (ManagedTransaction F T)
  /-- `sqlTransactions`. -/
  pending : List ℕ
  threads : List (Thread F T)

def Pool.empty : Pool F T := ⟨[], [], []⟩

/-- Nobody holds the mutex of the transaction. -/
def Pool.free (pool : Pool F T) (i : ℕ) : Prop := i ∉ pool.threads.flatMap Thread.holds

instance (pool : Pool F T) (i : ℕ) : Decidable (pool.free i) :=
  inferInstanceAs (Decidable (i ∉ _))

def ManagedTransaction.tell (tx : ManagedTransaction F T) (events : List (SessionEvent F T)) :
    ManagedTransaction F T :=
  { tx with log := tx.log ++ events }

/-! ### Steps -/

inductive PoolAction (F T : Type) where
  | start (input : TransactionStart F T)
  | followUp (i : ℕ) (followUp : FollowUp F T)
  | finish (i : ℕ) (finish : Finish)
  /-- The transactions that fit are taken, in the order in which the map is read. -/
  | rollbackPending (fits : ℕ → Bool) (taken : List ℕ)
  | step (t : ℕ)

/-- One step of a thread at a transaction: the transaction and the thread behind it, and whether
the transaction goes into the map; `none` if the thread waits or has returned. -/
def Thread.next (env : AuditEnvironment γ F T) (free : Bool) (tx : ManagedTransaction F T) :
    Thread F T → Option (ManagedTransaction F T × Thread F T × Bool)
  | .starting i (.event e :: ops) => some (tx.tell [e], .starting i ops, false)
  | .starting i (.register :: ops) => some ({ tx with registered := true }, .starting i ops, true)
  | .starting _ [] => none
  | .following i followUp =>
    if free then
      some (tx, .executing i (if tx.finished then [] else followUp.calls env tx.audited), false)
    else none
  | .executing i (c :: calls) => some (tx.tell [.call c], .executing i calls, false)
  | .executing _ [] => some (tx, .returned, false)
  | .finishing (i :: rest) finish =>
    if free then
      if tx.finished then some (tx, .unlocking i rest finish, false)
      else some ({ tx with finished := true }, .ending i rest finish, false)
    else none
  | .finishing [] _ => none
  | .ending i rest finish =>
    some (tx.tell (endEvents tx.mode tx.texts finish), .closing i rest finish, false)
  | .closing i rest finish => some (tx.tell [.close], .unlocking i rest finish, false)
  | .unlocking _ rest finish => some (tx, .finishing rest finish, false)
  | .returned => none

/-- The transaction a thread works on. -/
def Thread.subject : Thread F T → Option ℕ
  | .starting i _ | .following i _ | .executing i _ | .finishing (i :: _) _ | .ending i _ _
  | .closing i _ _ | .unlocking i _ _ => some i
  | _ => none

def Pool.serve (env : AuditEnvironment γ F T) (pool : Pool F T) (t : ℕ) : Option (Pool F T) := do
  let thread ← pool.threads[t]?
  let i ← thread.subject
  let tx ← pool.txs[i]?
  let (tx, thread, registers) ← thread.next env (decide (pool.free i)) tx
  some ⟨pool.txs.set i tx, if registers then i :: pool.pending else pool.pending,
    pool.threads.set t thread⟩

def Pool.step (env : AuditEnvironment γ F T) (pool : Pool F T) : PoolAction F T → Pool F T
  | .start input =>
    { pool with
      txs := pool.txs ++ [.fresh env input]
      threads := pool.threads ++
        [.starting pool.txs.length (dbQueryMultiTransactionalOps env input)] }
  | .followUp i followUp =>
    if i ∈ pool.pending then { pool with threads := pool.threads ++ [.following i followUp] }
    else pool
  | .finish i finish =>
    if i ∈ pool.pending then
      { pool with
        pending := pool.pending.filter (· ≠ i)
        threads := pool.threads ++ [.finishing [i] finish] }
    else pool
  | .rollbackPending fits taken =>
    if taken.Perm (pool.pending.filter fits) then
      { pool with
        pending := pool.pending.filter fun i => !fits i
        threads := pool.threads ++ [.finishing taken .rollback] }
    else pool
  | .step t => (pool.serve env t).getD pool

end GoNavi.Editor
