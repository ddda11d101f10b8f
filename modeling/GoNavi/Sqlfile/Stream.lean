import GoNavi.Sqlfile.Batchable
import GoNavi.Sqlfile.Result
import GoNavi.Sqlfile.Trackers

/-! # Running a SQL file

`executeSQLFileStream` without a transaction around the file: writes are collected into batches,
which run in a transaction of their own (`executeSQLFileBatchWithOutcome`), all other statements
run one by one (`executeSingle`).  A batch that fails is split in halves until the statements
that fail are found (`isolateFailedBatch`).

The server is a parameter: what a statement and a batch do to the session, and how they end.
The points at which the context is checked are counted, so that it can be cancelled between any
two of them. -/

namespace GoNavi.Sqlfile

open Scan GoNavi.Sql

variable {S : Type}

/-- A statement, with its position in the file. -/
structure PendingStatement where
  index : ℕ
  sql : Text
deriving DecidableEq

/-- How a call of the driver ends.  An error is unknown if the response may have been lost
(`IsWriteOutcomeUnknown`, `IsAmbiguousWriteResponse`). -/
inductive Reply where
  | ok
  | error (unknown : Bool)
deriving DecidableEq

structure FileServer (S : Type) where
  /-- `ExecContext`. -/
  exec : S → Text → S × Reply
  /-- `ExecBatchContext`. -/
  execBatch : S → Text → S × Reply
  discard : S → S

structure StreamOptions where
  unicode : UnicodeTables
  gates : DocumentGates
  dbType : Text
  continueOnError : Bool
  maxStatements : ℕ
  maxBytes : ℕ
  /-- The preflight check and the guard. -/
  rejects : ℕ → Text → Bool
  skips : ℕ → Text → Bool
  /-- The driver has sessions, and the run has one of its own. -/
  pinned : Bool
  supportsBatch : Bool
  /-- Whether the context is cancelled at its check of this number. -/
  cancelled : ℕ → Bool

namespace StreamOptions

def batchMaxStatements (o : StreamOptions) : ℕ :=
  if o.maxStatements = 0 then 1000 else o.maxStatements

def batchMaxBytes (o : StreamOptions) : ℕ :=
  if o.maxBytes = 0 then 4 * 1024 * 1024 else o.maxBytes

/-- In the MySQL family, a run that continues on errors sends one statement at a time. -/
def safeSequentialContinue (o : StreamOptions) : Bool :=
  o.continueOnError && isSQLFileMySQLCompatibleDialect o.dbType

def useTransactionalBatch (o : StreamOptions) : Bool := o.pinned && o.supportsBatch

end StreamOptions

inductive StreamStop where
  | cancelled
  | stoppedOnError
  | batchFailed
  | rejected
  | read
  | unclosedTransaction
deriving DecidableEq

structure FileRun (S : Type) where
  session : S
  /-- How often the context was checked. -/
  checks : ℕ
  result : SQLFileExecutionResult
  batch : List PendingStatement
  batchBytes : ℕ
  userTransactionDepth : ℕ
  sqlServerTransaction : SQLServerTransactionTracker
  mysqlAutocommitDisabled : Bool
  mysqlAutocommitTransactionActive : Bool
  mysqlAutocommitStateUnknown : Bool
  mysqlTablesLocked : Bool
  /-- The statements that were sent, and the replies, for the record. -/
  log : List (List PendingStatement × Reply)
  /-- The session at the start of each batch, for the record. -/
  starts : List S
  /-- The statements that were sent alone, with the session before, for the record. -/
  sent : List (S × Text)

namespace FileRun

def initial (session : S) : FileRun S :=
  ⟨session, 0, .initial, [], 0, 0, .reset, false, false, false, false, [], [], []⟩

def tick (s : FileRun S) : FileRun S := { s with checks := s.checks + 1 }

def markUnknown (s : FileRun S) : FileRun S :=
  { s with result := { s.result with outcomeUnknown := true } }

def markIf (unknown : Bool) (s : FileRun S) : FileRun S := if unknown then s.markUnknown else s

def recordError (s : FileRun S) (item : PendingStatement) : FileRun S :=
  { s with result := s.result.recordError item.index item.sql }

/-- A failure that is not one of a statement. -/
def countFailure (s : FileRun S) (detail : ErrorDetail) : FileRun S :=
  { s with
    result := { s.result with failed := s.result.failed + 1 }.appendErrorDetail detail }

def countExecuted (s : FileRun S) (n : ℕ) : FileRun S :=
  { s with result := { s.result with executed := s.result.executed + n } }

/-- Go on, unless the run has stopped. -/
def andThen (r : FileRun S × Option StreamStop)
    (f : FileRun S → FileRun S × Option StreamStop) : FileRun S × Option StreamStop :=
  match r with
  | (s, some stop) => (s, some stop)
  | (s, none) => f s

end FileRun

section

variable (server : FileServer S) (o : StreamOptions)

/-! ### Calls of the driver -/

/-- `execSQLFileStatement`, for a statement of the file (`items`) or a text of the run itself. -/
def execSQLFileStatement (items : List PendingStatement) (sql : Text) (s : FileRun S) :
    FileRun S × Reply :=
  if o.cancelled s.checks then (s.tick, .error true)
  else
    let (session, reply) := server.exec s.session sql
    ({ s.tick with
        session := session, log := if items = [] then s.log else s.log ++ [(items, reply)],
        sent := s.sent ++ items.map fun item => (s.session, item.sql) },
      reply)

/-- `rollbackSQLFileTransaction`, which no cancellation reaches. -/
def rollbackSQLFileTransaction (rollbackSQL : Text) (s : FileRun S) : FileRun S × Reply :=
  let (session, reply) := server.exec s.session rollbackSQL
  match reply with
  | .ok => ({ s with session := session }, .ok)
  | .error unknown => ({ s with session := server.discard session }, .error unknown)

def joinSQLFileBatchStatements (items : List PendingStatement) : Text :=
  (bytes ";\n").intercalate (items.map (·.sql))

def execBatch (items : List PendingStatement) (s : FileRun S) : FileRun S × Reply :=
  let (session, reply) := server.execBatch s.session (joinSQLFileBatchStatements items)
  ({ s with session := session, log := s.log ++ [(items, reply)] }, reply)

/-- The outcome of a batch. -/
structure BatchOutcome where
  failed : Bool
  canFallback : Bool
  outcomeUnknown : Bool
deriving DecidableEq

/-- The rollback behind an error of a batch. -/
def rollbackBatch (texts : TransactionSQL) (outcome : BatchOutcome) (s : FileRun S) :
    FileRun S × BatchOutcome :=
  match rollbackSQLFileTransaction server texts.rollbackSQL s with
  | (s, .error _) => (s, ⟨true, false, true⟩)
  | (s, .ok) => (s, outcome)

def runBatch (items : List PendingStatement) (s : FileRun S) : FileRun S × BatchOutcome :=
  match (if o.useTransactionalBatch then sqlFileBatchTransactionSQL o.dbType else none) with
  | none =>
    match execBatch server items s with
    | (s, .ok) => (s, ⟨false, false, false⟩)
    | (s, .error unknown) => (s, ⟨true, false, unknown⟩)
  | some texts =>
    match execSQLFileStatement server o [] texts.beginSQL s with
    | (s, .error unknown) => rollbackBatch server texts ⟨true, false, unknown⟩ s
    | (s, .ok) =>
      match execBatch server items s with
      | (s, .error true) => rollbackBatch server texts ⟨true, false, true⟩ s
      | (s, .error false) =>
        rollbackBatch server texts ⟨true, true, isSQLFileMySQLCompatibleDialect o.dbType⟩ s
      | (s, .ok) =>
        match execSQLFileStatement server o [] texts.commitSQL s with
        | (s, .error _) => rollbackBatch server texts ⟨true, false, true⟩ s
        | (s, .ok) => (s, ⟨false, false, false⟩)

/-- `executeSQLFileBatchWithOutcome`, with its start on record. -/
def executeSQLFileBatchWithOutcome (items : List PendingStatement) (s : FileRun S) :
    FileRun S × BatchOutcome :=
  runBatch server o items { s with starts := s.starts ++ [s.session] }

/-! ### One statement -/

/-- The error path of `executeSingle`. -/
def failSingle (item : PendingStatement) (unknown : Bool) (s : FileRun S) :
    FileRun S × Option StreamStop :=
  let s := s.markIf (unknown || sqlFileStatementFinishesTransaction item.sql)
  if o.cancelled s.checks then (s.tick.markUnknown, some .cancelled)
  else
    let s := s.tick.recordError item
    if unknown || !o.continueOnError then (s, some .stoppedOnError) else (s, none)

/-- The run before a statement before which the MySQL family commits. -/
def beforeSingle (item : PendingStatement) (s : FileRun S) : FileRun S :=
  if sqlFileMySQLImplicitCommitBeforeStatement o.dbType item.sql then
    { s with userTransactionDepth := 0, mysqlAutocommitTransactionActive := false }
  else s

/-- `executeSingle`, with whether the statement succeeded. -/
def executeSingle (item : PendingStatement) (s : FileRun S) :
    (FileRun S × Option StreamStop) × Bool :=
  let s := beforeSingle o item s
  if o.cancelled s.checks then ((s.tick, some .cancelled), false)
  else
    match execSQLFileStatement server o [item] item.sql s.tick with
    | (s, .error unknown) => (failSingle o item unknown s, false)
    | (s, .ok) => ((s.countExecuted 1, none), true)

/-! ### Batches that fail -/

def executeBatchSequentially :
    List PendingStatement → FileRun S → FileRun S × Option StreamStop
  | [], s => (s, none)
  | item :: items, s =>
    FileRun.andThen (executeSingle server o item s).1 (executeBatchSequentially items)

/-- `executeIsolationBatch`; `isolate` goes on with a batch that fails. -/
def executeIsolationBatch
    (isolate : List PendingStatement → FileRun S → FileRun S × Option StreamStop)
    (items : List PendingStatement) (s : FileRun S) : FileRun S × Option StreamStop :=
  if o.cancelled s.checks then (s.tick, some .cancelled)
  else
    match executeSQLFileBatchWithOutcome server o items s.tick with
    | (s, outcome) =>
      let s := s.markIf outcome.outcomeUnknown
      if outcome.failed && outcome.outcomeUnknown then (s, some .batchFailed)
      else if outcome.failed = false then (s.countExecuted items.length, none)
      else if o.cancelled s.checks then
        (s.tick.markIf (!o.useTransactionalBatch || !outcome.canFallback), some .cancelled)
      else if outcome.canFallback = false then (s.tick, some .batchFailed)
      else isolate items s.tick

/-- `sqlFileBatchIsolationSequentialThreshold`. -/
def isolationSequentialThreshold : ℕ := 16

/-- `isolateFailedBatch`; the number bounds the length of the batch. -/
def isolateFailedBatch :
    ℕ → List PendingStatement → FileRun S → FileRun S × Option StreamStop
  | 0, _, s => (s, none)
  | n + 1, items, s =>
    match items with
    | [] => (s, none)
    | [item] =>
      if o.cancelled s.checks then (s.tick, some .cancelled) else (s.tick.recordError item, none)
    | items =>
      if o.cancelled s.checks then (s.tick, some .cancelled)
      else if items.length ≤ isolationSequentialThreshold then
        executeBatchSequentially server o items s.tick
      else
        let middle := items.length / 2
        FileRun.andThen
          (executeIsolationBatch server o (isolateFailedBatch n) (items.take middle) s.tick)
          (executeIsolationBatch server o (isolateFailedBatch n) (items.drop middle))

/-- The error path of `flushBatch`. -/
def failBatch (items : List PendingStatement) (outcome : BatchOutcome) (s : FileRun S) :
    FileRun S × Option StreamStop :=
  if o.cancelled s.checks then
    (s.tick.markIf (!o.useTransactionalBatch || !outcome.canFallback), some .cancelled)
  else
    let s := { s.tick with batch := [], batchBytes := 0 }
    if outcome.canFallback = false then (s, some .batchFailed)
    else if o.continueOnError = false then
      (s.countFailure (.batch ((items.head?.map (·.index)).getD 0 + 1)), some .stoppedOnError)
    else isolateFailedBatch server o items.length items s

def flushBatch (s : FileRun S) : FileRun S × Option StreamStop :=
  let items := s.batch
  if items = [] then (s, none)
  else if o.cancelled s.checks then (s.tick, some .cancelled)
  else
    match executeSQLFileBatchWithOutcome server o items s.tick with
    | (s, outcome) =>
      let s := s.markIf outcome.outcomeUnknown
      if outcome.failed then failBatch server o items outcome s
      else ({ s.countExecuted items.length with batch := [], batchBytes := 0 }, none)

/-! ### The loop -/

/-- What a statement that succeeded changes in the autocommit mode. -/
def trackAutocommit (stmt : Text) (s : FileRun S) : FileRun S :=
  match sqlFileMySQLAutocommitAssignment o.dbType stmt with
  | some mode =>
    let wasKnownDisabled := s.mysqlAutocommitDisabled && !s.mysqlAutocommitStateUnknown
    let s :=
      { s with
        mysqlAutocommitStateUnknown := mode = .unknown,
        mysqlAutocommitDisabled := mode ≠ .enabled }
    if mode = .enabled then
      { s with
        mysqlAutocommitTransactionActive := false,
        userTransactionDepth := if wasKnownDisabled then 0 else s.userTransactionDepth }
    else s
  | none =>
    if s.mysqlAutocommitDisabled then
      let active := s.mysqlAutocommitTransactionActive &&
        updateSQLFileTransactionState o.dbType true stmt
      { s with
        mysqlAutocommitTransactionActive :=
          active || isBatchableWriteSQLStatement o.gates o.dbType stmt }
    else s

def trackTableLocks (stmt : Text) (s : FileRun S) : FileRun S :=
  match sqlFileMySQLTableLockCommand o.dbType stmt with
  | (true, _) => { s with mysqlTablesLocked := true }
  | (false, unlocks) =>
    if unlocks && s.mysqlTablesLocked then
      { s with
        userTransactionDepth := 0, mysqlAutocommitTransactionActive := false,
        mysqlTablesLocked := false }
    else s

def trackDepth (stmt : Text) (s : FileRun S) : FileRun S :=
  if normalizeSQLClassifierDBType o.dbType = bytes "sqlserver" then
    let tracker := updateSQLFileSQLServerTransactionTracker s.sqlServerTransaction stmt
    { s with sqlServerTransaction := tracker, userTransactionDepth := tracker.depth }
  else
    { s with userTransactionDepth :=
        updateSQLFileTransactionDepth o.dbType s.userTransactionDepth stmt }

/-- What the run knows behind a statement that succeeded. -/
def track (stmt : Text) (s : FileRun S) : FileRun S :=
  trackTableLocks o stmt (trackAutocommit o stmt (trackDepth o stmt s))

/-- Whether a statement goes into a batch. -/
def batchable (stmt : Text) (s : FileRun S) : Bool :=
  o.supportsBatch && !o.safeSequentialContinue && s.userTransactionDepth = 0 &&
    !s.mysqlAutocommitDisabled && !s.mysqlTablesLocked &&
    isSQLFileBatchableWriteStatement o.unicode o.gates o.dbType stmt

/-- A statement that is longer than a batch may be runs as a batch of its own. -/
def executeOversized (item : PendingStatement) (s : FileRun S) : FileRun S × Option StreamStop :=
  match executeSQLFileBatchWithOutcome server o [item] s with
  | (s, outcome) =>
    let s := s.markIf outcome.outcomeUnknown
    if outcome.failed = false then (s.countExecuted 1, none)
    else if o.cancelled s.checks then (s.tick, some .cancelled)
    else if outcome.canFallback = false then (s.tick, some .batchFailed)
    else
      let s := s.tick.recordError item
      (s, if o.continueOnError then none else some .stoppedOnError)

def appendToBatch (item : PendingStatement) (s : FileRun S) : FileRun S :=
  { s with
    batch := s.batch ++ [item],
    batchBytes :=
      if s.batchBytes = 0 then item.sql.length else s.batchBytes + 2 + item.sql.length }

/-- The batch has no room for another statement. -/
def batchFull (item : PendingStatement) (s : FileRun S) : Bool :=
  !s.batch.isEmpty && (o.batchMaxStatements ≤ s.batch.length ||
    o.batchMaxBytes < s.batchBytes + 2 + item.sql.length)

def addToBatch (item : PendingStatement) (s : FileRun S) : FileRun S × Option StreamStop :=
  FileRun.andThen (if batchFull o item s then flushBatch server o s else (s, none)) fun s =>
    if o.batchMaxBytes < item.sql.length then
      FileRun.andThen (flushBatch server o s) (executeOversized server o item)
    else (appendToBatch item s, none)

/-- A statement that goes into no batch. -/
def runAlone (item : PendingStatement) (s : FileRun S) : FileRun S × Option StreamStop :=
  FileRun.andThen (flushBatch server o s) fun s =>
    match executeSingle server o item s with
    | (r, succeeded) =>
      FileRun.andThen r fun s => (if succeeded then track o item.sql s else s, none)

/-- The callback for the statement at a position. -/
def onStatement (index : ℕ) (statement : Text) (s : FileRun S) : FileRun S × Option StreamStop :=
  let stmt := trimSpace statement
  let item : PendingStatement := ⟨index, stmt⟩
  if o.cancelled s.checks then (s.tick, some .cancelled)
  else if stmt = [] then (s.tick, none)
  else if o.rejects index stmt then (s.tick, some .rejected)
  else if o.skips index stmt then (s.tick, none)
  else if batchable o stmt s then addToBatch server o item s.tick
  else runAlone server o item s.tick

def onStatements : ℕ → List Text → FileRun S → FileRun S × Option StreamStop
  | _, [], s => (s, none)
  | index, statement :: statements, s =>
    FileRun.andThen (onStatement server o index statement s) (onStatements (index + 1) statements)

/-- The end of the file. -/
def endStream (s : FileRun S) : FileRun S × Option StreamStop :=
  FileRun.andThen (flushBatch server o s) fun s =>
    if 0 < s.userTransactionDepth ∨ s.mysqlAutocommitTransactionActive then
      (s.countFailure .unclosedTransaction, some .unclosedTransaction)
    else (s, none)

/-- `executeSQLFileStream` up to its deferred cleanup; `readFails` says whether the reader fails
behind the statements. -/
def executeSQLFileStream (statements : List Text) (readFails : Bool) (session : S) :
    FileRun S × Option StreamStop :=
  FileRun.andThen (onStatements server o 0 statements (.initial session)) fun s =>
    if readFails then (s, some .read) else endStream server o s

/-- The deferred cleanup: an open transaction is rolled back, and the session is discarded. -/
def cleanUpStream (s : FileRun S) : FileRun S :=
  let s :=
    if 0 < s.userTransactionDepth ∨ s.mysqlAutocommitTransactionActive then
      let rollbackSQL :=
        ((sqlFileBatchTransactionSQL o.dbType).map (·.rollbackSQL)).getD (bytes "ROLLBACK")
      (rollbackSQLFileTransaction server rollbackSQL s).1
    else s
  if o.pinned then { s with session := server.discard s.session } else s

end

end GoNavi.Sqlfile
