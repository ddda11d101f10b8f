import GoNavi.Scan.Text
import Mathlib.Data.List.Sort

/-! # The store of synchronization jobs

The tables of jobs, runs and run events, and the transactions that the store makes of its
methods.  A transaction changes the tables as a whole or, when one of its statements fails, not
at all.  What a definition holds beyond the fields of the store is of any type `δ`. -/

namespace GoNavi.Syncjob

open Scan

/-! ### Records -/

inductive JobLifecycle where
  | draft
  | ready
  | enabled
  | paused
  | archived
  deriving DecidableEq

/-- `RunStatusPartial` is `partially`. -/
inductive RunStatus where
  | queued
  | running
  | cancelling
  | paused
  | succeeded
  | partially
  | failed
  | canceled
  | interrupted
  deriving DecidableEq

inductive RunTrigger where
  | manual
  | schedule
  | resume
  | retry
  deriving DecidableEq

inductive RunEventType where
  | queued
  | started
  | progress
  | checkpoint
  | errorRow
  | cancelling
  | canceled
  | succeeded
  | partially
  | failed
  | interrupted
  | log
  deriving DecidableEq

structure JobDefinition (δ : Type) where
  id : Text
  lifecycle : JobLifecycle
  enabled : Bool
  intervalSchedule : Bool
  anchorAt : ℤ
  concurrencyPolicy : Text
  revision : ℤ
  createdAt : ℤ
  updatedAt : ℤ
  nextRunAt : ℤ
  lastScheduledAt : ℤ
  archivedAt : ℤ
  details : δ

/-- A row of `data_sync_jobs`: the definition as its JSON and the columns read beside it. -/
structure JobRow (δ : Type) where
  id : Text
  enabled : Bool
  definition : JobDefinition δ
  revision : ℤ
  createdAt : ℤ
  nextRunAt : ℤ
  lastScheduledAt : ℤ
  archivedAt : ℤ

structure RunRecord where
  id : Text
  jobID : Text
  ownerToken : Text
  jobRevision : ℤ
  trigger : RunTrigger
  status : RunStatus
  parentRunID : Text
  attempt : ℤ
  queuedAt : ℤ
  startedAt : ℤ
  finishedAt : ℤ
  heartbeatAt : ℤ
  current : ℤ
  total : ℤ
  table : Text
  stage : Text
  rowsInserted : ℤ
  rowsUpdated : ℤ
  rowsDeleted : ℤ
  rowsFailed : ℤ
  message : Text
  resumable : Bool
  definitionSnapshot : Text
  createdAt : ℤ
  updatedAt : ℤ
  deriving DecidableEq

structure ExecutionOutcome where
  rowsInserted : ℤ
  rowsUpdated : ℤ
  rowsDeleted : ℤ
  rowsFailed : ℤ
  message : Text
  resumable : Bool

structure RunProgress where
  current : ℤ
  total : ℤ
  table : Text
  stage : Text
  message : Text

structure RunEvent where
  runID : Text
  jobID : Text
  sequence : ℤ
  type : RunEventType
  status : RunStatus
  current : ℤ
  total : ℤ
  table : Text
  stage : Text
  message : Text
  createdAt : ℤ
  deriving DecidableEq

structure Store (δ : Type) where
  jobs : List (JobRow δ)
  runs : List RunRecord
  events : List RunEvent

/-- A store that has just been created. -/
def Store.empty {δ : Type} : Store δ := ⟨[], [], []⟩

inductive Err where
  | closed
  | notFound
  | revisionConflict
  | runAlreadyActive
  | jobRunsActive
  | runNotCancelable
  | runNotDeletable
  | runOwnershipLost
  | errorRowStateConflict
  | errorRowRetryOwnershipLost
  | jobDisabled
  | runNotResumable
  | runNotRetryable
  | other (message : String)
  deriving DecidableEq

/-! ### Definitions -/

/-- What the store and the manager ask about a definition. -/
structure Definitions (δ : Type) where
  normalizeDefinition : JobDefinition δ → JobDefinition δ
  validatePersistableDefinition : JobDefinition δ → Option String
  validateDefinition : JobDefinition δ → Option String
  nextRunAt : JobDefinition δ → ℤ → ℤ
  marshal : JobDefinition δ → Text
  decodeRunDefinition : RunRecord → Except String (JobDefinition δ)
  executionPlanHash : JobDefinition δ → Except String Text
  catchUp : JobDefinition δ → Bool
  continuous : JobDefinition δ → Bool
  neverResumes : JobDefinition δ → Bool
  insertOnly : JobDefinition δ → Bool
  /-- A name-based UUID. -/
  nameUUID : Text → Text

/-- What a transaction meets: the clock, an identifier that is drawn, and the error of the
database that ends it, if any. -/
structure World where
  now : ℤ
  uuid : Text
  fails : Option String

variable {δ : Type}

/-- A transaction, which a failing statement rolls back. -/
def transaction {α : Type} (world : World) (operation : Store δ → Except Err (α × Store δ))
    (s : Store δ) : Except Err α × Store δ :=
  match world.fails with
  | some err => (.error (.other err), s)
  | none =>
    match operation s with
    | .ok (result, s') => (.ok result, s')
    | .error err => (.error err, s)

/-- `UPDATE data_sync_runs SET ... WHERE ...`, with the number of rows it affects. -/
def updateRuns (cond : RunRecord → Bool) (f : RunRecord → RunRecord) (s : Store δ) : ℕ × Store δ :=
  (s.runs.countP cond, { s with runs := s.runs.map fun r => if cond r then f r else r })

/-- `DELETE FROM data_sync_runs WHERE ...`; the events of the runs go with them. -/
def deleteRuns (cond : RunRecord → Bool) (s : Store δ) : ℕ × Store δ :=
  let kept := s.runs.filter fun r => ¬ cond r
  (s.runs.countP cond, { s with
    runs := kept
    events := s.events.filter fun e => e.runID ∈ kept.map RunRecord.id })

def findRun (id : Text) (s : Store δ) : Except Err RunRecord :=
  match s.runs.find? fun r => r.id = id with
  | some run => .ok run
  | none => .error .notFound

def findJob (id : Text) (s : Store δ) : Option (JobRow δ) := s.jobs.find? fun job => job.id = id

/-! ### Jobs -/

/-- `Store.GetJob`. -/
def getJob (id : Text) (s : Store δ) : Except Err (JobDefinition δ × Store δ) :=
  match findJob (trimSpace id) s with
  | some row =>
    .ok ({ row.definition with
      nextRunAt := row.nextRunAt
      lastScheduledAt := row.lastScheduledAt
      archivedAt := row.archivedAt }, s)
  | none => .error .notFound

/-- What `putJob` changes of a definition before its transaction. -/
def stampDefinition (now : ℤ) (definition : JobDefinition δ) : JobDefinition δ :=
  let definition :=
    if definition.lifecycle = .archived then
      if definition.archivedAt = 0 then { definition with archivedAt := now } else definition
    else { definition with archivedAt := 0 }
  if definition.intervalSchedule ∧ definition.anchorAt ≤ 0 then
    { definition with anchorAt := now }
  else definition

/-- The revision and the time of creation that a definition is saved under. -/
def reviseDefinition (world : World) (definition : JobDefinition δ) (s : Store δ) :
    Except Err (JobDefinition δ) :=
  if definition.id = [] then
    .ok { definition with
      id := bytes "sync-job-" ++ world.uuid, revision := 1, createdAt := world.now }
  else
    match findJob definition.id s with
    | none =>
      if definition.revision > 0 then .error .notFound
      else .ok { definition with revision := 1, createdAt := world.now }
    | some row =>
      if definition.revision ≠ row.revision then .error .revisionConflict
      else .ok { definition with revision := row.revision + 1, createdAt := row.createdAt }

/-- `INSERT INTO data_sync_jobs ... ON CONFLICT(id) DO UPDATE SET ...`. -/
def upsertJob (definition : JobDefinition δ) (s : Store δ) : Store δ :=
  match findJob definition.id s with
  | none => { s with jobs := s.jobs ++ [{
      id := definition.id
      enabled := definition.enabled
      definition
      revision := definition.revision
      createdAt := definition.createdAt
      nextRunAt := definition.nextRunAt
      lastScheduledAt := definition.lastScheduledAt
      archivedAt := definition.archivedAt }] }
  | some _ => { s with jobs := s.jobs.map fun row =>
      if row.id = definition.id then { row with
        enabled := definition.enabled
        definition
        revision := definition.revision
        nextRunAt := definition.nextRunAt
        archivedAt := definition.archivedAt }
      else row }

/-- The transaction of `putJob`. -/
def saveJob (definitions : Definitions δ) (world : World) (definition : JobDefinition δ)
    (s : Store δ) : Except Err (JobDefinition δ × Store δ) := do
  let definition ← reviseDefinition world (stampDefinition world.now definition) s
  let definition := { definition with updatedAt := world.now }
  let definition := { definition with nextRunAt := definitions.nextRunAt definition world.now }
  return (definition, upsertJob definition s)

/-- A job whose queued runs may be claimed. -/
def runnable (row : JobRow δ) : Bool :=
  row.archivedAt = 0 ∧ (row.definition.lifecycle = .ready ∨
    (row.definition.lifecycle = .enabled ∧ row.enabled))

/-- The `DELETE` of `Store.PurgeJob`; the runs of the job and their events go with it. -/
def purgeJob (id : Text) (s : Store δ) : Except Err (Bool × Store δ) :=
  let id := trimSpace id
  if ∃ r ∈ s.runs, r.jobID = id ∧ r.status ∈ [RunStatus.queued, .running, .cancelling] then
    .ok (false, s)
  else
    match findJob id s with
    | none => .ok (false, s)
    | some _ =>
      let (_, kept) := deleteRuns (fun r => r.jobID = id) s
      .ok (true, { kept with jobs := s.jobs.filter fun row => row.id ≠ id })

def jobExists (id : Text) (s : Store δ) : Except Err (Bool × Store δ) :=
  .ok ((findJob (trimSpace id) s).isSome, s)

/-! ### Schedules -/

/-- `scanJob`: the definition of a row, with the columns read beside it. -/
def scanJob (row : JobRow δ) : JobDefinition δ :=
  { row.definition with
    nextRunAt := row.nextRunAt
    lastScheduledAt := row.lastScheduledAt
    archivedAt := row.archivedAt }

/-- `Store.ListDueJobs`. -/
def listDueJobs (nowMillis : ℤ) (s : Store δ) : Except Err (List (JobDefinition δ) × Store δ) :=
  let due := s.jobs.filter fun row =>
    row.enabled ∧ row.archivedAt = 0 ∧ 0 < row.nextRunAt ∧ row.nextRunAt ≤ nowMillis
  let sorted := due.insertionSort fun a b =>
    a.nextRunAt < b.nextRunAt ∨ (a.nextRunAt = b.nextRunAt ∧ a.id ≤ b.id)
  .ok (sorted.map scanJob, s)

/-- The rows that the `UPDATE` of `AdvanceScheduleIfDue` changes. -/
def dueAt (id : Text) (scheduledAt : ℤ) (row : JobRow δ) : Bool :=
  row.id = id ∧ row.nextRunAt = scheduledAt ∧ row.enabled ∧ row.archivedAt = 0

/-- The `UPDATE` of `AdvanceScheduleIfDue`. -/
def advanceSchedule (id : Text) (scheduledAt next : ℤ) (s : Store δ) :
    Except Err (Bool × Store δ) :=
  let cond := dueAt id scheduledAt
  let jobs := s.jobs.map fun row =>
    if cond row then { row with nextRunAt := next, lastScheduledAt := scheduledAt } else row
  .ok (s.jobs.any cond, { s with jobs })

/-! ### Creating and claiming runs -/

/-- `prepareRunForInsert`; a status or a trigger that is not set stands for `queued` and
`manual`. -/
def prepareRunForInsert (world : World) (run : RunRecord) : Except Err RunRecord :=
  let run := { run with
    id := if trimSpace run.id = [] then bytes "sync-run-" ++ world.uuid else run.id
    attempt := if run.attempt < 1 then 1 else run.attempt
    queuedAt := if run.queuedAt = 0 then world.now else run.queuedAt }
  if run.definitionSnapshot = [] then
    .error (.other "data sync run definition snapshot is required")
  else .ok { run with createdAt := world.now, updatedAt := world.now }

def forbidPendingForPolicy (policy : Text) : Except Err Bool :=
  let policy := trimSpace policy
  let policy := if policy = [] then bytes "forbid" else policy
  if policy = bytes "queue" then .ok false
  else if policy = bytes "forbid" then .ok true
  else .error (.other "unsupported data sync concurrency policy")

/-- A run that is not over. -/
def pending (status : RunStatus) : Bool := status ∈ [.queued, .running, .cancelling, .paused]

/-- `insertRun`: the primary key and the reference to the job are checked by the database. -/
def insertRun (run : RunRecord) (forbidPending : Bool) (s : Store δ) : Except Err (Store δ) :=
  if forbidPending = true ∧ ∃ r ∈ s.runs, r.jobID = run.jobID ∧ pending r.status then
    .error .runAlreadyActive
  else if ∃ r ∈ s.runs, r.id = run.id then
    .error (.other "create data sync run: UNIQUE constraint failed")
  else if (findJob run.jobID s).isNone then
    .error (.other "create data sync run: FOREIGN KEY constraint failed")
  else .ok { s with runs := s.runs ++ [run] }

/-- `CreateRunWithPolicyAndQueuedEvent`. -/
def createRunWithPolicyAndQueuedEvent (world : World) (run : RunRecord) (policy : Text)
    (eventCreatedAt : ℤ) (s : Store δ) : Except Err ((RunRecord × RunEvent) × Store δ) := do
  let forbidPending ← forbidPendingForPolicy policy
  let run ← prepareRunForInsert world run
  if run.status ≠ .queued then
    .error (.other "atomic data sync run creation requires queued status")
  else
    let s ← insertRun run forbidPending s
    let event : RunEvent := {
      runID := run.id
      jobID := run.jobID
      sequence := 1
      type := .queued
      status := .queued
      current := 0
      total := 0
      table := []
      stage := []
      message := bytes "queued"
      createdAt := if eventCreatedAt ≤ 0 then world.now else eventCreatedAt }
    return ((run, event), { s with events := s.events ++ [event] })

/-- The time an operation is given, or that of the clock. -/
def timeOr (world : World) (nowMillis : ℤ) : ℤ := if nowMillis ≤ 0 then world.now else nowMillis

/-- A run that is worked on. -/
def active (status : RunStatus) : Bool := status ∈ [.running, .cancelling]

/-- The rows that the `UPDATE` of `ClaimRun` changes. -/
def claimable (s : Store δ) (id : Text) (candidate : RunRecord) : Bool :=
  candidate.id = id ∧ candidate.status = .queued ∧
    (∃ job ∈ s.jobs, job.id = candidate.jobID ∧ runnable job) ∧
    ¬ ∃ other ∈ s.runs, other.jobID = candidate.jobID ∧ other.id ≠ candidate.id ∧
      active other.status

def claimRun (world : World) (id : Text) (nowMillis : ℤ) (s : Store δ) :
    Except Err (Bool × Store δ) :=
  let now := timeOr world nowMillis
  let (affected, s') := updateRuns (claimable s (trimSpace id)) (fun r => { r with
    status := .running
    startedAt := if r.startedAt = 0 then now else r.startedAt
    heartbeatAt := now
    ownerToken := world.uuid
    updatedAt := now }) s
  .ok (affected > 0, s')

def getRun (id : Text) (s : Store δ) : Except Err (RunRecord × Store δ) :=
  (findRun (trimSpace id) s).map fun run => (run, s)

/-! ### Working on runs -/

/-- A run that its owner works on. -/
def ownedBy (id ownerToken : Text) (r : RunRecord) : Bool :=
  r.id = id ∧ r.ownerToken = ownerToken ∧ active r.status

def touchRunOwned (world : World) (id ownerToken : Text) (nowMillis : ℤ) (s : Store δ) :
    Except Err (Unit × Store δ) :=
  if trimSpace ownerToken = [] then .error .runOwnershipLost
  else
    let now := timeOr world nowMillis
    let (affected, s') := updateRuns (ownedBy (trimSpace id) ownerToken)
      (fun r => { r with heartbeatAt := now, updatedAt := now }) s
    if affected = 0 then .error .runOwnershipLost else .ok ((), s')

def updateRunProgressOwned (world : World) (id ownerToken : Text) (progress : RunProgress)
    (nowMillis : ℤ) (s : Store δ) : Except Err (Unit × Store δ) :=
  if trimSpace ownerToken = [] then .error .runOwnershipLost
  else if progress.current < 0 ∨ progress.total < 0 ∨
      (progress.total > 0 ∧ progress.current > progress.total) then
    .error (.other "data sync run progress is outside its valid range")
  else
    let now := timeOr world nowMillis
    let (affected, s') := updateRuns
      (fun r => r.id = trimSpace id ∧ r.ownerToken = ownerToken ∧ r.status = .running)
      (fun r => { r with
        current := progress.current
        total := progress.total
        table := trimSpace progress.table
        stage := trimSpace progress.stage
        message := progress.message
        heartbeatAt := now
        updatedAt := now }) s
    if affected = 0 then .error .runOwnershipLost else .ok ((), s')

def terminalRunStatus (status : RunStatus) : Bool :=
  status ∈ [.succeeded, .partially, .failed, .canceled, .interrupted]

/-- What `normalizeTerminalRunCompletion` makes of an outcome. -/
structure Completion where
  status : RunStatus
  outcome : ExecutionOutcome
  message : Text
  now : ℤ
  resumable : Bool

def normalizeTerminalRunCompletion (world : World) (status : RunStatus)
    (outcome : ExecutionOutcome) (message : Text) (nowMillis : ℤ) : Except Err Completion :=
  if terminalRunStatus status then
    .ok {
      status
      outcome
      message := if message = [] then outcome.message else message
      now := timeOr world nowMillis
      resumable := outcome.resumable || status = .interrupted }
  else .error (.other "unsupported terminal data sync run status")

def Completion.apply (completion : Completion) (r : RunRecord) : RunRecord :=
  { r with
    status := completion.status
    finishedAt := completion.now
    heartbeatAt := completion.now
    ownerToken := []
    rowsInserted := completion.outcome.rowsInserted
    rowsUpdated := completion.outcome.rowsUpdated
    rowsDeleted := completion.outcome.rowsDeleted
    rowsFailed := completion.outcome.rowsFailed
    message := completion.message
    resumable := completion.resumable
    updatedAt := completion.now }

/-- The `UPDATE` of `completeRunOwned`. -/
def completeRunOwned (world : World) (id ownerToken : Text) (status : RunStatus)
    (outcome : ExecutionOutcome) (message : Text) (nowMillis : ℤ) (s : Store δ) :
    Except Err (Completion × Store δ) :=
  if trimSpace ownerToken = [] then .error .runOwnershipLost
  else do
    let completion ← normalizeTerminalRunCompletion world status outcome message nowMillis
    let (affected, s') := updateRuns (ownedBy (trimSpace id) ownerToken) completion.apply s
    if affected = 0 then .error .runOwnershipLost else .ok (completion, s')

def terminalEventTypeForStatus : RunStatus → RunEventType
  | .succeeded => .succeeded
  | .partially => .partially
  | .canceled => .canceled
  | .interrupted => .interrupted
  | _ => .failed

/-- `appendRunEvent`: the event gets the next number of its run. -/
def appendRunEvent (world : World) (event : RunEvent) (s : Store δ) :
    Except Err (RunEvent × Store δ) := do
  let runID := trimSpace event.runID
  if runID = [] then .error (.other "data sync run event requires runId and type")
  else
    let run ← findRun runID s
    let earlier := (s.events.filter fun e => e.runID = run.id).map RunEvent.sequence
    let event := { event with
      runID := run.id
      jobID := run.jobID
      sequence := (earlier.max?.map (· + 1)).getD 1
      table := trimSpace event.table
      stage := trimSpace event.stage
      createdAt := if event.createdAt ≤ 0 then world.now else event.createdAt }
    return (event, { s with events := s.events ++ [event] })

/-- `CompleteRunOwnedWithTerminalEvent`. -/
def completeRunOwnedWithTerminalEvent (world : World) (id ownerToken : Text)
    (status : RunStatus) (outcome : ExecutionOutcome) (message : Text) (nowMillis : ℤ)
    (s : Store δ) : Except Err ((RunRecord × RunEvent) × Store δ) := do
  let (completion, s) ← completeRunOwned world id ownerToken status outcome message nowMillis s
  let completed ← findRun (trimSpace id) s
  let (event, s) ← appendRunEvent world {
    runID := completed.id
    jobID := completed.jobID
    sequence := 0
    type := terminalEventTypeForStatus status
    status := completed.status
    current := completed.current
    total := completed.total
    table := completed.table
    stage := completed.stage
    message := completed.message
    createdAt := completion.now } s
  return ((completed, event), s)

/-! ### Canceling, recovering and deleting runs -/

/-- A run that is not worked on yet is canceled, another one is asked to stop. -/
def cancelRecord (now : ℤ) (canceledMessage : Text) (otherMessage : Text → Text)
    (r : RunRecord) : RunRecord :=
  if r.status = .queued ∨ r.status = .paused then
    { r with
      status := .canceled
      finishedAt := now
      ownerToken := []
      message := canceledMessage
      updatedAt := now }
  else { r with status := .cancelling, message := otherMessage r.message, updatedAt := now }

/-- The `UPDATE` of `requestCancelRunsForJob`. -/
def requestCancelRunsForJob (world : World) (jobID : Text) (nowMillis : ℤ) (reason : Text)
    (s : Store δ) : Except Err (List RunRecord × Store δ) :=
  let now := timeOr world nowMillis
  let reason := trimSpace reason
  let reason := if reason = [] then bytes "disabled" else reason
  let cancellingMessage := bytes "cancellation requested because task was " ++ reason
  let cond := fun r : RunRecord => decide (r.jobID = trimSpace jobID) && pending r.status
  let f := cancelRecord now (bytes "canceled because task was " ++ reason)
    (fun message => if message = [] then cancellingMessage else message)
  let (_, s') := updateRuns cond f s
  .ok ((s.runs.filter cond).map f, s')

/-- The `UPDATE` of `RequestCancelRun`. -/
def requestCancelRun (world : World) (id : Text) (nowMillis : ℤ) (s : Store δ) :
    Except Err (Bool × Store δ) :=
  let now := timeOr world nowMillis
  let (affected, s') := updateRuns (fun r => decide (r.id = trimSpace id) && pending r.status)
    (cancelRecord now (bytes "canceled before execution") fun message => message) s
  .ok (affected > 0, s')

/-- A run whose owner has not been heard of since. -/
def stale (cutoff : ℤ) (r : RunRecord) : Bool :=
  active r.status ∧ (r.heartbeatAt = 0 ∨ r.heartbeatAt ≤ cutoff)

/-- What `InterruptStaleRuns` makes of a candidate. -/
def recoverRecord (now : ℤ) (candidate r : RunRecord) : RunRecord :=
  let canceled := candidate.status = .cancelling
  let message :=
    if canceled then bytes "canceled after manager restart"
    else bytes "interrupted after manager restart"
  { r with
    status := if canceled then .canceled else .interrupted
    finishedAt := now
    heartbeatAt := now
    ownerToken := []
    message := if r.message = [] then message else r.message
    resumable := ¬ canceled
    updatedAt := now }

/-- The loop of `InterruptStaleRuns` over its candidates. -/
def recoverRuns (cutoff now : ℤ) : List RunRecord → List RunRecord → Store δ →
    Except Err (List RunRecord × Store δ)
  | [], recovered, s => .ok (recovered, s)
  | candidate :: candidates, recovered, s => do
    let cond := fun r : RunRecord => decide (r.id = candidate.id ∧ r.status = candidate.status ∧
      r.ownerToken = candidate.ownerToken ∧ (r.heartbeatAt = 0 ∨ r.heartbeatAt ≤ cutoff))
    let (affected, s) := updateRuns cond (recoverRecord now candidate) s
    if affected = 0 then recoverRuns cutoff now candidates recovered s
    else
      let run ← findRun candidate.id s
      recoverRuns cutoff now candidates (recovered ++ [run]) s

def interruptStaleRuns (world : World) (cutoffMillis nowMillis : ℤ) (s : Store δ) :
    Except Err (List RunRecord × Store δ) :=
  let now := timeOr world nowMillis
  let cutoff := if cutoffMillis ≤ 0 then now else cutoffMillis
  let candidates := (s.runs.filter (stale cutoff)).insertionSort fun a b =>
    a.updatedAt < b.updatedAt ∨ (a.updatedAt = b.updatedAt ∧ a.id ≤ b.id)
  recoverRuns cutoff now candidates [] s

/-- The `DELETE` of `Store.DeleteRun`. -/
def deleteTerminalRun (id : Text) (s : Store δ) : Except Err (Unit × Store δ) :=
  let (affected, s') := deleteRuns (fun r => r.id = id ∧ terminalRunStatus r.status) s
  if affected = 0 then .error .notFound else .ok ((), s')

def clearTerminalRuns (jobID : Text) (s : Store δ) : Except Err (ℕ × Store δ) :=
  let jobID := trimSpace jobID
  .ok (deleteRuns (fun r => terminalRunStatus r.status ∧ (jobID = [] ∨ r.jobID = jobID)) s)

end GoNavi.Syncjob
