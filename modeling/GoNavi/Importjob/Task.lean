import GoNavi.Machine.Stoppable
import GoNavi.Importjob.Job

/-! # The import task

A task takes the rows of a source one by one, collects them in a batch and writes the batch as a
whole or row by row.  It reports its progress to its job, and keeps the rows that the database
refused for the job's error artifact.  What it does to the outside, which is the database, the job
store and the artifact store, is the list of its effects, so that a crash leaves a part of the
list done.  The surroundings answer each question of the task at its own point in time. -/

namespace GoNavi.Importjob

open Scan Stoppable

def importApplyBatchSize : ℕ := 1000
def maxImportBatchBytes : ℕ := 64 * 1024 * 1024
def importProgressRowInterval : ℕ := 100
def maxImportErrorArtifactRows : ℕ := 10000
def maxImportErrorArtifactBytes : ℕ := 32 * 1024 * 1024

variable {β : Type}

/-- The values of a row by column. -/
abbrev Row (β : Type) := List (Text × β)

/-- A rejected row of the source. -/
structure ImportRowError (β : Type) where
  sourceRow : ℕ
  category : Text
  retryable : Bool := false
  values : Row β := []
deriving DecidableEq

/-- What is taken from the libraries: letter case, the size of a row and of its encoding. -/
structure ImportLibraries (β : Type) where
  toLower : Text → Text
  fold : Text → Text
  rowBytes : Row β → Option ℕ
  encodedBytes : ImportRowError β → ℕ

/-- Why a task stops. -/
inductive Stop where
  | canceled | deadlineExceeded | stoppedOnError | failed
deriving DecidableEq

/-- The error that a write of rows returns. -/
inductive Reply where
  | succeeded | skipped | outcomeUnknown | canceled | failed
deriving DecidableEq

/-- What the surroundings answer at each point in time. -/
structure Env where
  contextError : ℕ → Option Stop
  reply : ℕ → Reply
  /-- Whether a write without a known outcome has taken place. -/
  lands : ℕ → Bool
  progressDue : ℕ → Bool
  persistDue : ℕ → Bool
  putFails : ℕ → Bool
  appendFails : ℕ → Bool

/-- What became of submitted rows. -/
inductive Outcome where
  | written | skipped | failed | unknown (landed : Bool)
deriving DecidableEq

inductive Effect (β : Type) where
  | submit (sourceRow : ℕ) (rows : List (Row β)) (outcome : Outcome)
  | put (job : Job)
  | publish (artifactID : Text) (rows : List (ImportRowError β))
deriving DecidableEq

/-- The writer of an error artifact. -/
structure ArtifactWriter (β : Type) where
  rows : List (ImportRowError β) := []
  bytes : ℕ := 0
  truncated : Bool := false
  failed : Bool := false

structure Setup where
  batchEnabled : Bool
  continueOnError : Bool
  batchSize : ℕ := importApplyBatchSize
  /-- Whether the task replays failed rows; its checkpoints are not safe. -/
  retries : Bool := false

structure Task (β : Type) where
  batch : List (Row β) := []
  batchBytes : ℕ := 0
  batchStartRow : ℕ := 0
  currentRow : ℕ := 0
  successCount : ℕ := 0
  skippedCount : ℕ := 0
  failedCount : ℕ := 0
  stoppedOnError : Bool := false
  outcomeUnknown : Bool := false
  lastProgressRow : ℕ := 0
  progressed : Bool := false
  job : Job
  persistFailed : Bool := false
  artifact : ArtifactWriter β := {}
  clock : ℕ := 0
  /-- What the task has done so far, the last first. -/
  effects : List (Effect β) := []

namespace Task

/-- Time passes. -/
def tick (t : Task β) : Task β := { t with clock := t.clock + 1 }

/-- Do something to the outside. -/
def does (e : Effect β) (t : Task β) : Task β := { t with effects := e :: t.effects }

end Task

/-! ### Rejected rows -/

def isRetryableImportErrorRow (lib : ImportLibraries β) (row : ImportRowError β) : Bool :=
  if row.values = [] then false
  else row.retryable || lib.fold (trimSpace row.category) = lib.fold (bytes "database")

/-- A row is kept as long as the artifact has room. -/
def ArtifactWriter.append (lib : ImportLibraries β) (fails : Bool) (row : ImportRowError β)
    (w : ArtifactWriter β) : ArtifactWriter β :=
  if w.failed then w
  else
    let row := { row with category := lib.toLower (trimSpace row.category) }
    let row := { row with retryable := isRetryableImportErrorRow lib row }
    if w.truncated ∨ maxImportErrorArtifactRows ≤ w.rows.length then { w with truncated := true }
    else if maxImportErrorArtifactBytes < w.bytes + lib.encodedBytes row then
      { w with truncated := true }
    else if fails then { w with failed := true }
    else { w with rows := w.rows ++ [row], bytes := w.bytes + lib.encodedBytes row }

variable (lib : ImportLibraries β) (env : Env) (setup : Setup)

/-! ### Progress -/

/-- A failure to store the job cancels the task. -/
def contextError (t : Task β) : Task β × Option Stop :=
  if t.persistFailed then (t.tick, some .canceled) else (t.tick, env.contextError t.clock)

/-- Store the job. -/
def putJob (job : Job) (t : Task β) : Task β :=
  if env.putFails t.clock then { t with job := job, persistFailed := true }.tick
  else
    let job := { job with revision := job.revision + 1 }
    ({ t with job := job }.does (.put job)).tick

/-- The job with the progress of its task. -/
def Task.progressJob (current : ℕ) (checkpointSafe : Bool) (t : Task β) : Job :=
  { t.job with
    status := if t.job.status = .stopping then .stopping else .running
    current := current
    succeeded := t.successCount
    skipped := t.skippedCount
    failed := t.failedCount
    checkpoint := ⟨checkpointSafe && !setup.retries, current⟩
    resumable := false }

/-- Tell the job about the progress; without a safe checkpoint the job is stored now and then. -/
def update (current : ℕ) (checkpointSafe : Bool) (t : Task β) : Task β :=
  if t.persistFailed ∨ isTerminalStatus t.job.status then t
  else if !checkpointSafe && !env.persistDue t.clock then
    { t with job := t.progressJob setup current checkpointSafe }.tick
  else putJob env (t.progressJob setup current checkpointSafe) t

/-- A batch writer has an unfinished batch until it is flushed, so its checkpoint is safe at a
flush only. -/
def emitProgress (current : ℕ) (forced : Bool) (t : Task β) : Task β :=
  if !forced && 10 < current && (current : ℤ) - t.lastProgressRow < importProgressRowInterval &&
      t.progressed && !env.progressDue t.clock then t.tick
  else
    update env setup current
      (!t.outcomeUnknown && (!setup.batchEnabled || setup.continueOnError || forced))
      { t with lastProgressRow := current, progressed := true }.tick

/-! ### Writing a batch -/

def applyBatch (rows : List (Row β)) (startRow : ℕ) (t : Task β) : Task β × Option Stop :=
  match env.reply t.clock with
  | .succeeded | .skipped =>
    let t := (t.does (.submit startRow rows .written)).tick
    let t := { t with successCount := t.successCount + rows.length }
    contextError env (emitProgress env setup (startRow + rows.length - 1) true t)
  | .canceled =>
    let t := (t.does (.submit startRow rows (.unknown (env.lands t.clock)))).tick
    ({ t with outcomeUnknown := true }, some .canceled)
  | .outcomeUnknown | .failed =>
    let t := (t.does (.submit startRow rows (.unknown (env.lands t.clock)))).tick
    match contextError env t with
    | (t, some stop) => ({ t with outcomeUnknown := true }, some stop)
    | (t, none) =>
      let t := { t with
        failedCount := t.failedCount + 1
        stoppedOnError := true
        outcomeUnknown := true }
      (emitProgress env setup (startRow + rows.length - 1) true t, some .stoppedOnError)

/-- Go on behind a row. -/
def afterRow (sourceRow : ℕ) (t : Task β) : Task β × Option Stop :=
  match contextError env (emitProgress env setup sourceRow false t) with
  | (t, some stop) => (emitProgress env setup sourceRow true t, some stop)
  | (t, none) => (t, none)

/-- The database refused a row. -/
def rejectRow (row : Row β) (sourceRow : ℕ) (t : Task β) : Task β × Option Stop :=
  let t := t.does (.submit sourceRow [row] .failed)
  let t := { t with failedCount := t.failedCount + 1 }
  let rejected : ImportRowError β := ⟨sourceRow, bytes "database", true, row⟩
  let t := { t with artifact := t.artifact.append lib (env.appendFails t.clock) rejected }
  if t.artifact.failed then
    (emitProgress env setup sourceRow true { t with stoppedOnError := true }, some .failed)
  else if setup.continueOnError = false then
    (emitProgress env setup sourceRow true { t with stoppedOnError := true }, some .stoppedOnError)
  else afterRow env setup sourceRow t

def applyRow (row : Row β) (sourceRow : ℕ) (t : Task β) : Task β × Option Stop :=
  andThen (contextError env t) fun t =>
  match env.reply t.clock with
  | .succeeded =>
    let t := (t.does (.submit sourceRow [row] .written)).tick
    afterRow env setup sourceRow { t with successCount := t.successCount + 1 }
  | .skipped =>
    let t := (t.does (.submit sourceRow [row] .skipped)).tick
    afterRow env setup sourceRow { t with skippedCount := t.skippedCount + 1 }
  | .outcomeUnknown =>
    let t := (t.does (.submit sourceRow [row] (.unknown (env.lands t.clock)))).tick
    -- rows later in the batch were not submitted
    let t := { t with
      failedCount := t.failedCount + 1
      stoppedOnError := true
      outcomeUnknown := true
      currentRow := sourceRow }
    (emitProgress env setup sourceRow true t, some .stoppedOnError)
  | .canceled =>
    let t := (t.does (.submit sourceRow [row] (.unknown (env.lands t.clock)))).tick
    ({ t with outcomeUnknown := true }, some .canceled)
  | .failed =>
    match contextError env t with
    | (t', some stop) =>
      let t := t'.does (.submit sourceRow [row] (.unknown (env.lands t.clock)))
      ({ t with outcomeUnknown := true }, some stop)
    | (t, none) => rejectRow lib env setup row sourceRow t

/-- The rows of a batch, each with its row number. -/
def applyRows (rows : List (Row β)) (startRow : ℕ) : Task β → Task β × Option Stop :=
  forEach (fun (row, sourceRow) => applyRow lib env setup row sourceRow) (rows.zipIdx startRow)

def flush (t : Task β) : Task β × Option Stop :=
  andThen (contextError env t) fun t =>
  if t.batch = [] then (t, none)
  else
    let rows := t.batch
    let startRow := t.batchStartRow
    let t := { t with batch := [], batchBytes := 0, batchStartRow := 0 }
    if setup.batchEnabled && !setup.continueOnError then applyBatch env setup rows startRow t
    else andThen (applyRows lib env setup rows startRow t) fun t =>
      (emitProgress env setup (startRow + rows.length - 1) true t, none)

/-- A full batch is written before the row is added, or behind it. -/
def consumeRow (row : Row β) (t : Task β) : Task β × Option Stop :=
  andThen (contextError env t) fun t =>
  match lib.rowBytes row with
  | none => (t, some .failed)
  | some rowBytes =>
    let full := t.batch ≠ [] ∧ (maxImportBatchBytes : ℤ) - rowBytes < t.batchBytes
    andThen (if full then flush lib env setup t else (t, none)) fun t =>
    let t := { t with currentRow := t.currentRow + 1 }
    let t := { t with
      batchStartRow := if t.batch = [] then t.currentRow else t.batchStartRow
      batch := t.batch ++ [row]
      batchBytes := t.batchBytes + rowBytes }
    if setup.batchSize ≤ t.batch.length ∨ maxImportBatchBytes ≤ t.batchBytes then
      flush lib env setup t
    else (t, none)

/-! ### The end of a task -/

/-- Publish the rejected rows, if there are any; the artifact's name, or nothing, unless it
fails. -/
def finishArtifact (artifactID : Text) (publishFails : Bool) (t : Task β) :
    Task β × Option Text :=
  if t.artifact.failed then (t, none)
  else if t.artifact.rows = [] ∧ t.artifact.truncated = false then (t, some [])
  else if publishFails then (t, none)
  else (t.does (.publish artifactID t.artifact.rows), some artifactID)

/-- The job gets its last status; a failure to store it leaves the file as it is. -/
def finishJob (result : Result) (t : Task β) : Task β :=
  if isTerminalStatus t.job.status then t else putJob env (t.job.finish result) t

/-- What the caller is told about the rows. -/
def Task.result (success cancelled : Bool) (artifactID : Text) (t : Task β) : Result where
  success := success
  succeeded := t.successCount
  failed := t.failedCount
  outcomeUnknown := t.outcomeUnknown
  cancelled := cancelled
  errorArtifactID := artifactID

end GoNavi.Importjob
