import GoNavi.Importjob.Task

/-! # Retrying the failed rows of an import

A retry reads the error artifact of a job and writes its rows again, one by one; the rows that fail
once more go to the artifact of the retry's own job, which can be retried in turn.  Any number of
retries are under way at a time, and each does one thing to the outside after the other. -/

namespace GoNavi.Importjob

open Scan Stoppable Table

variable {β : Type}

def maxImportRetryColumns : ℕ := 4096

/-- What is taken from the libraries by a retry. -/
structure RetryLibraries (β : Type) extends ImportLibraries β where
  optionsHash : TableImportOptions → Text
  parseUUID : Text → Option Text

/-- What the surroundings answer to a retry; `contextError` and the rest are asked while the rows
are written. -/
structure RetryEnv extends Env where
  /-- The fingerprint of the job's target now, if its connection can be resolved. -/
  targetFingerprint : Option Text
  inspectFails : Bool
  /-- The connection admits an import with the job's options. -/
  accepts : Bool
  createJobFails : Bool
  createArtifactFails : Bool
  /-- Why the database cannot be used. -/
  connectError : Option Stop
  batchEnabled : Bool
  columnsFail : Bool
  /-- Reading the artifact fails in front of a row. -/
  readFails : ℕ → Bool
  publishFails : Bool

/-- The file of an error artifact, and the job that has written it. -/
structure Artifact (β : Type) where
  id : Text
  owner : Text
  rows : List (ImportRowError β)

def Artifact.publish (rows : List (ImportRowError β)) (artifact : Artifact β) : Artifact β :=
  { artifact with rows := rows }

/-- A retry under way, with what it still does. -/
structure RetryRun (β : Type) where
  jobID : Text
  artifactID : Text
  todo : List (Effect β)

def RetryRun.next (todo : List (Effect β)) (run : RetryRun β) : RetryRun β :=
  { run with todo := todo }

structure Retries (β : Type) where
  jobs : Store
  artifacts : List (Artifact β)
  runs : List (RetryRun β) := []
  /-- The jobs that were retried. -/
  retried : List Text := []
  /-- The rows that the retries have written. -/
  written : List (Row β) := []

/-- A call of a retry, with the names that its job and its artifact get. -/
structure RetryCall where
  jobID : Text
  retryJobID : Text
  artifactID : Text
  env : RetryEnv

section

variable (lib : RetryLibraries β)

/-! ### The rows of an artifact -/

/-- The file of an artifact is named by the canonical form of its name. -/
def openArtifact (id : Text) (artifacts : List (Artifact β)) : Option (Artifact β) :=
  match lib.parseUUID (trimSpace id) with
  | none => none
  | some parsed =>
    if parsed = lib.toLower (trimSpace id) then lookup Artifact.id parsed artifacts else none

/-- The rows that a retry replays. -/
def retryableRows (rows : List (ImportRowError β)) : List (Row β) :=
  (rows.filter (isRetryableImportErrorRow lib.toImportLibraries)).map ImportRowError.values

/-- The columns of the rows that can be retried. -/
def retryColumns (rows : List (ImportRowError β)) : List Text :=
  (((retryableRows lib rows).flatMap fun row => row.map fun cell => trimSpace cell.1).filter
    (· ≠ [])).dedup

/-- The artifact of a job is read and its rows counted. -/
def inspectRetryable (env : RetryEnv) (artifactID : Text) (artifacts : List (Artifact β)) :
    Option (List (ImportRowError β)) :=
  match openArtifact lib artifactID artifacts with
  | none => none
  | some artifact =>
    if env.inspectFails ∨ maxImportErrorArtifactRows < artifact.rows.length ∨
        maxImportRetryColumns < (retryColumns lib artifact.rows).length then none
    else some artifact.rows

/-! ### One retry -/

/-- The job and the rows of a retry that passes all checks. -/
def retryScope (call : RetryCall) (s : Retries β) : Option (Job × List (ImportRowError β)) :=
  match s.jobs.getLocked call.jobID with
  | .error _ => none
  | .ok job =>
    match job.tableImportOptions with
    | none => none
    | some options =>
      if job.kind ≠ .table ∨ (job.status ≠ .partially ∧ job.status ≠ .failed) ∨
          job.outcomeUnknown = true ∨ trimSpace job.errorArtifactID = [] then none
      else if trimSpace job.connectionID = [] then none
      else if call.env.targetFingerprint ≠ some job.targetFingerprint then none
      else if lib.optionsHash options ≠ job.optionsHash then none
      else match inspectRetryable lib call.env job.errorArtifactID s.artifacts with
        | none => none
        | some rows =>
          if retryableRows lib rows = [] ∨ call.env.accepts = false ∨ retryColumns lib rows = [] then
            none
          else some (job, rows)

/-- The job of a retry. -/
def retryJob (parent : Job) (id : Text) : Job where
  id := trimSpace id
  kind := .table
  status := .preparing
  sourcePath := trimSpace parent.sourcePath
  sourceIdentityToken := trimSpace parent.sourceIdentityToken
  targetFingerprint := trimSpace parent.targetFingerprint
  connectionID := trimSpace parent.connectionID
  databaseName := trimSpace parent.databaseName
  tableName := trimSpace parent.tableName
  optionsHash := trimSpace parent.optionsHash
  tableImportOptions := parent.tableImportOptions
  parentJobID := trimSpace parent.id
  recoveryAction := bytes "retry_failed_rows"
  revision := 1

variable (env : RetryEnv)

/-- The retry always goes on behind a failed row. -/
def retrySetup : Setup where
  batchEnabled := env.batchEnabled
  continueOnError := true
  retries := true

def replayRow (row : ImportRowError β) (index : ℕ) (t : Task β) : Task β × Option Stop :=
  andThen (contextError env.toEnv t) fun t =>
  if env.readFails index ∨ maxImportErrorArtifactRows ≤ index then (t, some .failed)
  else if isRetryableImportErrorRow lib.toImportLibraries row then
    consumeRow lib.toImportLibraries env.toEnv (retrySetup env) row.values t
  else (t, none)

/-- Read the artifact to its end and write what is left of the batch. -/
def replayRows (rows : List (ImportRowError β)) (t : Task β) : Task β × Option Stop :=
  andThen (forEach (fun (row, index) => replayRow lib env row index) rows.zipIdx t) fun t =>
  andThen (contextError env.toEnv t) fun t =>
  if env.readFails rows.length then (t, some .failed)
  else flush lib.toImportLibraries env.toEnv (retrySetup env) t

/-- The artifact is published and the job gets its last status. -/
def finishRetry (artifactID : Text) (r : Task β × Option Stop) : Task β :=
  match finishArtifact artifactID env.publishFails r.1 with
  | (t, none) => finishJob env.toEnv (t.result false false []) t
  | (t, some id) =>
    if t.persistFailed then finishJob env.toEnv (t.result false false id) t
    else match r.2 with
      | none => finishJob env.toEnv (t.result (t.failedCount = 0) false id) t
      | some .canceled => finishJob env.toEnv (t.result false true id) t
      | some _ => finishJob env.toEnv (t.result false false id) t

/-- The task of a retry, from the creation of its job to its last status. -/
def retryTask (parent : Job) (jobID artifactID : Text) (rows : List (ImportRowError β)) : Task β :=
  let job := retryJob parent jobID
  if env.createJobFails then { job := job }
  else
    let t := Task.does (.put job) { job := job }
    if env.createArtifactFails then finishJob env.toEnv ⟨false, false, 0, 0, false, false, []⟩ t
    else match env.connectError with
      | some .canceled => finishJob env.toEnv (t.result false true []) t
      | some _ => finishJob env.toEnv ⟨false, false, 0, 0, false, false, []⟩ t
      | none =>
        match contextError env.toEnv t with
        | (t, some _) => finishJob env.toEnv ⟨false, false, 0, 0, false, false, []⟩ t
        | (t, none) =>
          if env.columnsFail then finishJob env.toEnv ⟨false, false, 0, 0, false, false, []⟩ t
          else finishRetry env artifactID (replayRows lib env rows t)

/-! ### Retries side by side -/

/-- The names of a new job and artifact are canonical and have not been used. -/
def FreshNames (call : RetryCall) (s : Retries β) : Prop :=
  trimSpace call.retryJobID = call.retryJobID ∧ trimSpace call.artifactID = call.artifactID ∧
    lib.toLower call.artifactID = call.artifactID ∧
    (∀ job ∈ s.jobs, lib.parseUUID (trimSpace job.errorArtifactID) ≠ some call.artifactID) ∧
    lookup Artifact.id call.artifactID s.artifacts = none ∧
    lookup Job.id call.retryJobID s.jobs = none ∧
    lookup RetryRun.jobID call.retryJobID s.runs = none

instance (call : RetryCall) (s : Retries β) : Decidable (FreshNames lib call s) :=
  inferInstanceAs (Decidable (_ ∧ _ ∧ _ ∧ _ ∧ _ ∧ _ ∧ _))

/-- One effect takes place. -/
def perform (s : Retries β) : Effect β → Retries β
  | .submit _ rows .written | .submit _ rows (.unknown true) =>
    { s with written := s.written ++ rows }
  | .submit .. => s
  | .put job => { s with jobs := s.jobs.write job }
  | .publish id rows =>
    { s with artifacts := Table.update Artifact.id id (.publish rows) s.artifacts }

inductive RetryAction where
  | call (call : RetryCall)
  /-- The retry with this job does the next thing it has to do. -/
  | proceed (jobID : Text)
  /-- The process ends and starts again. -/
  | restart

def retryStep (s : Retries β) : RetryAction → Retries β
  | .call call =>
    if FreshNames lib call s then
      match retryScope lib call s with
      | none => s
      | some (job, rows) =>
        let task := retryTask lib call.env job call.retryJobID call.artifactID rows
        { s with
          artifacts := s.artifacts ++ [⟨call.artifactID, call.retryJobID, []⟩]
          runs := s.runs ++ [⟨call.retryJobID, call.artifactID, task.effects.reverse⟩]
          retried := job.id :: s.retried }
    else s
  | .proceed jobID =>
    match lookup RetryRun.jobID jobID s.runs with
    | some run =>
      match run.todo with
      | [] => s
      | effect :: todo =>
        let runs := Table.update RetryRun.jobID jobID (.next todo) s.runs
        perform { s with runs := runs } effect
    | none => s
  | .restart =>
    { s with
      runs := s.runs.map (.next [])
      jobs := s.jobs.recoverInterrupted }

/-- A job with its error artifact, before any retry. -/
def Retries.init (job : Job) (artifactID : Text) (rows : List (ImportRowError β)) : Retries β where
  jobs := [job]
  artifacts := [⟨artifactID, job.id, rows⟩]

end

end GoNavi.Importjob
