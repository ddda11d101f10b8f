import GoNavi.Importjob.Task

/-! # Resuming an import

An import streams its source to the task from the first row on.  When the process ends in between,
the effects done so far remain; the next start marks the job interrupted, and a resume claims it
and starts a new job that skips the rows up to the claimed checkpoint. -/

namespace GoNavi.Importjob

open Scan Stoppable

variable {β : Type}

/-- What is taken from the libraries by an import. -/
structure FileLibraries (β : Type) extends ImportLibraries β where
  optionsHash : TableImportOptions → Text

/-- A source file, with the rows that the parser delivers. -/
structure Source (β : Type) where
  path : Text
  identityToken : Text
  parse : TableImportOptions → List (Row β)

/-- What the surroundings answer to an import. -/
structure ImportEnv extends Env where
  /-- The fingerprint of the target, if its connection can be resolved. -/
  targetFingerprint : Option Text
  accepts : Bool
  createJobFails : Bool
  createArtifactFails : Bool
  connectError : Option Stop
  /-- The database can write a batch as a whole. -/
  batchApplier : Bool
  batchSize : ℕ
  columnsFail : Bool
  /-- Reading the source fails in front of a row. -/
  readFails : ℕ → Bool
  publishFails : Bool

/-- One start of an import, with the names of its job and artifact; a crash leaves only the first
effects done. -/
structure Attempt where
  jobID : Text
  artifactID : Text
  env : ImportEnv
  crashAfter : Option ℕ

section

variable (lib : FileLibraries β) (env : ImportEnv)

def normalizeImportConflictPolicy (value : Text) : Text :=
  let policy := lib.toLower (trimSpace value)
  if policy = [] then bytes "stop" else policy

/-- The task of an import: the database writes whole batches when conflicts stop the import. -/
def importSetup (options : TableImportOptions) : Setup where
  batchEnabled := env.batchApplier &&
    normalizeImportConflictPolicy lib options.conflictPolicy = bytes "stop"
  continueOnError := options.continueOnError ≠ some false
  batchSize := if env.batchSize = 0 then importApplyBatchSize else env.batchSize

/-- A row up to the checkpoint is read but not forwarded. -/
def importRow (options : TableImportOptions) (skipRows : ℕ) (row : Row β) (index : ℕ)
    (t : Task β) : Task β × Option Stop :=
  andThen (contextError env.toEnv t) fun t =>
  if env.readFails index then (t, some .failed)
  else if index < skipRows then (t, none)
  else consumeRow lib.toImportLibraries env.toEnv (importSetup lib env options) row t

/-- Read the source to its end. -/
def importRows (options : TableImportOptions) (skipRows : ℕ) (rows : List (Row β)) (t : Task β) :
    Task β × Option Stop :=
  andThen (forEach (fun (row, index) => importRow lib env options skipRows row index)
    rows.zipIdx t) fun t =>
  if env.readFails rows.length then (t, some .failed) else (t, none)

/-- The end of an import whose rows were not all read or written. -/
def failImport (artifactID : Text) (parsing : Bool) (stop : Stop) (t : Task β) : Task β :=
  let parseError : ImportRowError β := ⟨t.currentRow + 1, bytes "parse", false, []⟩
  let kept := t.artifact.append lib.toImportLibraries (env.appendFails t.clock) parseError
  let t := if t.persistFailed = false ∧ stop ≠ .canceled ∧ stop ≠ .stoppedOnError ∧ parsing then
      { t with artifact := kept }
    else t
  match finishArtifact artifactID env.publishFails t with
  | (t, none) => finishJob env.toEnv (t.result false false []) t
  | (t, some id) =>
    finishJob env.toEnv (t.result false (!t.persistFailed && stop = .canceled) id) t

/-- The end of an import behind its last row; whether it is a success. -/
def completeImport (artifactID : Text) (t : Task β) : Task β × Bool :=
  match finishArtifact artifactID env.publishFails t with
  | (t, none) => (finishJob env.toEnv (t.result false false []) t, false)
  | (t, some id) =>
    if t.currentRow = 0 then (finishJob env.toEnv ⟨true, false, 0, 0, false, false, []⟩ t, true)
    else (finishJob env.toEnv (t.result true false id) t, true)

/-- Stream the source to the task and end it. -/
def streamImport (options : TableImportOptions) (artifactID : Text) (rows : List (Row β))
    (t : Task β) : Task β × Bool :=
  match importRows lib env options t.job.checkpoint.sourceRow rows t with
  | (t, some stop) => (failImport lib env artifactID true stop t, false)
  | (t, none) =>
    match flush lib.toImportLibraries env.toEnv (importSetup lib env options) t with
    | (t, some stop) => (failImport lib env artifactID false stop t, false)
    | (t, none) => completeImport env artifactID t

/-- The task of an import from the creation of its job on, and whether it succeeds; `job` tells
where it starts. -/
def importTask (options : TableImportOptions) (job : Job) (artifactID : Text)
    (rows : List (Row β)) : Task β × Bool :=
  let job := { job with revision := 1 }
  let t := Task.does (.put job) { job := job }
  let refused : Result := ⟨false, false, 0, 0, false, false, []⟩
  if env.createArtifactFails then (finishJob env.toEnv refused t, false)
  else match env.connectError with
    | some .canceled => (finishJob env.toEnv (t.result false true []) t, false)
    | some _ => (finishJob env.toEnv refused t, false)
    | none =>
      let t := { t with
        currentRow := job.checkpoint.sourceRow
        successCount := job.succeeded
        skippedCount := job.skipped
        failedCount := job.failed
        lastProgressRow := job.checkpoint.sourceRow }
      match contextError env.toEnv t with
      | (t, some stop) => (failImport lib env artifactID true stop t, false)
      | (t, none) =>
        if env.columnsFail then (failImport lib env artifactID true .failed t, false)
        else streamImport lib env options artifactID rows t

/-! ### Attempts -/

/-- What outlives the process: the job files and the database's submissions, the last first. -/
structure ImportState (β : Type) where
  jobs : Store := []
  log : List (Effect β) := []
deriving DecidableEq

def ImportState.perform (s : ImportState β) : Effect β → ImportState β
  | .submit sourceRow rows outcome => { s with log := .submit sourceRow rows outcome :: s.log }
  | .put job => { s with jobs := s.jobs.write job }
  | .publish .. => s

/-- The effects of a task that take place before the process ends. -/
def Attempt.effects (attempt : Attempt) (t : Task β) : List (Effect β) :=
  match attempt.crashAfter with
  | none => t.effects.reverse
  | some n => t.effects.reverse.take n

variable (source : Source β) (options : TableImportOptions)

/-- The job of a new import. -/
def newImportJob (attempt : Attempt) (fingerprint connectionID databaseName tableName : Text) :
    Job where
  id := trimSpace attempt.jobID
  kind := .table
  status := .preparing
  sourcePath := trimSpace source.path
  sourceIdentityToken := trimSpace source.identityToken
  targetFingerprint := trimSpace fingerprint
  connectionID := trimSpace connectionID
  databaseName := trimSpace databaseName
  tableName := trimSpace tableName
  optionsHash := trimSpace (lib.optionsHash options)
  tableImportOptions := some options

/-- The job that resumes a claimed job. -/
def resumedJob (attempt : Attempt) (fingerprint : Text) (parent : Job) : Job :=
  { newImportJob lib source options attempt fingerprint parent.connectionID parent.databaseName
      parent.tableName with
    parentJobID := trimSpace parent.id
    recoveryAction := bytes "resume"
    current := parent.checkpoint.sourceRow
    succeeded := parent.succeeded
    skipped := parent.skipped
    failed := parent.failed
    checkpoint := parent.checkpoint }

/-- A new import of the source. -/
def startImport (connectionID databaseName tableName : Text) (attempt : Attempt)
    (s : ImportState β) : ImportState β :=
  match attempt.env.targetFingerprint with
  | none => s
  | some fingerprint =>
    if attempt.env.accepts = false ∨ attempt.env.createJobFails then s
    else
      let job := newImportJob lib source options attempt fingerprint connectionID databaseName
        tableName
      let task := importTask lib attempt.env options job attempt.artifactID (source.parse options)
      (attempt.effects task.1).foldl ImportState.perform s

/-- The checks in front of a resume, and the claim. -/
def claimTableImportRecovery (jobID : Text) (attempt : Attempt) (s : ImportState β) :
    Option (Job × TableImportOptions × Text × Store) :=
  match s.jobs.getLocked jobID with
  | .error _ => none
  | .ok job =>
    match job.tableImportOptions, attempt.env.targetFingerprint with
    | some options, some fingerprint =>
      if job.kind ≠ .table ∨ trimSpace job.connectionID = [] ∨ attempt.env.accepts = false then none
      else if trimSpace source.identityToken = [] ∨
          source.identityToken ≠ job.sourceIdentityToken then none
      else if trimSpace fingerprint = [] ∨ fingerprint ≠ job.targetFingerprint then none
      else if trimSpace (lib.optionsHash options) = [] ∨
          lib.optionsHash options ≠ job.optionsHash then none
      else if validateResume job source.identityToken fingerprint (lib.optionsHash options) = false
        then none
      else match s.jobs.claimResume job.id source.identityToken fingerprint
          (lib.optionsHash options) with
        | .error _ => none
        | .ok (claimed, jobs) => some (claimed, options, fingerprint, jobs)
    | _, _ => none

/-- The parent can be resumed again. -/
def releaseTableImportRecovery (claimed : Job) (jobs : Store) : Store :=
  match Store.releaseResumeClaim claimed.id jobs with
  | .ok jobs => jobs
  | .error _ => jobs

/-- A resume; when its job or artifact cannot be created, the claim is released. -/
def resumeImportJob (jobID : Text) (attempt : Attempt) (s : ImportState β) : ImportState β :=
  match claimTableImportRecovery lib source jobID attempt s with
  | none => s
  | some (claimed, options, fingerprint, jobs) =>
    if attempt.env.createJobFails then { s with jobs := releaseTableImportRecovery claimed jobs }
    else
      let jobs := if attempt.env.createArtifactFails then releaseTableImportRecovery claimed jobs
        else jobs
      let job := resumedJob lib source options attempt fingerprint claimed
      let task := importTask lib attempt.env options job attempt.artifactID (source.parse options)
      (attempt.effects task.1).foldl ImportState.perform { s with jobs := jobs }

inductive ImportAction where
  /-- The process starts again. -/
  | restart
  | start (connectionID databaseName tableName : Text) (attempt : Attempt)
  | resume (jobID : Text) (attempt : Attempt)

/-- All imports are of one source with the same options. -/
def importStep (s : ImportState β) : ImportAction → ImportState β
  | .restart => { s with jobs := s.jobs.recoverInterrupted }
  | .start connectionID databaseName tableName attempt =>
    startImport lib source options connectionID databaseName tableName attempt s
  | .resume jobID attempt => resumeImportJob lib source jobID attempt s

end

end GoNavi.Importjob
