import GoNavi.Machine.Fallible
import GoNavi.Syncjob.ErrorRows
import GoNavi.Syncjob.Manager

/-! # The checkpoints of jobs

A job has one checkpoint at most, which the run that works on the job writes and deletes.  The
statements on `data_sync_checkpoints` look for the run of the owner before they change anything.
A `TableRequest` is one transaction on the store or on the checkpoints beside it. -/

namespace GoNavi.Syncjob

open Scan Fallible

variable {δ : Type}

/-! ### Tables -/

structure Checkpoint where
  version : ℤ
  kind : Text
  jobID : Text
  runID : Text
  definitionRevision : ℤ
  table : Text
  phase : Text
  cursorType : Text
  cursor : Text
  watermark : Text
  batchSequence : ℤ
  schemaHash : Text
  updatedAt : ℤ
  deriving DecidableEq

/-- The store with the checkpoints of its jobs. -/
structure Tables (δ : Type) where
  store : Store δ
  checkpoints : List Checkpoint

def Tables.empty : Tables δ := ⟨Store.empty, []⟩

/-! ### Statements -/

/-- The run is worked on by this owner. -/
def runOwned (jobID runID ownerToken : Text) (s : Store δ) : Bool :=
  s.runs.any fun r =>
    r.id = runID ∧ r.jobID = jobID ∧ r.ownerToken = ownerToken ∧ r.status = .running

/-- What `PutCheckpointOwned` makes of a checkpoint. -/
def prepareCheckpoint (validJSON : Text → Bool) (world : World) (checkpoint : Checkpoint) :
    Except Err Checkpoint :=
  let checkpoint := { checkpoint with
    jobID := trimSpace checkpoint.jobID
    runID := trimSpace checkpoint.runID
    table := trimSpace checkpoint.table
    phase := trimSpace checkpoint.phase
    version := if checkpoint.version = 0 then 1 else checkpoint.version
    kind := trimSpace checkpoint.kind
    cursorType := trimSpace checkpoint.cursorType }
  if checkpoint.jobID = [] ∨ checkpoint.runID = [] ∨ checkpoint.table = [] ∨
      checkpoint.phase = [] ∨ checkpoint.kind = [] ∨ checkpoint.cursorType = [] then
    .error (.other "checkpoint requires jobId, runId, table, and phase")
  else if ¬ (validJSONOrEmpty validJSON checkpoint.cursor ∧
      validJSONOrEmpty validJSON checkpoint.watermark) then
    .error (.other "checkpoint cursor and watermark must be valid JSON")
  else .ok { checkpoint with updatedAt := world.now }

/-- `INSERT INTO data_sync_checkpoints ... ON CONFLICT(job_id) DO UPDATE SET ...`. -/
def upsertCheckpoint (checkpoint : Checkpoint) (checkpoints : List Checkpoint) : List Checkpoint :=
  if ∃ c ∈ checkpoints, c.jobID = checkpoint.jobID then
    checkpoints.map fun c => if c.jobID = checkpoint.jobID then checkpoint else c
  else checkpoints ++ [checkpoint]

/-- `Store.PutCheckpointOwned`. -/
def putCheckpointOwned (validJSON : Text → Bool) (world : World) (checkpoint : Checkpoint)
    (ownerToken : Text) (s : Tables δ) : Except Err (Checkpoint × Tables δ) :=
  if trimSpace ownerToken = [] then .error .runOwnershipLost
  else do
    let checkpoint ← prepareCheckpoint validJSON world checkpoint
    if runOwned checkpoint.jobID checkpoint.runID ownerToken s.store then
      return (checkpoint, { s with checkpoints := upsertCheckpoint checkpoint s.checkpoints })
    else .error .runOwnershipLost

/-- `Store.GetCheckpoint`. -/
def getCheckpoint (jobID : Text) (s : Tables δ) : Except Err (Checkpoint × Tables δ) :=
  match s.checkpoints.find? fun c => c.jobID = trimSpace jobID with
  | some checkpoint => .ok (checkpoint, s)
  | none => .error .notFound

/-- `DELETE FROM data_sync_checkpoints WHERE job_id = ? AND ...`, with the number of rows it
affects. -/
def deleteCheckpoint (jobID : Text) (allowed : Bool) (s : Tables δ) : ℕ × Tables δ :=
  let cond := fun c : Checkpoint => decide (c.jobID = jobID) && allowed
  (s.checkpoints.countP cond, { s with checkpoints := s.checkpoints.filter fun c => !cond c })

/-- The `DELETE` of `DeleteCheckpointOwned`. -/
def deleteCheckpointOwned (jobID runID ownerToken : Text) (s : Tables δ) :
    Except Err (Bool × Tables δ) :=
  if trimSpace ownerToken = [] then .error .runOwnershipLost
  else
    let jobID := trimSpace jobID
    let (affected, s) := deleteCheckpoint jobID
      (runOwned jobID (trimSpace runID) ownerToken s.store) s
    .ok (affected > 0, s)

/-- The job has a run that is queued or worked on. -/
def jobBusy (jobID : Text) (s : Store δ) : Bool :=
  s.runs.any fun r => r.jobID = jobID ∧ r.status ∈ [RunStatus.queued, .running, .cancelling]

/-- The `DELETE` of `ResetCheckpoint`. -/
def resetCheckpoint (jobID : Text) (s : Tables δ) : Except Err (Bool × Tables δ) :=
  let jobID := trimSpace jobID
  let (affected, s) := deleteCheckpoint jobID (!jobBusy jobID s.store) s
  .ok (affected > 0, s)

/-! ### Requests -/

inductive TableRequest (δ : Type) where
  | store (r : Request δ)
  | putCheckpointOwned (checkpoint : Checkpoint) (ownerToken : Text)
  | getCheckpoint (jobID : Text)
  | deleteCheckpointOwned (jobID runID ownerToken : Text)
  | runOwned (jobID runID ownerToken : Text)
  | resetCheckpoint (jobID : Text)
  | jobBusy (jobID : Text)

@[reducible] def TableRequest.Result : TableRequest δ → Type
  | .store r => r.Result
  | .putCheckpointOwned .. | .getCheckpoint _ => Checkpoint
  | .deleteCheckpointOwned .. | .runOwned .. | .resetCheckpoint _ | .jobBusy _ => Bool

abbrev TableRequest.Answer (r : TableRequest δ) : Type := Except Err r.Result

/-- The change that a request makes of the tables; the checkpoint of a job goes with it. -/
def tableOperation (definitions : Definitions δ) (validJSON : Text → Bool) (world : World) :
    (r : TableRequest δ) → Tables δ → Except Err (r.Result × Tables δ)
  | .store r, s => do
    let (result, store) ← operationOf definitions world r s.store
    return (result, ⟨store, s.checkpoints.filter fun c => (findJob c.jobID store).isSome⟩)
  | .putCheckpointOwned checkpoint ownerToken, s =>
    putCheckpointOwned validJSON world checkpoint ownerToken s
  | .getCheckpoint jobID, s => getCheckpoint jobID s
  | .deleteCheckpointOwned jobID runID ownerToken, s =>
    deleteCheckpointOwned jobID runID ownerToken s
  | .runOwned jobID runID ownerToken, s => .ok (runOwned jobID runID ownerToken s.store, s)
  | .resetCheckpoint jobID, s => resetCheckpoint jobID s
  | .jobBusy jobID, s => .ok (jobBusy jobID s.store, s)

/-- A request is served in one transaction, which the database may refuse. -/
def serveTable (definitions : Definitions δ) (validJSON : Text → Bool) (s : Tables δ)
    (r : TableRequest δ) (world : World) : r.Answer × Tables δ :=
  attempt (world.fails.map Err.other) (tableOperation definitions validJSON world r) s

/-- A request with what it meets. -/
abbrev TableAction (δ : Type) := (_ : TableRequest δ) × World

/-- The tables behind a request. -/
def tableStep (definitions : Definitions δ) (validJSON : Text → Bool) (s : Tables δ)
    (a : TableAction δ) : Tables δ :=
  (serveTable definitions validJSON s a.1 a.2).2

/-! ### Methods -/

abbrev TableMethod (δ : Type) (α : Type) :=
  Program (TableRequest δ) TableRequest.Answer (Except Err α)

/-- Go on with the result of a request, or return its error. -/
def onTable {α : Type} (r : TableRequest δ) (next : r.Result → TableMethod δ α) :
    TableMethod δ α :=
  .ask r fun
    | .ok result => next result
    | .error err => .ret (.error err)

/-- A method of the store beside the checkpoints. -/
def onStore {α : Type} : Method δ α → TableMethod δ α
  | .ret a => .ret a
  | .ask r next => .ask (.store r) fun answer => onStore (next answer)

/-- `Store.DeleteCheckpointOwned`. -/
def deleteOwned (jobID runID ownerToken : Text) : TableMethod δ Unit :=
  onTable (.deleteCheckpointOwned jobID runID ownerToken) fun affected =>
    if affected = true then .ret (.ok ())
    else
      onTable (.runOwned (trimSpace jobID) (trimSpace runID) ownerToken) fun owned =>
        .ret (if owned = true then .ok () else .error .runOwnershipLost)

/-- `Store.ResetCheckpoint`. -/
def reset (jobID : Text) : TableMethod δ Unit :=
  onTable (.resetCheckpoint jobID) fun affected =>
    if affected = true then .ret (.ok ())
    else
      onTable (.jobBusy (trimSpace jobID)) fun busy =>
        .ret (.error (if busy = true then .runAlreadyActive else .notFound))

end GoNavi.Syncjob
