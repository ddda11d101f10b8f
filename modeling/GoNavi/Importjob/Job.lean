import GoNavi.Machine.Table
import GoNavi.Scan.Text

/-! # Import jobs and their store

A job is the durable record of an import: its status, its counters and the source row up to which
it is done.  The store keeps one file for each job and replaces it as a whole.  At a restart a job
that was under way becomes interrupted; it can be resumed once, from a safe checkpoint. -/

namespace GoNavi.Importjob

open Scan

inductive Kind where
  | table | sql
deriving DecidableEq

inductive Status where
  | preparing | running | stopping | completed | partially | failed | cancelled | unknown
  | interrupted
deriving DecidableEq

structure Checkpoint where
  safe : Bool := false
  sourceRow : ℕ := 0
deriving DecidableEq

/-- The part of a request that a recovery repeats. -/
structure TableImportOptions where
  columnMappings : List (Text × Text) := []
  continueOnError : Option Bool := none
  encoding : Text := []
  delimiter : Text := []
  headerRow : ℤ := 0
  nullToken : Option Text := none
  emptyStringAsNull : Bool := false
  sheetName : Text := []
  conflictPolicy : Text := []
  conflictKeyColumns : List Text := []
deriving DecidableEq

structure Job where
  id : Text
  kind : Kind
  status : Status
  sourcePath : Text := []
  sourceIdentityToken : Text
  targetFingerprint : Text
  connectionID : Text
  databaseName : Text := []
  tableName : Text := []
  optionsHash : Text
  current : ℕ := 0
  total : ℕ := 0
  succeeded : ℕ := 0
  skipped : ℕ := 0
  failed : ℕ := 0
  tableImportOptions : Option TableImportOptions
  parentJobID : Text := []
  recoveryAction : Text := []
  outcomeUnknown : Bool := false
  resumable : Bool := false
  checkpoint : Checkpoint := {}
  errorArtifactID : Text := []
  revision : ℕ := 0
deriving DecidableEq

inductive StoreError where
  | notFound | revisionConflict | recoveryUnavailable | invalidID
deriving DecidableEq

/-- `^[A-Za-z0-9][A-Za-z0-9_-]{0,127}$`. -/
def validJobID (id : Text) : Bool :=
  let alphanumeric := fun b : UInt8 => (48 ≤ b && b ≤ 57) || (65 ≤ b && b ≤ 90) || (97 ≤ b && b ≤ 122)
  match id with
  | [] => false
  | b :: rest => alphanumeric b && rest.length ≤ 127 &&
      rest.all fun b => alphanumeric b || b == 95 || b == 45

/-- The job files. -/
abbrev Store := List Job

namespace Store

/-- Replace the file of a job, or add it. -/
def write (job : Job) (s : Store) : Store :=
  match Table.lookup Job.id job.id s with
  | some _ => Table.update Job.id job.id (fun _ => job) s
  | none => s ++ [job]

theorem mem_write {job job' : Job} {jobs : Store} (h : job' ∈ jobs.write job) :
    job' = job ∨ job' ∈ jobs := by
  unfold write at h
  split at h
  · obtain ⟨a, ha, rfl⟩ := List.mem_map.mp h
    split
    · exact .inl rfl
    · exact .inr ha
  · cases List.mem_append.mp h with
    | inl h => exact .inr h
    | inr h => exact .inl (List.mem_singleton.mp h)

def putLocked (job : Job) (s : Store) : Except StoreError (Job × Store) :=
  let job := { job with id := trimSpace job.id }
  if validJobID job.id = false then .error .invalidID
  else match Table.lookup Job.id job.id s with
    | some existing =>
      if job.revision ≠ existing.revision then .error .revisionConflict
      else
        let job := { job with revision := job.revision + 1 }
        .ok (job, s.write job)
    | none =>
      if job.revision ≠ 0 then .error .notFound
      else
        let job := { job with revision := 1 }
        .ok (job, s.write job)

def getLocked (id : Text) (s : Store) : Except StoreError Job :=
  if validJobID (trimSpace id) = false then .error .notFound
  else match Table.lookup Job.id (trimSpace id) s with
    | some job => .ok job
    | none => .error .notFound

theorem mem_of_getLocked {id : Text} {job : Job} {s : Store} (h : s.getLocked id = .ok job) :
    job ∈ s := by
  unfold getLocked at h
  split at h
  · cases h
  · split at h
    · cases h
      exact Table.mem_of_lookup ‹_›
    · cases h

end Store

def canResume (job : Job) : Bool :=
  job.kind = .table && job.tableImportOptions.isSome &&
    job.recoveryAction ≠ bytes "retry_failed_rows" &&
    job.checkpoint.safe && !job.outcomeUnknown &&
    trimSpace job.sourcePath ≠ [] && trimSpace job.connectionID ≠ [] &&
    trimSpace job.sourceIdentityToken ≠ [] && trimSpace job.targetFingerprint ≠ [] &&
    trimSpace job.optionsHash ≠ []

def validateResume (job : Job) (sourceIdentityToken targetFingerprint optionsHash : Text) : Bool :=
  if job.status ≠ .interrupted ∨ job.resumable = false ∨ job.checkpoint.safe = false ∨
      job.outcomeUnknown = true then false
  else if trimSpace sourceIdentityToken = [] ∨ sourceIdentityToken ≠ job.sourceIdentityToken then
    false
  else if trimSpace targetFingerprint = [] ∨ targetFingerprint ≠ job.targetFingerprint then false
  else if trimSpace optionsHash = [] ∨ optionsHash ≠ job.optionsHash then false
  else true

namespace Store

/-- What a restart makes of one job. -/
def recovered (job : Job) : Job :=
  if job.status ≠ .preparing ∧ job.status ≠ .running ∧ job.status ≠ .stopping then job
  else { job with
    status := .interrupted
    resumable := canResume job
    revision := job.revision + 1 }

/-- The jobs that were under way are interrupted; each file is its job's own, so the checks of
`putLocked` pass. -/
def recoverInterrupted (s : Store) : Store := s.map recovered

def claimResume (id sourceIdentityToken targetFingerprint optionsHash : Text) (s : Store) :
    Except StoreError (Job × Store) :=
  match s.getLocked id with
  | .error e => .error e
  | .ok job =>
    if canResume job = false ∨
        validateResume job sourceIdentityToken targetFingerprint optionsHash = false then
      .error .recoveryUnavailable
    else s.putLocked { job with resumable := false }

def releaseResumeClaim (id : Text) (s : Store) : Except StoreError Store :=
  match s.getLocked id with
  | .error e => .error e
  | .ok job =>
    if job.status ≠ .interrupted ∨ job.resumable = true then .ok s
    else if canResume job = false then .error .recoveryUnavailable
    else (s.putLocked { job with resumable := true }).map Prod.snd

end Store

/-! ### How an import ends -/

/-- What the caller of an import is told, as far as the job's end depends on it. -/
structure Result where
  success : Bool
  hasPayload : Bool := true
  succeeded : ℕ := 0
  failed : ℕ := 0
  outcomeUnknown : Bool := false
  cancelled : Bool := false
  errorArtifactID : Text := []
deriving DecidableEq

/-- The status that a result stands for; the payload of a table import names no outcome. -/
def Result.status (result : Result) : Status :=
  if result.hasPayload = false then if result.success then .completed else .failed
  else if result.outcomeUnknown then .unknown
  else if result.cancelled then .cancelled
  else if !result.success && 0 < result.succeeded then .partially
  else if 0 < result.failed then
    if result.success || 0 < result.succeeded then .partially else .failed
  else if !result.success then .failed
  else .completed

/-- The job after its end. -/
def Job.finish (result : Result) (job : Job) : Job :=
  let outcomeUnknown := job.outcomeUnknown || (result.hasPayload && result.outcomeUnknown)
  { job with
    status := if outcomeUnknown then .unknown else result.status
    outcomeUnknown := outcomeUnknown
    errorArtifactID := if result.hasPayload then trimSpace result.errorArtifactID else []
    resumable := false }

def isTerminalStatus : Status → Bool
  | .completed | .partially | .failed | .cancelled | .unknown | .interrupted => true
  | .preparing | .running | .stopping => false

end GoNavi.Importjob
