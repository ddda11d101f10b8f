import GoNavi.Machine.Program
import GoNavi.Syncjob.Store

/-! # The callers of the job store

A `Request` is one transaction of the store.  The methods of the store and of the manager are
programs over requests, and any number of callers run them side by side (`Callers.step`): a
caller may be overtaken, and may crash, between any two of its requests. -/

namespace GoNavi.Syncjob

open Scan

variable {δ : Type}

/-! ### Requests -/

inductive Request (δ : Type) where
  | getJob (id : Text)
  | saveJob (definition : JobDefinition δ)
  | requestCancelRunsForJob (jobID : Text) (nowMillis : ℤ) (reason : Text)
  | purgeJob (id : Text)
  | jobExists (id : Text)
  | createRun (run : RunRecord) (policy : Text) (eventCreatedAt : ℤ)
  | claimRun (id : Text) (nowMillis : ℤ)
  | getRun (id : Text)
  | requestCancelRun (id : Text) (nowMillis : ℤ)
  | touchRunOwned (id ownerToken : Text) (nowMillis : ℤ)
  | updateRunProgressOwned (id ownerToken : Text) (progress : RunProgress) (nowMillis : ℤ)
  | completeRunOwned (id ownerToken : Text) (status : RunStatus) (outcome : ExecutionOutcome)
      (message : Text) (nowMillis : ℤ)
  | completeRunOwnedWithTerminalEvent (id ownerToken : Text) (status : RunStatus)
      (outcome : ExecutionOutcome) (message : Text) (nowMillis : ℤ)
  | interruptStaleRuns (cutoffMillis nowMillis : ℤ)
  | deleteTerminalRun (id : Text)
  | clearTerminalRuns (jobID : Text)
  | appendRunEvent (event : RunEvent)
  | listDueJobs (nowMillis : ℤ)
  | advanceSchedule (id : Text) (scheduledAt next : ℤ)

/-- What a request is answered with when it succeeds. -/
@[reducible] def Request.Result : Request δ → Type
  | .getJob _ | .saveJob _ => JobDefinition δ
  | .requestCancelRunsForJob .. | .interruptStaleRuns .. => List RunRecord
  | .purgeJob _ | .jobExists _ | .claimRun .. | .requestCancelRun .. | .advanceSchedule .. => Bool
  | .createRun .. | .completeRunOwnedWithTerminalEvent .. => RunRecord × RunEvent
  | .getRun _ => RunRecord
  | .touchRunOwned .. | .updateRunProgressOwned .. | .deleteTerminalRun _ => Unit
  | .completeRunOwned .. => Completion
  | .clearTerminalRuns _ => ℕ
  | .appendRunEvent _ => RunEvent
  | .listDueJobs _ => List (JobDefinition δ)

abbrev Request.Answer (r : Request δ) : Type := Except Err r.Result

/-- The change that a request makes of the tables. -/
def operationOf (definitions : Definitions δ) (world : World) :
    (r : Request δ) → Store δ → Except Err (r.Result × Store δ)
  | .getJob id => getJob id
  | .saveJob definition => saveJob definitions world definition
  | .requestCancelRunsForJob jobID nowMillis reason =>
    requestCancelRunsForJob world jobID nowMillis reason
  | .purgeJob id => purgeJob id
  | .jobExists id => jobExists id
  | .createRun run policy eventCreatedAt =>
    createRunWithPolicyAndQueuedEvent world run policy eventCreatedAt
  | .claimRun id nowMillis => claimRun world id nowMillis
  | .getRun id => getRun id
  | .requestCancelRun id nowMillis => requestCancelRun world id nowMillis
  | .touchRunOwned id ownerToken nowMillis => touchRunOwned world id ownerToken nowMillis
  | .updateRunProgressOwned id ownerToken progress nowMillis =>
    updateRunProgressOwned world id ownerToken progress nowMillis
  | .completeRunOwned id ownerToken status outcome message nowMillis =>
    completeRunOwned world id ownerToken status outcome message nowMillis
  | .completeRunOwnedWithTerminalEvent id ownerToken status outcome message nowMillis =>
    completeRunOwnedWithTerminalEvent world id ownerToken status outcome message nowMillis
  | .interruptStaleRuns cutoffMillis nowMillis => interruptStaleRuns world cutoffMillis nowMillis
  | .deleteTerminalRun id => deleteTerminalRun id
  | .clearTerminalRuns jobID => clearTerminalRuns jobID
  | .appendRunEvent event => appendRunEvent world event
  | .listDueJobs nowMillis => listDueJobs nowMillis
  | .advanceSchedule id scheduledAt next => advanceSchedule id scheduledAt next

/-- A request is served in one transaction. -/
def serve (definitions : Definitions δ) (s : Store δ) (r : Request δ) (world : World) :
    r.Answer × Store δ :=
  transaction world (operationOf definitions world r) s

/-! ### Methods -/

/-- What a method does: it asks for transactions, and succeeds or fails. -/
abbrev Method (δ : Type) (α : Type) := Program (Request δ) Request.Answer (Except Err α)

/-- Go on with the result of a request, or return its error. -/
def onResult {α : Type} (r : Request δ) (next : r.Result → Method δ α) : Method δ α :=
  .ask r fun
    | .ok result => next result
    | .error err => .ret (.error err)

section methods

variable (definitions : Definitions δ)

/-- `Store.putJob`, behind the checks of the definition. -/
def putJob (definition : JobDefinition δ) (cancelInactiveRuns : Bool) (nowMillis : ℤ) :
    Method δ (JobDefinition δ) :=
  let definition := definitions.normalizeDefinition definition
  match definitions.validatePersistableDefinition definition with
  | some err => .ret (.error (.other err))
  | none =>
    onResult (.saveJob definition) fun saved =>
      if cancelInactiveRuns ∧ (saved.lifecycle = .paused ∨ saved.lifecycle = .archived) then
        let reason := if saved.lifecycle = .paused then bytes "paused" else bytes "archived"
        onResult (.requestCancelRunsForJob saved.id nowMillis reason) fun _ => .ret (.ok saved)
      else .ret (.ok saved)

def pauseJob (id : Text) (nowMillis : ℤ) : Method δ Unit :=
  onResult (.getJob id) fun definition =>
    if definition.lifecycle = .archived ∨ definition.archivedAt ≠ 0 then
      .ret (.error .notFound)
    else
      (putJob definitions { definition with lifecycle := .paused, enabled := false } false
        nowMillis).bind fun
        | .error err => .ret (.error err)
        | .ok saved =>
          onResult (.requestCancelRunsForJob saved.id nowMillis (bytes "paused")) fun _ =>
            .ret (.ok ())

/-- The events of the runs that a deleted job leaves behind; an error is not looked at. -/
def announceCancellations (nowMillis : ℤ) : List RunRecord → Method δ Unit
  | [] => .ret (.ok ())
  | run :: runs =>
    let canceled := run.status = .canceled
    .ask (.appendRunEvent {
      runID := run.id
      jobID := run.jobID
      sequence := 0
      type := if canceled then .canceled else .cancelling
      status := run.status
      current := run.current
      total := run.total
      table := run.table
      stage := run.stage
      message :=
        if canceled then bytes "canceled because task was archived"
        else bytes "cancellation requested because task was archived"
      createdAt := nowMillis }) fun _ => announceCancellations nowMillis runs

/-- `Manager.DeleteJob`: the job is archived and its runs are canceled. -/
def deleteJob (id : Text) (nowMillis : ℤ) : Method δ Unit :=
  onResult (.getJob (trimSpace id)) fun definition =>
    if definition.archivedAt ≠ 0 ∨ definition.lifecycle = .archived then
      .ret (.error .notFound)
    else
      (putJob definitions { definition with lifecycle := .archived, enabled := false } false
        nowMillis).bind fun
        | .error err => .ret (.error err)
        | .ok _ =>
          onResult (.requestCancelRunsForJob definition.id nowMillis (bytes "archived"))
            (announceCancellations nowMillis)

/-- `Store.PurgeJob`. -/
def purge (id : Text) : Method δ Unit :=
  onResult (.purgeJob id) fun affected =>
    if affected = true then .ret (.ok ())
    else
      onResult (.jobExists id) fun found =>
        .ret (.error (if found = true then .jobRunsActive else .notFound))

/-- `Manager.StartRun`: a run of the job as it is now. -/
def startRun (jobID : Text) (nowMillis : ℤ) : Method δ Unit :=
  onResult (.getJob (trimSpace jobID)) fun definition =>
    if definition.lifecycle ≠ .ready ∧ definition.lifecycle ≠ .enabled then
      .ret (.error .jobDisabled)
    else
      match definitions.validateDefinition definition with
      | some err => .ret (.error (.other err))
      | none =>
        let run : RunRecord := {
          id := []
          jobID := definition.id
          ownerToken := []
          jobRevision := definition.revision
          trigger := .manual
          status := .queued
          parentRunID := []
          attempt := 1
          queuedAt := 0
          startedAt := 0
          finishedAt := 0
          heartbeatAt := 0
          current := 0
          total := 0
          table := []
          stage := []
          rowsInserted := 0
          rowsUpdated := 0
          rowsDeleted := 0
          rowsFailed := 0
          message := []
          resumable := false
          definitionSnapshot := definitions.marshal definition
          createdAt := 0
          updatedAt := 0 }
        onResult (.createRun run definition.concurrencyPolicy nowMillis) fun _ => .ret (.ok ())

/-- `Store.ClaimRun`: the run, if it has been claimed. -/
def claim (id : Text) (nowMillis : ℤ) : Method δ (Option RunRecord) :=
  onResult (.claimRun id nowMillis) fun claimed =>
    if claimed = true then onResult (.getRun id) fun run => .ret (.ok (some run))
    else .ret (.ok none)

/-- `Store.RequestCancelRun`. -/
def cancelRun (id : Text) (nowMillis : ℤ) : Method δ RunRecord :=
  onResult (.requestCancelRun id nowMillis) fun affected =>
    onResult (.getRun id) fun run =>
      if affected = true then .ret (.ok run) else .ret (.error .runNotCancelable)

/-- `Store.CompleteRunOwned`: the update, and the run read behind it. -/
def completeOwned (id ownerToken : Text) (status : RunStatus) (outcome : ExecutionOutcome)
    (message : Text) (nowMillis : ℤ) : Method δ RunRecord :=
  onResult (.completeRunOwned id ownerToken status outcome message nowMillis) fun _ =>
    onResult (.getRun id) fun run => .ret (.ok run)

/-- `Store.DeleteRun`. -/
def deleteRun (runID : Text) : Method δ Unit :=
  onResult (.getRun (trimSpace runID)) fun run =>
    if terminalRunStatus run.status then
      onResult (.deleteTerminalRun run.id) fun _ => .ret (.ok ())
    else .ret (.error .runNotDeletable)

end methods

/-! ### Callers -/

/-- The operations that callers start. -/
inductive Operation (δ : Type) where
  | putJob (definition : JobDefinition δ) (nowMillis : ℤ)
  | pauseJob (id : Text) (nowMillis : ℤ)
  | deleteJob (id : Text) (nowMillis : ℤ)
  | purgeJob (id : Text)
  | startRun (jobID : Text) (nowMillis : ℤ)
  | createRun (run : RunRecord) (policy : Text) (eventCreatedAt : ℤ)
  | claimRun (id : Text) (nowMillis : ℤ)
  | cancelRun (id : Text) (nowMillis : ℤ)
  | cancelRunsForJob (jobID : Text) (nowMillis : ℤ) (reason : Text)
  | touchRun (id ownerToken : Text) (nowMillis : ℤ)
  | updateProgress (id ownerToken : Text) (progress : RunProgress) (nowMillis : ℤ)
  | completeRun (id ownerToken : Text) (status : RunStatus) (outcome : ExecutionOutcome)
      (message : Text) (nowMillis : ℤ)
  | completeRunWithEvent (id ownerToken : Text) (status : RunStatus) (outcome : ExecutionOutcome)
      (message : Text) (nowMillis : ℤ)
  | interruptStaleRuns (cutoffMillis nowMillis : ℤ)
  | deleteRun (runID : Text)
  | clearHistory (jobID : Text)

/-- The program of an operation; what it returns is left to its caller. -/
def programOf (definitions : Definitions δ) : Operation δ → Method δ Unit
  | .putJob definition nowMillis => discard (putJob definitions definition true nowMillis)
  | .pauseJob id nowMillis => pauseJob definitions id nowMillis
  | .deleteJob id nowMillis => deleteJob definitions id nowMillis
  | .purgeJob id => purge id
  | .startRun jobID nowMillis => startRun definitions jobID nowMillis
  | .createRun run policy eventCreatedAt =>
    onResult (.createRun run policy eventCreatedAt) fun _ => .ret (.ok ())
  | .claimRun id nowMillis => discard (claim id nowMillis)
  | .cancelRun id nowMillis => discard (cancelRun id nowMillis)
  | .cancelRunsForJob jobID nowMillis reason =>
    onResult (.requestCancelRunsForJob jobID nowMillis reason) fun _ => .ret (.ok ())
  | .touchRun id ownerToken nowMillis =>
    onResult (.touchRunOwned id ownerToken nowMillis) fun _ => .ret (.ok ())
  | .updateProgress id ownerToken progress nowMillis =>
    onResult (.updateRunProgressOwned id ownerToken progress nowMillis) fun _ => .ret (.ok ())
  | .completeRun id ownerToken status outcome message nowMillis =>
    discard (completeOwned id ownerToken status outcome message nowMillis)
  | .completeRunWithEvent id ownerToken status outcome message nowMillis =>
    onResult (.completeRunOwnedWithTerminalEvent id ownerToken status outcome message nowMillis)
      fun _ => .ret (.ok ())
  | .interruptStaleRuns cutoffMillis nowMillis =>
    onResult (.interruptStaleRuns cutoffMillis nowMillis) fun _ => .ret (.ok ())
  | .deleteRun runID => deleteRun runID
  | .clearHistory jobID => onResult (.clearTerminalRuns jobID) fun _ => .ret (.ok ())
where
  discard {α : Type} (method : Method δ α) : Method δ Unit :=
    method.bind fun result => .ret (result.map fun _ => ())

/-- A move of the callers over the store. -/
def step (definitions : Definitions δ) :
    Callers.Config (Store δ) (Request δ) Request.Answer (Except Err Unit) →
      Callers.Move (Operation δ) World →
      Callers.Config (Store δ) (Request δ) Request.Answer (Except Err Unit) :=
  Callers.step (serve definitions) (programOf definitions)

end GoNavi.Syncjob
