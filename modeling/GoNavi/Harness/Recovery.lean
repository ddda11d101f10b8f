import GoNavi.Harness.Tokens
import GoNavi.Harness.Commands

/-! # Leases and recovery

The leases of a run, `RecoverRuns`, which fences a run whose owner is gone, and
`ApplyRecoveryAction` of `recovery.go`, which applies a decision about a fenced run. -/

namespace GoNavi.Harness

open Scan

/-- The states in which a run is executed. -/
def executing (s : RunState) : Bool :=
  s ∈ [RunState.runningModel, .runningTool, .awaitingWorkspace, .canceling]

theorem executing_open {s : RunState} (h : executing s = true) : s.terminal = false := by
  cases s <;> first | rfl | cases h

/-- `resumableCheckpointState`. -/
def resumable (s : RunState) : Bool :=
  s ∈ [RunState.runningModel, .runningTool, .awaitingApproval, .awaitingWorkspace]

/-- The order `sequence DESC` of checkpoints. -/
def newerCheckpoint (best : Option Checkpoint) (c : Checkpoint) : Option Checkpoint :=
  match best with
  | none => some c
  | some b => if b.sequence < c.sequence then some c else some b

/-- The order `attempt DESC, started_at DESC, call_id DESC` of tool calls. -/
def ToolCall.newer (c d : ToolCall) : Bool :=
  d.attempt < c.attempt ∨ (d.attempt = c.attempt ∧
    (d.startedAt < c.startedAt ∨ (d.startedAt = c.startedAt ∧ d.callID < c.callID)))

def newestCall (best : Option ToolCall) (c : ToolCall) : Option ToolCall :=
  match best with
  | none => some c
  | some b => if c.newer b then some c else some b

namespace RunLedger

/-! ### Leases -/

/-- `AcquireLease`.  `fresh` stands for the token drawn for a new lease, which is never empty. -/
def acquireLease (l : RunLedger) (now ownerID fresh ttl : ℕ) : Except Err RunLedger :=
  if ownerID = 0 then .error .invalidRequest
  else if l.run.state.terminal then .error .terminalRun
  else
    let put (token : ℕ) : RunLedger :=
      { l with run := { l.run with
                        lease := some ⟨ownerID, token, now + ttl⟩
                        revision := l.run.revision + 1 } }
    match l.run.lease with
    | none => .ok (put (fresh + 1))
    | some lease =>
      if lease.expiresAt ≤ now then .ok (put (fresh + 1))
      else if lease.ownerID ≠ ownerID then .error .leaseUnavailable
      else .ok (put lease.token)

/-- `RenewLease`. -/
def renewLease (l : RunLedger) (now ownerID token ttl : ℕ) : Except Err RunLedger :=
  match l.run.lease with
  | none => .error .leaseLost
  | some lease =>
    if lease.ownerID = ownerID ∧ lease.token = token ∧ now < lease.expiresAt ∧
        l.run.state.terminal = false then
      .ok { l with run := { l.run with lease := some { lease with expiresAt := now + ttl } } }
    else .error .leaseLost

/-- `ReleaseLease`. -/
def releaseLease (l : RunLedger) (ownerID token : ℕ) : Except Err RunLedger :=
  match l.run.lease with
  | none => .error .leaseLost
  | some lease =>
    if lease.ownerID = ownerID ∧ lease.token = token then
      .ok { l with run := { l.run with lease := none } }
    else .error .leaseLost

def dropLease (l : RunLedger) : RunLedger := { l with run := { l.run with lease := none } }

/-! ### Recovery of a run whose owner is gone -/

/-- The state of a recovered run: it needs a decision if a side effect is unresolved. -/
def recoveryTarget (l : RunLedger) : RunState :=
  if l.toolCalls.any ToolCall.unresolved then .recoveryRequired else .interrupted

/-- Reconcile the reservations that are still held with no usage. -/
def releaseReservations (l : RunLedger) : RunLedger :=
  { l with
    run := { l.run with reservedTokens := 0 }
    reservations := l.reservations.map fun r =>
      if r.status = .reserved then r.reconcile Usage.zero else r }

/-- `RecoverRuns` on one run. -/
def recoverRun (l : RunLedger) (now checkpointID : ℕ) : RunLedger :=
  if executing l.run.state = false ∨ l.leased now then l
  else
    ((((l.expireApprovals fun _ => true).releaseReservations.dropLease).putCheckpoint
      ⟨checkpointID, l.run.nextSequence, l.recoveryTarget, l.previousWorkspace⟩).commit
        l.recoveryTarget (l.run.attempt + 1)
        [(.checkpoint, l.recoveryTarget, .checkpoint l.run.nextSequence)])

/-! ### Recovery decisions -/

structure RecoveryRequest where
  action : ControlAction
  /-- `0` for the newest call. -/
  callID : ℕ
  expectedRevision : ℕ
  ownerToken : ℕ
  /-- `0` for a caller that keeps no command. -/
  commandID : ℕ
  content : Text
deriving DecidableEq

/-- `resumeCheckpointStateTx`: the state of the newest checkpoint, at or before the one of the
run, that can be executed. -/
def resumeCheckpointState (l : RunLedger) : RunState :=
  match Table.lookup Checkpoint.id l.run.checkpointID l.checkpoints with
  | none => .runningModel
  | some current =>
    if resumable current.state then current.state
    else
      match (l.checkpoints.filter fun c => c.sequence < current.sequence ∧ resumable c.state).foldl
        newerCheckpoint none with
      | none => .runningModel
      | some c => c.state

/-- The newest unresolved side effect, or that of one call. -/
def latestUnknown? (l : RunLedger) (callID : ℕ) : Option ToolCall :=
  (l.toolCalls.filter fun c => c.unresolved && (callID = 0 || c.callID == callID)).foldl
    newestCall none

/-- `markLatestUnknownToolTx`. -/
def markLatestUnknownTool (l : RunLedger) (callID : ℕ) : Except Err RunLedger :=
  match l.latestUnknown? callID with
  | none => .error .recoveryUnavailable
  | some c => .ok (l.updateToolCall c.callID c.attempt fun row =>
      { row with status := .completed, unknownOutcome := false })

/-- `insertRecoveryCommandTx`: the command is inserted as applied, for the revision that the
decision leads to. -/
def insertRecoveryCommand (l : RunLedger) (now : ℕ) (r : RecoveryRequest) : RunLedger :=
  if r.commandID = 0 then l
  else l.putCommand ⟨r.commandID, r.action, r.content, l.run.revision, now,
    none, true, true⟩

/-- What an action makes of the run: nothing, or the state and the attempt it goes to. -/
inductive Decision where
  | unchanged
  | refused (e : Err)
  | go (l : RunLedger) (target : RunState) (attempt : ℕ)

/-- An action that comes late: it was applied before, or it is refused. -/
def Decision.late (done : Bool) : Decision :=
  if done then .unchanged else .refused .recoveryUnavailable

theorem Decision.late_ne_go (done : Bool) (l : RunLedger) (target : RunState) (attempt : ℕ) :
    Decision.late done ≠ .go l target attempt := by
  cases done <;> nofun

/-- The `switch` over the recovery actions. -/
def decision (l : RunLedger) (r : RecoveryRequest) : Decision :=
  match r.action with
  | .resume =>
    if l.run.state ≠ .interrupted then Decision.late (l.run.state = .runningModel)
    else .go l l.resumeCheckpointState l.run.attempt
  | .recover =>
    if l.run.state ≠ .recoveryRequired ∧ l.run.state ≠ .interrupted then
      Decision.late (l.run.state = .runningModel)
    else .go l .runningModel (l.run.attempt + 1)
  | .markCompleted =>
    if l.run.state ≠ .recoveryRequired then Decision.late (l.run.state = .runningModel)
    else
      match l.markLatestUnknownTool r.callID with
      | .error e => .refused e
      | .ok l' => .go l' .runningModel l.run.attempt
  | .abortRecovery =>
    if l.run.state ≠ .recoveryRequired ∧ l.run.state ≠ .interrupted then
      Decision.late (l.run.state = .failed ∨ l.run.state = .canceled)
    else .go l .failed l.run.attempt
  | _ => .refused .recoveryUnavailable

/-- The write of a decision. -/
def decide' (l : RunLedger) (checkpointID : ℕ) (target : RunState) (attempt : ℕ) : RunLedger :=
  let l' := (l.expireApprovals fun _ => true).dropLease
  if target.terminal then
    (l'.commit target attempt
      [(.terminal, target, .terminal (bytes "user_aborted_recovery"))]).discardPendingControlCommands
  else
    (l'.putCheckpoint ⟨checkpointID, l.run.nextSequence, target, l.previousWorkspace⟩).commit
      target attempt [(.checkpoint, target, .checkpoint l.run.nextSequence)]

/-- `ApplyRecoveryAction`. -/
def applyRecoveryAction (l : RunLedger) (now checkpointID : ℕ) (r : RecoveryRequest)
    (elsewhere : Bool) : Except Err RunLedger :=
  if r.action ∉ [ControlAction.resume, .recover, .markCompleted, .abortRecovery] then
    .error .recoveryUnavailable
  else if r.commandID ≠ 0 ∧ elsewhere then .error .commandConflict
  else
    match (if r.commandID = 0 then none else l.command? r.commandID) with
    | some c =>
      if c.action = r.action ∧ c.content = r.content then .ok l else .error .commandConflict
    | none =>
      if l.run.state.terminal then .ok (l.insertRecoveryCommand now r)
      else if 0 < r.expectedRevision ∧ r.expectedRevision ≠ l.run.revision then
        .error .revisionConflict
      else if l.leased now ∧ l.verifyOwner now r.ownerToken = false then .error .leaseUnavailable
      else
        match l.decision r with
        | .unchanged => .ok (l.insertRecoveryCommand now r)
        | .refused e => .error e
        | .go l' target attempt =>
          if l.reaches target = false then .error .invalidTransition
          else .ok ((l'.decide' checkpointID target attempt).insertRecoveryCommand now r)

end RunLedger

end GoNavi.Harness
