import GoNavi.Scan.Text

/-! # States, events and rows of an agent run

The data of `internal/ai/runharness`: the states of a run with their transitions
(`canTransition`), the kinds of events, the effects of tools and the rows that the ledger
keeps for a run.

Identifiers (of commands, calls, approvals, owners, tokens) are numbers, with `0` for the
empty string, but for those of workspace sources; the arguments of a tool call stand for their hash.  Times are nanoseconds.  The
token counters are machine integers of 64 bits. -/

namespace GoNavi.Harness

open Scan

/-! ### States -/

inductive RunState where
  | queued
  | runningModel
  | awaitingApproval
  | runningTool
  | awaitingWorkspace
  | interrupted
  | recoveryRequired
  | canceling
  | completed
  | failed
  | canceled
  | exhausted
deriving DecidableEq, Repr

/-- No more events or transitions are accepted. -/
def RunState.terminal : RunState → Bool
  | .completed | .failed | .canceled | .exhausted => true
  | _ => false

/-- The states that a run can go to. -/
def RunState.targets : RunState → List RunState
  | .queued => [.runningModel, .canceling, .interrupted, .recoveryRequired]
  | .runningModel => [.awaitingApproval, .runningTool, .awaitingWorkspace, .completed, .failed,
      .exhausted, .canceling, .interrupted, .recoveryRequired]
  | .awaitingApproval => [.runningTool, .runningModel, .canceling, .interrupted,
      .recoveryRequired]
  | .runningTool => [.runningModel, .awaitingWorkspace, .completed, .failed, .exhausted,
      .canceling, .interrupted, .recoveryRequired]
  | .awaitingWorkspace => [.runningModel, .runningTool, .canceling, .interrupted,
      .recoveryRequired]
  | .interrupted => [.runningModel, .runningTool, .awaitingApproval, .awaitingWorkspace,
      .completed, .failed, .recoveryRequired, .canceling]
  | .recoveryRequired => [.runningModel, .runningTool, .awaitingApproval, .awaitingWorkspace,
      .completed, .failed, .canceling]
  | .canceling => [.canceled, .failed, .interrupted, .recoveryRequired]
  | .completed | .failed | .canceled | .exhausted => []

/-- `CanTransition`: the state machine.  A transition to the same state is rejected. -/
def canTransition (current target : RunState) : Bool := target ∈ current.targets

theorem canTransition_terminal {s : RunState} (h : s.terminal = true) (target : RunState) :
    canTransition s target = false := by
  cases s <;> first | rfl | cases h

/-! ### Effects of tools -/

inductive ToolEffect where
  | pure
  | readOnly
  | idempotent
  | sideEffect
  | sideEffectUnknown
deriving DecidableEq, Repr

/-- The effects that need an approval and whose outcome can be unknown. -/
def ToolEffect.mutating : ToolEffect → Bool
  | .sideEffect | .sideEffectUnknown => true
  | _ => false

/-- `refineToolEffect`; `none` is an effect that is not valid. -/
def refineToolEffect (declared : ToolEffect) (resolved : Option ToolEffect) : ToolEffect :=
  match resolved with
  | none => declared
  | some resolved =>
    match declared with
    | .sideEffectUnknown => resolved
    | .sideEffect => .sideEffect
    | declared => if resolved.mutating then resolved else declared

/-! ### Events -/

inductive EventKind where
  | input
  | modelDelta
  | modelCompleted
  | tool
  | approval
  | usage
  | checkpoint
  | runError
  | terminal
deriving DecidableEq, Repr

inductive ToolStatus where
  | started
  | completed
  | failed
  | canceled
  | unknown
deriving DecidableEq, Repr

inductive ApprovalStatus where
  | pending
  | approved
  | denied
  | expired
deriving DecidableEq, Repr

inductive ControlAction where
  | cancel
  | steer
  | approve
  | deny
  | resume
  | recover
  | markCompleted
  | abortRecovery
  | useStaleWorkspace
deriving DecidableEq, Repr

/-- Token usage as a provider reports it. -/
structure Usage where
  promptTokens : Int64
  completionTokens : Int64
  totalTokens : Int64
  cachedTokens : Option Int64
deriving DecidableEq

/-- What an event says, by its kind. -/
inductive Payload where
  | input (requestID : ℕ) (content : Text)
  | modelCompleted (calls : List ℕ) (usage : Usage)
  | usage (usage : Usage)
  | tool (callID toolName : ℕ) (effect : ToolEffect) (status : ToolStatus) (args : ℕ)
  | approval (approvalID callID : ℕ) (decision : ApprovalStatus)
  | checkpoint (sequence : ℕ)
  | runError (code message : Text)
  | terminal (reason : Text)
  | other
deriving DecidableEq

structure Event where
  sequence : ℕ
  kind : EventKind
  resultingState : RunState
  runRevision : ℕ
  attempt : ℕ
  payload : Payload
deriving DecidableEq

/-! ### Rows -/

/-- An exact revision of the workspace of a source instance.  Its ids are normalised when it is
stored, so they are texts. -/
structure WorkspaceRef where
  sourceID : Text
  sourceInstanceID : Text
  revision : ℕ
  contentHash : ℕ
deriving DecidableEq

structure Checkpoint where
  id : ℕ
  sequence : ℕ
  state : RunState
  workspace : Option WorkspaceRef
deriving DecidableEq

structure ToolCall where
  callID : ℕ
  attempt : ℕ
  toolName : ℕ
  effect : ToolEffect
  status : ToolStatus
  args : ℕ
  unknownOutcome : Bool
  workspace : Option WorkspaceRef
  startedAt : ℕ
deriving DecidableEq

/-- The key of a row: a call is repeated under a new attempt. -/
def ToolCall.key (c : ToolCall) : ℕ × ℕ := (c.callID, c.attempt)

/-- A side effect whose outcome is not known. -/
def ToolCall.unresolved (c : ToolCall) : Bool :=
  c.effect.mutating && (c.status == .started || c.status == .unknown || c.unknownOutcome)

structure Approval where
  id : ℕ
  callID : ℕ
  toolName : ℕ
  effect : ToolEffect
  args : ℕ
  status : ApprovalStatus
  runRevision : ℕ
  createdAt : ℕ
deriving DecidableEq

/-- What an approval is for: a call with its arguments. -/
def Approval.binding (a : Approval) : ℕ × ℕ := (a.callID, a.args)

/-- Who claims a control command, and until when. -/
structure Claim where
  owner : ℕ
  expiresAt : ℕ
deriving DecidableEq

structure Command where
  id : ℕ
  action : ControlAction
  /-- The content of a steer; blank for a payload without one. -/
  content : Text
  expectedRevision : ℕ
  createdAt : ℕ
  claim : Option Claim
  applied : Bool
  consumed : Bool
deriving DecidableEq

/-- Neither applied nor consumed. -/
def Command.pending (c : Command) : Bool := !c.applied && !c.consumed

structure SteerRequest where
  id : ℕ
  content : Text
deriving DecidableEq

inductive ReservationStatus where
  | reserved
  | reconciled
deriving DecidableEq, Repr

structure Reservation where
  id : ℕ
  reservedTokens : Int64
  promptTokens : Int64
  completionTokens : Int64
  totalTokens : Int64
  status : ReservationStatus
  committedSequence : ℕ
deriving DecidableEq

inductive Role where
  | user
  | assistant
  | tool
  | system
deriving DecidableEq, Repr

structure Message where
  role : Role
  toolCallID : ℕ
  /-- The call ids that an assistant message lists. -/
  toolCalls : List ℕ
  content : Text
deriving DecidableEq

structure Lease where
  ownerID : ℕ
  token : ℕ
  expiresAt : ℕ
deriving DecidableEq

/-- The row of a run. -/
structure Run where
  state : RunState
  revision : ℕ
  attempt : ℕ
  nextSequence : ℕ
  checkpointID : ℕ
  lease : Option Lease
  maxTotalTokens : Int64
  promptTokens : Int64
  completionTokens : Int64
  totalTokens : Int64
  reservedTokens : Int64
  activeDuration : ℕ
deriving DecidableEq

/-- The rows of one run.  Messages are those written for the run, in transcript order. -/
structure RunLedger where
  run : Run
  events : List Event
  checkpoints : List Checkpoint
  toolCalls : List ToolCall
  approvals : List Approval
  commands : List Command
  steerRequests : List SteerRequest
  reservations : List Reservation
  messages : List Message
deriving DecidableEq

/-- The errors of the ledger. -/
inductive Err where
  | terminalRun
  | leaseLost
  | leaseUnavailable
  | revisionConflict
  | sequenceConflict
  | invalidTransition
  | invalidRequest
  | toolConflict
  | toolStatus
  | toolAlreadyStarted
  | snapshotConflict
  | notFound
  | approvalConflict
  | commandConflict
  | claimLost
  | recoveryUnavailable
  | tokenBudgetExceeded
  | tokenReservation
  | branchConflict
  | invalidBranchCursor
  | uniqueConstraint
deriving DecidableEq, Repr

end GoNavi.Harness
