import GoNavi.Harness.Types
import GoNavi.Machine.Table

/-! # The ledger of a run

The transactions of `ledger.go`, `tool_atomic.go` and `tool_supersede_atomic.go` that write the
rows of one run.  A transaction is a function from the rows to the rows after the commit, or
the error with which it is rolled back.  Every transaction gets the time at which it reads the
clock.  A `checkpointID` is the id that the transaction draws for a new checkpoint.

Most transactions begin with the same checks (`RunLedger.guard`): the run is not terminal, the
caller holds the lease, and the expected revision is the current one.  They write events
through `RunLedger.commit`, which numbers the events and advances the revision by one.  The row
of a run starts with `nextSequence = 1`, so the clamps `if sequence < 1` never act and are not
repeated here. -/

namespace GoNavi.Harness

open Scan Table

namespace RunLedger

/-- A run as `createRunTx` inserts it, with its first message. -/
def create (maxTotalTokens : Int64) (content : Text) : RunLedger where
  run := ⟨.queued, 1, 1, 1, 0, none, maxTotalTokens, 0, 0, 0, 0, 0⟩
  events := []
  checkpoints := []
  toolCalls := []
  approvals := []
  commands := []
  steerRequests := []
  reservations := []
  messages := [⟨.user, 0, [], content⟩]

/-! ### Checks -/

/-- `verifyOwner` and the predicate of `ownerCAS`: a run without a lease is written without a
token, a leased run with the token of the live lease only. -/
def verifyOwner (l : RunLedger) (now token : ℕ) : Bool :=
  match l.run.lease with
  | none => token = 0
  | some lease => token = lease.token ∧ now < lease.expiresAt

/-- The checks in front of a write. -/
def guard (l : RunLedger) (now token expectedRevision : ℕ) : Except Err Unit :=
  if l.run.state.terminal then .error .terminalRun
  else if l.verifyOwner now token = false then .error .leaseLost
  else if 0 < expectedRevision ∧ expectedRevision ≠ l.run.revision then .error .revisionConflict
  else .ok ()

/-- `ValidateTransition`, which is asked only if the state changes. -/
def reaches (l : RunLedger) (target : RunState) : Bool :=
  target = l.run.state ∨ canTransition l.run.state target

/-- Whether a lease of the run is live. -/
def leased (l : RunLedger) (now : ℕ) : Bool := l.run.lease.any fun lease => now < lease.expiresAt

/-! ### Events -/

/-- The rows of the events of one transaction. -/
def numbered (l : RunLedger) (attempt : ℕ) (es : List (EventKind × RunState × Payload)) :
    List Event :=
  es.mapIdx fun i e => ⟨l.run.nextSequence + i, e.1, e.2.1, l.run.revision + 1, attempt, e.2.2⟩

/-- Append events and set the state; all of them carry the new revision. -/
def commit (l : RunLedger) (state : RunState) (attempt : ℕ)
    (es : List (EventKind × RunState × Payload)) : RunLedger :=
  { l with
    run := { l.run with
             state := state
             revision := l.run.revision + 1
             attempt := attempt
             nextSequence := l.run.nextSequence + es.length }
    events := l.events ++ l.numbered attempt es }

/-- Advance the revision without an event. -/
def touch (l : RunLedger) : RunLedger :=
  { l with run := { l.run with revision := l.run.revision + 1 } }

/-! ### Checkpoints -/

/-- The workspace of the checkpoint of the run (`previousCheckpointDataTx`). -/
def previousWorkspace (l : RunLedger) : Option WorkspaceRef :=
  (lookup Checkpoint.id l.run.checkpointID l.checkpoints).bind Checkpoint.workspace

/-- Insert a checkpoint and make it the checkpoint of the run. -/
def putCheckpoint (l : RunLedger) (checkpoint : Checkpoint) : RunLedger :=
  { l with
    run := { l.run with checkpointID := checkpoint.id }
    checkpoints := l.checkpoints ++ [checkpoint] }

/-- `SaveCheckpoint`. -/
def saveCheckpoint (l : RunLedger) (now token expectedRevision checkpointID sequence : ℕ)
    (state : RunState) (workspace : Option WorkspaceRef) : Except Err RunLedger :=
  match l.guard now token expectedRevision with
  | .error e => .error e
  | .ok () =>
    if state ∈ [RunState.queued, .interrupted, .recoveryRequired, .canceling] then
      .error .invalidRequest
    else if state.terminal then .error .invalidRequest
    else if l.reaches state = false then .error .invalidTransition
    else if sequence ≠ l.run.nextSequence - 1 then .error .sequenceConflict
    else if l.checkpoints.any fun c => sequence ≤ c.sequence then .error .sequenceConflict
    else .ok (l.putCheckpoint
      ⟨checkpointID, sequence, state, workspace.or l.previousWorkspace⟩).touch

/-! ### Messages -/

/-- `appendMessageTx`. -/
def putMessage (l : RunLedger) (message : Message) : RunLedger :=
  { l with messages := l.messages ++ [message] }

/-- `AppendMessage`: no owner is asked for. -/
def appendMessage (l : RunLedger) (message : Message) : Except Err RunLedger :=
  .ok (l.putMessage message)

/-! ### Control commands at a terminal transition -/

/-- Change the commands with an id. -/
def updateCommand (l : RunLedger) (id : ℕ) (f : Command → Command) : RunLedger :=
  { l with commands := update Command.id id f l.commands }

/-- `discardPendingControlCommandsTx`. -/
def discardPendingControlCommands (l : RunLedger) : RunLedger :=
  { l with commands := l.commands.map fun c =>
      if c.pending then { c with consumed := true, claim := none } else c }

/-- `markTerminalControlCommandAppliedTx`; the id `0` names no command. -/
def markTerminalControlCommandApplied (l : RunLedger) (commandID : ℕ) : Except Err RunLedger :=
  if commandID = 0 then .ok l
  else if l.commands.any fun c => c.id = commandID ∧ c.pending then
    .ok (l.updateCommand commandID fun c =>
      { c with applied := true, consumed := true, claim := none })
  else .error .claimLost

/-! ### Events and transitions -/

structure AppendEventRequest where
  expectedSequence : ℕ
  expectedRevision : ℕ
  kind : EventKind
  resultingState : RunState
  payload : Payload
  attempt : ℕ
  ownerToken : ℕ
  appliedControlCommandID : ℕ
deriving DecidableEq

/-- The attempt an event is written at: that of the run by default. -/
def eventAttempt (l : RunLedger) (r : AppendEventRequest) : ℕ :=
  if r.attempt = 0 then l.run.attempt else r.attempt

/-- `AppendEvent`. -/
def appendEvent (l : RunLedger) (now : ℕ) (r : AppendEventRequest) : Except Err RunLedger :=
  match l.guard now r.ownerToken r.expectedRevision with
  | .error e => .error e
  | .ok () =>
    if 0 < r.expectedSequence ∧ r.expectedSequence ≠ l.run.nextSequence then
      .error .sequenceConflict
    else if l.reaches r.resultingState = false then .error .invalidTransition
    else if r.kind = .terminal ∧ r.resultingState.terminal = false then .error .invalidRequest
    else if r.kind ≠ .terminal ∧ r.resultingState.terminal then .error .invalidRequest
    else
      let l' := l.commit r.resultingState (l.eventAttempt r) [(r.kind, r.resultingState, r.payload)]
      if r.resultingState.terminal then
        match l'.markTerminalControlCommandApplied r.appliedControlCommandID with
        | .error e => .error e
        | .ok l'' => .ok l''.discardPendingControlCommands
      else .ok l'

/-- `TransitionRun`: a state change without an event. -/
def transitionRun (l : RunLedger) (now token expectedRevision : ℕ) (source target : RunState) :
    Except Err RunLedger :=
  if canTransition source target = false then .error .invalidTransition
  else if target.terminal then .error .invalidTransition
  else if l.run.state ≠ source then .error .revisionConflict
  else if 0 < expectedRevision ∧ expectedRevision ≠ l.run.revision then .error .revisionConflict
  else if l.verifyOwner now token = false then .error .leaseLost
  else .ok { l with run := { l.run with state := target, revision := l.run.revision + 1 } }

/-- `AddActiveDuration`. -/
def addActiveDuration (l : RunLedger) (now token duration : ℕ) : Except Err RunLedger :=
  if duration = 0 then .ok l
  else
    match l.guard now token 0 with
    | .error e => .error e
    | .ok () => .ok { l with run := { l.run with
                                      activeDuration := l.run.activeDuration + duration
                                      revision := l.run.revision + 1 } }

/-! ### Tool calls -/

/-- The row of an attempt of a call. -/
def toolCall? (l : RunLedger) (callID attempt : ℕ) : Option ToolCall :=
  lookup ToolCall.key (callID, attempt) l.toolCalls

/-- The first of two rows in the order `attempt DESC`. -/
def newerCall (best : Option ToolCall) (c : ToolCall) : Option ToolCall :=
  match best with
  | none => some c
  | some b => if b.attempt < c.attempt then some c else some b

/-- The row that a completion is for: the given attempt, or the newest one. -/
def finishedCall? (l : RunLedger) (callID attempt : ℕ) : Option ToolCall :=
  if attempt = 0 then (l.toolCalls.filter fun c => c.callID = callID).foldl newerCall none
  else l.toolCall? callID attempt

/-- Change the rows of an attempt of a call. -/
def updateToolCall (l : RunLedger) (callID attempt : ℕ) (f : ToolCall → ToolCall) : RunLedger :=
  { l with toolCalls := update ToolCall.key (callID, attempt) f l.toolCalls }

def putToolCall (l : RunLedger) (c : ToolCall) : RunLedger :=
  { l with toolCalls := l.toolCalls ++ [c] }

structure StartToolRequest where
  callID : ℕ
  attempt : ℕ
  toolName : ℕ
  effect : ToolEffect
  args : ℕ
  expectedRevision : ℕ
  ownerToken : ℕ
  workspace : Option WorkspaceRef
deriving DecidableEq

/-- The attempt a tool is started at. -/
def StartToolRequest.attempt' (r : StartToolRequest) : ℕ := max r.attempt 1

/-- Whether a row is for the same tool, effect and arguments. -/
def StartToolRequest.sameCall (r : StartToolRequest) (c : ToolCall) : Bool :=
  c.toolName = r.toolName ∧ c.effect = r.effect ∧ c.args = r.args

def StartToolRequest.row (r : StartToolRequest) (now : ℕ) : ToolCall :=
  ⟨r.callID, r.attempt', r.toolName, r.effect, .started, r.args, false, r.workspace, now⟩

/-- The state of a run once a tool is started. -/
def startTarget (l : RunLedger) : RunState :=
  if l.run.state = .runningModel ∨ l.run.state = .awaitingApproval then .runningTool
  else l.run.state

/-- `StartTool`. -/
def startTool (l : RunLedger) (now : ℕ) (r : StartToolRequest) : Except Err RunLedger :=
  match l.guard now r.ownerToken r.expectedRevision with
  | .error e => .error e
  | .ok () =>
    match l.toolCall? r.callID r.attempt' with
    | some c => .error (if r.sameCall c then .toolAlreadyStarted else .toolConflict)
    | none =>
      let l' := l.putToolCall (r.row now)
      .ok { l' with run := { l.run with state := l.startTarget, revision := l.run.revision + 1 } }

/-- `StartToolAndEvent`.  A row of the same call is no error: nothing is written. -/
def startToolAndEvent (l : RunLedger) (now checkpointID : ℕ) (r : StartToolRequest) :
    Except Err RunLedger :=
  match l.guard now r.ownerToken r.expectedRevision with
  | .error e => .error e
  | .ok () =>
    match l.toolCall? r.callID r.attempt' with
    | some c => if r.sameCall c then .ok l else .error .toolConflict
    | none =>
      .ok (((l.putToolCall (r.row now)).putCheckpoint
        ⟨checkpointID, l.run.nextSequence, l.startTarget, r.workspace⟩).commit l.startTarget
          l.run.attempt [(.tool, l.startTarget,
            .tool r.callID r.toolName r.effect .started r.args)])

structure FinishToolRequest where
  callID : ℕ
  attempt : ℕ
  status : ToolStatus
  result : Text
  unknownOutcome : Bool
  expectedRevision : ℕ
  ownerToken : ℕ
deriving DecidableEq

/-- `FinishTool`. -/
def finishTool (l : RunLedger) (now : ℕ) (r : FinishToolRequest) : Except Err RunLedger :=
  if r.status = .started then .error .toolStatus
  else
    match l.guard now r.ownerToken r.expectedRevision with
    | .error e => .error e
    | .ok () =>
      match l.finishedCall? r.callID r.attempt with
      | none => .error .notFound
      | some c =>
        if c.status ≠ .started then .ok l
        else .ok (l.updateToolCall c.callID c.attempt fun row =>
          { row with status := r.status
                     unknownOutcome := r.unknownOutcome || r.status == .unknown }).touch

/-- The status that is recorded: an unknown side effect is `unknown` whatever was reported. -/
def FinishToolRequest.effectiveStatus (r : FinishToolRequest) (c : ToolCall) : ToolStatus :=
  if c.effect.mutating ∧ r.unknownOutcome then .unknown else r.status

/-- The state a completion leads to: an unknown side effect fences the run. -/
def FinishToolRequest.target (r : FinishToolRequest) (c : ToolCall)
    (resultingState : Option RunState) : RunState :=
  if r.effectiveStatus c = .unknown ∧ c.effect.mutating then .recoveryRequired
  else resultingState.getD .runningModel

/-- `FinishToolAndEvent`.  A call that is closed already is no error: nothing is written. -/
def finishToolAndEvent (l : RunLedger) (now checkpointID : ℕ) (r : FinishToolRequest)
    (resultingState : Option RunState) (workspace : Option WorkspaceRef) :
    Except Err RunLedger :=
  if r.status = .started then .error .toolStatus
  else
    match l.guard now r.ownerToken r.expectedRevision with
    | .error e => .error e
    | .ok () =>
      match l.finishedCall? r.callID r.attempt with
      | none => .error .notFound
      | some c =>
        if c.status ≠ .started then .ok l
        else if l.reaches (r.target c resultingState) = false then .error .invalidTransition
        else if workspace.isSome ∧ c.workspace.isSome ∧ workspace ≠ c.workspace then
          .error .snapshotConflict
        else
          let target := r.target c resultingState
          .ok ((((l.putCheckpoint
            ⟨checkpointID, l.run.nextSequence, target, c.workspace.or workspace⟩).updateToolCall
              c.callID c.attempt fun row =>
                { row with status := r.effectiveStatus c
                           unknownOutcome := r.unknownOutcome ||
                             r.effectiveStatus c == .unknown }).commit target l.run.attempt
              [(.tool, target, .tool c.callID c.toolName c.effect (r.effectiveStatus c)
                c.args)]).putMessage ⟨.tool, c.callID, [], r.result⟩)

/-! ### Superseding tool intents -/

structure ToolIntent where
  callID : ℕ
  toolName : ℕ
  effect : ToolEffect
  args : ℕ
deriving DecidableEq

structure SupersedeRequest where
  ownerToken : ℕ
  expectedRevision : ℕ
  intents : List ToolIntent
  steerContent : Text
  requestID : ℕ
  workspace : Option WorkspaceRef
deriving DecidableEq

/-- The states in which a steer can replace work. -/
def steerable (s : RunState) : Bool :=
  s ∈ [RunState.queued, .runningModel, .runningTool, .awaitingApproval, .awaitingWorkspace]

/-- The intents that get a canceled row: those without a row at the attempt of the run. -/
def supersededIntents (l : RunLedger) : List ToolIntent → Except Err (List ToolIntent)
  | [] => .ok []
  | i :: is =>
    match l.toolCall? i.callID (max l.run.attempt 1) with
    | some c =>
      if c.toolName ≠ i.toolName ∨ c.effect ≠ i.effect ∨ c.args ≠ i.args then .error .toolConflict
      else if c.status = .started ∨ c.status = .unknown then .error .toolAlreadyStarted
      else l.supersededIntents is
    | none =>
      match l.supersededIntents is with
      | .error e => .error e
      | .ok rest => .ok (i :: rest)

def supersededResult : Text := bytes "\x7b\"error\":\"superseded_by_steer\"\x7d"

/-- The canceled row of an intent. -/
def canceledRow (l : RunLedger) (workspace : Option WorkspaceRef) (i : ToolIntent) : ToolCall :=
  ⟨i.callID, max l.run.attempt 1, i.toolName, i.effect, .canceled, i.args, false, workspace, 0⟩

/-- Expire the pending approvals that a test selects. -/
def expireApprovals (l : RunLedger) (p : Approval → Bool) : RunLedger :=
  { l with approvals := l.approvals.map fun a =>
      if a.status = .pending ∧ p a then { a with status := .expired } else a }

/-- The tool message of a superseded intent. -/
def ToolIntent.message (i : ToolIntent) : Message := ⟨.tool, i.callID, [], supersededResult⟩

/-- The event of a superseded intent, which leaves the state as it is. -/
def canceledEvent (l : RunLedger) (i : ToolIntent) : EventKind × RunState × Payload :=
  (.tool, l.run.state, .tool i.callID i.toolName i.effect .canceled i.args)

/-- The steer request that a request id leaves behind. -/
def SupersedeRequest.steerRequest (r : SupersedeRequest) : List SteerRequest :=
  if r.requestID = 0 then [] else [⟨r.requestID, trimSpace r.steerContent⟩]

/-- The rows of superseded intents and of the steer that replaces them, without events. -/
def supersede (l : RunLedger) (r : SupersedeRequest) (intents : List ToolIntent) : RunLedger :=
  { l with
    toolCalls := l.toolCalls ++
      intents.map (l.canceledRow (r.workspace.or l.previousWorkspace))
    messages := l.messages ++ intents.map ToolIntent.message ++
      [⟨.user, 0, [], trimSpace r.steerContent⟩]
    steerRequests := l.steerRequests ++ r.steerRequest }

/-- The steer request of an id, if it was handled already. -/
def steerRequest? (l : RunLedger) (requestID : ℕ) : Option SteerRequest :=
  if requestID = 0 then none else lookup SteerRequest.id requestID l.steerRequests

/-- `SupersedeToolIntentsAndSteer`. -/
def supersedeToolIntentsAndSteer (l : RunLedger) (now checkpointID : ℕ) (r : SupersedeRequest) :
    Except Err RunLedger :=
  if trimSpace r.steerContent = [] then .error .invalidRequest
  else if ¬ (r.intents.map ToolIntent.callID).Nodup then .error .toolConflict
  else
    match l.steerRequest? r.requestID with
    | some s =>
      if s.content = trimSpace r.steerContent then .ok l else .error .commandConflict
    | none =>
      if l.run.state.terminal then .error .terminalRun
      else if steerable l.run.state = false then .error .invalidTransition
      else
        match l.guard now r.ownerToken r.expectedRevision with
        | .error e => .error e
        | .ok () =>
          match l.supersededIntents r.intents with
          | .error e => .error e
          | .ok intents =>
            let sequence := l.run.nextSequence + intents.length
            .ok ((((l.supersede r intents).expireApprovals fun a =>
              a.callID ∈ r.intents.map ToolIntent.callID).putCheckpoint
                ⟨checkpointID, sequence, .interrupted,
                  r.workspace.or l.previousWorkspace⟩).commit .runningModel l.run.attempt
              (intents.map l.canceledEvent ++
                [(.checkpoint, .interrupted, .checkpoint sequence),
                  (.input, .runningModel, .input r.requestID (trimSpace r.steerContent))]))

/-! ### Approvals -/

structure PutApprovalRequest where
  approvalID : ℕ
  callID : ℕ
  toolName : ℕ
  effect : ToolEffect
  args : ℕ
  runRevision : ℕ
  ownerToken : ℕ
deriving DecidableEq

/-- The approval of a call with its arguments. -/
def approvalFor? (l : RunLedger) (callID args : ℕ) : Option Approval :=
  lookup Approval.binding (callID, args) l.approvals

/-- The revision an approval is bound to: that of the run by default. -/
def approvalRevision (l : RunLedger) (r : PutApprovalRequest) : ℕ :=
  if r.runRevision = 0 then l.run.revision else r.runRevision

/-- `CreateApproval`: the owner is asked for only if a token is given.  An id that a row has,
here or in another run (`elsewhere`), is refused by the table. -/
def createApproval (l : RunLedger) (now : ℕ) (r : PutApprovalRequest) (elsewhere : Bool) :
    Except Err RunLedger :=
  if l.run.state.terminal then .error .terminalRun
  else if r.ownerToken ≠ 0 ∧ l.verifyOwner now r.ownerToken = false then .error .leaseLost
  else if l.approvalRevision r ≠ l.run.revision then .error .approvalConflict
  else
    match l.approvalFor? r.callID r.args with
    | some a => if a.runRevision ≠ l.run.revision then .error .approvalConflict else .ok l
    | none =>
      if elsewhere ∨ (lookup Approval.id r.approvalID l.approvals).isSome then
        .error .invalidRequest
      else
        .ok { l with approvals := l.approvals ++ [⟨r.approvalID, r.callID, r.toolName, r.effect,
          r.args, .pending, l.approvalRevision r, now⟩] }

structure DecideApprovalRequest where
  approvalID : ℕ
  decision : ApprovalStatus
  expectedRunRevision : ℕ
  expectedCallID : ℕ
  expectedArgs : ℕ
deriving DecidableEq

/-- `DecideApproval`.  The expiry that the source writes when the revision has changed is
rolled back with the error. -/
def decideApproval (l : RunLedger) (r : DecideApprovalRequest) : Except Err RunLedger :=
  if r.decision = .pending then .error .invalidRequest
  else
    match lookup Approval.id r.approvalID l.approvals with
    | none => .error .notFound
    | some a =>
      if r.expectedCallID ≠ a.callID ∨ r.expectedArgs ≠ a.args then .error .approvalConflict
      else if r.expectedRunRevision = 0 ∨ r.expectedRunRevision ≠ a.runRevision then
        .error .approvalConflict
      else if a.status ≠ .pending then .error .approvalConflict
      else if l.run.state.terminal ∨ l.run.revision ≠ a.runRevision then .error .approvalConflict
      else .ok { l with approvals := l.approvals.map fun b =>
        if b.id = r.approvalID ∧ b.status = .pending then { b with status := r.decision } else b }

end RunLedger

end GoNavi.Harness
