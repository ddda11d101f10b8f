import GoNavi.Harness.Recovery
import GoNavi.Machine.Machine
import Mathlib.Logic.Function.Basic

/-! # The mutations of a run as a machine

`Op` lists the public mutations of the ledger that write rows of a run, `apply` performs one
and `step` is the transaction: a mutation that is refused leaves the rows as they are.  The
ledger holds the rows of every run.

What a mutation can do is said once: `Wrote` lists the ways in which a mutation succeeds, with
the checks that it passed and the rows that it leaves behind (`wrote_of_apply`).  The
invariants of the ledger are proved by cases on `Wrote`. -/

namespace GoNavi.Harness

open Scan RunLedger
open Option hiding sequence

/-! ### Mutations -/

inductive Op where
  | transitionRun (token expectedRevision : ℕ) (source target : RunState)
  | appendEvent (r : AppendEventRequest)
  | saveCheckpoint (token expectedRevision checkpointID sequence : ℕ) (state : RunState)
      (workspace : Option WorkspaceRef)
  /-- `AppendMessage` takes no token; `caller` is the one its caller holds. -/
  | appendMessage (caller : ℕ) (message : Message)
  | addActiveDuration (token duration : ℕ)
  | startTool (r : StartToolRequest)
  | finishTool (r : FinishToolRequest)
  | startToolAndEvent (checkpointID : ℕ) (r : StartToolRequest)
  | finishToolAndEvent (checkpointID : ℕ) (r : FinishToolRequest)
      (resultingState : Option RunState) (workspace : Option WorkspaceRef)
  | supersedeToolIntentsAndSteer (checkpointID : ℕ) (r : SupersedeRequest)
  | createApproval (r : PutApprovalRequest) (elsewhere : Bool)
  | decideApproval (r : DecideApprovalRequest)
  | enqueueCommand (r : EnqueueRequest) (elsewhere : Bool)
  | enqueueSteer (r : EnqueueRequest) (elsewhere : Bool)
  | dequeueCommands (limit : ℕ)
  | claimCommands (token limit ttl : ℕ)
  | ackCommand (token id : ℕ)
  | tombstoneCommand (token id : ℕ)
  | rejectStaleControlCommand (token id : ℕ)
  | applyCancelControlCommand (token id : ℕ)
  | reserveTokens (token expectedRevision id : ℕ) (tokens : Int64) (elsewhere : Bool)
  | reconcileTokens (token expectedRevision id : ℕ) (usage : Usage)
  | commitModelTurn (checkpointID : ℕ) (r : CommitModelTurnRequest)
  | acquireLease (ownerID fresh ttl : ℕ)
  | renewLease (ownerID token ttl : ℕ)
  | releaseLease (ownerID token : ℕ)
  | recoverRun (checkpointID : ℕ)
  | applyRecoveryAction (checkpointID : ℕ) (r : RecoveryRequest) (elsewhere : Bool)

/-- The transaction of a mutation at a time. -/
def Op.apply (l : RunLedger) (now : ℕ) : Op → Except Err RunLedger
  | .transitionRun token expected source target =>
    l.transitionRun now token expected source target
  | .appendEvent r => l.appendEvent now r
  | .saveCheckpoint token expected checkpointID sequence state workspace =>
    l.saveCheckpoint now token expected checkpointID sequence state workspace
  | .appendMessage _ message => l.appendMessage message
  | .addActiveDuration token duration => l.addActiveDuration now token duration
  | .startTool r => l.startTool now r
  | .finishTool r => l.finishTool now r
  | .startToolAndEvent checkpointID r => l.startToolAndEvent now checkpointID r
  | .finishToolAndEvent checkpointID r state workspace =>
    l.finishToolAndEvent now checkpointID r state workspace
  | .supersedeToolIntentsAndSteer checkpointID r =>
    l.supersedeToolIntentsAndSteer now checkpointID r
  | .createApproval r elsewhere => l.createApproval now r elsewhere
  | .decideApproval r => l.decideApproval r
  | .enqueueCommand r elsewhere => l.enqueueCommand now r elsewhere
  | .enqueueSteer r elsewhere => l.enqueueSteer now r elsewhere
  | .dequeueCommands limit => l.dequeueCommands limit
  | .claimCommands token limit ttl => l.claimCommands now token limit ttl
  | .ackCommand token id => l.ackCommand now token id
  | .tombstoneCommand token id => l.tombstoneCommand now token id
  | .rejectStaleControlCommand token id => l.rejectStaleControlCommand now token id
  | .applyCancelControlCommand token id => l.applyCancelControlCommand now token id
  | .reserveTokens token expected id tokens elsewhere =>
    l.reserveTokens now token expected id tokens elsewhere
  | .reconcileTokens token expected id usage => l.reconcileTokens now token expected id usage
  | .commitModelTurn checkpointID r => l.commitModelTurn now checkpointID r
  | .acquireLease ownerID fresh ttl => l.acquireLease now ownerID fresh ttl
  | .renewLease ownerID token ttl => l.renewLease now ownerID token ttl
  | .releaseLease ownerID token => l.releaseLease ownerID token
  | .recoverRun checkpointID => .ok (l.recoverRun now checkpointID)
  | .applyRecoveryAction checkpointID r elsewhere =>
    l.applyRecoveryAction now checkpointID r elsewhere

/-- A mutation at the time at which it reads the clock. -/
structure Act where
  now : ℕ
  op : Op

/-- A mutation as a step: one that is refused is rolled back. -/
def step (l : RunLedger) (a : Act) : RunLedger :=
  match a.op.apply l a.now with
  | .ok l' => l'
  | .error _ => l

/-! ### What a mutation writes -/

variable {expected token : ℕ}

theorem guard_ok {l : RunLedger} {now : ℕ} (h : l.guard now token expected = .ok ()) :
    l.run.state.terminal = false ∧ l.verifyOwner now token = true ∧
      (expected = 0 ∨ expected = l.run.revision) := by
  simp only [RunLedger.guard] at h
  split at h
  · cases h
  · split at h
    · cases h
    · split at h
      · cases h
      · refine ⟨by simp_all, by simp_all, by omega⟩

/-- The checks that a committed turn passed. -/
structure TurnChecks (l : RunLedger) (now : ℕ) (r : CommitModelTurnRequest)
    (reservation : Option Reservation) (usage : Usage) : Prop where
  normalized : normalizeUsage r.usageInput = some usage
  opened : r.target.terminal = false
  guard : l.guard now r.ownerToken r.expectedRevision = .ok ()
  reaches : l.reaches r.target = true
  budget : reservation = none → exceedsTokenBudget l.run 0 usage.totalTokens = false
  exceeds : l.turnExceeds reservation usage = false

/-- The ways in which a mutation succeeds. -/
inductive Wrote (l : RunLedger) (now : ℕ) : Op → RunLedger → Prop
  /-- The mutation was made before, or there is nothing to write. -/
  | same (op : Op) : Wrote l now op l
  | transitionRun {token expected source target}
      (htransition : canTransition source target = true) (hopen : target.terminal = false)
      (hstate : l.run.state = source) (howner : l.verifyOwner now token = true) :
      Wrote l now (.transitionRun token expected source target)
        { l with run := { l.run with state := target, revision := l.run.revision + 1 } }
  | appendEvent {r : AppendEventRequest}
      (hguard : l.guard now r.ownerToken r.expectedRevision = .ok ())
      (hreaches : l.reaches r.resultingState = true) (hkind : r.kind ≠ .terminal)
      (hopen : r.resultingState.terminal = false) :
      Wrote l now (.appendEvent r) (l.commit r.resultingState (l.eventAttempt r)
        [(r.kind, r.resultingState, r.payload)])
  | appendTerminal {r : AppendEventRequest} {m : RunLedger}
      (hguard : l.guard now r.ownerToken r.expectedRevision = .ok ())
      (hreaches : l.reaches r.resultingState = true) (hkind : r.kind = .terminal)
      (hclosed : r.resultingState.terminal = true)
      (hmark : (l.commit r.resultingState (l.eventAttempt r)
        [(.terminal, r.resultingState, r.payload)]).markTerminalControlCommandApplied
          r.appliedControlCommandID = .ok m) :
      Wrote l now (.appendEvent r) m.discardPendingControlCommands
  | saveCheckpoint {token expected checkpointID sequence state workspace}
      (hguard : l.guard now token expected = .ok ()) :
      Wrote l now (.saveCheckpoint token expected checkpointID sequence state workspace)
        (l.putCheckpoint ⟨checkpointID, sequence, state, workspace.or l.previousWorkspace⟩).touch
  | appendMessage {caller message} :
      Wrote l now (.appendMessage caller message) (l.putMessage message)
  | addActiveDuration {token duration} (hguard : l.guard now token 0 = .ok ()) :
      Wrote l now (.addActiveDuration token duration)
        { l with run := { l.run with
                          activeDuration := l.run.activeDuration + duration
                          revision := l.run.revision + 1 } }
  | startTool {r : StartToolRequest}
      (hguard : l.guard now r.ownerToken r.expectedRevision = .ok ())
      (hnew : l.toolCall? r.callID r.attempt' = none) :
      Wrote l now (.startTool r)
        { l.putToolCall (r.row now) with
          run := { l.run with state := l.startTarget, revision := l.run.revision + 1 } }
  | finishTool {r : FinishToolRequest} {c : ToolCall}
      (hguard : l.guard now r.ownerToken r.expectedRevision = .ok ())
      (hcall : l.finishedCall? r.callID r.attempt = some c) (hstarted : c.status = .started) :
      Wrote l now (.finishTool r) (l.updateToolCall c.callID c.attempt fun row =>
        { row with status := r.status
                   unknownOutcome := r.unknownOutcome || r.status == .unknown }).touch
  | startToolAndEvent {checkpointID} {r : StartToolRequest}
      (hguard : l.guard now r.ownerToken r.expectedRevision = .ok ())
      (hnew : l.toolCall? r.callID r.attempt' = none) :
      Wrote l now (.startToolAndEvent checkpointID r)
        (((l.putToolCall (r.row now)).putCheckpoint
          ⟨checkpointID, l.run.nextSequence, l.startTarget, r.workspace⟩).commit l.startTarget
            l.run.attempt [(.tool, l.startTarget,
              .tool r.callID r.toolName r.effect .started r.args)])
  | finishToolAndEvent {checkpointID} {r : FinishToolRequest} {state workspace} {c : ToolCall}
      (hguard : l.guard now r.ownerToken r.expectedRevision = .ok ())
      (hcall : l.finishedCall? r.callID r.attempt = some c) (hstarted : c.status = .started)
      (hreaches : l.reaches (r.target c state) = true) :
      Wrote l now (.finishToolAndEvent checkpointID r state workspace)
        ((((l.putCheckpoint
          ⟨checkpointID, l.run.nextSequence, r.target c state, c.workspace.or workspace⟩).updateToolCall
            c.callID c.attempt fun row =>
              { row with status := r.effectiveStatus c
                         unknownOutcome := r.unknownOutcome ||
                           r.effectiveStatus c == .unknown }).commit (r.target c state)
            l.run.attempt [(.tool, r.target c state, .tool c.callID c.toolName c.effect
              (r.effectiveStatus c) c.args)]).putMessage ⟨.tool, c.callID, [], r.result⟩)
  | supersede {checkpointID} {r : SupersedeRequest} {intents : List ToolIntent}
      (hnew : l.steerRequest? r.requestID = none) (hsteerable : steerable l.run.state = true)
      (hguard : l.guard now r.ownerToken r.expectedRevision = .ok ())
      (hintents : l.supersededIntents r.intents = .ok intents) :
      Wrote l now (.supersedeToolIntentsAndSteer checkpointID r)
        ((((l.supersede r intents).expireApprovals fun a =>
          a.callID ∈ r.intents.map ToolIntent.callID).putCheckpoint
            ⟨checkpointID, l.run.nextSequence + intents.length, .interrupted,
              r.workspace.or l.previousWorkspace⟩).commit .runningModel l.run.attempt
          (intents.map l.canceledEvent ++
            [(.checkpoint, .interrupted, .checkpoint (l.run.nextSequence + intents.length)),
              (.input, .runningModel, .input r.requestID (trimSpace r.steerContent))]))
  | createApproval {r : PutApprovalRequest} {elsewhere} (hopen : l.run.state.terminal = false)
      (howner : r.ownerToken = 0 ∨ l.verifyOwner now r.ownerToken = true)
      (hnew : l.approvalFor? r.callID r.args = none)
      (hfresh : Table.lookup Approval.id r.approvalID l.approvals = none) :
      Wrote l now (.createApproval r elsewhere) { l with approvals := l.approvals ++
        [⟨r.approvalID, r.callID, r.toolName, r.effect, r.args, .pending, l.run.revision, now⟩] }
  | decideApproval {r : DecideApprovalRequest} {a : Approval}
      (hdecision : r.decision ≠ .pending)
      (happroval : Table.lookup Approval.id r.approvalID l.approvals = some a)
      (hcall : r.expectedCallID = a.callID ∧ r.expectedArgs = a.args)
      (hpending : a.status = .pending) (hrevision : l.run.revision = a.runRevision) :
      Wrote l now (.decideApproval r) { l with approvals := l.approvals.map fun b =>
        if b.id = r.approvalID ∧ b.status = .pending then { b with status := r.decision } else b }
  | enqueueCommand {r : EnqueueRequest} {elsewhere} (hnew : l.command? r.id = none)
      (hrevision : r.expectedRevision = l.run.revision) (hopen : l.run.state.terminal = false) :
      Wrote l now (.enqueueCommand r elsewhere) (l.putCommand (r.row now))
  | enqueueSteer {r : EnqueueRequest} {elsewhere} (hsteer : r.action = .steer)
      (hnew : l.command? r.id = none) (hsteerable : steerable l.run.state = true) :
      Wrote l now (.enqueueSteer r elsewhere) (l.putCommand (r.row now))
  | dequeueCommands {limit} {ids : List ℕ} :
      Wrote l now (.dequeueCommands limit) { l with commands := l.commands.map fun c =>
        if c.id ∈ ids ∧ c.consumed = false then { c with consumed := true } else c }
  | claimCommands {token limit ttl} (htoken : token ≠ 0) :
      Wrote l now (.claimCommands token limit ttl) { l with
        commands := l.commands.map fun c =>
          if c.id ∈ l.claimable now token limit ∧ c.claimable now token then
            { c with claim := some ⟨token, now + ttl⟩ }
          else c }
  | ackCommand {token id} {c : Command} (hcommand : l.command? id = some c)
      (hpending : c.pending = true) (hclaim : c.claimedBy now token = true) :
      Wrote l now (.ackCommand token id)
        (l.updateCommand id fun row => { row with applied := true, consumed := true })
  | tombstoneCommand {token id} {c : Command} (hcommand : l.command? id = some c)
      (hpending : c.pending = true) (hclaim : c.claimedBy now token = true) :
      Wrote l now (.tombstoneCommand token id) (l.tombstone id)
  | rejectStale {token id} {c : Command} (hload : l.loadClaimed now token id = .ok (c, false))
      (hstale : l.stale c = true) :
      Wrote l now (.rejectStaleControlCommand token id) (l.rejectStale c)
  | rejectCancel {token id} {c : Command} (hload : l.loadClaimed now token id = .ok (c, false))
      (hcancel : c.action = .cancel) (hstale : l.stale c = true ∨ l.run.state.terminal = true) :
      Wrote l now (.applyCancelControlCommand token id) (l.rejectStale c)
  | cancelAgain {token id} {c : Command} (hload : l.loadClaimed now token id = .ok (c, false))
      (hcancel : c.action = .cancel) (hcurrent : l.stale c = false)
      (hstate : l.run.state = .canceling) :
      Wrote l now (.applyCancelControlCommand token id) (l.markApplied id)
  | cancel {token id} {c : Command} (hload : l.loadClaimed now token id = .ok (c, false))
      (hcancel : c.action = .cancel) (hcurrent : l.stale c = false)
      (htransition : canTransition l.run.state .canceling = true) :
      Wrote l now (.applyCancelControlCommand token id)
        ((l.markApplied id).commit .canceling l.run.attempt
          [(.checkpoint, .canceling, .checkpoint (l.run.nextSequence - 1))])
  | reserveTokens {token expected id tokens elsewhere} (hamount : ¬ tokens < 0)
      (hnew : l.reservation? id = none) (hguard : l.guard now token expected = .ok ())
      (hbudget : exceedsTokenBudget l.run tokens 0 = false) :
      Wrote l now (.reserveTokens token expected id tokens elsewhere)
        { l with
          run := { l.run with
                   reservedTokens := l.run.reservedTokens + tokens
                   revision := l.run.revision + 1 }
          reservations := l.reservations ++ [⟨id, tokens, 0, 0, 0, .reserved, 0⟩] }
  | reconcileTokens {token expected id given usage} {r : Reservation}
      (husage : normalizeUsage given = some usage) (hreservation : l.reservation? id = some r)
      (hheld : r.status = .reserved) (hguard : l.guard now token expected = .ok ())
      (hbudget : exceedsTokenBudget l.run (-r.reservedTokens) usage.totalTokens = false) :
      Wrote l now (.reconcileTokens token expected id given)
        ((l.settleTokens r.reservedTokens usage).updateReservation id (·.reconcile usage)).touch
  | commitModelTurn {checkpointID} {r : CommitModelTurnRequest}
      {reservation : Option Reservation} {usage : Usage}
      (hreservation : (r.reservationID = 0 ∧ reservation = none) ∨
        (r.reservationID ≠ 0 ∧ reservation.isSome ∧
          l.reservation? r.reservationID = reservation))
      (huncommitted : ∀ row ∈ reservation, row.status = .reserved ∨ row.committedSequence = 0)
      (hchecks : TurnChecks l now r reservation usage) :
      Wrote l now (.commitModelTurn checkpointID r) (l.putTurn checkpointID r reservation usage)
  | acquireLease {ownerID fresh ttl token} (hopen : l.run.state.terminal = false)
      (hfree : ∀ lease ∈ l.run.lease, now < lease.expiresAt →
        lease.ownerID = ownerID ∧ token = lease.token) :
      Wrote l now (.acquireLease ownerID fresh ttl)
        { l with run := { l.run with
                          lease := some ⟨ownerID, token, now + ttl⟩
                          revision := l.run.revision + 1 } }
  | renewLease {ownerID token ttl} {lease : Lease} (hlease : l.run.lease = some lease)
      (howner : lease.ownerID = ownerID ∧ lease.token = token)
      (hopen : l.run.state.terminal = false) :
      Wrote l now (.renewLease ownerID token ttl)
        { l with run := { l.run with lease := some { lease with expiresAt := now + ttl } } }
  | releaseLease {ownerID token} {lease : Lease} (hlease : l.run.lease = some lease)
      (howner : lease.ownerID = ownerID ∧ lease.token = token) :
      Wrote l now (.releaseLease ownerID token) { l with run := { l.run with lease := none } }
  | recoverRun {checkpointID} (hstate : executing l.run.state = true)
      (hfree : l.leased now = false) :
      Wrote l now (.recoverRun checkpointID)
        ((((l.expireApprovals fun _ => true).releaseReservations.dropLease).putCheckpoint
          ⟨checkpointID, l.run.nextSequence, l.recoveryTarget, l.previousWorkspace⟩).commit
            l.recoveryTarget (l.run.attempt + 1)
            [(.checkpoint, l.recoveryTarget, .checkpoint l.run.nextSequence)])
  | recoveryNoted {checkpointID} {r : RecoveryRequest} {elsewhere} :
      Wrote l now (.applyRecoveryAction checkpointID r elsewhere) (l.insertRecoveryCommand now r)
  | recovery {checkpointID} {r : RecoveryRequest} {elsewhere} {l₁ : RunLedger} {target attempt}
      (hopen : l.run.state.terminal = false)
      (howner : l.leased now = true → l.verifyOwner now r.ownerToken = true)
      (hdecision : l.decision r = .go l₁ target attempt) (hreaches : l.reaches target = true) :
      Wrote l now (.applyRecoveryAction checkpointID r elsewhere)
        ((l₁.decide' checkpointID target attempt).insertRecoveryCommand now r)

/-! ### A mutation that succeeds is listed -/

variable {target : RunState} {r : RecoveryRequest}

section

variable {l l' : RunLedger} {now : ℕ}

theorem transitionRun_wrote {source : RunState}
    (h : l.transitionRun now token expected source target = .ok l') :
    Wrote l now (.transitionRun token expected source target) l' := by
  simp only [RunLedger.transitionRun] at h
  split_ifs at h with h₁ h₂ h₃ h₄ h₅
  cases h
  exact .transitionRun (by simpa using h₁) (by simpa using h₂) (by simpa using h₃)
    (by simpa using h₅)

theorem appendEvent_wrote {r : AppendEventRequest} (h : l.appendEvent now r = .ok l') :
    Wrote l now (.appendEvent r) l' := by
  simp only [RunLedger.appendEvent] at h
  split at h
  · cases h
  · rename_i hguard
    split_ifs at h with h₁ h₂ h₃ h₄ h₅
    · split at h
      · cases h
      · rename_i m hmark
        cases h
        have hkind : r.kind = .terminal := by_contra fun hne => h₄ ⟨hne, h₅⟩
        exact .appendTerminal hguard (by simpa using h₂) hkind h₅ (hkind ▸ hmark)
    · cases h
      have hopen : r.resultingState.terminal = false := by simpa using h₅
      exact .appendEvent hguard (by simpa using h₂) (fun hkind => h₃ ⟨hkind, hopen⟩) hopen

variable {checkpointID : ℕ} {workspace : Option WorkspaceRef}

theorem saveCheckpoint_wrote {sequence : ℕ} {state : RunState}
    (h : l.saveCheckpoint now token expected checkpointID sequence state workspace = .ok l') :
    Wrote l now (.saveCheckpoint token expected checkpointID sequence state workspace) l' := by
  simp only [RunLedger.saveCheckpoint] at h
  split at h
  · cases h
  · rename_i hguard
    split_ifs at h
    cases h
    exact .saveCheckpoint hguard

theorem addActiveDuration_wrote {duration : ℕ}
    (h : l.addActiveDuration now token duration = .ok l') :
    Wrote l now (.addActiveDuration token duration) l' := by
  simp only [RunLedger.addActiveDuration] at h
  split_ifs at h
  · cases h
    exact .same _
  · split at h
    · cases h
    · rename_i hguard
      cases h
      exact .addActiveDuration hguard

theorem startTool_wrote {r : StartToolRequest} (h : l.startTool now r = .ok l') :
    Wrote l now (.startTool r) l' := by
  simp only [RunLedger.startTool] at h
  split at h
  · cases h
  · rename_i hguard
    split at h
    · cases h
    · rename_i hnew
      cases h
      exact .startTool hguard hnew

theorem startToolAndEvent_wrote {r : StartToolRequest}
    (h : l.startToolAndEvent now checkpointID r = .ok l') :
    Wrote l now (.startToolAndEvent checkpointID r) l' := by
  simp only [RunLedger.startToolAndEvent] at h
  split at h
  · cases h
  · rename_i hguard
    split at h
    · split_ifs at h
      cases h
      exact .same _
    · rename_i hnew
      cases h
      exact .startToolAndEvent hguard hnew

theorem finishTool_wrote {r : FinishToolRequest} (h : l.finishTool now r = .ok l') :
    Wrote l now (.finishTool r) l' := by
  simp only [RunLedger.finishTool] at h
  split_ifs at h
  split at h
  · cases h
  · rename_i hguard
    split at h
    · cases h
    · rename_i c hcall
      split_ifs at h with hstarted
      · cases h
        exact .same _
      · cases h
        exact .finishTool hguard hcall (by simpa using hstarted)

theorem finishToolAndEvent_wrote {r : FinishToolRequest} {state : Option RunState}
    (h : l.finishToolAndEvent now checkpointID r state workspace = .ok l') :
    Wrote l now (.finishToolAndEvent checkpointID r state workspace) l' := by
  simp only [RunLedger.finishToolAndEvent] at h
  split_ifs at h
  split at h
  · cases h
  · rename_i hguard
    split at h
    · cases h
    · rename_i c hcall
      split_ifs at h with hstarted hreaches hworkspace
      · cases h
        exact .same _
      · cases h
        exact .finishToolAndEvent hguard hcall (by simpa using hstarted) (by simpa using hreaches)

theorem supersede_wrote {r : SupersedeRequest}
    (h : l.supersedeToolIntentsAndSteer now checkpointID r = .ok l') :
    Wrote l now (.supersedeToolIntentsAndSteer checkpointID r) l' := by
  rw [RunLedger.supersedeToolIntentsAndSteer] at h
  split at h
  · cases h
  · split at h
    · cases h
    · split at h
      · split_ifs at h
        cases h
        exact .same _
      · rename_i hnew
        split_ifs at h with hterminal hsteerable
        split at h
        · cases h
        · rename_i hguard
          split at h
          · cases h
          · rename_i intents hintents
            cases h
            exact .supersede hnew (by simpa using hsteerable) hguard hintents

variable {elsewhere : Bool}

theorem createApproval_wrote {r : PutApprovalRequest}
    (h : l.createApproval now r elsewhere = .ok l') :
    Wrote l now (.createApproval r elsewhere) l' := by
  rw [RunLedger.createApproval] at h
  split at h
  · cases h
  · rename_i hterminal
    split at h
    · cases h
    · rename_i howner
      split at h
      · cases h
      · rename_i hrevision
        split at h
        · split_ifs at h
          cases h
          exact .same _
        · rename_i hnew
          split_ifs at h with htaken
          cases h
          rw [not_not.mp hrevision]
          refine .createApproval (by simpa using hterminal) ?_ hnew
            (not_isSome_iff_eq_none.mp (not_or.mp htaken).2)
          by_cases hz : r.ownerToken = 0
          · exact .inl hz
          · exact .inr (by simpa [hz] using howner)

theorem decideApproval_wrote {r : DecideApprovalRequest} (h : l.decideApproval r = .ok l') :
    Wrote l now (.decideApproval r) l' := by
  rw [RunLedger.decideApproval] at h
  split at h
  · cases h
  · rename_i hdecision
    split at h
    · cases h
    · rename_i a happroval
      split_ifs at h with hcall hexpected hpending hrevision
      cases h
      push Not at hcall hexpected hrevision
      exact .decideApproval hdecision happroval hcall (not_not.mp hpending) hrevision.2

theorem enqueueCommand_wrote {r : EnqueueRequest} (h : l.enqueueCommand now r elsewhere = .ok l') :
    Wrote l now (.enqueueCommand r elsewhere) l' := by
  rw [RunLedger.enqueueCommand] at h
  split at h
  · cases h
  · split at h
    · split_ifs at h
      cases h
      exact .same _
    · rename_i hnew
      split_ifs at h with hzero hrevision hterminal
      cases h
      exact .enqueueCommand hnew (not_not.mp hrevision).symm (by simpa using hterminal)

theorem enqueueSteer_wrote {r : EnqueueRequest} (h : l.enqueueSteer now r elsewhere = .ok l') :
    Wrote l now (.enqueueSteer r elsewhere) l' := by
  rw [RunLedger.enqueueSteer] at h
  split at h
  · cases h
  · rename_i hsteer
    split at h
    · cases h
    · split at h
      · split_ifs at h
        cases h
        exact .same _
      · rename_i hnew
        split_ifs at h with hsteerable hrevision
        cases h
        exact .enqueueSteer (not_not.mp hsteer) hnew (by simpa using hsteerable)

variable {ttl : ℕ}

theorem claimCommands_wrote {limit : ℕ} (h : l.claimCommands now token limit ttl = .ok l') :
    Wrote l now (.claimCommands token limit ttl) l' := by
  rw [RunLedger.claimCommands] at h
  split at h
  · cases h
  · rename_i htoken
    cases h
    exact .claimCommands htoken

variable {id : ℕ}

theorem ackCommand_wrote (h : l.ackCommand now token id = .ok l') :
    Wrote l now (.ackCommand token id) l' := by
  rw [RunLedger.ackCommand] at h
  split at h
  · cases h
  · split at h
    · cases h
    · rename_i c hcommand
      split_ifs at h with happlied hconsumed hclaim
      · cases h
        exact .same _
      · cases h
        exact .same _
      · cases h
        exact .ackCommand hcommand (by simp [Command.pending, happlied, hconsumed])
          (by simpa using hclaim)

theorem tombstoneCommand_wrote (h : l.tombstoneCommand now token id = .ok l') :
    Wrote l now (.tombstoneCommand token id) l' := by
  rw [RunLedger.tombstoneCommand] at h
  split at h
  · cases h
  · split at h
    · cases h
    · rename_i c hcommand
      split_ifs at h with hpending hclaim
      · cases h
        exact .same _
      · cases h
        exact .tombstoneCommand hcommand (by simpa using hpending) (by simpa using hclaim)

theorem rejectStaleControlCommand_wrote (h : l.rejectStaleControlCommand now token id = .ok l') :
    Wrote l now (.rejectStaleControlCommand token id) l' := by
  rw [RunLedger.rejectStaleControlCommand] at h
  split at h
  · cases h
  · split at h
    · cases h
    · rename_i c settled hload
      split at h
      · cases h
        exact .same _
      · rename_i hstale
        cases h
        obtain ⟨rfl, hcurrent⟩ : settled = false ∧ l.stale c = true := by simpa using hstale
        exact .rejectStale hload hcurrent

theorem applyCancelControlCommand_wrote (h : l.applyCancelControlCommand now token id = .ok l') :
    Wrote l now (.applyCancelControlCommand token id) l' := by
  rw [RunLedger.applyCancelControlCommand] at h
  split at h
  · cases h
  · split at h
    · cases h
    · rename_i c settled hload
      split_ifs at h with hsettled hcancel hstale hstate htransition
      · cases h
        exact .same _
      all_goals
        cases h
        obtain rfl : settled = false := by simpa using hsettled
        have hcancel := not_not.mp hcancel
      · exact .rejectCancel hload hcancel hstale
      · exact .cancelAgain hload hcancel (by simp_all) hstate
      · exact .cancel hload hcancel (by simp_all) (by simpa using htransition)

theorem reserveTokens_wrote {tokens : Int64}
    (h : l.reserveTokens now token expected id tokens elsewhere = .ok l') :
    Wrote l now (.reserveTokens token expected id tokens elsewhere) l' := by
  rw [RunLedger.reserveTokens] at h
  split at h
  · cases h
  · rename_i hamount
    split at h
    · cases h
    · split at h
      · split_ifs at h
        cases h
        exact .same _
      · rename_i hnew
        split at h
        · cases h
        · rename_i hguard
          split_ifs at h with hbudget
          cases h
          exact .reserveTokens hamount hnew hguard (by simpa using hbudget)

theorem reconcileTokens_wrote {given : Usage}
    (h : l.reconcileTokens now token expected id given = .ok l') :
    Wrote l now (.reconcileTokens token expected id given) l' := by
  rw [RunLedger.reconcileTokens] at h
  split at h
  · cases h
  · rename_i usage husage
    split at h
    · cases h
    · rename_i r hreservation
      split at h
      · cases h
        exact .same _
      · rename_i hheld
        split at h
        · cases h
        · rename_i hguard
          split_ifs at h with hbudget
          cases h
          exact .reconcileTokens husage hreservation (not_not.mp hheld) hguard
            (by simpa using hbudget)

theorem commitTurn_ok {r : CommitModelTurnRequest} {reservation : Option Reservation}
    (h : l.commitTurn now checkpointID r reservation = .ok l') :
    ∃ usage, TurnChecks l now r reservation usage ∧
      l' = l.putTurn checkpointID r reservation usage := by
  rw [RunLedger.commitTurn] at h
  split at h
  · cases h
  · rename_i usage husage
    split_ifs at h with hopen hterminal howner hreaches hbudget hrevision hexceeds
    cases h
    have hguard : l.guard now r.ownerToken r.expectedRevision = .ok () := by
      rw [RunLedger.guard, if_neg hterminal, if_neg howner, if_neg hrevision]
    refine ⟨usage, ⟨husage, by simpa using hopen, hguard, by simpa using hreaches,
      fun hnone => ?_, by simpa using hexceeds⟩, rfl⟩
    simpa [hnone] using hbudget

theorem commitModelTurn_wrote {r : CommitModelTurnRequest}
    (h : l.commitModelTurn now checkpointID r = .ok l') :
    Wrote l now (.commitModelTurn checkpointID r) l' := by
  rw [RunLedger.commitModelTurn] at h
  split at h
  · rename_i hzero
    obtain ⟨usage, hchecks, rfl⟩ := commitTurn_ok h
    exact .commitModelTurn (.inl ⟨hzero, rfl⟩) (by simp) hchecks
  · rename_i hid
    split at h
    · cases h
    · rename_i row hrow
      split at h
      · cases h
        exact .same _
      · rename_i hmarked
        obtain ⟨usage, hchecks, rfl⟩ := commitTurn_ok h
        refine .commitModelTurn (.inr ⟨hid, rfl, hrow⟩) ?_ hchecks
        intro _ hmem
        obtain rfl := mem_some.mp hmem
        by_cases hstatus : row.status = .reserved
        · exact .inl hstatus
        · exact .inr (by have := not_and.mp hmarked hstatus; omega)

variable {ownerID : ℕ}

theorem acquireLease_wrote {fresh : ℕ} (h : l.acquireLease now ownerID fresh ttl = .ok l') :
    Wrote l now (.acquireLease ownerID fresh ttl) l' := by
  rw [RunLedger.acquireLease] at h
  split at h
  · cases h
  · split at h
    · cases h
    · rename_i hterminal
      have hopen : l.run.state.terminal = false := by simpa using hterminal
      split at h
      · rename_i hlease
        cases h
        exact .acquireLease hopen (by simp [hlease])
      · rename_i lease hlease
        split_ifs at h with hexpired howner
        · cases h
          refine .acquireLease hopen ?_
          rintro _ hmem hlive
          obtain rfl : lease = _ := by simpa [hlease] using hmem
          omega
        · cases h
          refine .acquireLease hopen ?_
          rintro _ hmem -
          obtain rfl : lease = _ := by simpa [hlease] using hmem
          exact ⟨not_not.mp howner, rfl⟩

theorem renewLease_wrote (h : l.renewLease now ownerID token ttl = .ok l') :
    Wrote l now (.renewLease ownerID token ttl) l' := by
  rw [RunLedger.renewLease] at h
  split at h
  · cases h
  · rename_i lease hlease
    split_ifs at h with howner
    cases h
    exact .renewLease hlease ⟨howner.1, howner.2.1⟩ howner.2.2.2

theorem releaseLease_wrote (h : l.releaseLease ownerID token = .ok l') :
    Wrote l now (.releaseLease ownerID token) l' := by
  rw [RunLedger.releaseLease] at h
  split at h
  · cases h
  · rename_i lease hlease
    split_ifs at h with howner
    cases h
    exact .releaseLease hlease howner

theorem recoverRun_wrote :
    Wrote l now (.recoverRun checkpointID) (l.recoverRun now checkpointID) := by
  rw [RunLedger.recoverRun]
  split
  · exact .same _
  · rename_i h
    obtain ⟨hstate, hfree⟩ := not_or.mp h
    exact .recoverRun (by simpa using hstate) (by simpa using hfree)

theorem applyRecoveryAction_wrote
    (h : l.applyRecoveryAction now checkpointID r elsewhere = .ok l') :
    Wrote l now (.applyRecoveryAction checkpointID r elsewhere) l' := by
  rw [RunLedger.applyRecoveryAction] at h
  split at h
  · cases h
  · split at h
    · cases h
    · split at h
      · split_ifs at h
        cases h
        exact .same _
      · split at h
        · cases h
          exact .recoveryNoted
        · rename_i hterminal
          split at h
          · cases h
          · split at h
            · cases h
            · rename_i howner
              split at h
              · cases h
                exact .recoveryNoted
              · cases h
              · rename_i l₁ target attempt hdecision
                split_ifs at h with hreaches
                cases h
                refine .recovery (by simpa using hterminal) (fun hleased => ?_) hdecision
                  (by simpa using hreaches)
                simpa [hleased] using howner

/-- **Every mutation that succeeds is listed.** -/
theorem wrote_of_apply {op : Op} (h : op.apply l now = .ok l') : Wrote l now op l' := by
  cases op with
  | transitionRun => exact transitionRun_wrote h
  | appendEvent => exact appendEvent_wrote h
  | saveCheckpoint => exact saveCheckpoint_wrote h
  | appendMessage => cases h; exact .appendMessage
  | addActiveDuration => exact addActiveDuration_wrote h
  | startTool => exact startTool_wrote h
  | finishTool => exact finishTool_wrote h
  | startToolAndEvent => exact startToolAndEvent_wrote h
  | finishToolAndEvent => exact finishToolAndEvent_wrote h
  | supersedeToolIntentsAndSteer => exact supersede_wrote h
  | createApproval => exact createApproval_wrote h
  | decideApproval => exact decideApproval_wrote h
  | enqueueCommand => exact enqueueCommand_wrote h
  | enqueueSteer => exact enqueueSteer_wrote h
  | dequeueCommands => cases h; exact .dequeueCommands
  | claimCommands => exact claimCommands_wrote h
  | ackCommand => exact ackCommand_wrote h
  | tombstoneCommand => exact tombstoneCommand_wrote h
  | rejectStaleControlCommand => exact rejectStaleControlCommand_wrote h
  | applyCancelControlCommand => exact applyCancelControlCommand_wrote h
  | reserveTokens => exact reserveTokens_wrote h
  | reconcileTokens => exact reconcileTokens_wrote h
  | commitModelTurn => exact commitModelTurn_wrote h
  | acquireLease => exact acquireLease_wrote h
  | renewLease => exact renewLease_wrote h
  | releaseLease => exact releaseLease_wrote h
  | recoverRun => cases h; exact recoverRun_wrote
  | applyRecoveryAction => exact applyRecoveryAction_wrote h

end

theorem wrote_step (l : RunLedger) (a : Act) : Wrote l a.now a.op (step l a) := by
  rw [step]
  split
  · rename_i h
    exact wrote_of_apply h
  · exact .same _

/-! ### Decisions -/

variable {l₁ : RunLedger}

theorem decision_go {l : RunLedger} {attempt : ℕ} (h : l.decision r = .go l₁ target attempt) :
    (r.action = .resume ∧ l.run.state = .interrupted ∧ l₁ = l ∧
        target = l.resumeCheckpointState ∧ attempt = l.run.attempt) ∨
      (r.action = .recover ∧ (l.run.state = .recoveryRequired ∨ l.run.state = .interrupted) ∧
        l₁ = l ∧ target = .runningModel ∧ attempt = l.run.attempt + 1) ∨
      (r.action = .markCompleted ∧ l.run.state = .recoveryRequired ∧
        l.markLatestUnknownTool r.callID = .ok l₁ ∧ target = .runningModel ∧
        attempt = l.run.attempt) ∨
      (r.action = .abortRecovery ∧ (l.run.state = .recoveryRequired ∨ l.run.state = .interrupted) ∧
        l₁ = l ∧ target = .failed ∧ attempt = l.run.attempt) := by
  rw [decision] at h
  split at h
  · rename_i haction
    split at h
    · exact (Decision.late_ne_go _ _ _ _ h).elim
    · rename_i hstate
      cases h
      exact .inl ⟨haction, not_not.mp hstate, rfl, rfl, rfl⟩
  · rename_i haction
    split at h
    · exact (Decision.late_ne_go _ _ _ _ h).elim
    · rename_i hstate
      cases h
      exact .inr (.inl ⟨haction, by tauto, rfl, rfl, rfl⟩)
  · rename_i haction
    split at h
    · exact (Decision.late_ne_go _ _ _ _ h).elim
    · rename_i hstate
      split at h
      · cases h
      · rename_i hmark
        cases h
        exact .inr (.inr (.inl ⟨haction, not_not.mp hstate, hmark, rfl, rfl⟩))
  · rename_i haction
    split at h
    · exact (Decision.late_ne_go _ _ _ _ h).elim
    · rename_i hstate
      cases h
      exact .inr (.inr (.inr ⟨haction, by tauto, rfl, rfl, rfl⟩))
  · cases h

/-- A call that is marked as completed is one row among the calls. -/
theorem markLatestUnknownTool_ok {l : RunLedger} {callID : ℕ}
    (h : l.markLatestUnknownTool callID = .ok l₁) :
    ∃ c, l.latestUnknown? callID = some c ∧ l₁ = l.updateToolCall c.callID c.attempt fun row =>
      { row with status := .completed, unknownOutcome := false } := by
  rw [markLatestUnknownTool] at h
  split at h
  · cases h
  · rename_i c hc
    cases h
    exact ⟨c, hc, rfl⟩

/-- A decision changes no rows but those of tool calls before it is written. -/
theorem decision_frame {l : RunLedger} {attempt : ℕ} (h : l.decision r = .go l₁ target attempt) :
    l₁ = { l with toolCalls := l₁.toolCalls } := by
  rcases decision_go h with ⟨_, _, rfl, _⟩ | ⟨_, _, rfl, _⟩ | ⟨_, _, hmark, _⟩ | ⟨_, _, rfl, _⟩
  · rfl
  · rfl
  · obtain ⟨c, -, rfl⟩ := markLatestUnknownTool_ok hmark
    rfl
  · rfl

/-- The rows that a recovery inserts. -/
def RunLedger.RecoveryRequest.row (r : RecoveryRequest) (l : RunLedger) (now : ℕ) : List Command :=
  if r.commandID = 0 then []
  else [⟨r.commandID, r.action, r.content, l.run.revision, now, none, true, true⟩]

@[simp] theorem insertRecoveryCommand_eq (l : RunLedger) (now : ℕ) (r : RecoveryRequest) :
    l.insertRecoveryCommand now r = { l with commands := l.commands ++ r.row l now } := by
  rw [insertRecoveryCommand, RecoveryRequest.row]
  split
  · rw [List.append_nil]
  · rfl

/-- The write of a decision leaves the transcript, the steers and the reservations alone. -/
theorem decide'_frame (l : RunLedger) (checkpointID : ℕ) (target : RunState) (attempt : ℕ) :
    let l' := l.decide' checkpointID target attempt
    l'.run.state = target ∧ l'.run.revision = l.run.revision + 1 ∧ l'.messages = l.messages ∧
      l'.steerRequests = l.steerRequests ∧ l'.reservations = l.reservations ∧
      l'.approvals = (l.expireApprovals fun _ => true).approvals := by
  rw [decide']
  split <;> exact ⟨rfl, rfl, rfl, rfl, rfl, rfl⟩

theorem rejectStale_frame (l : RunLedger) (c : Command) :
    let l' := l.rejectStale c
    l'.run.state = l.run.state ∧ l.run.revision ≤ l'.run.revision ∧ l'.messages = l.messages ∧
      l'.steerRequests = l.steerRequests ∧ l'.commands = (l.tombstone c.id).commands ∧
      l'.approvals = l.approvals := by
  rw [rejectStale]
  split
  · exact ⟨rfl, le_rfl, rfl, rfl, rfl, rfl⟩
  · exact ⟨rfl, Nat.le_succ _, rfl, rfl, rfl, rfl⟩

theorem putTurn_frame (l : RunLedger) (checkpointID : ℕ) (r : CommitModelTurnRequest)
    (reservation : Option Reservation) (usage : Usage) :
    let l' := l.putTurn checkpointID r reservation usage
    l'.run.revision = l.run.revision + 1 ∧ l'.messages = l.messages ++ r.message ∧
      l'.steerRequests = l.steerRequests ∧ l'.commands = l.commands ∧
      l'.approvals = l.approvals ∧ l'.toolCalls = l.toolCalls ∧
      l'.checkpoints = l.checkpoints ++ [⟨checkpointID,
        usage.checkpointSequence l.run.nextSequence, r.target,
        r.workspace.or l.previousWorkspace⟩] ∧
      l'.run.nextSequence = l.run.nextSequence +
        (r.events (usage.checkpointSequence l.run.nextSequence) usage).length ∧
      l'.events = l.events ++ l.numbered l.run.attempt
        (r.events (usage.checkpointSequence l.run.nextSequence) usage) := by
  rcases reservation with _ | row
  · exact ⟨rfl, rfl, rfl, rfl, rfl, rfl, rfl, rfl, rfl⟩
  · simp only [putTurn, commit, putCheckpoint, markCommitted, updateReservation, countTurn]
    split <;> exact ⟨rfl, rfl, rfl, rfl, rfl, rfl, rfl, rfl, rfl⟩

theorem markTerminal_ok {l m : RunLedger} {commandID : ℕ}
    (h : l.markTerminalControlCommandApplied commandID = .ok m) :
    m = l ∨ m = l.updateCommand commandID fun c =>
      { c with applied := true, consumed := true, claim := none } := by
  rw [markTerminalControlCommandApplied] at h
  split_ifs at h
  · cases h
    exact .inl rfl
  · cases h
    exact .inr rfl

/-! ### Ledgers -/

/-- The rows of every run, by the id of the run. -/
abbrev Ledger := ℕ → Option RunLedger

/-- The ledger without runs. -/
def Ledger.empty : Ledger := fun _ => none

inductive LedgerOp where
  | createRun (runID : ℕ) (maxTotalTokens : Int64) (content : Text)
  | mutate (runID : ℕ) (a : Act)
  /-- `RecoverRuns` goes over all runs; every run gets its own checkpoint. -/
  | recoverRuns (now : ℕ) (checkpointID : ℕ → ℕ)

/-- A mutation of the ledger; a run is created once. -/
def perform (L : Ledger) : LedgerOp → Ledger
  | .createRun runID maxTotalTokens content =>
    if (L runID).isSome then L
    else Function.update L runID (some (RunLedger.create maxTotalTokens content))
  | .mutate runID a => Function.update L runID ((L runID).map fun l => step l a)
  | .recoverRuns now checkpointID =>
    fun runID => (L runID).map fun l => step l ⟨now, .recoverRun (checkpointID runID)⟩

/-- A condition on the steps of single runs, as a condition on those of a ledger. -/
def Each (C : RunLedger → Act → Prop) (L : Ledger) : LedgerOp → Prop
  | .createRun _ _ _ => True
  | .mutate runID a => ∀ l, L runID = some l → C l a
  | .recoverRuns now checkpointID =>
    ∀ runID l, L runID = some l → C l ⟨now, .recoverRun (checkpointID runID)⟩

/-- A relation across the steps of single runs, as a relation across those of a ledger. -/
def EachRun (R : RunLedger → RunLedger → Prop) (L : Ledger) (_ : LedgerOp) (L' : Ledger) : Prop :=
  ∀ runID l, L runID = some l → ∃ l', L' runID = some l' ∧ R l l'

section

variable {C : RunLedger → Act → Prop} {P : RunLedger → Prop} {R : RunLedger → RunLedger → Prop}

/-- What the steps of single runs preserve, a step of the ledger preserves for every run. -/
theorem perform_preserves (hcreate : ∀ budget content, P (RunLedger.create budget content))
    (hstep : ∀ l a, C l a → P l → P (step l a)) (L : Ledger) (op : LedgerOp)
    (hop : Each C L op) (hL : ∀ runID l, L runID = some l → P l) :
    ∀ runID l, perform L op runID = some l → P l := by
  intro id l hl
  cases op with
  | createRun runID budget content =>
    rw [perform] at hl
    split at hl
    · exact hL id l hl
    · rcases eq_or_ne id runID with rfl | hne
      · rw [Function.update_self] at hl
        cases hl
        exact hcreate budget content
      · exact hL id l (by rwa [Function.update_of_ne hne] at hl)
  | mutate runID a =>
    rw [perform] at hl
    rcases eq_or_ne id runID with rfl | hne
    · rw [Function.update_self, map_eq_some_iff] at hl
      obtain ⟨l₀, hl₀, rfl⟩ := hl
      exact hstep l₀ a (hop l₀ hl₀) (hL id l₀ hl₀)
    · exact hL id l (by rwa [Function.update_of_ne hne] at hl)
  | recoverRuns now checkpointID =>
    rw [perform, map_eq_some_iff] at hl
    obtain ⟨l₀, hl₀, rfl⟩ := hl
    exact hstep l₀ _ (hop id l₀ hl₀) (hL id l₀ hl₀)

/-- A reflexive relation that the steps of single runs have, a step of the ledger has. -/
theorem perform_eachRun (hrefl : ∀ l, R l l) (hstep : ∀ l a, C l a → P l → R l (step l a))
    (L : Ledger) (op : LedgerOp) (hop : Each C L op) (hL : ∀ runID l, L runID = some l → P l) :
    EachRun R L op (perform L op) := by
  intro id l hl
  cases op with
  | createRun runID budget content =>
    refine ⟨l, ?_, hrefl l⟩
    rw [perform]
    split
    · exact hl
    · rename_i hnone
      rcases eq_or_ne id runID with rfl | hne
      · simp [hl] at hnone
      · rwa [Function.update_of_ne hne]
  | mutate runID a =>
    rw [perform]
    rcases eq_or_ne id runID with rfl | hne
    · exact ⟨step l a, by rw [Function.update_self, hl]; rfl, hstep l a (hop l hl) (hL id l hl)⟩
    · exact ⟨l, by rwa [Function.update_of_ne hne], hrefl l⟩
  | recoverRuns now checkpointID =>
    exact ⟨_, by simp only [perform, hl, map_some], hstep l _ (hop id l hl) (hL id l hl)⟩

variable {ops : List LedgerOp}

/-- **The invariant rule of the ledger**: an invariant of the steps of single runs holds of
every run in every state that is reached. -/
theorem ledger_induction (hcreate : ∀ budget content, P (RunLedger.create budget content))
    (hstep : ∀ l a, C l a → P l → P (step l a))
    (hops : Machine.Along perform (Each C) Ledger.empty ops) {runID : ℕ} {l : RunLedger}
    (hl : Machine.run perform Ledger.empty ops runID = some l) : P l :=
  Machine.run_induction (P := fun L : Ledger => ∀ runID l, L runID = some l → P l)
    (fun L op hop hL => perform_preserves hcreate hstep L op hop hL) hops
    (fun _ _ h => nomatch h) runID l hl

/-- The rule for relations across the steps of a run of the ledger. -/
theorem ledger_throughout (hcreate : ∀ budget content, P (RunLedger.create budget content))
    (hstep : ∀ l a, C l a → P l → P (step l a)) (hrefl : ∀ l, R l l)
    (hR : ∀ l a, C l a → P l → R l (step l a))
    (hops : Machine.Along perform (Each C) Ledger.empty ops) :
    Machine.Throughout perform (EachRun R) Ledger.empty ops :=
  Machine.throughout_of_step (P := fun L : Ledger => ∀ runID l, L runID = some l → P l)
    (fun L op hop hL => perform_preserves hcreate hstep L op hop hL)
    (fun L op hop hL => perform_eachRun hrefl hR L op hop hL) hops (fun _ _ h => nomatch h)

end

end GoNavi.Harness
