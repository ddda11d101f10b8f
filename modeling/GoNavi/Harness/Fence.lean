import GoNavi.Harness.Operation

/-! # Fencing of a leased run

While a lease of a run is live, a mutation that is not made by its owner leaves the run and
what was written for it alone (`Untouched`): it can only write control commands and decide
approvals.  Two mutations do not ask for the owner (`unfenced`): `AppendMessage`, which takes no
token at all, and `CreateApproval` without a token (`appendMessage_unfenced`).  In a run
without such steps every lease is a fence (`lease_fences`). -/

namespace GoNavi.Harness

open Scan RunLedger Machine

/-- The token that a mutation presents; `0` for none. -/
def Op.token : Op → ℕ
  | .transitionRun token _ _ _ => token
  | .appendEvent r => r.ownerToken
  | .saveCheckpoint token _ _ _ _ _ => token
  | .appendMessage caller _ => caller
  | .addActiveDuration token _ => token
  | .startTool r => r.ownerToken
  | .finishTool r => r.ownerToken
  | .startToolAndEvent _ r => r.ownerToken
  | .finishToolAndEvent _ r _ _ => r.ownerToken
  | .supersedeToolIntentsAndSteer _ r => r.ownerToken
  | .createApproval r _ => r.ownerToken
  | .decideApproval _ => 0
  | .enqueueCommand _ _ => 0
  | .enqueueSteer _ _ => 0
  | .dequeueCommands _ => 0
  | .claimCommands token _ _ => token
  | .ackCommand token _ => token
  | .tombstoneCommand token _ => token
  | .rejectStaleControlCommand token _ => token
  | .applyCancelControlCommand token _ => token
  | .reserveTokens token _ _ _ _ => token
  | .reconcileTokens token _ _ _ => token
  | .commitModelTurn _ r => r.ownerToken
  | .acquireLease _ _ _ => 0
  | .renewLease _ token _ => token
  | .releaseLease _ token => token
  | .recoverRun _ => 0
  | .applyRecoveryAction _ r _ => r.ownerToken

/-- Whether a mutation is made by the owner of a lease: it presents the token, or it asks for
the lease under the owner's id. -/
def Op.owns (op : Op) (lease : Lease) : Bool :=
  match op with
  | .acquireLease ownerID _ _ => ownerID = lease.ownerID
  | op => op.token = lease.token

/-- What a lease protects: the row of the run, its events, checkpoints, tool calls, messages,
steers and reservations, and which approvals there are. -/
structure Untouched (l l' : RunLedger) : Prop where
  run : l'.run = l.run
  events : l'.events = l.events
  checkpoints : l'.checkpoints = l.checkpoints
  toolCalls : l'.toolCalls = l.toolCalls
  messages : l'.messages = l.messages
  steerRequests : l'.steerRequests = l.steerRequests
  reservations : l'.reservations = l.reservations
  approvals : l'.approvals.map (fun a => { a with status := .pending }) =
    l.approvals.map (fun a => { a with status := .pending })

/-- Who does not own the live lease does not touch the run. -/
def Fenced (l : RunLedger) (a : Act) (l' : RunLedger) : Prop :=
  ∀ lease, l.run.lease = some lease → a.now < lease.expiresAt → a.op.owns lease = false →
    Untouched l l'

/-- A mutation that writes past the fence: a message of another caller, or an approval without
a token. -/
def unfenced (l : RunLedger) (a : Act) : Bool :=
  l.run.lease.any fun lease => a.now < lease.expiresAt && !a.op.owns lease &&
    (match a.op with
      | .appendMessage _ _ => true
      | .createApproval r _ => r.ownerToken = 0 ∧ l.approvalFor? r.callID r.args = none
      | _ => false)

section

variable {l l' : RunLedger} {now : ℕ} {lease : Lease}

theorem untouched_refl (l : RunLedger) : Untouched l l := ⟨rfl, rfl, rfl, rfl, rfl, rfl, rfl, rfl⟩

theorem untouched_commands (l : RunLedger) (commands : List Command) :
    Untouched l { l with commands := commands } :=
  ⟨rfl, rfl, rfl, rfl, rfl, rfl, rfl, rfl⟩

theorem untouched_insertRecoveryCommand (l : RunLedger) (r : RecoveryRequest) :
    Untouched l (l.insertRecoveryCommand now r) := by
  rw [insertRecoveryCommand_eq]
  exact untouched_commands l _

/-- The owner of a leased run presents the token of the lease. -/
theorem token_of_verifyOwner {token : ℕ} (hlease : l.run.lease = some lease)
    (h : l.verifyOwner now token = true) : token = lease.token := by
  rw [verifyOwner, hlease] at h
  simp only [decide_eq_true_eq] at h
  exact h.1

theorem token_of_guard {token expected : ℕ} (hlease : l.run.lease = some lease)
    (h : l.guard now token expected = .ok ()) : token = lease.token :=
  token_of_verifyOwner hlease (guard_ok h).2.1

theorem token_of_loadClaimed {token id : ℕ} {c : Command} (hlease : l.run.lease = some lease)
    (h : l.loadClaimed now token id = .ok (c, false)) : token = lease.token := by
  rw [loadClaimed] at h
  split at h
  · cases h
  · split_ifs at h with hpending hclaim howner
    · cases h
    · have hverified : l.verifyOwner now token = true := by simpa [hlease] using howner
      exact token_of_verifyOwner hlease hverified

/-- **What a mutation does past a live lease.** -/
theorem fenced_of_wrote {op : Op} (h : Wrote l now op l') (hop : unfenced l ⟨now, op⟩ = false) :
    Fenced l ⟨now, op⟩ l' := by
  intro lease hlease hlive howns
  have hne : ∀ {token : ℕ}, op.owns lease = decide (token = lease.token) →
      token = lease.token → Untouched l l' := fun hop htoken => by
    rw [hop, decide_eq_false_iff_not] at howns
    exact absurd htoken howns
  cases h with
  | same => exact untouched_refl l
  | transitionRun _ _ _ howner => exact hne rfl (token_of_verifyOwner hlease howner)
  | appendEvent hguard | appendTerminal hguard | saveCheckpoint hguard | addActiveDuration hguard
  | startTool hguard | finishTool hguard | startToolAndEvent hguard | finishToolAndEvent hguard
  | supersede _ _ hguard | reserveTokens _ _ hguard | reconcileTokens _ _ _ hguard =>
    exact hne rfl (token_of_guard hlease hguard)
  | commitModelTurn _ _ hchecks => exact hne rfl (token_of_guard hlease hchecks.guard)
  | appendMessage => simp [unfenced, hlease, hlive, howns] at hop
  | createApproval hopen howner hnew hfresh =>
    rcases howner with hzero | howner
    · simp [unfenced, hlease, hlive, howns, hzero, hnew] at hop
    · exact hne rfl (token_of_verifyOwner hlease howner)
  | decideApproval =>
    refine ⟨rfl, rfl, rfl, rfl, rfl, rfl, rfl, ?_⟩
    rw [List.map_map]
    refine List.map_congr_left fun a _ => ?_
    simp only [Function.comp_apply]
    split <;> rfl
  | enqueueCommand | enqueueSteer | dequeueCommands | claimCommands | ackCommand
  | tombstoneCommand => exact untouched_commands l _
  | rejectStale hload | rejectCancel hload | cancelAgain hload | cancel hload =>
    exact hne rfl (token_of_loadClaimed hlease hload)
  | acquireLease hopen hfree =>
    have howner := (hfree lease hlease hlive).1
    simp [Op.owns, howner] at howns
  | renewLease hlease' howner | releaseLease hlease' howner =>
    rw [hlease] at hlease'
    cases hlease'
    exact hne rfl howner.2.symm
  | recoverRun hstate hfree => simp [leased, hlease, hlive] at hfree
  | recoveryNoted => exact untouched_insertRecoveryCommand l _
  | recovery hopen howner =>
    have hleased : l.leased now = true := by simpa [leased, hlease] using hlive
    exact hne rfl (token_of_verifyOwner hlease (howner hleased))

end

/-- **A live lease fences the run** in every run of mutations without an unfenced step. -/
theorem lease_fences (budget : Int64) (content : Text) (acts : List Act)
    (hacts : Along step (fun l a => unfenced l a = false) (RunLedger.create budget content) acts) :
    Throughout step Fenced (RunLedger.create budget content) acts :=
  throughout_of_step (P := fun _ => True) (fun _ _ _ _ => trivial)
    (fun l a ha _ => fenced_of_wrote (wrote_step l a) ha) hacts trivial

/-- A worker takes over a run whose lease has expired; the earlier one writes late. -/
def takeoverRun : List Act :=
  [⟨0, .acquireLease 1 1 10⟩, ⟨20, .acquireLease 2 2 10⟩,
    ⟨21, .transitionRun 2 0 .queued .runningModel⟩,
    ⟨22, .appendEvent ⟨0, 0, .input, .runningModel, .other, 0, 2, 0⟩⟩]

theorem lease_fences_takeover : Throughout step Fenced (RunLedger.create 0 []) takeoverRun :=
  lease_fences 0 [] takeoverRun (by decide)

/-- The earlier worker appends a message while the lease of the other is live. -/
theorem appendMessage_unfenced : ¬ Throughout step Fenced (RunLedger.create 0 [])
    [⟨0, .acquireLease 1 1 10⟩, ⟨20, .acquireLease 2 2 10⟩,
      ⟨21, .appendMessage 2 ⟨.tool, 1, [], []⟩⟩] := by
  rintro ⟨-, -, hfenced, -⟩
  have huntouched := hfenced ⟨2, 3, 30⟩ rfl (by decide) (by decide)
  exact absurd huntouched.messages (by decide)

end GoNavi.Harness
