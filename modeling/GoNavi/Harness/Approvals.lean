import GoNavi.Harness.Operation

/-! # Approvals

What happens to the approvals of a run, whatever the mutations are.  An approval is created
pending, for the revision that the run has (`ApprovalsKept.opened`); it is settled by a decision
that is bound to it, or expired by a steer or by a recovery, and then it stays as it is.

A decision is addressed to the run that it names: the row of another run is not found among the
rows of this one.  A decision that is bound to a pending approval but comes after the run has
moved on is refused, and the refusal rolls back the expiry that was written before it
(`lateDecision`).

**Main theorem** (`approvalsKept_iff`): in a run of the ledger the approvals are kept across every
step if and only if no decision comes late. -/

namespace GoNavi.Harness

open Scan RunLedger Machine List Table

variable {l l' : RunLedger} {a : Act} {op : Op} {now : ℕ}

/-- The approval with an id. -/
def RunLedger.approval? (l : RunLedger) (id : ℕ) : Option Approval :=
  lookup Approval.id id l.approvals

/-- A decision that names the call, the arguments and the revision of an approval. -/
structure RunLedger.DecideApprovalRequest.Binds (r : DecideApprovalRequest) (x : Approval) :
    Prop where
  call : r.expectedCallID = x.callID
  args : r.expectedArgs = x.args
  revision : r.expectedRunRevision = x.runRevision
  given : r.expectedRunRevision ≠ 0

instance (r : DecideApprovalRequest) (x : Approval) : Decidable (r.Binds x) :=
  decidable_of_iff (r.expectedCallID = x.callID ∧ r.expectedArgs = x.args ∧
    r.expectedRunRevision = x.runRevision ∧ r.expectedRunRevision ≠ 0)
    ⟨fun ⟨hcall, hargs, hrevision, hgiven⟩ => ⟨hcall, hargs, hrevision, hgiven⟩,
      fun h => ⟨h.call, h.args, h.revision, h.given⟩⟩

/-! ### What a step keeps -/

/-- What a mutation does to the approvals of a run. -/
structure ApprovalsKept (l : RunLedger) (a : Act) (l' : RunLedger) : Prop where
  unique : (l'.approvals.map Approval.id).Nodup
  /-- An approval stays, and once it has left `pending`, it does not change. -/
  follows : ∀ id x, l.approval? id = some x →
    ∃ s, l'.approval? id = some { x with status := s } ∧ (x.status ≠ .pending → s = x.status)
  /-- A new approval is pending and for the revision that the run has. -/
  opened : ∀ id y, l.approval? id = none → l'.approval? id = some y →
    y.status = .pending ∧ y.runRevision = l.run.revision
  /-- It is approved or denied by a decision that is bound to it, while the run has the revision
  that it was created for. -/
  decided : ∀ id x s, l.approval? id = some x → x.status = .pending →
    l'.approval? id = some { x with status := s } → s = .approved ∨ s = .denied →
    ∃ r, a.op = .decideApproval r ∧ r.approvalID = id ∧ r.Binds x ∧ r.decision = s ∧
      l.run.revision = x.runRevision
  /-- A decision that is bound to no approval changes nothing. -/
  mismatched : ∀ r, a.op = .decideApproval r →
    (∀ x, l.approval? r.approvalID = some x → ¬ r.Binds x) → l' = l
  /-- A decision that comes after the run has moved on leaves the approval expired. -/
  late : ∀ r x, a.op = .decideApproval r → r.decision ≠ .pending →
    l.approval? r.approvalID = some x → r.Binds x → x.status = .pending →
    l.run.revision ≠ x.runRevision →
    l'.approval? r.approvalID = some { x with status := .expired }

/-- A decision for a pending approval, in order but for the revision of the run. -/
def lateDecision (l : RunLedger) (a : Act) : Bool :=
  match a.op with
  | .decideApproval r => r.decision ≠ .pending && (l.approval? r.approvalID).any fun x =>
      r.Binds x && x.status = .pending && l.run.revision ≠ x.runRevision
  | _ => false

/-! ### Decisions -/

/-- What a decision has to meet. -/
structure Accepts (l : RunLedger) (r : DecideApprovalRequest) (x : Approval) : Prop where
  decision : r.decision ≠ .pending
  binds : r.Binds x
  pending : x.status = .pending
  opened : l.run.state.terminal = false
  revision : l.run.revision = x.runRevision

/-- The rows behind a decision. -/
def decideRow (r : DecideApprovalRequest) (b : Approval) : Approval :=
  if b.id = r.approvalID ∧ b.status = .pending then { b with status := r.decision } else b

theorem decideRow_id (r : DecideApprovalRequest) (b : Approval) : (decideRow r b).id = b.id := by
  unfold decideRow
  split <;> rfl

/-- A decision that is accepted settles its approval; any other one is rolled back. -/
theorem step_decideApproval (l : RunLedger) (now : ℕ) (r : DecideApprovalRequest) :
    (∃ x, l.approval? r.approvalID = some x ∧ Accepts l r x ∧
      step l ⟨now, .decideApproval r⟩ = { l with approvals := l.approvals.map (decideRow r) }) ∨
    ((∀ x, l.approval? r.approvalID = some x → ¬ Accepts l r x) ∧
      step l ⟨now, .decideApproval r⟩ = l) := by
  unfold step
  simp only [Op.apply, RunLedger.decideApproval]
  split_ifs with hdecision
  · exact .inr ⟨fun x _ h => h.decision hdecision, rfl⟩
  · cases hx : lookup Approval.id r.approvalID l.approvals with
    | none =>
      refine .inr ⟨fun x h => ?_, rfl⟩
      rw [approval?, hx] at h
      cases h
    | some x =>
      have hfound : l.approval? r.approvalID = some x := hx
      dsimp only
      split_ifs with hcall hrevision hpending hmoved
      · refine .inr ⟨fun y hy h => ?_, rfl⟩
        cases hfound.symm.trans hy
        exact hcall.elim (· h.binds.call) (· h.binds.args)
      · refine .inr ⟨fun y hy h => ?_, rfl⟩
        cases hfound.symm.trans hy
        exact hrevision.elim h.binds.given (· h.binds.revision)
      · refine .inr ⟨fun y hy h => ?_, rfl⟩
        cases hfound.symm.trans hy
        exact hpending h.pending
      · refine .inr ⟨fun y hy h => ?_, rfl⟩
        cases hfound.symm.trans hy
        rcases hmoved with hmoved | hmoved
        · rw [h.opened] at hmoved
          cases hmoved
        · exact hmoved h.revision
      · push Not at hcall hrevision hmoved
        exact .inl ⟨x, hfound, ⟨hdecision, ⟨hcall.1, hcall.2, hrevision.2, hrevision.1⟩,
          not_not.mp hpending, by simpa using hmoved.1, hmoved.2⟩, rfl⟩

/-- A pending approval that stays as it is has not been decided. -/
theorem not_decided_of_pending {x : Approval} {s : ApprovalStatus} (hpending : x.status = .pending)
    (h : some x = some { x with status := s }) : ¬ (s = .approved ∨ s = .denied) := by
  have hs : x.status = s := congrArg Approval.status (Option.some.inj h)
  rw [← hs, hpending]
  simp

/-! ### Other mutations -/

/-- The row behind an expiry of the pending approvals that a test selects. -/
def expireRow (p : Approval → Bool) (x : Approval) : Approval :=
  if x.status = .pending ∧ p x then { x with status := .expired } else x

theorem expireRow_id (p : Approval → Bool) (x : Approval) : (expireRow p x).id = x.id := by
  unfold expireRow
  split <;> rfl

theorem expireRow_eq (p : Approval → Bool) (x : Approval) : ∃ s,
    expireRow p x = { x with status := s } ∧ (s = x.status ∨ x.status = .pending ∧ s = .expired) := by
  unfold expireRow
  split_ifs with h
  · exact ⟨.expired, rfl, .inr ⟨h.1, rfl⟩⟩
  · exact ⟨x.status, rfl, .inl rfl⟩

/-- What a mutation that is no decision makes of the approvals. -/
inductive ApprovalChange (l : RunLedger) : List Approval → Prop
  | same : ApprovalChange l l.approvals
  | expired (p : Approval → Bool) : ApprovalChange l (l.approvals.map (expireRow p))
  | created (y : Approval) (hpending : y.status = .pending)
      (hrevision : y.runRevision = l.run.revision) (hfresh : l.approval? y.id = none) :
      ApprovalChange l (l.approvals ++ [y])

theorem approvalChange_of_wrote (h : Wrote l now op l')
    (hop : ∀ r, op ≠ .decideApproval r) : ApprovalChange l l'.approvals := by
  have hsame : l'.approvals = l.approvals → ApprovalChange l l'.approvals := fun h => h ▸ .same
  cases h with
  | appendTerminal _ _ _ _ hmark =>
    apply hsame
    rcases markTerminal_ok hmark with rfl | rfl <;> rfl
  | rejectStale | rejectCancel => exact hsame (rejectStale_frame l _).2.2.2.2.2
  | commitModelTurn => exact hsame (putTurn_frame ..).2.2.2.2.1
  | recoveryNoted => exact hsame (by rw [insertRecoveryCommand_eq])
  | supersede =>
    exact .expired _
  | createApproval _ _ _ hfresh => exact .created _ rfl rfl hfresh
  | decideApproval => exact absurd rfl (hop _)
  | recoverRun => exact .expired _
  | recovery _ _ hdecision =>
    rw [insertRecoveryCommand_eq, (decide'_frame ..).2.2.2.2.2, decision_frame hdecision]
    exact .expired _
  | _ => exact .same

/-- The approvals are kept by every mutation that is no decision. -/
theorem ApprovalChange.kept (h : ApprovalChange l l'.approvals)
    (hunique : (l.approvals.map Approval.id).Nodup) (hop : ∀ r, a.op ≠ .decideApproval r) :
    ApprovalsKept l a l' := by
  have hrest : ∀ {P : DecideApprovalRequest → Prop}, ∀ r, a.op = .decideApproval r → P r :=
    fun r hr => absurd hr (hop r)
  generalize hrows : l'.approvals = rows at h
  have hlookup : ∀ id, l'.approval? id = lookup Approval.id id rows := fun id => by
    rw [← hrows]
    rfl
  cases h with
  | same =>
    refine ⟨by rwa [hrows], fun id x hx => ⟨x.status, (hlookup id).trans hx, fun _ => rfl⟩,
      fun id y hnone hy => ?_, fun id x s hx hpending hs hdecided => ?_, hrest,
      fun r x hr => absurd hr (hop r)⟩
    · cases hnone.symm.trans ((hlookup id).symm.trans hy)
    · exact absurd hdecided
        (not_decided_of_pending hpending (hx.symm.trans ((hlookup id).symm.trans hs)))
  | expired p =>
    have hmap : ∀ id, l'.approval? id = (l.approval? id).map (expireRow p) := fun id =>
      (hlookup id).trans (lookup_map (expireRow_id p) l.approvals)
    refine ⟨?_, fun id x hx => ?_, fun id y hnone hy => ?_,
      fun id x s hx hpending hs hdecided => ?_, hrest, fun r x hr => absurd hr (hop r)⟩
    · rw [hrows, map_map]
      exact (map_congr_left fun x _ => expireRow_id p x).symm ▸ hunique
    · obtain ⟨s, hs, hstatus⟩ := expireRow_eq p x
      refine ⟨s, by rw [hmap, hx, Option.map_some, hs], fun hsettled => ?_⟩
      exact hstatus.resolve_right fun h => hsettled h.1
    · rw [hmap, hnone] at hy
      cases hy
    · obtain ⟨s', hs', hstatus⟩ := expireRow_eq p x
      rw [hmap, hx, Option.map_some, hs'] at hs
      obtain rfl : s' = s := congrArg Approval.status (Option.some.inj hs)
      rcases hstatus with rfl | ⟨-, rfl⟩
      · rw [hpending] at hdecided
        simp at hdecided
      · simp at hdecided
  | created y hpending hrevision hfresh =>
    have hold : ∀ id x, l.approval? id = some x → l'.approval? id = some x := fun id x hx =>
      (hlookup id).trans (lookup_append_of_some hx _)
    refine ⟨?_, fun id x hx => ⟨x.status, hold id x hx, fun _ => rfl⟩, fun id z hnone hz => ?_,
      fun id x s hx hpending' hs hdecided => ?_, hrest, fun r x hr => absurd hr (hop r)⟩
    · rw [hrows, map_append, nodup_append]
      refine ⟨hunique, by simp, fun id hid id' hid' heq => ?_⟩
      obtain ⟨x, hx, rfl⟩ := mem_map.mp hid
      rw [map_singleton, mem_singleton] at hid'
      exact lookup_eq_none.mp hfresh x hx (heq.trans hid')
    · have hz' := (lookup_append_of_none hnone [y]).symm.trans ((hlookup id).symm.trans hz)
      have hmem := mem_singleton.mp (mem_of_lookup hz')
      subst hmem
      exact ⟨hpending, hrevision⟩
    · exact absurd hdecided (not_decided_of_pending hpending' ((hold id x hx).symm.trans hs))

/-! ### Late decisions -/

/-- A decision keeps the approvals if and only if it is not late. -/
theorem decision_kept_iff (l : RunLedger) (now : ℕ) (r : DecideApprovalRequest)
    (hunique : (l.approvals.map Approval.id).Nodup) :
    ApprovalsKept l ⟨now, .decideApproval r⟩ (step l ⟨now, .decideApproval r⟩) ↔
      lateDecision l ⟨now, .decideApproval r⟩ = false := by
  have hlate : lateDecision l ⟨now, .decideApproval r⟩ = true ↔ r.decision ≠ .pending ∧
      ∃ x, l.approval? r.approvalID = some x ∧ r.Binds x ∧ x.status = .pending ∧
        l.run.revision ≠ x.runRevision := by
    simp only [lateDecision, Bool.and_eq_true, decide_eq_true_eq, Option.any_eq_true, and_assoc]
  rcases step_decideApproval l now r with ⟨x, hx, haccepts, hstep⟩ | ⟨hrefused, hstep⟩
  · -- The decision is accepted: it is not late, and the row that it names is the one it settles.
    have hnot : lateDecision l ⟨now, .decideApproval r⟩ = false := by
      rw [← Bool.not_eq_true, hlate]
      rintro ⟨-, y, hy, -, -, hmoved⟩
      cases hx.symm.trans hy
      exact hmoved haccepts.revision
    refine iff_of_true ?_ hnot
    rw [hstep]
    have hmap : ∀ id, RunLedger.approval? { l with approvals := l.approvals.map (decideRow r) } id =
        (l.approval? id).map (decideRow r) :=
      fun id => lookup_map (decideRow_id r) l.approvals
    have hkey : ∀ {id y}, l.approval? id = some y → y.id = id := fun hy => lookup_key hy
    have hrow : ∀ {id y}, l.approval? id = some y → y.status = .pending → id = r.approvalID →
        y = x := fun hy _ hid => Option.some.inj (hy.symm.trans (hid ▸ hx))
    constructor
    · change ((l.approvals.map (decideRow r)).map Approval.id).Nodup
      rw [map_map]
      exact (map_congr_left fun y _ => decideRow_id r y).symm ▸ hunique
    · intro id y hy
      rw [hmap, hy, Option.map_some]
      unfold decideRow
      split_ifs with h
      · exact ⟨r.decision, rfl, fun hsettled => absurd h.2 hsettled⟩
      · exact ⟨y.status, rfl, fun _ => rfl⟩
    · intro id y hnone hy
      rw [hmap, hnone] at hy
      cases hy
    · intro id y s hy hpending hs hdecided
      rw [hmap, hy, Option.map_some, decideRow] at hs
      split_ifs at hs with h
      · have hstatus := congrArg Approval.status (Option.some.inj hs)
        obtain rfl : y = x := hrow hy hpending ((hkey hy).symm.trans h.1)
        exact ⟨r, rfl, h.1.symm.trans (hkey hy), haccepts.binds, hstatus, haccepts.revision⟩
      · exact absurd hdecided (not_decided_of_pending hpending hs)
    · intro r' hr' hnone
      cases hr'
      exact absurd haccepts.binds (hnone x hx)
    · intro r' y hr' hvalid hy hbinds hpending hmoved
      cases hr'
      cases hx.symm.trans hy
      exact absurd haccepts.revision hmoved
  · rw [hstep]
    constructor
    · intro h
      rw [← Bool.not_eq_true, hlate]
      rintro ⟨hvalid, x, hx, hbinds, hpending, hmoved⟩
      have hexpired := h.late r x rfl hvalid hx hbinds hpending hmoved
      have hstatus := congrArg Approval.status (Option.some.inj (hx.symm.trans hexpired))
      rw [hpending] at hstatus
      cases hstatus
    · intro hnot
      refine ⟨hunique, fun id x hx => ⟨x.status, hx, fun _ => rfl⟩, fun id y hnone hy => ?_,
        fun id x s hx hpending hs hdecided => ?_, fun _ _ _ => rfl, ?_⟩
      · cases hnone.symm.trans hy
      · exact absurd hdecided (not_decided_of_pending hpending (hx.symm.trans hs))
      · intro r' x hr' hvalid hx hbinds hpending hmoved
        cases hr'
        have hyes := hlate.mpr ⟨hvalid, x, hx, hbinds, hpending, hmoved⟩
        rw [hnot] at hyes
        cases hyes

/-- **A mutation keeps the approvals of a run if and only if it is no late decision.** -/
theorem step_kept_iff (l : RunLedger) (a : Act) (hunique : (l.approvals.map Approval.id).Nodup) :
    ApprovalsKept l a (step l a) ↔ lateDecision l a = false := by
  obtain ⟨now, op⟩ := a
  by_cases hop : ∃ r, op = .decideApproval r
  · obtain ⟨r, rfl⟩ := hop
    exact decision_kept_iff l now r hunique
  · push Not at hop
    refine iff_of_true ?_ ?_
    · exact (approvalChange_of_wrote (wrote_step l ⟨now, op⟩) hop).kept hunique hop
    · unfold lateDecision
      split
      · next r hr => exact absurd hr (hop r)
      · rfl

theorem step_unique (l : RunLedger) (a : Act) (hunique : (l.approvals.map Approval.id).Nodup) :
    ((step l a).approvals.map Approval.id).Nodup := by
  obtain ⟨now, op⟩ := a
  by_cases hop : ∃ r, op = .decideApproval r
  · obtain ⟨r, rfl⟩ := hop
    rcases step_decideApproval l now r with ⟨x, -, -, hstep⟩ | ⟨-, hstep⟩
    · rw [hstep]
      change ((l.approvals.map (decideRow r)).map Approval.id).Nodup
      rw [map_map]
      exact (map_congr_left fun y _ => decideRow_id r y).symm ▸ hunique
    · rwa [hstep]
  · push Not at hop
    have hkept : ApprovalsKept l ⟨now, op⟩ (step l ⟨now, op⟩) :=
      (approvalChange_of_wrote (wrote_step l ⟨now, op⟩) hop).kept hunique hop
    exact hkept.unique

/-! ### Runs of the ledger -/

/-- What an operation on the ledger does to a run that is there. -/
def LedgerOp.actOn (op : LedgerOp) (runID : ℕ) : Option Act :=
  match op with
  | .createRun _ _ _ => none
  | .mutate id a => if id = runID then some a else none
  | .recoverRuns now checkpointID => some ⟨now, .recoverRun (checkpointID runID)⟩

theorem perform_actOn {L : Ledger} {runID : ℕ} (hl : L runID = some l) (op : LedgerOp) :
    perform L op runID = some ((op.actOn runID).elim l (step l)) := by
  cases op with
  | createRun id budget content =>
    rw [perform]
    split
    · exact hl
    · rename_i hnone
      rcases eq_or_ne runID id with rfl | hne
      · simp [hl] at hnone
      · rwa [Function.update_of_ne hne]
  | mutate id a =>
    rw [perform, LedgerOp.actOn]
    rcases eq_or_ne runID id with rfl | hne
    · rw [Function.update_self, hl, if_pos rfl]
      rfl
    · rw [Function.update_of_ne hne, if_neg hne.symm]
      exact hl
  | recoverRuns now checkpointID =>
    simp only [perform, hl, Option.map_some]
    rfl

/-- Across a step of the ledger: a run that the operation addresses keeps its approvals, and the
other runs do not change. -/
def KeepsApprovals (L : Ledger) (op : LedgerOp) (L' : Ledger) : Prop :=
  ∀ runID l, L runID = some l → ∃ l', L' runID = some l' ∧
    (op.actOn runID).elim (l' = l) fun a => ApprovalsKept l a l'

/-- No decision comes late. -/
def InTime (L : Ledger) (op : LedgerOp) : Prop :=
  ∀ runID l, L runID = some l → ∀ a ∈ op.actOn runID, lateDecision l a = false

/-- **The approvals are kept in a run of the ledger if and only if no decision comes late.** -/
theorem approvalsKept_iff (ops : List LedgerOp) :
    Throughout perform KeepsApprovals Ledger.empty ops ↔ Along perform InTime Ledger.empty ops := by
  refine throughout_iff_along
    (P := fun L : Ledger => ∀ runID l, L runID = some l → (l.approvals.map Approval.id).Nodup)
    (fun L op hL => ?_) (fun L op hL => ?_) fun _ _ h => nomatch h
  · exact perform_preserves (C := fun _ _ => True) (fun _ _ => nodup_nil)
      (fun l a _ h => step_unique l a h) L op (by cases op <;> simp [Each]) hL
  · refine forall_congr' fun runID => forall_congr' fun l => forall_congr' fun hl => ?_
    rw [perform_actOn hl]
    cases hact : op.actOn runID with
    | none => simp
    | some a => simpa using step_kept_iff l a (hL runID l hl)

/-- An approval is asked for at the first revision; the run moves on, and then the approval
arrives. -/
def lateRun : List LedgerOp :=
  [.createRun 1 0 [], .mutate 1 ⟨0, .transitionRun 0 0 .queued .runningModel⟩,
    .mutate 1 ⟨1, .createApproval ⟨7, 3, 2, .sideEffect, 9, 0, 0⟩ false⟩,
    .mutate 1 ⟨2, .transitionRun 0 0 .runningModel .awaitingApproval⟩,
    .mutate 1 ⟨3, .decideApproval ⟨7, .approved, 2, 3, 9⟩⟩]

/-- The late decision is refused, and its approval stays pending. -/
theorem lateRun_pending : ¬ Throughout perform KeepsApprovals Ledger.empty lateRun := by
  rintro ⟨-, -, -, -, hkept, -⟩
  obtain ⟨l', hl', hstep⟩ := hkept 1 _ rfl
  cases hl'
  have hlate := hstep.late ⟨7, .approved, 2, 3, 9⟩ ⟨7, 3, 2, .sideEffect, 9, .pending, 2, 1⟩ rfl
    (by decide) (by decide) (by decide) rfl (by decide)
  exact absurd hlate (by decide)

end GoNavi.Harness
