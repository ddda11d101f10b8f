import GoNavi.Harness.Control

/-! # Verdicts on control commands

A command is settled once, as applied or as rejected.  `Truthful` says of a step that it keeps
how commands were settled, that a cancel is applied exactly if the run is canceling after the
step, and that a steer whose message is written is not rejected.

A poll validates the expected revision of a command before anything else, and the message of a
steer advances the revision.  So a steer that was put into effect and not acknowledged is
rejected by the next owner (`steer_rejected_late`), and so is a cancel that comes when the run is
canceling already.  If no such command is validated, all steps are truthful
(`commands_settled_truthfully`).

A cancel that a poll leaves, because a side effect is in flight, can never be applied: the
outcome of the tool advances the revision (`left_cancel_rejected`). -/

namespace GoNavi.Harness

open Scan RunLedger Machine

variable {S : Control} {a : ControlAct} {c : Command} {now token id : ℕ}

/-! ### Truthful steps -/

structure Truthful (l l' : RunLedger) : Prop where
  /-- A command that is settled stays settled as it was. -/
  once : ∀ id c, l.command? id = some c → c.pending = false →
    ∃ c', l'.command? id = some c' ∧ c'.pending = false ∧ c'.applied = c.applied
  /-- A cancel is applied with the transition to canceling, or when the run is canceling. -/
  cancel : ∀ id c c', l.command? id = some c → c.pending = true → c.action = .cancel →
    l'.command? id = some c' → c'.pending = false →
      (c'.applied = true ↔ l'.run.state = .canceling)
  /-- A steer whose message is written is not rejected while the run is open. -/
  steer : ∀ id c c', l.command? id = some c → c.pending = true → c.action = .steer →
    (l.steered id).isSome → l'.command? id = some c' → c'.pending = false →
      c'.applied = true ∨ l'.run.state.terminal = true

/-- The commands that are in effect: a steer whose message is written, and a cancel of a run that
is canceling. -/
def RunLedger.inEffect (l : RunLedger) (id : ℕ) : Bool :=
  (l.command? id).any fun c => (c.action = .steer ∧ (l.steered id).isSome) ∨
    (c.action = .cancel ∧ l.run.state = .canceling)

/-- The step does not reject a command that is in effect. -/
def validates (S : Control) (a : ControlAct) : Bool :=
  match S.act? a with
  | some ⟨now, .rejectStaleControlCommand token id⟩
  | some ⟨now, .applyCancelControlCommand token id⟩ =>
    !(S.rows.reportsStale now token id && S.rows.inEffect id)
  | _ => true

theorem truthful_refl (l : RunLedger) : Truthful l l := by
  constructor
  · intro id c hc hsettled
    exact ⟨c, hc, hsettled, rfl⟩
  · intro id c c' hc hpending _ hc' hsettled
    exact (not_settled_of_same hpending hc hc' hsettled).elim
  · intro id c c' hc hpending _ _ hc' hsettled
    exact (not_settled_of_same hpending hc hc' hsettled).elim

theorem reportsStale_of_load {l : RunLedger} (h : l.loadClaimed now token id = .ok (c, false))
    (hstale : l.stale c = true) : l.reportsStale now token id = true := by
  rw [RunLedger.reportsStale, h]
  simp [hstale]

/-- A rejected command is not in effect, but in a run that has ended. -/
theorem rejected_inEffect {act : Act} (hvalid : validates S a = true)
    (hact : S.act? a = some act) (hc : S.rows.command? id = some c)
    (hop : act.op = .rejectStaleControlCommand token c.id ∧ S.rows.stale c = true ∨
      act.op = .applyCancelControlCommand token c.id ∧ c.action = .cancel ∧
        (S.rows.stale c = true ∨ S.rows.run.state.terminal = true))
    (hload : S.rows.loadClaimed act.now token c.id = .ok (c, false)) :
    S.rows.inEffect id = false ∨ S.rows.run.state.terminal = true := by
  have hid : c.id = id := Table.lookup_key hc
  subst hid
  obtain ⟨now, op⟩ := act
  have hstale : S.rows.stale c = true ∨ S.rows.run.state.terminal = true := by
    rcases hop with ⟨-, hstale⟩ | ⟨-, -, hstale⟩
    · exact .inl hstale
    · exact hstale
  rcases hstale with hstale | hterminal
  · refine .inl ?_
    have hreports := reportsStale_of_load hload hstale
    rcases hop with ⟨rfl, -⟩ | ⟨rfl, -⟩ <;> simpa [validates, hact, hreports] using hvalid
  · exact .inr hterminal

/-- **A step in the condition is truthful.** -/
theorem truthful_step (S : Control) (a : ControlAct) (hvalid : validates S a = true)
    (h : Protocol S) : Truthful S.rows (S.step a).rows := by
  rw [control_rows]
  cases hact : S.act? a with
  | none => exact truthful_refl _
  | some act =>
    show Truthful S.rows (Harness.step S.rows act)
    have hwrote := wrote_step S.rows act
    obtain ⟨-, more, hevolve⟩ := commands_of_step h.ids act
    constructor
    · intro id c hc hsettled
      obtain ⟨c', hc', hfollows⟩ := command?_evolve hevolve hc
      exact ⟨c', hc', hfollows.settled hsettled⟩
    · intro id c c' hc hpending hcancel hc' hsettled
      have hid : c.id = id := Table.lookup_key hc
      generalize hl : Harness.step S.rows act = l' at hwrote hc' ⊢
      generalize hop' : act.op = op at hwrote
      cases settled_by hwrote hc hpending hc' hsettled with
      | acknowledged =>
        obtain ⟨now, op⟩ := act
        cases hop'
        exact absurd hcancel (acknowledged_action h hact (hid ▸ hc)).1
      | rejected hop hload happlied =>
        have hstate : (S.rows.rejectStale c).run.state ≠ .canceling := by
          rw [(rejectStale_frame ..).1]
          intro hcanceling
          rcases rejected_inEffect hvalid hact hc (hop' ▸ hop) hload with heffect | hterminal
          · simp [RunLedger.inEffect, hc, hcancel, hcanceling] at heffect
          · rw [hcanceling] at hterminal
            cases hterminal
        simp [happlied, hstate]
      | canceled _ _ hstate happlied => simp [happlied, hstate]
      | discarded _ hclosed happlied =>
        have hstate : l'.run.state ≠ .canceling := by
          intro hcanceling
          rw [hcanceling] at hclosed
          cases hclosed
        simp [happlied, hstate]
      | uncalled hop => rw [← hop', act_called hact] at hop; cases hop
    · intro id c c' hc hpending hsteer hsteered hc' hsettled
      generalize hl : Harness.step S.rows act = l' at hwrote hc' ⊢
      generalize hop' : act.op = op at hwrote
      cases settled_by hwrote hc hpending hc' hsettled with
      | acknowledged _ happlied => exact .inl happlied
      | rejected hop hload happlied =>
        refine .inr ?_
        rw [(rejectStale_frame ..).1]
        rcases rejected_inEffect hvalid hact hc (hop' ▸ hop) hload with heffect | hterminal
        · simp [RunLedger.inEffect, hc, hsteer, hsteered] at heffect
        · exact hterminal
      | canceled hcancel => rw [hsteer] at hcancel; cases hcancel
      | discarded _ hclosed => exact .inr hclosed
      | uncalled hop => rw [← hop', act_called hact] at hop; cases hop

/-- **Control commands are settled once and truthfully** in every run that rejects no command
that is in effect. -/
theorem commands_settled_truthfully (maxTotalTokens : Int64) (content : Text)
    (as : List ControlAct) (h : Along Control.step (fun S a => validates S a = true)
      (Control.start maxTotalTokens content) as) :
    Throughout Control.step (fun S _ S' => Truthful S.rows S'.rows)
      (Control.start maxTotalTokens content) as :=
  throughout_of_step (fun S a _ hprotocol => protocol_step S a hprotocol)
    (fun S a hvalid hprotocol => truthful_step S a hvalid hprotocol) h
    (protocol_start maxTotalTokens content)

/-- A worker takes a steer up and writes its message. -/
def steerWritten : List ControlAct :=
  [.other ⟨0, .acquireLease 1 1 100⟩,
    .other ⟨0, .appendEvent ⟨0, 0, .input, .runningModel, .other, 0, 2, 0⟩⟩,
    .other ⟨0, .enqueueCommand ⟨7, .steer, [104], 3⟩ false⟩,
    .start 1 2, .poll 1 0 10 false, .advance 1 0 0 false, .advance 1 0 0 false,
    .advance 1 0 0 false, .takeSteer 1 [], .advanceSteer 1 0 0 false, .advanceSteer 1 0 5 false]

theorem commands_settled_truthfully_acknowledged :
    Throughout Control.step (fun S _ S' => Truthful S.rows S'.rows)
      (Control.start 0 []) (steerWritten ++ [.advanceSteer 1 0 0 false]) :=
  commands_settled_truthfully 0 [] _ (by decide)

/-- The worker has crashed in front of the acknowledgement; the next owner polls. -/
def nextOwner : List ControlAct :=
  [.other ⟨200, .acquireLease 2 2 100⟩, .start 2 3, .poll 2 200 10 false, .advance 2 0 200 false,
    .advance 2 0 200 false]

/-- The next owner rejects the steer whose message is written. -/
theorem steer_rejected_late :
    ¬ Throughout Control.step (fun S _ S' => Truthful S.rows S'.rows)
      (Control.start 0 []) (steerWritten ++ nextOwner) := by
  intro h
  obtain ⟨-, -, -, -, -, h, -⟩ := throughout_append.mp h
  rcases h.steer 7 _ _ rfl (by decide) (by decide) (by decide) rfl (by decide) with happlied | hclosed
  · exact absurd happlied (by decide)
  · exact absurd hclosed (by decide)

/-! ### A cancel in flight -/

/-- The state after a run. -/
def Control.after (maxTotalTokens : Int64) (content : Text) (as : List ControlAct) : Control :=
  run Control.step (Control.start maxTotalTokens content) as

/-- A poll has found a cancel, and a side effect is in flight. -/
def Control.leaves (S : Control) (i k id : ℕ) : Prop :=
  ∃ p, S.polled? i k = some p ∧ p.stage = .current ∧ p.command.action = .cancel ∧
    p.command.id = id ∧ (S.executions i).sideEffect = true

/-- The step records the outcome of a tool. -/
def Control.records (S : Control) (a : ControlAct) : Prop :=
  ∃ now checkpointID r state workspace,
    a = .other ⟨now, .finishToolAndEvent checkpointID r state workspace⟩ ∧ (S.step a).rows ≠ S.rows

/-- No cancel expects a revision that is still to come. -/
def Expected (l : RunLedger) : Prop :=
  ∀ c ∈ l.commands, c.action = .cancel → c.expectedRevision ≤ l.run.revision

theorem expected_of_step {l : RunLedger} (act : Act) (hexpected : Expected l) :
    Expected (Harness.step l act) := by
  have hle := revision_le (wrote_step l act)
  cases h : act.op.apply l act.now with
  | error e =>
    rw [step_of_error h]
    exact hexpected
  | ok l' =>
    rw [step_of_ok h] at hle ⊢
    intro c' hc' hcancel
    cases comes_from h hc' with
    | kept c hc hsame =>
      rw [hsame.expectedRevision]
      exact (hexpected c hc (hsame.action ▸ hcancel)).trans hle
    | enqueued r elsewhere hop hrow hopen hrun =>
      rcases hop with ⟨-, hrevision⟩ | ⟨-, hsteer⟩
      · rw [hrow, hrun]
        exact hrevision.le
      · rw [hrow] at hcancel
        exact absurd (hsteer.symm.trans hcancel) nofun
    | receipt hsteer hnot => exact absurd hcancel hnot

/-- A cancel that can not be applied any more: the run has passed the revision it expects. -/
structure Passed (S : Control) (id : ℕ) : Prop where
  protocol : Protocol S
  passed : ∃ c, S.rows.command? id = some c ∧ c.action = .cancel ∧ c.applied = false ∧
    c.expectedRevision < S.rows.run.revision

theorem passed_stale {l : RunLedger} (h : c.expectedRevision < l.run.revision) :
    l.stale c = true := by
  have : c.expectedRevision ≠ l.run.revision := by omega
  simp [stale, this]

/-- **A cancel that the run has passed is never applied.** -/
theorem passed_step (S : Control) (a : ControlAct) (h : Passed S id) : Passed (S.step a) id := by
  refine ⟨protocol_step S a h.protocol, ?_⟩
  obtain ⟨c, hc, hcancel, hnot, hlt⟩ := h.passed
  rw [control_rows]
  cases hact : S.act? a with
  | none => exact ⟨c, hc, hcancel, hnot, hlt⟩
  | some act =>
    show ∃ c, (Harness.step S.rows act).command? id = some c ∧ _
    have hwrote := wrote_step S.rows act
    obtain ⟨-, more, hevolve⟩ := commands_of_step h.protocol.ids act
    obtain ⟨c', hc', hfollows⟩ := command?_evolve hevolve hc
    refine ⟨c', hc', hfollows.action.trans hcancel, ?_, ?_⟩
    · cases hpending : c.pending with
      | false => rw [(hfollows.settled hpending).2, hnot]
      | true =>
        cases hsettled : c'.pending with
        | true => exact pending_applied hsettled
        | false =>
          have hid : c.id = id := Table.lookup_key hc
          generalize Harness.step S.rows act = l' at hwrote hc'
          generalize hop' : act.op = op at hwrote
          cases settled_by hwrote hc hpending hc' hsettled with
          | acknowledged =>
            obtain ⟨now, op⟩ := act
            cases hop'
            exact absurd hcancel (acknowledged_action h.protocol hact (hid ▸ hc)).1
          | rejected _ _ happlied => exact happlied
          | canceled _ hcurrent => rw [passed_stale hlt] at hcurrent; cases hcurrent
          | discarded _ _ happlied => exact happlied
          | uncalled hop => rw [← hop', act_called hact] at hop; cases hop
    · rw [hfollows.expectedRevision]
      exact hlt.trans_le (revision_le hwrote)

theorem expected_step (S : Control) (a : ControlAct) (h : Expected S.rows) :
    Expected (S.step a).rows := by
  rw [control_rows]
  cases S.act? a with
  | none => exact h
  | some act => exact expected_of_step act h

theorem records_advances (h : S.records a) :
    S.rows.run.revision < (S.step a).rows.run.revision := by
  obtain ⟨now, checkpointID, r, state, workspace, rfl, hrows⟩ := h
  have hact : S.act? (.other ⟨now, .finishToolAndEvent checkpointID r state workspace⟩) =
      some ⟨now, .finishToolAndEvent checkpointID r state workspace⟩ := rfl
  rw [control_rows, hact] at hrows ⊢
  have hwrote := wrote_step S.rows ⟨now, .finishToolAndEvent checkpointID r state workspace⟩
  simp only [Option.elim] at hrows ⊢
  generalize Harness.step S.rows _ = l' at hwrote hrows ⊢
  cases hwrote with
  | same => exact absurd rfl hrows
  | finishToolAndEvent => exact Nat.lt_succ_self _

theorem command_of_leaves {i k : ℕ} (h : Protocol S) (hleaves : S.leaves i k id) :
    ∃ c, S.rows.command? id = some c ∧ c.action = .cancel := by
  obtain ⟨p, hp, -, hcancel, rfl, -⟩ := hleaves
  obtain ⟨c, hc, haction, -⟩ := ((h.fits i).polled p (List.mem_of_getElem? hp)).stands
  exact ⟨c, hc, haction.trans hcancel⟩

/-- **A cancel that a poll leaves while a side effect is in flight is not applied** once the
outcome of the tool is recorded, in no run: every validation rejects it as stale. -/
theorem left_cancel_rejected (maxTotalTokens : Int64) (content : Text) (as bs cs : List ControlAct)
    (finish : ControlAct) (i k : ℕ)
    (hleaves : (Control.after maxTotalTokens content as).leaves i k id)
    (hrecords : (Control.after maxTotalTokens content (as ++ bs)).records finish)
    (hnot : ∀ c, (Control.after maxTotalTokens content
      (as ++ bs ++ [finish])).rows.command? id = some c → c.applied = false) :
    ∃ c l, l = (Control.after maxTotalTokens content (as ++ bs ++ finish :: cs)).rows ∧
      l.command? id = some c ∧ c.applied = false ∧
      ∀ now token, token ≠ 0 → l.loadClaimed now token id = .ok (c, false) →
        l.rejectStaleControlCommand now token id = .ok (l.rejectStale c) := by
  unfold Control.after at *
  set S₀ := Control.start maxTotalTokens content
  have hprotocol : ∀ as, Protocol (run Control.step S₀ as) := fun as =>
    run_preserves (fun S a h => protocol_step S a h) (protocol_start maxTotalTokens content)
  have hexpected : ∀ as, Expected (run Control.step S₀ as).rows := fun as =>
    run_preserves (P := fun S => Expected S.rows) (fun S a h => expected_step S a h)
      fun c hc => absurd hc List.not_mem_nil
  obtain ⟨c₁, hc₁, hcancel₁⟩ := command_of_leaves (hprotocol as) hleaves
  -- The command stays, and with it what it asks for.
  have hstays : ∀ bs, ∃ c, (run Control.step S₀ (as ++ bs)).rows.command? id = some c ∧
      c.action = .cancel := by
    intro bs
    rw [run_append]
    refine (run_preserves (P := fun S : Control => Protocol S ∧ ∃ c, S.rows.command? id = some c ∧
      c.action = .cancel) ?_ ⟨hprotocol as, c₁, hc₁, hcancel₁⟩).2
    rintro S a ⟨h, c, hc, hcancel⟩
    refine ⟨protocol_step S a h, ?_⟩
    rw [control_rows]
    cases S.act? a with
    | none => exact ⟨c, hc, hcancel⟩
    | some act =>
      obtain ⟨-, more, hevolve⟩ := commands_of_step h.ids act
      obtain ⟨c', hc', hfollows⟩ := command?_evolve hevolve hc
      exact ⟨c', hc', hfollows.action.trans hcancel⟩
  obtain ⟨c₂, hc₂, hcancel₂⟩ := hstays bs
  have hle := hexpected (as ++ bs) c₂ (Table.mem_of_lookup hc₂) hcancel₂
  -- After the outcome the run has passed the revision that the cancel expects.
  have hpassed : Passed (run Control.step S₀ (as ++ bs ++ [finish])) id := by
    refine ⟨hprotocol _, ?_⟩
    have hlt := records_advances hrecords
    have hrun : run Control.step S₀ (as ++ bs ++ [finish]) =
        (run Control.step S₀ (as ++ bs)).step finish := by
      rw [run_append]
      rfl
    rw [hrun] at hnot ⊢
    have hstep : ∃ c', ((run Control.step S₀ (as ++ bs)).step finish).rows.command? id = some c' ∧
        c₂.Follows c' := by
      rw [control_rows]
      cases (run Control.step S₀ (as ++ bs)).act? finish with
      | none => exact ⟨c₂, hc₂, c₂.follows_refl⟩
      | some act =>
        obtain ⟨-, more, hevolve⟩ := commands_of_step (hprotocol (as ++ bs)).ids act
        exact command?_evolve hevolve hc₂
    obtain ⟨c₃, hc₃, hfollows⟩ := hstep
    refine ⟨c₃, hc₃, hfollows.action.trans hcancel₂, hnot c₃ hc₃, ?_⟩
    rw [hfollows.expectedRevision]
    omega
  have hlast : Passed (run Control.step S₀ (as ++ bs ++ finish :: cs)) id := by
    have hsplit : as ++ bs ++ finish :: cs = (as ++ bs ++ [finish]) ++ cs := by simp
    rw [hsplit, run_append]
    exact run_preserves (fun S a h => passed_step S a h) hpassed
  obtain ⟨c, hc, -, happlied, hlt⟩ := hlast.passed
  refine ⟨c, _, rfl, hc, happlied, ?_⟩
  intro now token htoken hload
  have hstale := passed_stale hlt
  rw [rejectStaleControlCommand, if_neg htoken, hload]
  exact if_neg (by simp only [hstale]; decide)

/-- A side effect is in flight, and a poll finds a cancel that expects the revision of the run. -/
def cancelInFlight : List ControlAct :=
  [.other ⟨0, .acquireLease 1 1 100⟩,
    .other ⟨0, .appendEvent ⟨0, 0, .input, .runningModel, .other, 0, 2, 0⟩⟩,
    .start 1 2, .setSideEffect 1 true,
    .other ⟨0, .startToolAndEvent 1 ⟨1, 1, 1, .sideEffect, 1, 3, 2, none⟩⟩,
    .other ⟨0, .enqueueCommand ⟨7, .cancel, [], 4⟩ false⟩,
    .poll 1 0 10 false, .advance 1 0 0 false, .advance 1 0 0 false]

/-- The tool completes. -/
def cancelOutcome : ControlAct :=
  .other ⟨0, .finishToolAndEvent 2 ⟨1, 1, .completed, [], false, 4, 2⟩ (some .runningModel) none⟩

/-- The worker polls again and goes on with the next model turn. -/
def cancelRejected : List ControlAct :=
  [.setSideEffect 1 false, .poll 1 0 10 false, .advance 1 0 0 false, .advance 1 0 0 false,
    .other ⟨0, .reserveTokens 2 0 9 1 false⟩]

theorem left_cancel_rejected_cancelInFlight :
    ∃ c l, l = (Control.after 0 [] (cancelInFlight ++ [.advance 1 0 0 false] ++
        cancelOutcome :: cancelRejected)).rows ∧
      l.command? 7 = some c ∧ c.applied = false ∧
      ∀ now token, token ≠ 0 → l.loadClaimed now token 7 = .ok (c, false) →
        l.rejectStaleControlCommand now token 7 = .ok (l.rejectStale c) :=
  left_cancel_rejected 0 [] cancelInFlight [.advance 1 0 0 false] cancelRejected cancelOutcome 1 0
    ⟨_, rfl, by decide, by decide, by decide, by decide⟩
    ⟨0, 2, _, _, _, rfl, by decide⟩ (fun c hc => by cases hc; decide)

/-- The cancel was current when it was found; after the outcome it is rejected and the next model
turn is begun. -/
theorem left_cancel_lost :
    let S := Control.after 0 [] cancelInFlight
    let S' := Control.after 0 [] (cancelInFlight ++ [.advance 1 0 0 false] ++
      cancelOutcome :: cancelRejected)
    S.leaves 1 0 7 ∧ (∃ c, S.rows.command? 7 = some c ∧ S.rows.stale c = false) ∧
      (∃ c, S'.rows.command? 7 = some c ∧ c.consumed = true ∧ c.applied = false) ∧
      S'.rows.run.state = .runningModel ∧ S'.rows.reservations ≠ [] :=
  ⟨⟨_, rfl, by decide, by decide, by decide, by decide⟩, ⟨_, rfl, by decide⟩,
    ⟨_, rfl, by decide, by decide⟩, by decide, by decide⟩

end GoNavi.Harness
