import GoNavi.Harness.Control

/-! # Steers of a run that completes

An accepted steer waits as a command until a poll of the worker finds it, and then in the
execution until the worker takes it.  The transition to `completed` discards the commands that
are pending, and the worker asks for neither in front of it: a steer that arrives during the last
model turn is consumed without a trace (`steer_discarded`).  A steer with a blank content is
acknowledged without a message.

If no steer is pending in front of the transition, and no blank steer is enqueued, every steer of
a completed run is answered (`steers_answered`). -/

namespace GoNavi.Harness

open Scan RunLedger Machine

variable {l l' : RunLedger} {now : ℕ} {op : Op} {S : Control} {c c' : Command}

/-! ### Answers -/

/-- The event says that the command came too late. -/
def Event.rejects (e : Event) (c : Command) : Prop :=
  e.kind = .runError ∧ ∃ got, e.payload = .runError (bytes "revision_conflict")
    (bytes "control command revision conflict: expected " ++ digits c.expectedRevision ++
      bytes ", got " ++ digits got)

/-- A steer is answered by a user message with its content, or by a conflict in the log. -/
inductive Answered (l : RunLedger) (c : Command) : Prop
  | appended (happlied : c.applied = true)
      (hmessage : (⟨.user, 0, [], trimSpace c.content⟩ : Message) ∈ l.messages)
  | rejected (hsettled : c.pending = false) (e : Event) (he : e ∈ l.events) (hrejects : e.rejects c)

/-- Every steer of a completed run is answered. -/
def SteersAnswered (l : RunLedger) : Prop :=
  l.run.state = .completed → ∀ c ∈ l.commands, c.action = .steer → Answered l c

/-- The mutations that can complete a run. -/
def Op.completes : Op → Bool
  | .appendEvent r => r.resultingState = .completed
  | .finishToolAndEvent _ _ resultingState _ => resultingState = some .completed
  | _ => false

/-- The mutations that enqueue a steer without a content. -/
def Op.blankSteer : Op → Bool
  | .enqueueCommand r _ | .enqueueSteer r _ => r.action = .steer ∧ trimSpace r.content = []
  | _ => false

/-- The step does not complete the run while a steer is pending, and enqueues no blank steer. -/
def attends (S : Control) (a : ControlAct) : Bool :=
  (S.act? a).all fun act => !act.op.blankSteer &&
    (!act.op.completes || S.rows.commands.all fun c => !(c.action = .steer && c.pending))

/-! ### Steps -/

theorem completes_of_wrote (h : Wrote l now op l') (hne : l.run.state ≠ .completed)
    (hcompleted : l'.run.state = .completed) : op.completes = true := by
  have hopen : ∀ {s : RunState}, s.terminal = false → s ≠ .completed := by
    rintro s hs rfl
    cases hs
  have hsame : l'.run.state = l.run.state → op.completes = true := by
    intro hstate
    exact absurd (hstate ▸ hcompleted) hne
  cases h with
  | transitionRun _ htarget => exact absurd hcompleted (hopen htarget)
  | appendEvent _ _ _ htarget => exact absurd hcompleted (hopen htarget)
  | appendTerminal _ _ _ _ hmark =>
    have hstate := markTerminal_state hmark
    exact decide_eq_true (hstate.symm.trans hcompleted)
  | startTool hguard | startToolAndEvent hguard =>
    exact absurd hcompleted (hopen (startTarget_open (guard_ok hguard).1))
  | @finishToolAndEvent checkpointID r state workspace c =>
    have htarget : r.target c state = .completed := hcompleted
    rw [FinishToolRequest.target] at htarget
    split at htarget
    · cases htarget
    · cases state with
      | none => cases htarget
      | some s => exact decide_eq_true (congrArg some htarget)
  | supersede | cancel => cases hcompleted
  | rejectStale | rejectCancel => exact hsame (rejectStale_frame l _).1
  | commitModelTurn _ _ hchecks =>
    refine absurd hcompleted (hopen ?_)
    exact hchecks.opened
  | recoverRun => exact absurd hcompleted (hopen (recoveryTarget_open l))
  | recoveryNoted => exact hsame (by rw [insertRecoveryCommand_eq])
  | @recovery checkpointID r elsewhere l₁ target attempt hrun howner hdecision hreaches =>
    rw [insertRecoveryCommand_eq] at hcompleted
    have htarget : target = .completed := (decide'_frame ..).1.symm.trans hcompleted
    subst htarget
    rcases decision_go hdecision with ⟨-, -, -, hresume, -⟩ | ⟨-, -, -, habsurd, -⟩ |
      ⟨-, -, -, habsurd, -⟩ | ⟨-, -, -, habsurd, -⟩
    · have hresumable := resumable_resumeCheckpointState l
      rw [← hresume] at hresumable
      cases hresumable
    · cases habsurd
    · cases habsurd
    · cases habsurd
  | _ => exact hsame rfl

/-- The steers of a run that has not completed wait, or are answered, or were discarded when the
run ended. -/
structure Attended (S : Control) : Prop where
  protocol : Protocol S
  recorded : Recorded S.rows
  nonblank : ∀ c ∈ S.rows.commands, c.action = .steer → trimSpace c.content ≠ []
  answered : ∀ c ∈ S.rows.commands, c.action = .steer →
    (c.pending = true ∧ S.rows.run.state ≠ .completed) ∨ Answered S.rows c ∨
      (S.rows.run.state.terminal = true ∧ S.rows.run.state ≠ .completed)

theorem Answered.follows (h : Answered l c) (hwrote : Wrote l now op l') (hfollows : c.Follows c') :
    Answered l' c' := by
  cases h with
  | appended happlied hmessage =>
    have hsettled : c.pending = false := by simp [Command.pending, happlied]
    refine .appended ((hfollows.settled hsettled).2.trans happlied) ?_
    rw [hfollows.content]
    exact mem_messages_extend hwrote hmessage
  | rejected hsettled e he hrejects =>
    obtain ⟨es, hes⟩ := events_extend hwrote
    refine .rejected (hfollows.settled hsettled).1 e (hes ▸ List.mem_append_left _ he) ?_
    rw [Event.rejects, hfollows.expectedRevision]
    exact hrejects

theorem answered_rejectStale (hopen : l.run.state.terminal = false)
    (hsettled : c'.pending = false) (hexpected : c'.expectedRevision = c.expectedRevision) :
    Answered (l.rejectStale c) c' := by
  have hclosed : ¬ l.run.state.terminal = true := by simp [hopen]
  refine .rejected hsettled ⟨l.run.nextSequence, .runError, l.run.state, l.run.revision + 1,
    l.run.attempt, l.revisionConflict c⟩ ?_ ⟨rfl, l.run.revision, by rw [hexpected]; rfl⟩
  rw [rejectStale, if_neg hclosed]
  exact List.mem_append_right _ (List.mem_singleton.mpr rfl)

/-- A steer that waited before a step is attended to after it. -/
theorem answered_of_pending {a : ControlAct} {act : Act} (h : Attended S)
    (hact : S.act? a = some act) (hattends : attends S a = true) {id : ℕ}
    (hc : S.rows.command? id = some c) (hsteer : c.action = .steer) (hpending : c.pending = true)
    (hstate : S.rows.run.state ≠ .completed) (hwrote : Wrote S.rows act.now act.op l')
    (hc' : l'.command? id = some c') (hfollows : c.Follows c') :
    (c'.pending = true ∧ l'.run.state ≠ .completed) ∨ Answered l' c' ∨
      (l'.run.state.terminal = true ∧ l'.run.state ≠ .completed) := by
  have hmem : c ∈ S.rows.commands := Table.mem_of_lookup hc
  have hid : c.id = id := Table.lookup_key hc
  -- The step does not complete the run, since the steer is pending.
  have hopen : l'.run.state ≠ .completed := by
    intro hcompleted
    have hcompletes := completes_of_wrote hwrote hstate hcompleted
    simp only [attends, hact, Option.all_some, hcompletes, Bool.not_true, Bool.false_or,
      Bool.and_eq_true, List.all_eq_true] at hattends
    have := hattends.2 c hmem
    simp [hsteer, hpending] at this
  cases hsettled : c'.pending with
  | true => exact .inl ⟨rfl, hopen⟩
  | false =>
    refine .inr ?_
    generalize hop : act.op = op at hwrote
    cases settled_by hwrote hc hpending hc' hsettled with
    | acknowledged _ happlied =>
      obtain ⟨now, op⟩ := act
      cases hop
      refine .inl (.appended happlied ?_)
      rcases (acknowledged_action h.protocol hact (hid ▸ hc)).2 hsteer with hsteered | hblank
      · rw [hfollows.content]
        exact mem_messages_extend hwrote (h.recorded _ (Table.mem_of_lookup hsteered))
      · exact absurd hblank (h.nonblank c hmem hsteer)
    | rejected _ _ happlied =>
      rw [(rejectStale_frame ..).1] at hopen ⊢
      cases hterminal : S.rows.run.state.terminal with
      | true => exact .inr ⟨rfl, hopen⟩
      | false => exact .inl (answered_rejectStale hterminal hsettled hfollows.expectedRevision)
    | canceled hcancel => rw [hsteer] at hcancel; cases hcancel
    | discarded _ hclosed => exact .inr ⟨hclosed, hopen⟩
    | uncalled hcalled => rw [← hop, act_called hact] at hcalled; cases hcalled

/-- **The step lemma of the steers.** -/
theorem attended_step (S : Control) (a : ControlAct) (hattends : attends S a = true)
    (h : Attended S) : Attended (S.step a) := by
  have hprotocol := protocol_step S a h.protocol
  cases hact : S.act? a with
  | none =>
    have hrows : (S.step a).rows = S.rows := by rw [control_rows, hact]; rfl
    exact ⟨hprotocol, hrows ▸ h.recorded, hrows ▸ h.nonblank, hrows ▸ h.answered⟩
  | some act =>
    have hrows : (S.step a).rows = Harness.step S.rows act := by rw [control_rows, hact]; rfl
    obtain ⟨hids, more, hevolve⟩ := commands_of_step h.protocol.ids act
    have hwrote := wrote_step S.rows act
    -- Where the steers after the step come from.
    have hsteers : ∀ c' ∈ (Harness.step S.rows act).commands, c'.action = .steer →
        (∃ c ∈ S.rows.commands, c.action = .steer ∧ c.Follows c' ∧
          (Harness.step S.rows act).command? c.id = some c') ∨
        (c'.pending = true ∧ trimSpace c'.content ≠ [] ∧
          (Harness.step S.rows act).run.state ≠ .completed) := by
      intro c' hc' hsteer
      cases happly : act.op.apply S.rows act.now with
      | error e =>
        rw [step_of_error happly] at hc' ⊢
        exact .inl ⟨c', hc', hsteer, c'.follows_refl, command?_of_mem h.protocol.ids hc'⟩
      | ok l' =>
        rw [step_of_ok happly] at hc' hids hevolve ⊢
        cases comes_from happly hc' with
        | kept c hc hsame =>
          obtain ⟨d, hd, hfollows⟩ := command?_evolve hevolve
            (command?_of_mem h.protocol.ids hc)
          obtain rfl := eq_of_command? hids (hsame.id ▸ hd) hc'
          exact .inl ⟨c, hc, hsame.action ▸ hsteer, hfollows, hd⟩
        | enqueued r elsewhere hop hrow hopen hrun =>
          refine .inr ⟨by rw [hrow]; rfl, ?_, ?_⟩
          · have hblank : act.op.blankSteer = false := by
              simp only [attends, hact, Option.all_some, Bool.and_eq_true,
                Bool.not_eq_true'] at hattends
              exact hattends.1
            rw [hrow] at hsteer ⊢
            have haction : r.action = .steer := hsteer
            show trimSpace r.content ≠ []
            rcases hop with ⟨hop, -⟩ | ⟨hop, -⟩ <;>
              simpa [hop, Op.blankSteer, haction] using hblank
          · rw [hrun]
            intro hcompleted
            rw [hcompleted] at hopen
            cases hopen
        | receipt hnot => exact absurd hsteer hnot
    refine ⟨hprotocol, hrows ▸ recorded_of_wrote h.recorded hwrote, ?_, ?_⟩
    · rw [hrows]
      intro c' hc' hsteer
      rcases hsteers c' hc' hsteer with ⟨c, hc, haction, hfollows, -⟩ | ⟨-, hblank, -⟩
      · rw [hfollows.content]
        exact h.nonblank c hc haction
      · exact hblank
    · rw [hrows]
      intro c' hc' hsteer
      rcases hsteers c' hc' hsteer with ⟨c, hc, haction, hfollows, hfound⟩ | ⟨hpending, -, hopen⟩
      · rcases h.answered c hc haction with ⟨hpending, hstate⟩ | hanswered | ⟨hterminal, hstate⟩
        · exact answered_of_pending h hact hattends (command?_of_mem h.protocol.ids hc) haction
            hpending hstate hwrote hfound hfollows
        · exact .inr (.inl (hanswered.follows hwrote hfollows))
        · have hsame := state_of_terminal hwrote hterminal
          exact .inr (.inr ⟨hsame ▸ hterminal, hsame ▸ hstate⟩)
      · exact .inl ⟨hpending, hopen⟩

theorem attended_start (maxTotalTokens : Int64) (content : Text) :
    Attended (Control.start maxTotalTokens content) := by
  refine ⟨protocol_start maxTotalTokens content, ?_, ?_, ?_⟩ <;> intro x hx <;> cases hx

/-- **The steers of a completed run are answered** in every run that completes with no steer
pending. -/
theorem steers_answered (maxTotalTokens : Int64) (content : Text) (as : List ControlAct)
    (h : Along Control.step (fun S a => attends S a = true)
      (Control.start maxTotalTokens content) as) :
    SteersAnswered (run Control.step (Control.start maxTotalTokens content) as).rows := by
  have hattended := run_induction (fun S a hattends => attended_step S a hattends) h
    (attended_start maxTotalTokens content)
  intro hcompleted c hc hsteer
  rcases hattended.answered c hc hsteer with ⟨-, hstate⟩ | hanswered | ⟨-, hstate⟩
  · exact absurd hcompleted hstate
  · exact hanswered
  · exact absurd hcompleted hstate

/-- A run takes up a steer and completes; the steer comes before or after the last poll. -/
def lastTurn (early : Bool) : List ControlAct :=
  [.other ⟨0, .acquireLease 1 1 100⟩, .start 1 2,
    .other ⟨0, .appendEvent ⟨0, 0, .input, .runningModel, .other, 0, 2, 0⟩⟩,
    .other ⟨0, .enqueueSteer ⟨7, .steer, [104], 3⟩ false⟩] ++
  (if early then [.poll 1 0 10 false, .advance 1 0 0 false, .advance 1 0 0 false,
    .advance 1 0 0 false, .takeSteer 1 [], .advanceSteer 1 0 0 false, .advanceSteer 1 0 5 false,
    .advanceSteer 1 0 0 false] else []) ++
  [.other ⟨0, .appendEvent ⟨0, 0, .terminal, .completed, .terminal [], 0, 2, 0⟩⟩]

theorem steers_answered_lastTurn :
    SteersAnswered (run Control.step (Control.start 0 []) (lastTurn true)).rows :=
  steers_answered 0 [] (lastTurn true) (by decide)

/-- A steer that comes after the last poll is consumed by the terminal transition: no message of
the run has its content, and no event says that it is rejected. -/
theorem steer_discarded :
    ¬ SteersAnswered (run Control.step (Control.start 0 []) (lastTurn false)).rows := by
  intro h
  have hsteer : ∃ c ∈ (run Control.step (Control.start 0 []) (lastTurn false)).rows.commands,
      c.action = .steer ∧ c.applied = false := by decide
  obtain ⟨c, hc, haction, hnot⟩ := hsteer
  cases h (by decide) c hc haction with
  | appended happlied => rw [hnot] at happlied; cases happlied
  | rejected hsettled e he hrejects =>
    have hkinds : (run Control.step (Control.start 0 []) (lastTurn false)).rows.events.all
        (fun e => e.kind ≠ .runError) = true := by decide
    have := List.all_eq_true.mp hkinds e he
    simp [hrejects.1] at this

end GoNavi.Harness
