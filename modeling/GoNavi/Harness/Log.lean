import GoNavi.Harness.Operation
import GoNavi.Machine.Journal

/-! # The log of a run agrees with its state

`Logged` says what the events of a run have to do with its row: they are numbered without gaps,
their revisions never decrease, and the run is closed exactly if the last event is the
terminal one.  Every mutation preserves it (`logged_step`) but `FinishToolAndEvent` with a
terminal resulting state, which closes the run without a terminal event
(`finishTool_closes_unlogged`).  So it holds in every state of a ledger in which no tool is
finished that way (`log_agrees`). -/

namespace GoNavi.Harness

open Scan RunLedger Machine List

/-! ### What a mutation does to the log -/

/-- No command of the run can be claimed. -/
def Settled (l : RunLedger) : Prop := ∀ c ∈ l.commands, c.pending = false

/-- The changes of the log that a step makes: none, events of a run that stays open, or the
terminal event. -/
inductive LogStep (l l' : RunLedger) : Prop
  | quiet (hevents : l'.events = l.events) (hnext : l'.run.nextSequence = l.run.nextSequence)
      (hrevision : l.run.revision ≤ l'.run.revision)
      (hstate : l'.run.state = l.run.state ∨
        (l.run.state.terminal = false ∧ l'.run.state.terminal = false))
      (hsettled : l.run.state.terminal = true → Settled l → Settled l')
  | append (attempt : ℕ) (es : List (EventKind × RunState × Payload))
      (hopen : l.run.state.terminal = false)
      (hevents : l'.events = l.events ++ l.numbered attempt es)
      (hnext : l'.run.nextSequence = l.run.nextSequence + es.length)
      (hrevision : l'.run.revision = l.run.revision + 1)
      (hopen' : l'.run.state.terminal = false) (hkinds : ∀ e ∈ es, e.1 ≠ .terminal)
  | close (attempt : ℕ) (payload : Payload) (hopen : l.run.state.terminal = false)
      (hevents : l'.events =
        l.events ++ l.numbered attempt [(.terminal, l'.run.state, payload)])
      (hnext : l'.run.nextSequence = l.run.nextSequence + 1)
      (hrevision : l'.run.revision = l.run.revision + 1)
      (hclosed : l'.run.state.terminal = true) (hsettled : Settled l')

variable {l l' : RunLedger}

theorem LogStep.quietly (hopen : l.run.state.terminal = false) (hevents : l'.events = l.events)
    (hnext : l'.run.nextSequence = l.run.nextSequence)
    (hrevision : l.run.revision ≤ l'.run.revision) (hopen' : l'.run.state.terminal = false) :
    LogStep l l' :=
  .quiet hevents hnext hrevision (.inr ⟨hopen, hopen'⟩)
    fun h => absurd (hopen.symm.trans h) Bool.false_ne_true

/-- A step that leaves the row of the run and its events alone, and inserts no pending
command into a closed run. -/
theorem LogStep.still (hrun : l'.run = l.run) (hevents : l'.events = l.events)
    (hsettled : l.run.state.terminal = true → Settled l → Settled l') : LogStep l l' :=
  .quiet hevents (by rw [hrun]) (by rw [hrun]) (.inl (by rw [hrun])) hsettled

theorem canTransition_open {s t : RunState} (h : canTransition s t = true) :
    s.terminal = false := by
  by_contra hs
  rw [canTransition_terminal (by simpa using hs)] at h
  cases h

theorem startTarget_open (h : l.run.state.terminal = false) :
    l.startTarget.terminal = false := by
  rw [startTarget]
  split
  · rfl
  · exact h

theorem steerable_open {s : RunState} (h : steerable s = true) : s.terminal = false := by
  cases s <;> first | rfl | cases h

theorem recoveryTarget_open (l : RunLedger) : l.recoveryTarget.terminal = false := by
  rw [recoveryTarget]
  split <;> rfl

/-! ### Settling keeps commands settled -/

theorem settled_updateCommand (h : Settled l) {id : ℕ} {f : Command → Command}
    (hf : ∀ c, c.pending = false → (f c).pending = false) : Settled (l.updateCommand id f) := by
  intro c hc
  obtain ⟨d, hd, rfl⟩ := mem_map.mp hc
  split
  · exact hf d (h d hd)
  · exact h d hd

theorem settled_discard (l : RunLedger) : Settled l.discardPendingControlCommands := by
  intro c hc
  obtain ⟨d, hd, rfl⟩ := mem_map.mp hc
  split
  · simp [Command.pending]
  · rename_i hpending
    simpa using hpending

theorem settled_putCommand (h : Settled l) {c : Command} (hc : c.pending = false) :
    Settled (l.putCommand c) := by
  intro d hd
  rcases mem_append.mp hd with hd | hd
  · exact h d hd
  · rwa [mem_singleton.mp hd]

theorem settled_insertRecoveryCommand (h : Settled l) (now : ℕ) (r : RecoveryRequest) :
    Settled (l.insertRecoveryCommand now r) := by
  rw [insertRecoveryCommand]
  split
  · exact h
  · exact settled_putCommand h rfl

/-! ### Every mutation is a step of the log -/

theorem logStep_decide {l₁ : RunLedger} {now checkpointID : ℕ} {r : RecoveryRequest}
    {target : RunState} {attempt : ℕ} (hopen : l.run.state.terminal = false)
    (hdecision : l.decision r = .go l₁ target attempt) :
    LogStep l ((l₁.decide' checkpointID target attempt).insertRecoveryCommand now r) := by
  rw [decision_frame hdecision, decide']
  split
  · rename_i hclosed
    refine .close attempt (.terminal (bytes "user_aborted_recovery")) hopen ?_ ?_ ?_ ?_
      (settled_insertRecoveryCommand (settled_discard _) now r) <;>
      rw [insertRecoveryCommand_eq]
    exacts [rfl, rfl, rfl, hclosed]
  · rename_i hclosed
    rw [insertRecoveryCommand_eq]
    exact .append attempt [(.checkpoint, target, .checkpoint l.run.nextSequence)] hopen rfl rfl
      rfl (Bool.eq_false_iff.mpr hclosed) (by simp)

/-- `FinishToolAndEvent` records a started call with a terminal state of the run. -/
def closesByTool (l : RunLedger) (a : Act) : Bool :=
  match a.op with
  | .finishToolAndEvent _ r state _ =>
    l.verifyOwner a.now r.ownerToken &&
      (l.finishedCall? r.callID r.attempt).any fun c =>
        c.status = .started ∧ l.reaches (r.target c state) ∧ (r.target c state).terminal
  | _ => false

theorem numbered_kinds {es : List (EventKind × RunState × Payload)} (h : ∀ e ∈ es, e.1 ≠ .terminal)
    (attempt : ℕ) :
    ∀ e ∈ l.numbered attempt es, e.kind ≠ .terminal := by
  intro e he
  obtain ⟨i, hi, rfl⟩ := mem_mapIdx.mp he
  exact h _ (getElem_mem hi)

theorem logStep_rejectStale (l : RunLedger) (c : Command) : LogStep l (l.rejectStale c) := by
  rw [rejectStale]
  split
  · exact .still rfl rfl fun _ h => settled_updateCommand h fun d hd => by
      simp [Command.pending]
  · rename_i hopen
    have hopen : l.run.state.terminal = false := by simpa using hopen
    exact .append l.run.attempt [(.runError, l.run.state, l.revisionConflict c)] hopen rfl rfl rfl
      hopen (by simp)

theorem logStep_putTurn {r : CommitModelTurnRequest} (hopen : l.run.state.terminal = false)
    (htarget : r.target.terminal = false) (checkpointID : ℕ) (reservation : Option Reservation)
    (usage : Usage) :
    LogStep l (l.putTurn checkpointID r reservation usage) := by
  obtain ⟨hrevision, _, _, _, _, _, _, hnext, hevents⟩ := putTurn_frame l checkpointID r reservation
    usage
  refine .append _ _ hopen hevents hnext hrevision htarget fun e he => ?_
  rw [CommitModelTurnRequest.events] at he
  split at he
  · simp only [singleton_append, mem_cons, not_mem_nil, or_false] at he
    rcases he with rfl | rfl | rfl <;> nofun
  · rcases mem_pair.mp he with rfl | rfl <;> nofun

/-- **What a mutation does to the log of a run.** -/
theorem logStep_of_wrote {now : ℕ} {op : Op} (h : Wrote l now op l')
    (hop : closesByTool l ⟨now, op⟩ = false) : LogStep l l' := by
  cases h with
  | same => exact .still rfl rfl fun _ h => h
  | transitionRun htransition hopen hstate howner =>
    refine .quietly ?_ rfl rfl (Nat.le_succ _) hopen
    rw [hstate]
    exact canTransition_open htransition
  | appendEvent hguard hreaches hkind hopen =>
    exact .append _ _ (guard_ok hguard).1 rfl rfl rfl hopen (by simpa using hkind)
  | appendTerminal hguard hreaches hkind hclosed hmark =>
    rcases markTerminal_ok hmark with rfl | rfl
    all_goals
      exact .close _ _ (guard_ok hguard).1 rfl rfl rfl hclosed (settled_discard _)
  | saveCheckpoint hguard =>
    exact .quietly (guard_ok hguard).1 rfl rfl (Nat.le_succ _) (guard_ok hguard).1
  | appendMessage => exact .still rfl rfl fun _ h => h
  | addActiveDuration hguard =>
    exact .quietly (guard_ok hguard).1 rfl rfl (Nat.le_succ _) (guard_ok hguard).1
  | startTool hguard hnew =>
    exact .quietly (guard_ok hguard).1 rfl rfl (Nat.le_succ _)
      (startTarget_open (guard_ok hguard).1)
  | finishTool hguard hcall hstarted =>
    exact .quietly (guard_ok hguard).1 rfl rfl (Nat.le_succ _) (guard_ok hguard).1
  | startToolAndEvent hguard hnew =>
    exact .append _ _ (guard_ok hguard).1 rfl rfl rfl (startTarget_open (guard_ok hguard).1)
      (by simp)
  | @finishToolAndEvent _ r state _ c hguard hcall hstarted hreaches =>
    refine .append _ _ (guard_ok hguard).1 rfl rfl rfl ?_ (by simp)
    show (r.target c state).terminal = false
    simpa [closesByTool, (guard_ok hguard).2.1, hcall, hstarted, hreaches] using hop
  | supersede hnew hsteerable hguard hintents =>
    refine .append _ _ (guard_ok hguard).1 rfl rfl rfl rfl fun e he => ?_
    rcases mem_append.mp he with he | he
    · obtain ⟨i, -, rfl⟩ := mem_map.mp he
      nofun
    · rcases mem_pair.mp he with rfl | rfl <;> nofun
  | createApproval => exact .still rfl rfl fun _ h => h
  | decideApproval => exact .still rfl rfl fun _ h => h
  | enqueueCommand hnew hrevision hopen =>
    exact .still rfl rfl fun hclosed => absurd (hopen.symm.trans hclosed) Bool.false_ne_true
  | enqueueSteer hsteer hnew hsteerable =>
    exact .still rfl rfl fun hclosed =>
      absurd ((steerable_open hsteerable).symm.trans hclosed) Bool.false_ne_true
  | dequeueCommands =>
    refine .still rfl rfl fun _ h c hc => ?_
    obtain ⟨d, hd, rfl⟩ := mem_map.mp hc
    split
    · simp [Command.pending]
    · exact h d hd
  | claimCommands htoken =>
    refine .still rfl rfl fun _ h c hc => ?_
    obtain ⟨d, hd, rfl⟩ := mem_map.mp hc
    split
    · exact h d hd
    · exact h d hd
  | ackCommand =>
    exact .still rfl rfl fun _ h => settled_updateCommand h fun _ _ => by simp [Command.pending]
  | tombstoneCommand =>
    exact .still rfl rfl fun _ h => settled_updateCommand h fun _ _ => by simp [Command.pending]
  | rejectStale => exact logStep_rejectStale l _
  | rejectCancel => exact logStep_rejectStale l _
  | cancelAgain =>
    exact .still rfl rfl fun _ h => settled_updateCommand h fun _ _ => by simp [Command.pending]
  | cancel hload hcancel hcurrent htransition =>
    exact .append _ _ (canTransition_open htransition) rfl rfl rfl rfl (by simp)
  | reserveTokens hamount hnew hguard hbudget =>
    exact .quietly (guard_ok hguard).1 rfl rfl (Nat.le_succ _) (guard_ok hguard).1
  | reconcileTokens husage hreservation hheld hguard hbudget =>
    exact .quietly (guard_ok hguard).1 rfl rfl (Nat.le_succ _) (guard_ok hguard).1
  | commitModelTurn hreservation huncommitted hchecks =>
    exact logStep_putTurn (guard_ok hchecks.guard).1 hchecks.opened _ _ _
  | acquireLease hopen hfree => exact .quietly hopen rfl rfl (Nat.le_succ _) hopen
  | renewLease hlease howner hopen => exact .quietly hopen rfl rfl le_rfl hopen
  | releaseLease =>
    exact .quiet rfl rfl le_rfl (.inl rfl) fun _ h => h
  | recoverRun hstate hfree =>
    exact .append _ _ (executing_open hstate) rfl rfl rfl (recoveryTarget_open l) (by simp)
  | recoveryNoted =>
    exact .still (by simp) (by simp) fun _ h => settled_insertRecoveryCommand h _ _
  | recovery hopen howner hdecision hreaches => exact logStep_decide hopen hdecision

/-! ### The invariant -/

/-- The log of a run agrees with its row. -/
structure Logged (l : RunLedger) : Prop where
  /-- The events are numbered `1..nextSequence-1` without gaps. -/
  numbered : Journal.Numbered Event.sequence l.events
  next : l.run.nextSequence = l.events.length + 1
  /-- The revisions of the events never decrease and never exceed that of the run. -/
  stamped : Journal.Stamped Event.runRevision l.run.revision l.events
  /-- The run is closed exactly if its last event is the terminal event with its state. -/
  closed : l.run.state.terminal = true ↔ ∃ e, l.events.getLast? = some e ∧ e.kind = .terminal ∧
    e.resultingState = l.run.state
  once : (l.events.filter fun e => e.kind = .terminal).length ≤ 1
  settled : l.run.state.terminal = true → Settled l

/-- A run that is open has no terminal event. -/
def Open (l : RunLedger) : Prop :=
  l.run.state.terminal = false → ∀ e ∈ l.events, e.kind ≠ .terminal

theorem filter_terminal_eq_nil {es : List Event} (h : ∀ e ∈ es, e.kind ≠ .terminal) :
    (es.filter fun e => e.kind = .terminal) = [] := by
  rw [filter_eq_nil_iff]
  exact fun e he => by simpa using h e he

theorem logged_create (budget : Int64) (content : Text) :
    Logged (RunLedger.create budget content) ∧ Open (RunLedger.create budget content) := by
  refine ⟨⟨rfl, rfl, Journal.stamped_nil, ⟨nofun, ?_⟩, Nat.zero_le 1, nofun⟩,
    fun _ e he => absurd he not_mem_nil⟩
  rintro ⟨e, he, -⟩
  cases he

/-- The numbers and revisions of the events of one transaction. -/
theorem numbered_append {attempt : ℕ} {es : List (EventKind × RunState × Payload)} (hl : Logged l)
    (hevents : l'.events = l.events ++ l.numbered attempt es)
    (hnext : l'.run.nextSequence = l.run.nextSequence + es.length)
    (hrevision : l'.run.revision = l.run.revision + 1) :
    Journal.Numbered Event.sequence l'.events ∧
      l'.run.nextSequence = l'.events.length + 1 ∧
      Journal.Stamped Event.runRevision l'.run.revision l'.events := by
  have hlength : (l.numbered attempt es).length = es.length := length_mapIdx
  refine ⟨?_, ?_, ?_⟩
  · rw [hevents]
    refine hl.numbered.append ?_
    rw [hlength]
    apply ext_getElem
    · simp [numbered]
    · intro i hi hi'
      simp only [numbered, getElem_map, getElem_mapIdx, getElem_range', hl.next]
      omega
  · rw [hnext, hevents, length_append, hlength, hl.next]
    omega
  · rw [hevents]
    refine hl.stamped.append (by omega) fun f hf => ?_
    obtain ⟨i, hi, rfl⟩ := mem_mapIdx.mp hf
    exact hrevision.symm

/-- **The step lemma of the log.** -/
theorem logged_of_logStep (h : LogStep l l') (hl : Logged l ∧ Open l) :
    Logged l' ∧ Open l' := by
  obtain ⟨hl, ho⟩ := hl
  cases h with
  | quiet hevents hnext hrevision hstate hsettled =>
    refine ⟨⟨hevents ▸ hl.numbered, by rw [hnext, hevents, hl.next],
      hevents ▸ hl.stamped.mono hrevision, ?_, hevents ▸ hl.once, ?_⟩, ?_⟩
    · rcases hstate with hstate | ⟨hopen, hopen'⟩
      · rw [hstate, hevents]
        exact hl.closed
      · rw [hopen', hevents]
        refine ⟨nofun, ?_⟩
        rintro ⟨e, he, hkind, -⟩
        exact absurd hkind (ho hopen e (mem_of_getLast? he))
    · intro hclosed
      rcases hstate with hstate | ⟨-, hopen'⟩
      · rw [hstate] at hclosed
        exact hsettled hclosed (hl.settled hclosed)
      · rw [hopen'] at hclosed
        cases hclosed
    · intro hopen'
      rw [hevents]
      rcases hstate with hstate | ⟨hopen, -⟩
      · exact ho (hstate ▸ hopen')
      · exact ho hopen
  | append attempt es hopen hevents hnext hrevision hopen' hkinds =>
    obtain ⟨hnumbered, hnext', hstamped⟩ := numbered_append hl hevents hnext hrevision
    have hno : ∀ e ∈ l'.events, e.kind ≠ .terminal := by
      intro e he
      rw [hevents] at he
      rcases mem_append.mp he with he | he
      · exact ho hopen e he
      · exact numbered_kinds hkinds attempt e he
    refine ⟨⟨hnumbered, hnext', hstamped, ?_, ?_, ?_⟩, fun _ => hno⟩
    · rw [hopen']
      refine ⟨nofun, ?_⟩
      rintro ⟨e, he, hkind, -⟩
      exact absurd hkind (hno e (mem_of_getLast? he))
    · rw [filter_terminal_eq_nil hno]
      exact Nat.zero_le 1
    · rw [hopen']
      nofun
  | close attempt payload hopen hevents hnext hrevision hclosed hsettled =>
    obtain ⟨hnumbered, hnext', hstamped⟩ := numbered_append hl hevents hnext hrevision
    refine ⟨⟨hnumbered, hnext', hstamped, ?_, ?_, fun _ => hsettled⟩, fun h => ?_⟩
    · refine ⟨fun _ => ?_, fun _ => hclosed⟩
      refine ⟨⟨l.run.nextSequence, .terminal, l'.run.state, l.run.revision + 1, attempt, payload⟩,
        ?_, rfl, rfl⟩
      rw [hevents]
      exact getLast?_concat
    · rw [hevents, filter_append, filter_terminal_eq_nil (ho hopen), nil_append]
      exact (length_filter_le _ _).trans le_rfl
    · rw [hclosed] at h
      cases h

/-! ### The whole ledger -/

/-- A closed run keeps its events, its state and its token counters. -/
def Frozen (l l' : RunLedger) : Prop :=
  l.run.state.terminal = true → l'.events = l.events ∧ l'.run.state = l.run.state ∧
    l'.run.promptTokens = l.run.promptTokens ∧
    l'.run.completionTokens = l.run.completionTokens ∧
    l'.run.totalTokens = l.run.totalTokens ∧ l'.run.reservedTokens = l.run.reservedTokens

theorem frozen_of_open (h : l.run.state.terminal = false) : Frozen l l' :=
  fun hclosed => absurd (h.symm.trans hclosed) Bool.false_ne_true

theorem frozen_of_wrote {now : ℕ} {op : Op} (h : Wrote l now op l') :
    Frozen l l' := by
  cases h with
  | transitionRun htransition hopen hstate howner =>
    exact frozen_of_open (hstate ▸ canTransition_open htransition)
  | rejectStale | rejectCancel =>
    rw [RunLedger.rejectStale]
    split
    · exact fun _ => ⟨rfl, rfl, rfl, rfl, rfl, rfl⟩
    · rename_i hopen
      exact frozen_of_open (by simpa using hopen)
  | cancel hload hcancel hcurrent htransition =>
    exact frozen_of_open (canTransition_open htransition)
  | recoverRun hstate hfree => exact frozen_of_open (executing_open hstate)
  | recoveryNoted => exact fun _ => ⟨by simp, by simp, by simp, by simp, by simp, by simp⟩
  | recovery hopen => exact frozen_of_open hopen
  | acquireLease hopen => exact frozen_of_open hopen
  | appendEvent hguard | appendTerminal hguard | saveCheckpoint hguard | addActiveDuration hguard
  | startTool hguard | finishTool hguard | startToolAndEvent hguard | finishToolAndEvent hguard
  | supersede _ _ hguard | reserveTokens _ _ hguard | reconcileTokens _ _ _ hguard =>
    exact frozen_of_open (guard_ok hguard).1
  | commitModelTurn _ _ hchecks => exact frozen_of_open (guard_ok hchecks.guard).1
  | _ => exact fun _ => ⟨rfl, rfl, rfl, rfl, rfl, rfl⟩

/-- **The log of a run agrees with its state** in every state of a ledger that is reached
without closing a run by a tool, and a run that is closed never changes again. -/
theorem log_agrees (ops : List LedgerOp)
    (hops : Along perform (Each fun l a => closesByTool l a = false) Ledger.empty ops) :
    (∀ runID l, run perform Ledger.empty ops runID = some l → Logged l) ∧
      Throughout perform (EachRun Frozen) Ledger.empty ops := by
  have hstep : ∀ l a, closesByTool l a = false → Logged l ∧ Open l →
      Logged (step l a) ∧ Open (step l a) := fun l a ha hl =>
    logged_of_logStep (logStep_of_wrote (wrote_step l a) ha) hl
  refine ⟨fun runID l hl => (ledger_induction logged_create hstep hops hl).1, ?_⟩
  exact ledger_throughout logged_create hstep (fun l _ => ⟨rfl, rfl, rfl, rfl, rfl, rfl⟩)
    (fun l a _ _ => frozen_of_wrote (wrote_step l a)) hops

/-- A model run that starts a tool and finishes it with the state `completed`. -/
def closingRun : List LedgerOp :=
  [.createRun 1 0 [], .mutate 1 ⟨0, .transitionRun 0 0 .queued .runningModel⟩,
    .mutate 1 ⟨0, .startToolAndEvent 1 ⟨1, 1, 1, .readOnly, 1, 0, 0, none⟩⟩,
    .mutate 1 ⟨0, .enqueueCommand ⟨1, .cancel, [], 3⟩ false⟩,
    .mutate 1 ⟨0, .finishToolAndEvent 2 ⟨1, 1, .completed, [], false, 0, 0⟩ (some .completed)
      none⟩]

/-- The run is closed, but its last event is not a terminal one, and its command can still be
claimed. -/
theorem finishTool_closes_unlogged : ∃ l, run perform Ledger.empty closingRun 1 = some l ∧
    ¬ Logged l ∧ l.run.state.terminal = true ∧ (∀ e ∈ l.events, e.kind ≠ .terminal) ∧
    ∃ c ∈ l.commands, c.claimable 0 1 = true := by
  have hclosed : ∃ l, run perform Ledger.empty closingRun 1 = some l ∧
      l.run.state.terminal = true ∧ (∀ e ∈ l.events, e.kind ≠ .terminal) ∧
      ∃ c ∈ l.commands, c.claimable 0 1 = true := ⟨_, rfl, by decide⟩
  obtain ⟨l, hl, hterminal, hkinds, hclaim⟩ := hclosed
  refine ⟨l, hl, fun hlogged => ?_, hterminal, hkinds, hclaim⟩
  obtain ⟨e, he, hkind, -⟩ := hlogged.closed.mp hterminal
  exact hkinds e (mem_of_getLast? he) hkind

/-- A run that is canceled by a control command. -/
def canceledRun : List LedgerOp :=
  [.createRun 1 0 [], .mutate 1 ⟨0, .transitionRun 0 0 .queued .runningModel⟩,
    .mutate 1 ⟨0, .enqueueCommand ⟨1, .cancel, [], 2⟩ false⟩,
    .mutate 1 ⟨0, .claimCommands 7 0 100⟩, .mutate 1 ⟨0, .applyCancelControlCommand 7 1⟩,
    .mutate 1 ⟨0, .appendEvent ⟨0, 0, .terminal, .canceled, .terminal [], 0, 0, 0⟩⟩]

theorem log_agrees_canceled : ∃ l, run perform Ledger.empty canceledRun 1 = some l ∧
    l.run.state = .canceled ∧ Logged l := by
  refine ⟨_, rfl, by decide, (log_agrees canceledRun ?_).1 1 _ rfl⟩
  exact ⟨trivial, fun _ _ => rfl, fun _ _ => rfl, fun _ _ => rfl, fun _ _ => rfl, fun _ _ => rfl,
    trivial⟩

end GoNavi.Harness
