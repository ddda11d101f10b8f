import GoNavi.Harness.Rows
import GoNavi.Harness.Log

/-! # How commands are settled

A command that is pending before a mutation and settled after it was acknowledged, rejected as
stale, applied as a cancel or discarded by a terminal transition (`settled_by`), but for the
mutations that have no callers.  The message of a steer stands in the transcript if its request
is recorded (`Recorded`). -/

namespace GoNavi.Harness

open Scan RunLedger List Table

variable {l l' : RunLedger} {now id : ℕ} {op : Op} {c c' : Command}

/-! ### Commands after a mutation -/

theorem step_of_ok {act : Act} (h : act.op.apply l act.now = .ok l') :
    Harness.step l act = l' := by
  simp only [Harness.step, h]

theorem step_of_error {act : Act} {e : Err} (h : act.op.apply l act.now = .error e) :
    Harness.step l act = l := by
  simp only [Harness.step, h]

variable {more : List Command}

theorem command?_append (h : l.command? id = some c)
    (hcommands : l'.commands = l.commands ++ more) : l'.command? id = some c := by
  rw [command?] at h ⊢
  rw [hcommands]
  exact lookup_append_of_some h more

variable {f : Command → Command}

theorem command?_map (l' : RunLedger) (h : l.command? id = some c)
    (hcommands : l'.commands = l.commands.map f) (hf : ∀ c, (f c).id = c.id) :
    l'.command? id = some (f c) := by
  rw [command?] at h ⊢
  rw [hcommands, lookup_map hf, h]
  rfl

theorem command?_update (l' : RunLedger) {k : ℕ} (h : l.command? id = some c)
    (hcommands : l'.commands = update Command.id k f l.commands) (hf : ∀ c, (f c).id = c.id) :
    l'.command? id = some (if c.id = k then f c else c) :=
  command?_map l' (f := fun c => if c.id = k then f c else c) h hcommands fun c =>
    key_update hf c

theorem command?_of_mem (hnodup : (l.commands.map Command.id).Nodup) (hc : c ∈ l.commands) :
    l.command? c.id = some c := by
  cases hfound : l.command? c.id with
  | none => exact absurd rfl (lookup_eq_none.mp hfound c hc)
  | some d => rw [eq_of_command? hnodup hfound hc]

theorem command?_evolve (hevolve : CommandsEvolve l l' more) (h : l.command? id = some c) :
    ∃ c', l'.command? id = some c' ∧ c.Follows c' := by
  obtain ⟨f, hf, hfollows⟩ := hevolve
  refine ⟨f c, ?_, hfollows c (mem_of_lookup h)⟩
  rw [command?] at h ⊢
  have hmap : lookup Command.id id (l.commands.map f) = some (f c) := by
    -- The change is looked at on the commands that are there.
    obtain ⟨hid, before, after, hrows, hbefore⟩ := find?_eq_some_iff_append.mp h
    have hmem : c ∈ l.commands := mem_of_lookup h
    refine find?_eq_some_iff_append.mpr
      ⟨by simpa [(hfollows c hmem).id] using hid, before.map f, after.map f, by simp [hrows], ?_⟩
    intro a ha
    obtain ⟨b, hb, rfl⟩ := mem_map.mp ha
    have hbmem : b ∈ l.commands := by
      rw [hrows]
      exact mem_append_left _ hb
    simpa [(hfollows b hbmem).id] using hbefore b hb
  rw [hf]
  exact lookup_append_of_some hmap more

/-- Two rows of one command. -/
structure Command.Same (c c' : Command) : Prop where
  id : c'.id = c.id
  action : c'.action = c.action
  content : c'.content = c.content
  expectedRevision : c'.expectedRevision = c.expectedRevision

/-- Where a command comes from: it was there before, it is enqueued, or it is the receipt of a
recovery action. -/
inductive ComesFrom (l : RunLedger) (now : ℕ) (op : Op) (l' : RunLedger) (c' : Command) : Prop
  | kept (c : Command) (hc : c ∈ l.commands) (hsame : c.Same c')
  | enqueued (r : EnqueueRequest) (elsewhere : Bool)
      (hop : op = .enqueueCommand r elsewhere ∧ r.expectedRevision = l.run.revision ∨
        op = .enqueueSteer r elsewhere ∧ r.action = .steer)
      (hrow : c' = r.row now) (hopen : l.run.state.terminal = false) (hrun : l'.run = l.run)
  | receipt (hsteer : c'.action ≠ .steer) (hcancel : c'.action ≠ .cancel)

variable {checkpointID : ℕ} {r : RecoveryRequest}

theorem recovery_action {elsewhere : Bool}
    (h : l.applyRecoveryAction now checkpointID r elsewhere = .ok l') :
    r.action ≠ .steer ∧ r.action ≠ .cancel := by
  rw [applyRecoveryAction] at h
  split at h
  · cases h
  · rename_i haction
    constructor <;> intro heq <;> simp [heq] at haction

theorem comesFrom_receipt {m : RunLedger} (haction : r.action ≠ .steer ∧ r.action ≠ .cancel)
    (hm : m.commands = l.commands.map f) (hf : ∀ c : Command, c.Same (f c)) {c' : Command}
    (hc' : c' ∈ (m.insertRecoveryCommand now r).commands) : ComesFrom l now op l' c' := by
  rw [insertRecoveryCommand_eq, hm] at hc'
  rcases mem_append.mp hc' with hc' | hc'
  · obtain ⟨c, hc, rfl⟩ := mem_map.mp hc'
    exact .kept c hc (hf c)
  · rw [RecoveryRequest.row] at hc'
    split_ifs at hc'
    · cases hc'
    · obtain rfl := mem_singleton.mp hc'
      exact .receipt haction.1 haction.2

/-- **Every command was enqueued**, or is a receipt. -/
theorem comes_from (h : op.apply l now = .ok l') {c' : Command} (hc' : c' ∈ l'.commands) :
    ComesFrom l now op l' c' := by
  have hmap : ∀ f : Command → Command, l'.commands = l.commands.map f →
      (∀ c : Command, c.Same (f c)) → ComesFrom l now op l' c' := by
    intro f hcommands hf
    rw [hcommands] at hc'
    obtain ⟨c, hc, rfl⟩ := mem_map.mp hc'
    exact .kept c hc (hf c)
  have hsame : l'.commands = l.commands → ComesFrom l now op l' c' := by
    intro hcommands
    rw [hcommands] at hc'
    exact .kept c' hc' ⟨rfl, rfl, rfl, rfl⟩
  have hwrote := wrote_of_apply h
  cases hwrote with
  | appendTerminal hguard hreaches hkind hclosed hmark =>
    -- What is marked and discarded keeps what was asked.
    rcases markTerminal_ok hmark with rfl | rfl
    · exact hmap _ rfl fun c => by split <;> exact ⟨rfl, rfl, rfl, rfl⟩
    · refine hmap _ (map_map ..) fun c => ?_
      simp only [Function.comp_apply]
      split <;> split <;> exact ⟨rfl, rfl, rfl, rfl⟩
  | @enqueueCommand r elsewhere hnew hrevision hopen =>
    rcases mem_append.mp hc' with hc' | hc'
    · exact .kept c' hc' ⟨rfl, rfl, rfl, rfl⟩
    · exact .enqueued r elsewhere (.inl ⟨rfl, hrevision⟩) (mem_singleton.mp hc') hopen rfl
  | @enqueueSteer r elsewhere hsteer hnew hsteerable =>
    rcases mem_append.mp hc' with hc' | hc'
    · exact .kept c' hc' ⟨rfl, rfl, rfl, rfl⟩
    · exact .enqueued r elsewhere (.inr ⟨rfl, hsteer⟩) (mem_singleton.mp hc')
        (steerable_open hsteerable) rfl
  | dequeueCommands | claimCommands | ackCommand | tombstoneCommand | cancelAgain | cancel =>
    exact hmap _ rfl fun c => by split <;> exact ⟨rfl, rfl, rfl, rfl⟩
  | rejectStale | rejectCancel =>
    exact hmap _ (rejectStale_frame l _).2.2.2.2.1 fun c => by split <;> exact ⟨rfl, rfl, rfl, rfl⟩
  | commitModelTurn => exact hsame (putTurn_frame ..).2.2.2.1
  | recoveryNoted =>
    exact comesFrom_receipt (recovery_action h) (map_id _).symm
      (fun _ => ⟨rfl, rfl, rfl, rfl⟩) hc'
  | @recovery checkpointID r elsewhere l₁ target attempt hopen howner hdecision hreaches =>
    obtain ⟨f, hf, hkeep⟩ : ∃ f : Command → Command,
        (l₁.decide' checkpointID target attempt).commands = l.commands.map f ∧
          ∀ c : Command, c.Same (f c) := by
      rw [decision_frame hdecision, decide']
      split
      · exact ⟨_, rfl, fun c => by split <;> exact ⟨rfl, rfl, rfl, rfl⟩⟩
      · exact ⟨_, (map_id _).symm, fun _ => ⟨rfl, rfl, rfl, rfl⟩⟩
    exact comesFrom_receipt (recovery_action h) hf hkeep hc'
  | _ => exact hsame rfl

/-! ### Settling -/

/-- The mutations that have no callers. -/
def Op.uncalled : Op → Bool
  | .dequeueCommands .. | .tombstoneCommand .. => true
  | .appendEvent r => r.appliedControlCommandID ≠ 0
  | _ => false

/-- The ways in which the command `c` is settled; `c'` is what becomes of it. -/
inductive SettledBy (l : RunLedger) (now : ℕ) (c : Command) : Op → RunLedger → Command → Prop
  | acknowledged {token : ℕ} {l' : RunLedger} {c' : Command}
      (hclaim : c.claimedBy now token = true) (happlied : c'.applied = true)
      (hstate : l'.run.state = l.run.state) : SettledBy l now c (.ackCommand token c.id) l' c'
  | rejected {op : Op} {token : ℕ} {c' : Command}
      (hop : op = .rejectStaleControlCommand token c.id ∧ l.stale c = true ∨
        op = .applyCancelControlCommand token c.id ∧ c.action = .cancel ∧
          (l.stale c = true ∨ l.run.state.terminal = true))
      (hload : l.loadClaimed now token c.id = .ok (c, false)) (happlied : c'.applied = false) :
      SettledBy l now c op (l.rejectStale c) c'
  | canceled {token : ℕ} {l' : RunLedger} {c' : Command} (hcancel : c.action = .cancel)
      (hcurrent : l.stale c = false) (hstate : l'.run.state = .canceling)
      (happlied : c'.applied = true) :
      SettledBy l now c (.applyCancelControlCommand token c.id) l' c'
  | discarded {op : Op} {l' : RunLedger} {c' : Command} (hopen : l.run.state.terminal = false)
      (hclosed : l'.run.state.terminal = true) (happlied : c'.applied = false) :
      SettledBy l now c op l' c'
  | uncalled {op : Op} {l' : RunLedger} {c' : Command} (hop : op.uncalled = true) :
      SettledBy l now c op l' c'

theorem pending_applied (h : c.pending = true) : c.applied = false := by
  rw [Command.pending] at h
  cases hc : c.applied with
  | false => rfl
  | true => simp [hc] at h

theorem not_settled_of_same (hpending : c.pending = true) (h : l'.command? id = some c)
    (hc' : l'.command? id = some c') (hsettled : c'.pending = false) : False := by
  rw [h] at hc'
  cases hc'
  rw [hpending] at hsettled
  cases hsettled

/-- Where one command is updated, no other is settled. -/
theorem settled_update {d : Command} {k : ℕ} {f : Command → Command}
    (hc : l.command? id = some c) (hpending : c.pending = true) (hc' : l'.command? id = some c')
    (hsettled : c'.pending = false) (hd : l.command? k = some d)
    (hcommands : l'.commands = update Command.id k f l.commands) (hf : ∀ c, (f c).id = c.id) :
    d = c ∧ k = c.id ∧ c' = f c := by
  have hupdate := command?_update l' hc hcommands hf
  have hid : c.id = id := lookup_key hc
  by_cases hk : c.id = k
  · rw [hupdate, if_pos hk] at hc'
    rw [← hid, hk, hd] at hc
    exact ⟨Option.some.inj hc, hk.symm, (Option.some.inj hc').symm⟩
  · rw [if_neg hk] at hupdate
    exact (not_settled_of_same hpending hupdate hc' hsettled).elim

/-- What the discarding of the pending commands makes of a command. -/
theorem command?_discard {m : RunLedger} (h : m.command? id = some c) (hpending : c.pending = true)
    (hc' : m.discardPendingControlCommands.command? id = some c') : c'.applied = false := by
  have hmap := command?_map m.discardPendingControlCommands h rfl (fun d => by
    split <;> rfl)
  rw [hmap] at hc'
  cases hc'
  rw [if_pos hpending]
  show c.applied = false
  exact pending_applied hpending

/-- **How a command is settled.** -/
theorem settled_by (h : Wrote l now op l') (hc : l.command? id = some c)
    (hpending : c.pending = true) (hc' : l'.command? id = some c') (hsettled : c'.pending = false) :
    SettledBy l now c op l' c' := by
  have hnot : c.applied = false := pending_applied hpending
  have hsame : ∀ {more : List Command}, l'.commands = l.commands ++ more → False := by
    intro more hcommands
    exact not_settled_of_same hpending (command?_append hc hcommands) hc' hsettled
  have hnil : l'.commands = l.commands → False := by
    intro hcommands
    exact hsame (hcommands.trans (append_nil _).symm)
  cases h with
  | appendTerminal hguard hreaches hkind hclosed hmark =>
    rename_i r m
    by_cases happlied : r.appliedControlCommandID = 0
    · rw [markTerminalControlCommandApplied, if_pos happlied] at hmark
      cases hmark
      exact .discarded (guard_ok hguard).1 hclosed (command?_discard (command?_append hc
        (append_nil _).symm) hpending hc')
    · exact .uncalled (by simpa [Op.uncalled] using happlied)
  | dequeueCommands | tombstoneCommand => exact .uncalled rfl
  | enqueueCommand | enqueueSteer => exact (hsame rfl).elim
  | claimCommands =>
    rename_i token limit ttl htoken
    have hmap := command?_map { l with commands := l.commands.map _ } (f := fun c : Command =>
      if c.id ∈ l.claimable now token limit ∧ c.claimable now token then
        { c with claim := some ⟨token, now + ttl⟩ } else c) hc rfl (fun d => by split <;> rfl)
    rw [hmap] at hc'
    cases hc'
    have : c.pending = false := by
      split at hsettled <;> exact hsettled
    rw [hpending] at this
    cases this
  | @ackCommand token k d hcommand _ hclaim =>
    obtain ⟨rfl, rfl, rfl⟩ := settled_update hc hpending hc' hsettled hcommand rfl (fun _ => rfl)
    exact .acknowledged hclaim rfl rfl
  | @rejectStale token k d hload hstale =>
    obtain ⟨hcommand, -, -⟩ := command?_of_loadClaimed hload
    obtain rfl : d.id = k := lookup_key hcommand
    obtain ⟨rfl, -, rfl⟩ := settled_update hc hpending hc' hsettled hcommand
      (rejectStale_frame l d).2.2.2.2.1 (fun _ => rfl)
    exact .rejected (.inl ⟨rfl, hstale⟩) hload hnot
  | @rejectCancel token k d hload hcancel hstale =>
    obtain ⟨hcommand, -, -⟩ := command?_of_loadClaimed hload
    obtain rfl : d.id = k := lookup_key hcommand
    obtain ⟨rfl, -, rfl⟩ := settled_update hc hpending hc' hsettled hcommand
      (rejectStale_frame l d).2.2.2.2.1 (fun _ => rfl)
    exact .rejected (.inr ⟨rfl, hcancel, hstale⟩) hload hnot
  | @cancelAgain token k d hload hcancel hcurrent hstate =>
    obtain ⟨hcommand, -, -⟩ := command?_of_loadClaimed hload
    obtain ⟨rfl, rfl, rfl⟩ := settled_update hc hpending hc' hsettled hcommand rfl (fun _ => rfl)
    exact .canceled hcancel hcurrent hstate rfl
  | @cancel token k d hload hcancel hcurrent htransition =>
    obtain ⟨hcommand, -, -⟩ := command?_of_loadClaimed hload
    obtain ⟨rfl, rfl, rfl⟩ := settled_update hc hpending hc' hsettled hcommand rfl (fun _ => rfl)
    exact .canceled hcancel hcurrent rfl rfl
  | commitModelTurn => exact (hnil (putTurn_frame ..).2.2.2.1).elim
  | recoveryNoted => exact (hsame (congrArg RunLedger.commands (insertRecoveryCommand_eq ..))).elim
  | @recovery checkpointID r elsewhere l₁ target attempt hopen howner hdecision hreaches =>
    have hcommands := congrArg RunLedger.commands
      (insertRecoveryCommand_eq (l₁.decide' checkpointID target attempt) now r)
    have hc₁ : l₁.command? id = some c := by
      rw [command?, decision_frame hdecision]
      exact hc
    by_cases hterminal : target.terminal = true
    · have hdecide : (l₁.decide' checkpointID target attempt) =
          (((l₁.expireApprovals fun _ => true).dropLease).commit target attempt
            [(.terminal, target, .terminal (bytes "user_aborted_recovery"))]
              ).discardPendingControlCommands := if_pos hterminal
      have hdiscard := command?_map (l₁.decide' checkpointID target attempt)
        (f := fun d : Command => if d.pending then { d with consumed := true, claim := none } else d)
        hc₁ (by rw [hdecide]; rfl) (fun d => by split <;> rfl)
      rw [command?_append hdiscard hcommands] at hc'
      cases hc'
      refine .discarded hopen ?_ ?_
      · rw [insertRecoveryCommand_eq, hdecide]
        exact hterminal
      · rw [if_pos hpending]
        exact hnot
    · have hdecide : (l₁.decide' checkpointID target attempt).commands = l₁.commands := by
        rw [decide', if_neg hterminal]
        rfl
      have hsame₁ : (l₁.decide' checkpointID target attempt).command? id = some c := by
        rw [command?, hdecide]
        exact hc₁
      exact (not_settled_of_same hpending (command?_append hsame₁ hcommands) hc' hsettled).elim
  | _ => exact (hnil rfl).elim

/-! ### What is recorded stays -/

theorem events_extend (h : Wrote l now op l') : ∃ es, l'.events = l.events ++ es := by
  by_cases hop : closesByTool l ⟨now, op⟩ = true
  · cases h with
    | finishToolAndEvent => exact ⟨_, rfl⟩
    | same => exact ⟨[], (append_nil _).symm⟩
    | _ => simp [closesByTool] at hop
  · cases logStep_of_wrote h (by simpa using hop) with
    | quiet hevents => exact ⟨[], by rw [hevents, append_nil]⟩
    | append attempt es _ hevents => exact ⟨_, hevents⟩
    | close attempt payload _ hevents => exact ⟨_, hevents⟩

theorem mem_messages_extend {message : Message} (h : Wrote l now op l')
    (hmem : message ∈ l.messages) : message ∈ l'.messages := by
  rcases messages_extend h with heq | heq <;> rw [heq]
  · exact hmem
  · exact mem_append_left _ hmem

/-- The steer request of an id, as it is recorded. -/
def RunLedger.steered (l : RunLedger) (id : ℕ) : Option SteerRequest :=
  lookup SteerRequest.id id l.steerRequests

theorem steered_extend {s : SteerRequest} (h : Wrote l now op l') (hs : l.steered id = some s) :
    l'.steered id = some s := by
  rw [RunLedger.steered] at hs ⊢
  rcases steerRequests_extend h with heq | ⟨heq, -⟩ <;> rw [heq]
  · exact hs
  · exact lookup_append_of_some hs _

theorem steered_of_supersede {r : SupersedeRequest}
    (h : l.supersedeToolIntentsAndSteer now checkpointID r = .ok l') (hid : r.requestID ≠ 0) :
    l'.steered r.requestID = some ⟨r.requestID, trimSpace r.steerContent⟩ := by
  unfold supersedeToolIntentsAndSteer at h
  split at h
  · cases h
  split at h
  · cases h
  split at h
  · rename_i s hs
    rw [steerRequest?, if_neg hid] at hs
    split_ifs at h with hcontent
    cases h
    have hkey : s.id = r.requestID := lookup_key hs
    rw [RunLedger.steered, hs, ← hkey, ← hcontent]
  · rename_i hnone
    rw [steerRequest?, if_neg hid] at hnone
    split at h
    · cases h
    split at h
    · cases h
    split at h
    · cases h
    split at h
    · cases h
    cases h
    show lookup SteerRequest.id r.requestID (l.steerRequests ++ r.steerRequest) = _
    rw [Table.lookup_append_of_none hnone, SupersedeRequest.steerRequest, if_neg hid]
    simp [Table.lookup]

/-- The message of every steer that is recorded stands in the transcript. -/
def Recorded (l : RunLedger) : Prop :=
  ∀ s ∈ l.steerRequests, (⟨.user, 0, [], s.content⟩ : Message) ∈ l.messages

theorem recorded_of_wrote (hrecorded : Recorded l) (h : Wrote l now op l') : Recorded l' := by
  have hold : ∀ s ∈ l.steerRequests, (⟨.user, 0, [], s.content⟩ : Message) ∈ l'.messages := by
    intro s hs
    exact mem_messages_extend h (hrecorded s hs)
  by_cases hop : op.steerRequests = []
  · rcases steerRequests_extend h with heq | ⟨heq, -⟩
    · rw [Recorded, heq]
      exact hold
    · rw [hop, append_nil] at heq
      rw [Recorded, heq]
      exact hold
  · cases h with
    | same => exact hrecorded
    | @supersede checkpointID r intents =>
      intro s hs
      rcases mem_append.mp hs with hs | hs
      · exact hold s hs
      · rw [SupersedeRequest.steerRequest] at hs
        split_ifs at hs with hzero
        · cases hs
        · obtain rfl := mem_singleton.mp hs
          exact mem_append_right _ (mem_singleton_self _)
    | _ => exact absurd rfl hop

end GoNavi.Harness
