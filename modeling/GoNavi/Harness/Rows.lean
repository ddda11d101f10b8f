import GoNavi.Harness.Operation

/-! # What a mutation does to the rows

The rows of a run are never deleted.  A mutation extends the transcript, the steers and the
commands at their end, and the commands that are there keep what was asked and, once they are
settled, how they were settled (`Command.Follows`).  The revision never goes back. -/

namespace GoNavi.Harness

open Scan RunLedger List Table

variable {l l' : RunLedger} {now : ℕ} {op : Op}

/-! ### Revisions -/

variable {m : RunLedger} {commandID : ℕ}

theorem markTerminal_revision (h : l.markTerminalControlCommandApplied commandID = .ok m) :
    m.run.revision = l.run.revision := by
  rcases markTerminal_ok h with rfl | rfl <;> rfl

/-- **The revision never goes back.** -/
theorem revision_le (h : Wrote l now op l') : l.run.revision ≤ l'.run.revision := by
  cases h with
  | same | appendMessage | createApproval | decideApproval | enqueueCommand | enqueueSteer
  | dequeueCommands | claimCommands | ackCommand | tombstoneCommand | renewLease | releaseLease
  | cancelAgain => exact Nat.le_refl _
  | appendTerminal _ _ _ _ hmark =>
    rw [discardPendingControlCommands, markTerminal_revision hmark]
    exact Nat.le_succ _
  | rejectStale | rejectCancel => exact (rejectStale_frame l _).2.1
  | commitModelTurn => rw [(putTurn_frame ..).1]; exact Nat.le_succ _
  | recoveryNoted => rw [insertRecoveryCommand_eq]
  | recovery _ _ hdecision =>
    rw [insertRecoveryCommand_eq, (decide'_frame ..).2.1, decision_frame hdecision]
    exact Nat.le_succ _
  | _ => exact Nat.le_succ _

/-! ### Ended runs -/

theorem markTerminal_state (h : l.markTerminalControlCommandApplied commandID = .ok m) :
    m.run.state = l.run.state := by
  rcases markTerminal_ok h with rfl | rfl <;> rfl

/-- **A run that has ended stays ended.** -/
theorem state_of_terminal (h : Wrote l now op l') (hterminal : l.run.state.terminal = true) :
    l'.run.state = l.run.state := by
  have hguard : ∀ {token expected : ℕ}, l.guard now token expected = .ok () → False :=
    fun hguard => by simp [(guard_ok hguard).1] at hterminal
  cases h with
  | transitionRun htransition _ hstate =>
    rw [← hstate, canTransition_terminal hterminal] at htransition
    cases htransition
  | appendEvent hguard' | appendTerminal hguard' | startTool hguard' | startToolAndEvent hguard'
  | finishToolAndEvent hguard' | supersede _ _ hguard' => exact (hguard hguard').elim
  | commitModelTurn _ _ hchecks => exact (hguard hchecks.guard).elim
  | rejectStale | rejectCancel => rw [rejectStale, if_pos hterminal]; rfl
  | cancel _ _ _ htransition =>
    rw [canTransition_terminal hterminal] at htransition
    cases htransition
  | recoverRun hstate =>
    rw [executing_open hstate] at hterminal
    cases hterminal
  | recoveryNoted => rw [insertRecoveryCommand_eq]
  | recovery hopen => rw [hopen] at hterminal; cases hterminal
  | _ => rfl

/-! ### Messages -/

/-- The messages that a mutation writes. -/
def Op.messages (op : Op) (l : RunLedger) : List Message :=
  match op with
  | .appendMessage _ message => [message]
  | .finishToolAndEvent _ r _ _ =>
    (l.finishedCall? r.callID r.attempt).toList.map fun c => ⟨.tool, c.callID, [], r.result⟩
  | .supersedeToolIntentsAndSteer _ r =>
    (match l.supersededIntents r.intents with
      | .ok intents => intents.map ToolIntent.message
      | .error _ => []) ++ [⟨.user, 0, [], trimSpace r.steerContent⟩]
  | .commitModelTurn _ r => r.message
  | _ => []

/-- **The transcript is only extended**, by all the messages of a mutation or none. -/
theorem messages_extend (h : Wrote l now op l') :
    l'.messages = l.messages ∨ l'.messages = l.messages ++ op.messages l := by
  cases h with
  | appendTerminal _ _ _ _ hmark =>
    rcases markTerminal_ok hmark with rfl | rfl <;> exact .inl rfl
  | appendMessage => exact .inr rfl
  | finishToolAndEvent _ hcall _ _ =>
    refine .inr ?_
    rw [Op.messages, hcall]
    rfl
  | supersede _ _ _ hintents =>
    refine .inr ?_
    rw [Op.messages, hintents]
    exact append_assoc ..
  | rejectStale | rejectCancel => exact .inl (rejectStale_frame l _).2.2.1
  | commitModelTurn => exact .inr (putTurn_frame ..).2.1
  | recoveryNoted => exact .inl (by rw [insertRecoveryCommand_eq])
  | recovery _ _ hdecision =>
    rw [insertRecoveryCommand_eq, (decide'_frame ..).2.2.1, decision_frame hdecision]
    exact .inl rfl
  | _ => exact .inl rfl

/-! ### Steers -/

/-- The steers that a mutation puts into effect. -/
def Op.steerRequests : Op → List SteerRequest
  | .supersedeToolIntentsAndSteer _ r => r.steerRequest
  | _ => []

/-- **A steer is put into effect once**: an id with a row is not written again. -/
theorem steerRequests_extend (h : Wrote l now op l') : l'.steerRequests = l.steerRequests ∨
    (l'.steerRequests = l.steerRequests ++ op.steerRequests ∧
      ∀ s ∈ op.steerRequests, lookup SteerRequest.id s.id l.steerRequests = none) := by
  cases h with
  | appendTerminal _ _ _ _ hmark => rcases markTerminal_ok hmark with rfl | rfl <;> exact .inl rfl
  | rejectStale | rejectCancel => exact .inl (rejectStale_frame l _).2.2.2.1
  | commitModelTurn => exact .inl (putTurn_frame ..).2.2.1
  | recoveryNoted => exact .inl (by rw [insertRecoveryCommand_eq])
  | recovery _ _ hdecision =>
    rw [insertRecoveryCommand_eq, (decide'_frame ..).2.2.2.1, decision_frame hdecision]
    exact .inl rfl
  | @supersede _ r _ hnew _ _ _ =>
    refine .inr ⟨rfl, fun s hs => ?_⟩
    rw [Op.steerRequests, SupersedeRequest.steerRequest] at hs
    rw [steerRequest?] at hnew
    split_ifs at hs hnew with hzero
    · exact absurd hs not_mem_nil
    · obtain rfl := mem_singleton.mp hs
      exact hnew
  | _ => exact .inl rfl

/-! ### Commands -/

/-- A command keeps what was asked; once it is settled, it keeps how. -/
structure Command.Follows (c c' : Command) : Prop where
  id : c'.id = c.id
  action : c'.action = c.action
  content : c'.content = c.content
  expectedRevision : c'.expectedRevision = c.expectedRevision
  settled : c.pending = false → c'.pending = false ∧ c'.applied = c.applied

theorem Command.follows_refl (c : Command) : c.Follows c :=
  ⟨rfl, rfl, rfl, rfl, fun h => ⟨h, rfl⟩⟩

/-- The commands of `l'` are those of `l`, each followed, and some more. -/
def CommandsEvolve (l l' : RunLedger) (more : List Command) : Prop :=
  ∃ f : Command → Command, l'.commands = l.commands.map f ++ more ∧
    ∀ c ∈ l.commands, c.Follows (f c)

variable {more : List Command}

theorem commandsEvolve_of_eq (h : l'.commands = l.commands ++ more) :
    CommandsEvolve l l' more :=
  ⟨id, by rw [map_id, h], fun c _ => c.follows_refl⟩

variable {f : Command → Command}

theorem commandsEvolve_map (h : l'.commands = l.commands.map f)
    (hf : ∀ c ∈ l.commands, c.Follows (f c)) : CommandsEvolve l l' [] :=
  ⟨f, by rw [append_nil, h], hf⟩

variable {c : Command}

/-- With unique ids, a command that is looked up is the only one of its id. -/
theorem eq_of_command? {d : Command} (hnodup : (l.commands.map Command.id).Nodup)
    (hc : l.command? d.id = some c) (hd : d ∈ l.commands) : d = c :=
  inj_on_of_nodup_map hnodup hd (mem_of_lookup hc) (lookup_key hc).symm

variable {id : ℕ}

theorem commandsEvolve_update
    (hnodup : (l.commands.map Command.id).Nodup) (hc : l.command? id = some c)
    (hpending : c.pending = true) (h : l'.commands = update Command.id id f l.commands)
    (hf : ∀ d : Command, (f d).id = d.id ∧ (f d).action = d.action ∧ (f d).content = d.content ∧
      (f d).expectedRevision = d.expectedRevision) : CommandsEvolve l l' [] := by
  refine commandsEvolve_map h fun d hd => ?_
  split
  · rename_i hid
    subst hid
    obtain rfl := eq_of_command? hnodup hc hd
    obtain ⟨h₁, h₂, h₃, h₄⟩ := hf d
    exact ⟨h₁, h₂, h₃, h₄, fun hsettled => absurd hpending (by simp [hsettled])⟩
  · exact d.follows_refl

theorem commandsEvolve_discard (h : l'.commands = l.discardPendingControlCommands.commands) :
    CommandsEvolve l l' [] := by
  refine commandsEvolve_map h fun c _ => ?_
  split
  · rename_i hpending
    exact ⟨rfl, rfl, rfl, rfl, fun hsettled => absurd hpending (by simp [hsettled])⟩
  · exact c.follows_refl

theorem CommandsEvolve.trans (h₁ : CommandsEvolve l m []) (h₂ : CommandsEvolve m l' more) :
    CommandsEvolve l l' more := by
  obtain ⟨f, hf, hfollows⟩ := h₁
  obtain ⟨g, hg, hfollows'⟩ := h₂
  rw [append_nil] at hf
  refine ⟨g ∘ f, by rw [hg, hf, map_map], fun c hc => ?_⟩
  have hcf := hfollows c hc
  have hfg := hfollows' (f c) (by rw [hf]; exact mem_map_of_mem hc)
  refine ⟨hfg.id.trans hcf.id, hfg.action.trans hcf.action, hfg.content.trans hcf.content,
    hfg.expectedRevision.trans hcf.expectedRevision, fun hsettled => ?_⟩
  obtain ⟨hpending, happlied⟩ := hcf.settled hsettled
  exact ⟨(hfg.settled hpending).1, (hfg.settled hpending).2.trans happlied⟩

theorem commandsEvolve_markTerminal (hnodup : (l.commands.map Command.id).Nodup)
    (h : l.markTerminalControlCommandApplied commandID = .ok m) : CommandsEvolve l m [] := by
  rw [markTerminalControlCommandApplied] at h
  split_ifs at h with hzero hany
  · cases h
    exact commandsEvolve_of_eq (append_nil _).symm
  · cases h
    obtain ⟨c, hc, hid, hpending⟩ : ∃ c ∈ l.commands, c.id = commandID ∧ c.pending = true := by
      simpa using hany
    have hlookup : l.command? commandID = some c := by
      cases hfound : l.command? commandID with
      | none => exact absurd hid (lookup_eq_none.mp hfound c hc)
      | some d => rw [eq_of_command? hnodup (hid ▸ hfound) hc]
    exact commandsEvolve_update hnodup hlookup hpending rfl fun _ => ⟨rfl, rfl, rfl, rfl⟩

theorem command?_of_loadClaimed {token : ℕ} (h : l.loadClaimed now token id = .ok (c, false)) :
    l.command? id = some c ∧ c.pending = true ∧ c.claimedBy now token = true := by
  rw [loadClaimed] at h
  split at h
  · cases h
  · rename_i d hd
    split_ifs at h with hpending hclaim howner
    · cases h
    · cases h
      exact ⟨hd, by simpa using hpending, by simpa using hclaim⟩

theorem commandsEvolve_rejectStale {token : ℕ} (hnodup : (l.commands.map Command.id).Nodup)
    (h : l.loadClaimed now token id = .ok (c, false)) : CommandsEvolve l (l.rejectStale c) [] := by
  obtain ⟨hc, hpending, -⟩ := command?_of_loadClaimed h
  obtain rfl : c.id = id := lookup_key hc
  exact commandsEvolve_update hnodup hc hpending (rejectStale_frame l c).2.2.2.2.1
    fun _ => ⟨rfl, rfl, rfl, rfl⟩

theorem commandsEvolve_decide' (l : RunLedger) (checkpointID : ℕ) (target : RunState)
    (attempt : ℕ) : CommandsEvolve l (l.decide' checkpointID target attempt) [] := by
  rw [decide']
  split
  · exact commandsEvolve_discard rfl
  · exact commandsEvolve_of_eq (append_nil _).symm

/-- The id, the action and the conflict flag of the command that a mutation inserts. -/
def Op.command? : Op → Option (ℕ × ControlAction × Bool)
  | .enqueueCommand r elsewhere => some (r.id, r.action, elsewhere)
  | .enqueueSteer r elsewhere => some (r.id, r.action, elsewhere)
  | .applyRecoveryAction _ r elsewhere =>
    if r.commandID = 0 then none else some (r.commandID, r.action, elsewhere)
  | _ => none

/-- A recovery action inserts its command under an id that is free. -/
theorem recovery_commands_evolve {checkpointID : ℕ} {r : RecoveryRequest} {elsewhere : Bool}
    (h : l.applyRecoveryAction now checkpointID r elsewhere = .ok l') :
    CommandsEvolve l l' [] ∨ ∃ c, CommandsEvolve l l' [c] ∧
      (Op.applyRecoveryAction checkpointID r elsewhere).command? = some (c.id, c.action, false) ∧
      l.command? c.id = none := by
  rw [applyRecoveryAction] at h
  split at h
  · cases h
  · split at h
    · cases h
    · rename_i helsewhere
      split at h
      · split_ifs at h
        cases h
        exact .inl (commandsEvolve_of_eq (append_nil _).symm)
      · rename_i hfree
        -- what is left to show does not depend on the rows that the command is inserted into
        have hinsert : ∀ m : RunLedger, CommandsEvolve l m [] →
            CommandsEvolve l (m.insertRecoveryCommand now r) [] ∨
              ∃ c, CommandsEvolve l (m.insertRecoveryCommand now r) [c] ∧
                (Op.applyRecoveryAction checkpointID r elsewhere).command? =
                  some (c.id, c.action, false) ∧ l.command? c.id = none := by
          intro m hm
          have hrow := congrArg RunLedger.commands (insertRecoveryCommand_eq m now r)
          by_cases hzero : r.commandID = 0
          · rw [RecoveryRequest.row, if_pos hzero] at hrow
            exact .inl (hm.trans (commandsEvolve_of_eq hrow))
          · rw [RecoveryRequest.row, if_neg hzero] at hrow
            rw [if_neg hzero] at hfree
            refine .inr ⟨_, hm.trans (commandsEvolve_of_eq hrow), ?_, hfree⟩
            rw [Op.command?, if_neg hzero]
            have hhere : elsewhere = false := by simpa [hzero] using helsewhere
            rw [hhere]
        have hsame : CommandsEvolve l l [] := commandsEvolve_of_eq (append_nil _).symm
        split at h
        · cases h
          exact hinsert l hsame
        · split at h
          · cases h
          · split at h
            · cases h
            · split at h
              · cases h
                exact hinsert l hsame
              · cases h
              · rename_i l₁ target attempt hdecision
                split_ifs at h
                cases h
                refine hinsert _ ((commandsEvolve_of_eq ?_).trans
                  (commandsEvolve_decide' l₁ checkpointID target attempt))
                rw [decision_frame hdecision, append_nil]

/-- A mutation that inserts no command keeps those that there are. -/
theorem commandsEvolve_of_wrote (hnodup : (l.commands.map Command.id).Nodup)
    (h : Wrote l now op l') : CommandsEvolve l l' [] ∨ op.command?.isSome := by
  have hsame : ∀ m : RunLedger, m.commands = l.commands → CommandsEvolve l m [] := fun m hm =>
    commandsEvolve_of_eq (hm.trans (append_nil _).symm)
  cases h with
  | appendTerminal _ _ _ _ hmark =>
    exact .inl (((hsame (l.commit _ _ _) rfl).trans
      (commandsEvolve_markTerminal hnodup hmark)).trans (commandsEvolve_discard rfl))
  | ackCommand hc hpending | tombstoneCommand hc hpending =>
    exact .inl (commandsEvolve_update hnodup hc hpending rfl fun _ => ⟨rfl, rfl, rfl, rfl⟩)
  | rejectStale hload | rejectCancel hload => exact .inl (commandsEvolve_rejectStale hnodup hload)
  | cancelAgain hload | cancel hload =>
    obtain ⟨hc, hpending, -⟩ := command?_of_loadClaimed hload
    exact .inl (commandsEvolve_update hnodup hc hpending rfl fun _ => ⟨rfl, rfl, rfl, rfl⟩)
  | commitModelTurn => exact .inl (hsame _ (putTurn_frame ..).2.2.2.1)
  | dequeueCommands =>
    refine .inl (commandsEvolve_map rfl fun c _ => ?_)
    split
    · exact ⟨rfl, rfl, rfl, rfl, fun _ => ⟨by simp [Command.pending], rfl⟩⟩
    · exact c.follows_refl
  | claimCommands =>
    refine .inl (commandsEvolve_map rfl fun c _ => ?_)
    split
    · exact ⟨rfl, rfl, rfl, rfl, fun hsettled => ⟨hsettled, rfl⟩⟩
    · exact c.follows_refl
  | enqueueCommand | enqueueSteer => exact .inr rfl
  | @recoveryNoted _ r _ =>
    by_cases hzero : r.commandID = 0
    · exact .inl (hsame _ (by rw [insertRecoveryCommand, if_pos hzero]))
    · exact .inr (by rw [Op.command?, if_neg hzero]; rfl)
  | @recovery _ r _ l₁ target attempt _ _ hdecision =>
    by_cases hzero : r.commandID = 0
    · rw [insertRecoveryCommand, if_pos hzero]
      refine .inl ((commandsEvolve_of_eq ?_).trans (commandsEvolve_decide' l₁ _ target attempt))
      rw [decision_frame hdecision, append_nil]
    · exact .inr (by rw [Op.command?, if_neg hzero]; rfl)
  | _ => exact .inl (hsame _ rfl)

/-- **Commands are settled once and inserted once**: a mutation keeps every command, how it was
settled included, and inserts at most one, under an id that is free. -/
theorem commands_evolve (hnodup : (l.commands.map Command.id).Nodup)
    (h : op.apply l now = .ok l') :
    CommandsEvolve l l' [] ∨ ∃ c, CommandsEvolve l l' [c] ∧
      op.command? = some (c.id, c.action, false) ∧ l.command? c.id = none := by
  have hsame : CommandsEvolve l l [] := commandsEvolve_of_eq (append_nil _).symm
  rcases commandsEvolve_of_wrote hnodup (wrote_of_apply h) with hevolve | hcommand
  · exact .inl hevolve
  cases op with
  | applyRecoveryAction => exact recovery_commands_evolve h
  | enqueueCommand r elsewhere =>
    simp only [Op.apply, RunLedger.enqueueCommand] at h
    split at h
    · cases h
    · rename_i helsewhere
      split at h
      · split_ifs at h
        cases h
        exact .inl hsame
      · rename_i hfree
        split_ifs at h
        cases h
        exact .inr ⟨r.row now, commandsEvolve_of_eq rfl,
          by simp [Op.command?, helsewhere, EnqueueRequest.row], hfree⟩
  | enqueueSteer r elsewhere =>
    simp only [Op.apply, RunLedger.enqueueSteer] at h
    split at h
    · cases h
    · split at h
      · cases h
      · rename_i helsewhere
        split at h
        · split_ifs at h
          cases h
          exact .inl hsame
        · rename_i hfree
          split_ifs at h
          cases h
          exact .inr ⟨r.row now, commandsEvolve_of_eq rfl,
            by simp [Op.command?, helsewhere, EnqueueRequest.row], hfree⟩
  | _ => exact absurd hcommand (by simp [Op.command?])

/-- The keys of the commands after a mutation: a new command comes under a free id. -/
theorem CommandsEvolve.ids (h : CommandsEvolve l l' more) :
    l'.commands.map (fun c => (c.id, c.action)) =
      l.commands.map (fun c => (c.id, c.action)) ++ more.map fun c => (c.id, c.action) := by
  obtain ⟨f, hf, hfollows⟩ := h
  rw [hf, map_append, map_map]
  congr 1
  exact map_congr_left fun c hc => by
    rw [Function.comp_apply, (hfollows c hc).id, (hfollows c hc).action]

/-! ### Workspace references -/

/-- The workspace references that are recorded in the tool calls and the checkpoints. -/
def RunLedger.references (l : RunLedger) : List WorkspaceRef :=
  l.toolCalls.filterMap ToolCall.workspace ++ l.checkpoints.filterMap Checkpoint.workspace

/-- The references that a mutation brings in. -/
def Op.references : Op → List WorkspaceRef
  | .saveCheckpoint _ _ _ _ _ workspace => workspace.toList
  | .startTool r => r.workspace.toList
  | .startToolAndEvent _ r => r.workspace.toList
  | .finishToolAndEvent _ _ _ workspace => workspace.toList
  | .supersedeToolIntentsAndSteer _ r => r.workspace.toList
  | .commitModelTurn _ r => r.workspace.toList
  | _ => []

variable {ref : WorkspaceRef}

theorem mem_references : ref ∈ l.references ↔
    (∃ c ∈ l.toolCalls, c.workspace = some ref) ∨ ∃ c ∈ l.checkpoints, c.workspace = some ref := by
  simp [references]

theorem previousWorkspace_mem (h : l.previousWorkspace = some ref) :
    ref ∈ l.references := by
  obtain ⟨c, hc, hw⟩ := Option.bind_eq_some_iff.mp h
  exact mem_references.mpr (.inr ⟨c, mem_of_lookup hc, hw⟩)

/-- Every reference of `l'` is one of `l` or one of `refs`. -/
def Refers (l : RunLedger) (refs : List WorkspaceRef) (l' : RunLedger) : Prop :=
  ∀ ref ∈ l'.references, ref ∈ l.references ∨ ref ∈ refs

variable {refs : List WorkspaceRef}

theorem refers_of_eq (hcalls : l'.toolCalls = l.toolCalls)
    (hcheckpoints : l'.checkpoints = l.checkpoints) : Refers l refs l' := by
  intro ref href
  rw [references, hcalls, hcheckpoints] at href
  exact .inl href

theorem Refers.trans (h : Refers l refs m) (h' : Refers m refs l') :
    Refers l refs l' :=
  fun ref href => (h' ref href).elim (h ref) .inr

/-- The row that a search for the first in an order finds is one of the rows. -/
theorem foldl_newer_mem {ρ : Type} {newer : Option ρ → ρ → Option ρ}
    (hnewer : ∀ best r a, newer best r = some a → a = r ∨ best = some a) :
    ∀ (rows : List ρ) {best : Option ρ} {a : ρ}, rows.foldl newer best = some a →
      a ∈ rows ∨ best = some a
  | [], _, _, h => .inr h
  | r :: rows, best, a, h => by
    rcases foldl_newer_mem hnewer rows h with hmem | hbest
    · exact .inl (mem_cons_of_mem r hmem)
    · rcases hnewer best r a hbest with rfl | hbest
      · exact .inl mem_cons_self
      · exact .inr hbest

theorem newerCall_or (best : Option ToolCall) (r a : ToolCall) (h : newerCall best r = some a) :
    a = r ∨ best = some a := by
  cases best with
  | none => exact .inl (Option.some.inj h).symm
  | some b =>
    rw [newerCall] at h
    split at h
    · exact .inl (Option.some.inj h).symm
    · exact .inr h

theorem newerCheckpoint_or (best : Option Checkpoint) (r a : Checkpoint)
    (h : newerCheckpoint best r = some a) : a = r ∨ best = some a := by
  cases best with
  | none => exact .inl (Option.some.inj h).symm
  | some b =>
    rw [newerCheckpoint] at h
    split at h
    · exact .inl (Option.some.inj h).symm
    · exact .inr h

theorem resumable_resumeCheckpointState (l : RunLedger) :
    resumable l.resumeCheckpointState = true := by
  rw [resumeCheckpointState]
  split
  · rfl
  · rename_i current _
    split
    · assumption
    · split
      · rfl
      · rename_i c hfold
        rcases foldl_newer_mem newerCheckpoint_or _ hfold with hmem | hnone
        · have hselected := (mem_filter.mp hmem).2
          simp only [decide_eq_true_eq] at hselected
          exact hselected.2
        · cases hnone

theorem refers_putToolCalls {rows : List ToolCall} (hcalls : l'.toolCalls = l.toolCalls ++ rows)
    (hcheckpoints : l'.checkpoints = l.checkpoints)
    (hrows : ∀ c ∈ rows, ∀ ref, c.workspace = some ref → ref ∈ l.references ∨ ref ∈ refs) :
    Refers l refs l' := by
  intro ref href
  rcases mem_references.mp href with ⟨c, hc, hw⟩ | hcheckpoint
  · rw [hcalls] at hc
    rcases mem_append.mp hc with hc | hc
    · exact .inl (mem_references.mpr (.inl ⟨c, hc, hw⟩))
    · exact hrows c hc ref hw
  · rw [hcheckpoints] at hcheckpoint
    exact .inl (mem_references.mpr (.inr hcheckpoint))

theorem refers_updateToolCall {k : ℕ × ℕ} {f : ToolCall → ToolCall}
    (hcalls : l'.toolCalls = update ToolCall.key k f l.toolCalls)
    (hcheckpoints : l'.checkpoints = l.checkpoints) (hf : ∀ c, (f c).workspace = c.workspace) :
    Refers l refs l' := by
  intro ref href
  refine .inl ?_
  rcases mem_references.mp href with ⟨c, hc, hw⟩ | hcheckpoint
  · rw [hcalls] at hc
    obtain ⟨d, hd, rfl⟩ := mem_map.mp hc
    refine mem_references.mpr (.inl ⟨d, hd, ?_⟩)
    split at hw
    · rwa [hf] at hw
    · exact hw
  · rw [hcheckpoints] at hcheckpoint
    exact mem_references.mpr (.inr hcheckpoint)

theorem refers_checkpoint {c : Checkpoint} (hcalls : l'.toolCalls = l.toolCalls)
    (hcheckpoints : l'.checkpoints = l.checkpoints ++ [c])
    (hc : ∀ ref, c.workspace = some ref → ref ∈ l.references ∨ ref ∈ refs) :
    Refers l refs l' := by
  intro ref href
  rcases mem_references.mp href with hcall | ⟨d, hd, hw⟩
  · rw [hcalls] at hcall
    exact .inl (mem_references.mpr (.inl hcall))
  · rw [hcheckpoints] at hd
    rcases mem_append.mp hd with hd | hd
    · exact .inl (mem_references.mpr (.inr ⟨d, hd, hw⟩))
    · obtain rfl := mem_singleton.mp hd
      exact hc ref hw

theorem finishedCall?_mem {callID attempt : ℕ} {c : ToolCall}
    (h : l.finishedCall? callID attempt = some c) : c ∈ l.toolCalls := by
  rw [finishedCall?] at h
  split at h
  · rcases foldl_newer_mem newerCall_or _ h with hmem | hnone
    · exact (mem_filter.mp hmem).1
    · cases hnone
  · exact mem_of_lookup h

theorem refers_or_previous {workspace : Option WorkspaceRef} (h : ∀ ref ∈ workspace, ref ∈ refs)
    (href : workspace.or l.previousWorkspace = some ref) :
    ref ∈ l.references ∨ ref ∈ refs := by
  cases workspace with
  | some w => exact .inr (h ref href)
  | none => exact .inl (previousWorkspace_mem href)

theorem refers_decide' (l : RunLedger) (checkpointID : ℕ) (target : RunState) (attempt : ℕ) :
    Refers l [] (l.decide' checkpointID target attempt) := by
  rw [decide']
  split
  · exact refers_of_eq rfl rfl
  · exact refers_checkpoint rfl rfl fun ref href => .inl (previousWorkspace_mem href)

/-- **A mutation refers to what it brings in and to what was there.** -/
theorem refers_of_wrote (h : Wrote l now op l') : Refers l op.references l' := by
  cases h with
  | appendTerminal _ _ _ _ hmark =>
    rcases markTerminal_ok hmark with rfl | rfl <;> exact refers_of_eq rfl rfl
  | rejectStale | rejectCancel =>
    rw [rejectStale]
    split <;> exact refers_of_eq rfl rfl
  | saveCheckpoint =>
    exact refers_checkpoint rfl rfl fun ref href =>
      refers_or_previous (fun w hw => by simpa [Op.references] using hw) href
  | @startTool r =>
    refine refers_putToolCalls rfl rfl fun c hc ref hw => .inr ?_
    obtain rfl := mem_singleton.mp hc
    simpa [Op.references, StartToolRequest.row] using hw
  | finishTool => exact refers_updateToolCall rfl rfl fun _ => rfl
  | @startToolAndEvent _ r =>
    refine Refers.trans (m := l.putToolCall (r.row now))
      (refers_putToolCalls rfl rfl fun c hc ref hw => .inr ?_)
      (refers_checkpoint rfl rfl fun ref href => .inr ?_)
    · obtain rfl := mem_singleton.mp hc
      simpa [Op.references, StartToolRequest.row] using hw
    · simpa [Op.references] using href
  | @finishToolAndEvent checkpointID r state workspace c _ hcall =>
    refine Refers.trans (m := l.putCheckpoint ⟨checkpointID, l.run.nextSequence,
      r.target c state, c.workspace.or workspace⟩)
      (refers_checkpoint rfl rfl fun ref href => ?_) (refers_updateToolCall rfl rfl fun _ => rfl)
    cases hw : c.workspace with
    | some w =>
      rw [hw] at href
      exact .inl (mem_references.mpr (.inl ⟨c, finishedCall?_mem hcall, hw.trans href⟩))
    | none =>
      rw [hw] at href
      exact .inr (by simpa [Op.references] using href)
  | @supersede _ r intents _ _ _ _ =>
    have hor : ∀ {ref}, r.workspace.or l.previousWorkspace = some ref →
        ref ∈ l.references ∨ ref ∈ r.workspace.toList := fun href =>
      refers_or_previous (fun w hw => by simpa using hw) href
    refine Refers.trans (m := l.supersede r intents)
      (refers_putToolCalls rfl rfl fun c hc ref hw => ?_) (refers_checkpoint rfl rfl fun ref href => ?_)
    · obtain ⟨i, -, rfl⟩ := mem_map.mp hc
      exact hor hw
    · rcases hor href with h | h
      · refine .inl ?_
        rcases mem_references.mp h with ⟨c, hc, hw⟩ | h
        · exact mem_references.mpr (.inl ⟨c, mem_append_left _ hc, hw⟩)
        · exact mem_references.mpr (.inr h)
      · exact .inr h
  | @commitModelTurn checkpointID r reservation usage =>
    obtain ⟨_, _, _, _, _, hcalls, hcheckpoints, _⟩ := putTurn_frame l checkpointID r reservation
      usage
    exact refers_checkpoint hcalls hcheckpoints fun ref href =>
      refers_or_previous (fun w hw => by simpa [Op.references] using hw) href
  | recoverRun => exact refers_checkpoint rfl rfl fun ref href => .inl (previousWorkspace_mem href)
  | recoveryNoted =>
    rw [insertRecoveryCommand_eq]
    exact refers_of_eq rfl rfl
  | @recovery checkpointID r _ l₁ target attempt _ _ hdecision =>
    have hframe : Refers l [] l₁ := by
      rcases decision_go hdecision with ⟨_, _, rfl, _⟩ | ⟨_, _, rfl, _⟩ | ⟨_, _, hmark, _⟩ |
        ⟨_, _, rfl, _⟩
      · exact refers_of_eq rfl rfl
      · exact refers_of_eq rfl rfl
      · obtain ⟨c, -, rfl⟩ := markLatestUnknownTool_ok hmark
        exact refers_updateToolCall rfl rfl fun _ => rfl
      · exact refers_of_eq rfl rfl
    refine (hframe.trans (refers_decide' l₁ checkpointID target attempt)).trans ?_
    rw [insertRecoveryCommand_eq]
    exact refers_of_eq rfl rfl
  | _ => exact refers_of_eq rfl rfl

end GoNavi.Harness
