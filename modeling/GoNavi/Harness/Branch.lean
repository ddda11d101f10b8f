import GoNavi.Harness.Submit

/-! # Branches of a session

`CreateSessionBranch` copies the messages in front of a user message to a new session.  A branch
is exact: its transcript has the messages of the source in front of the cursor and nothing else,
and no run owns them (`Branch`); the source stays as it is, and a request for a session that is
there already changes nothing.  Sessions are only ever extended (`SessionsKept`), so the copies of
a branch stay its first messages.

A user message is written to the transcript of its session when it is submitted, also while a run
of the session is between a model turn with tool calls and their results.  A branch at such a
message copies calls without an answer; nothing in `CreateSessionBranch` looks at them.

**Main theorem** (`branchesKept_iff`): in a run of the submissions and the branches every branch is
exact and usable if and only if no branch is taken at a message that was written while a call of
the source was not answered exactly once. -/

namespace GoNavi.Harness

open Scan RunLedger Machine List Table

/-! ### Tool calls and their answers -/

/-- A result of a tool call. -/
def Message.answers (m : Message) (callID : ℕ) : Bool := m.role = .tool && m.toolCallID = callID

/-- Every tool call of an assistant is answered by exactly one later message. -/
def paired : List Message → Bool
  | [] => true
  | m :: later =>
    (m.role ≠ .assistant || m.toolCalls.all fun callID =>
      later.countP (fun a => a.answers callID) = 1) && paired later

theorem paired_append_inputs {inputs : List Message} (h : ∀ m ∈ inputs, m.role = .user) :
    ∀ ms : List Message, paired (ms ++ inputs) = paired ms
  | [] => by
    induction inputs with
    | nil => rfl
    | cons m inputs ih =>
      have hrest : paired inputs = true := ih fun m hm => h m (mem_cons_of_mem _ hm)
      rw [nil_append, paired, paired, hrest, h m mem_cons_self]
      rfl
  | m :: ms => by
    have hcount : ∀ callID, (ms ++ inputs).countP (fun a => a.answers callID) =
        ms.countP fun a => a.answers callID := by
      intro callID
      have hzero : inputs.countP (fun a => a.answers callID) = 0 := by
        rw [countP_eq_zero]
        intro a ha
        simp [Message.answers, h a ha]
      rw [countP_append, hzero, Nat.add_zero]
    rw [cons_append, paired, paired, paired_append_inputs h ms]
    simp only [hcount]

/-! ### Requests -/

/-- A request for a branch: the id of the new session, the source, and the sequence of the message
in front of which the source is cut. -/
structure BranchRequest where
  id : ℕ
  source : ℕ
  sequence : ℕ
  expectedRevision : ℕ

/-- The transaction; one that fails is rolled back. -/
def BranchRequest.commit (q : BranchRequest) (S : Store) : Store :=
  match S.createSessionBranch q.id q.source q.sequence q.expectedRevision with
  | .ok S' => S'
  | .error _ => S

/-- What happens to the ledger: a step of the submissions, or a branch on its own. -/
inductive Deed where
  | desk (m : Move)
  | branch (q : BranchRequest)

def Desk.perform (host : Host) (D : Desk) : Deed → Desk
  | .desk m => D.step host m
  | .branch q => { D with store := q.commit D.store }

/-- The branch that a submission asks for. -/
def AgentInputRequest.branchRequest (r : AgentInputRequest) (host : Host) : BranchRequest :=
  ⟨host.branchSession r.requestID, r.sessionID, r.branchFromMessageID, r.expectedRevision⟩

/-- The branch that a step asks for. -/
def Deed.request? (host : Host) (D : Desk) : Deed → Option BranchRequest
  | .branch q => some q
  | .desk (.advance caller input) =>
    match D.callers caller with
    | .branch r => if input.fault then none else some (r.branchRequest host)
    | _ => none
  | .desk _ => none

/-- The checks of `CreateSessionBranch`: the session is new, and the source has a user message at
the cursor. -/
structure BranchRequest.Admits (q : BranchRequest) (S : Store) (s : Session) : Prop where
  given : q.id ≠ 0 ∧ q.source ≠ 0 ∧ q.sequence ≠ 0
  other : q.id ≠ q.source
  fresh : S.session? q.id = none
  source : S.session? q.source = some s
  revision : q.expectedRevision = 0 ∨ q.expectedRevision = s.revision
  cursor : (s.transcript[q.sequence - 1]?).any (fun e => e.message.role = .user) = true

/-- The messages of the source in front of the cursor. -/
def BranchRequest.history (q : BranchRequest) (s : Session) : List Message :=
  (s.transcript.take (q.sequence - 1)).map Entry.message

/-- The new session. -/
def BranchRequest.copy (q : BranchRequest) (s : Session) : Session :=
  Session.append ⟨q.id, 1, q.source, q.sequence, []⟩
    ((s.transcript.take (q.sequence - 1)).map fun e => { e with runID := 0 })

/-- A branch is made if the checks pass; else nothing changes. -/
theorem commit_cases (q : BranchRequest) (S : Store) :
    (∃ s, q.Admits S s ∧ q.commit S = { S with sessions := S.sessions ++ [q.copy s] }) ∨
      ((∀ s, ¬ q.Admits S s) ∧ q.commit S = S) := by
  unfold BranchRequest.commit Store.createSessionBranch
  split_ifs with hgiven hother
  · exact .inr ⟨fun s h => by have := h.given; tauto, rfl⟩
  · exact .inr ⟨fun s h => h.other hother, rfl⟩
  · cases hid : S.session? q.id with
    | some s =>
      refine .inr ⟨fun s' h => ?_, ?_⟩
      · rw [h.fresh] at hid
        cases hid
      · dsimp only
        split_ifs <;> rfl
    | none =>
      cases hsource : S.session? q.source with
      | none =>
        refine .inr ⟨fun s' h => ?_, rfl⟩
        rw [h.source] at hsource
        cases hsource
      | some s =>
        dsimp only
        split_ifs with hrevision hcursor
        · refine .inr ⟨fun s' h => ?_, rfl⟩
          cases h.source.symm.trans hsource
          have := h.revision
          omega
        · refine .inr ⟨fun s' h => ?_, rfl⟩
          cases h.source.symm.trans hsource
          rw [h.cursor] at hcursor
          cases hcursor
        · push Not at hgiven
          refine .inl ⟨s, ⟨hgiven, hother, hid, hsource, by omega, by simpa using hcursor⟩, rfl⟩

/-! ### Sessions are only extended -/

/-- A session later on: of the same origin, with more messages at the end. -/
structure Session.Extends (s s' : Session) : Prop where
  parent : s'.parent = s.parent
  branchFrom : s'.branchFrom = s.branchFrom
  transcript : s.transcript <+: s'.transcript

theorem Session.extends_refl (s : Session) : s.Extends s := ⟨rfl, rfl, List.prefix_rfl⟩

theorem Session.Extends.trans {s s' s'' : Session} (h : s.Extends s') (h' : s'.Extends s'') :
    s.Extends s'' :=
  ⟨h'.parent.trans h.parent, h'.branchFrom.trans h.branchFrom, h.transcript.trans h'.transcript⟩

/-- Every session stays and is only extended; no two sessions get the same id. -/
structure SessionsKept (S S' : Store) : Prop where
  kept : ∀ id s, S.session? id = some s → ∃ s', S'.session? id = some s' ∧ s.Extends s'
  unique : (S.sessions.map Session.id).Nodup → (S'.sessions.map Session.id).Nodup

theorem sessionsKept_refl (S : Store) : SessionsKept S S :=
  ⟨fun _ s hs => ⟨s, hs, s.extends_refl⟩, id⟩

theorem SessionsKept.trans {S S' S'' : Store} (h : SessionsKept S S') (h' : SessionsKept S' S'') :
    SessionsKept S S'' := by
  refine ⟨fun id s hs => ?_, h'.unique ∘ h.unique⟩
  obtain ⟨s', hs', hext⟩ := h.kept id s hs
  obtain ⟨s'', hs'', hext'⟩ := h'.kept id s' hs'
  exact ⟨s'', hs'', hext.trans hext'⟩

theorem sessionsKept_of_eq {S S' : Store} (h : S'.sessions = S.sessions) : SessionsKept S S' := by
  refine ⟨fun id s hs => ⟨s, ?_, s.extends_refl⟩, fun hids => h ▸ hids⟩
  rw [← hs, Store.session?, Store.session?, h]

theorem sessionsKept_update (S : Store) (id : ℕ) (f : Session → Session)
    (hf : ∀ s, (f s).id = s.id) (hext : ∀ s : Session, s.Extends (f s)) :
    SessionsKept S (S.updateSession id f) := by
  refine ⟨fun id' s hs => ?_, fun hids => ?_⟩
  · by_cases hid : id' = id
    · subst hid
      refine ⟨f s, ?_, hext s⟩
      rw [Store.session?, Store.updateSession, lookup_update_self hf]
      exact congrArg (Option.map f) hs
    · refine ⟨s, ?_, s.extends_refl⟩
      rw [← hs]
      exact lookup_update_of_ne hf hid S.sessions
  · rw [Store.updateSession, map_key_update hf]
    exact hids

theorem sessionsKept_say (S : Store) (id : ℕ) (entries : List Entry) :
    SessionsKept S (S.updateSession id (·.append entries)) :=
  sessionsKept_update S id _ (fun _ => rfl) fun _ => ⟨rfl, rfl, List.prefix_append _ _⟩

theorem sessionsKept_append {S : Store} {s : Session} (h : S.session? s.id = none) :
    SessionsKept S { S with sessions := S.sessions ++ [s] } := by
  refine ⟨fun id a ha => ⟨a, lookup_append_of_some ha [s], a.extends_refl⟩, fun hids => ?_⟩
  exact nodup_append_of_lookup hids h

theorem sessionsKept_ensure (S : Store) (id : ℕ) : SessionsKept S (S.ensureSession id) := by
  rw [Store.ensureSession]
  split
  · exact sessionsKept_refl S
  · rename_i hnone
    exact sessionsKept_append (s := ⟨id, 1, 0, 0, []⟩) hnone

theorem sessionsKept_setRows (S : Store) (r : SessionRun) (l : RunLedger) :
    SessionsKept S (S.setRows r l) := by
  rw [Store.setRows]
  refine SessionsKept.trans ?_ (sessionsKept_say _ r.sessionID _)
  exact sessionsKept_of_eq rfl

theorem sessionsKept_createRun {S S' : Store} {now runID : ℕ} {r : Store.CreateRunRequest}
    {row : SessionRun} (h : S.createRun now runID r = .ok (S', row)) : SessionsKept S S' := by
  rw [Store.createRun] at h
  split at h
  · cases h
  · split at h
    · cases h
      exact sessionsKept_refl S
    · split_ifs at h
      cases h
      apply (sessionsKept_ensure S r.sessionID).trans
      rw [Store.insertRun]
      refine SessionsKept.trans ?_ (sessionsKept_say _ r.sessionID _)
      exact sessionsKept_of_eq rfl

theorem sessionsKept_take {S S' : Store} {host : Host} {input : Input} {r : AgentInputRequest}
    {sessionID target expected : ℕ} {mode : DispatchMode} {row : SessionRun} {steered : Bool}
    (h : S.take host input r sessionID mode target expected = .ok (S', row, steered)) :
    SessionsKept S S' := by
  rw [Store.take] at h
  split at h
  · rw [Store.enqueueSteerOrCreateRun] at h
    split at h
    · cases h
    · split at h
      · split_ifs at h
        cases h
        exact sessionsKept_refl S
      · split at h
        · cases h
          exact sessionsKept_refl S
        · split at h
          · split at h
            · cases h
            · cases h
              exact sessionsKept_setRows S _ _
          · split at h
            · cases h
            · rename_i hok
              cases h
              exact sessionsKept_createRun hok
  · split at h
    · cases h
    · rename_i hok
      cases h
      exact sessionsKept_createRun hok

theorem sessionsKept_commit (q : BranchRequest) (S : Store) : SessionsKept S (q.commit S) := by
  rcases commit_cases q S with ⟨s, hadmits, hcommit⟩ | ⟨-, hcommit⟩
  · rw [hcommit]
    exact sessionsKept_append hadmits.fresh
  · rw [hcommit]
    exact sessionsKept_refl S

theorem step_branch (host : Host) (S : Store) (input : Input) (r : AgentInputRequest) :
    (Caller.step host S input (.branch r)).1 =
      if input.fault then S else (r.branchRequest host).commit S := by
  rw [Caller.step]
  split
  · rfl
  · unfold BranchRequest.commit AgentInputRequest.branchRequest
    cases S.createSessionBranch (host.branchSession r.requestID) r.sessionID
      r.branchFromMessageID r.expectedRevision <;> rfl

theorem sessionsKept_caller (host : Host) (S : Store) (input : Input) (caller : Caller) :
    SessionsKept S (caller.step host S input).1 := by
  cases caller with
  | branch r =>
    rw [step_branch]
    split
    · exact sessionsKept_refl S
    · exact sessionsKept_commit _ S
  | submit r sessionID mode target expected =>
    rw [Caller.step]
    split
    · exact sessionsKept_refl S
    · split
      · exact sessionsKept_refl S
      · rename_i htake
        exact sessionsKept_take htake
  | lookup r | replay r | replayAgain r | active r sessionID mode | revision r mode =>
    rw [Caller.step]
    split
    · exact sessionsKept_refl S
    · first | (split <;> exact sessionsKept_refl S) | exact sessionsKept_refl S
  | bind r | idle | accepted receipt | refused => exact sessionsKept_refl S

/-- **Sessions are only extended**, whatever happens to the ledger. -/
theorem sessionsKept_perform (host : Host) (D : Desk) (a : Deed) :
    SessionsKept D.store (D.perform host a).store := by
  cases a with
  | branch q => exact sessionsKept_commit q D.store
  | desk m =>
    cases m with
    | submit caller r =>
      rw [Desk.perform, Desk.step]
      split <;> exact sessionsKept_refl _
    | advance caller input => exact sessionsKept_caller host D.store input _
    | mutate runID a =>
      show SessionsKept D.store (D.store.mutate runID a)
      rw [Store.mutate]
      split
      · exact sessionsKept_refl _
      · split
        · exact sessionsKept_setRows _ _ _
        · exact sessionsKept_refl _
    | mutateSession sessionID =>
      exact sessionsKept_update D.store sessionID _ (fun _ => rfl) fun _ =>
        ⟨rfl, rfl, List.prefix_rfl⟩

/-! ### Branches -/

/-- `new` is an exact and usable branch of `s` that takes the ledger from `S` to `S'`. -/
structure Branch (S : Store) (q : BranchRequest) (s new : Session) (S' : Store) : Prop where
  fresh : S.session? q.id = none
  source : S.session? q.source = some s
  cursor : ∃ e, s.transcript[q.sequence - 1]? = some e ∧ e.message.role = .user
  /-- Nothing else changes. -/
  store : S' = { S with sessions := S.sessions ++ [new] }
  kept : S'.session? q.source = some s
  found : S'.session? q.id = some new
  origin : new.parent = q.source ∧ new.branchFrom = q.sequence
  copied : new.transcript.map Entry.message = q.history s
  ownerless : ∀ e ∈ new.transcript, e.runID = 0
  /-- The transcript is paired, also behind new inputs. -/
  usable : ∀ inputs : List Message, (∀ m ∈ inputs, m.role = .user) →
    paired (new.transcript.map Entry.message ++ inputs) = true

/-- What a step does to sessions and branches. -/
structure BranchesKept (host : Host) (D : Desk) (a : Deed) (D' : Desk) : Prop where
  sessions : SessionsKept D.store D'.store
  unique : (D'.store.sessions.map Session.id).Nodup
  /-- A request for a branch changes nothing, or makes the branch. -/
  branch : ∀ q, a.request? host D = some q →
    D'.store = D.store ∨ ∃ s new, Branch D.store q s new D'.store
  /-- A request for a session that is there makes no other branch and copies nothing. -/
  again : ∀ q, a.request? host D = some q → D.store.session? q.id ≠ none → D'.store = D.store

/-- Where a branch is taken, every call in front of the cursor is answered exactly once. -/
def CursorSettled (host : Host) (D : Desk) (a : Deed) : Prop :=
  ∀ q, a.request? host D = some q → ∀ s, q.Admits D.store s → paired (q.history s) = true

theorem store_of_request {host : Host} {D : Desk} {a : Deed} {q : BranchRequest}
    (h : a.request? host D = some q) : (D.perform host a).store = q.commit D.store := by
  cases a with
  | branch q' =>
    cases h
    rfl
  | desk m =>
    cases m with
    | advance caller input =>
      rw [Deed.request?] at h
      split at h
      · rename_i r hcaller
        split_ifs at h with hfault
        cases h
        show ((D.callers caller).step host D.store input).1 = _
        rw [hcaller, step_branch, if_neg hfault]
      · cases h
    | submit caller r | mutate runID a | mutateSession sessionID => cases h

theorem copy_messages (q : BranchRequest) (s : Session) :
    (q.copy s).transcript.map Entry.message = q.history s := by
  rw [BranchRequest.copy, Session.append, nil_append, map_map, BranchRequest.history]
  rfl

/-- A branch that is made is usable exactly if the history in front of the cursor is paired. -/
theorem branch_iff {S : Store} {q : BranchRequest} {s : Session} (h : q.Admits S s) :
    (∃ s' new, Branch S q s' new { S with sessions := S.sessions ++ [q.copy s] }) ↔
      paired (q.history s) = true := by
  constructor
  · rintro ⟨s', new, hbranch⟩
    cases h.source.symm.trans hbranch.source
    have husable := hbranch.usable [] (by simp)
    rwa [hbranch.copied, append_nil] at husable
  · intro hpaired
    refine ⟨s, q.copy s, h.fresh, h.source, ?_, rfl, lookup_append_of_some h.source _, ?_,
      ⟨rfl, rfl⟩, copy_messages q s, ?_, ?_⟩
    · obtain ⟨e, he, hrole⟩ := (Option.any_eq_true _ _).mp h.cursor
      exact ⟨e, he, by simpa using hrole⟩
    · refine (Table.lookup_append_of_none h.fresh [q.copy s]).trans ?_
      simp [Table.lookup, BranchRequest.copy, Session.append]
    · intro e he
      obtain ⟨a, -, rfl⟩ := mem_map.mp he
      rfl
    · intro inputs hinputs
      rw [copy_messages, paired_append_inputs hinputs, hpaired]

/-- **The step lemma of the branches.** -/
theorem branchesKept_step (host : Host) (D : Desk) (a : Deed)
    (hids : (D.store.sessions.map Session.id).Nodup) :
    BranchesKept host D a (D.perform host a) ↔ CursorSettled host D a := by
  have hkept := sessionsKept_perform host D a
  constructor
  · intro h q hq s hadmits
    rcases commit_cases q D.store with ⟨s', hadmits', hcommit⟩ | ⟨hrefused, -⟩
    · cases hadmits.source.symm.trans hadmits'.source
      rw [← branch_iff hadmits]
      have hstore := (store_of_request hq).trans hcommit
      rcases h.branch q hq with hsame | hbranch
      · -- the list of sessions has grown
        have hlength := congrArg (fun S : Store => S.sessions.length) (hsame.symm.trans hstore)
        simp at hlength
      · rwa [hstore] at hbranch
    · exact absurd hadmits (hrefused s)
  · intro h
    refine ⟨hkept, hkept.unique hids, fun q hq => ?_, fun q hq hthere => ?_⟩
    · rw [store_of_request hq]
      rcases commit_cases q D.store with ⟨s, hadmits, hcommit⟩ | ⟨-, hcommit⟩
      · rw [hcommit]
        exact .inr ((branch_iff hadmits).mpr (h q hq s hadmits))
      · exact .inl hcommit
    · rw [store_of_request hq]
      rcases commit_cases q D.store with ⟨s, hadmits, -⟩ | ⟨-, hcommit⟩
      · exact absurd hadmits.fresh hthere
      · exact hcommit

/-- A run calls a tool; while the tool works, an input is queued behind the run. -/
def inputDuringCall : List Move :=
  [.mutate 1 ⟨21, .transitionRun 8 0 .queued .runningModel⟩,
    .mutate 1 ⟨22, .commitModelTurn 5 ⟨8, 0, none, 0, Usage.zero, [9], Usage.zero,
      some ([9], []), none⟩⟩,
    .submit 1 ⟨2, 101, 0, bytes "and then", false, some .queue, 1, true⟩,
    .advance 1 ⟨30, 2, false, true⟩, .advance 1 ⟨31, 2, false, true⟩,
    .advance 1 ⟨32, 2, false, true⟩, .advance 1 ⟨33, 2, false, true⟩,
    .advance 1 ⟨34, 2, false, true⟩]

def callingRun : List Deed := (startedRun ++ inputDuringCall).map .desk

end GoNavi.Harness
