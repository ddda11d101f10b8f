import GoNavi.Harness.Submit

/-! # The queue of a session

The runs of a session wait for each other: in front of the lease a worker polls the session
until no run that precedes its own is still active (`waitForFIFO`).  Behind this gate it takes
model turns, and for every turn of a chat it reads the whole transcript of the session again.

The order of creation is kept (`queue_in_order`) if the stamps of new runs come after those of
the runs that have passed the gate.  The transcript is another matter: the first message of a
run is in it from its creation on, so a chat turn that is taken while a run waits behind reads
that message. -/

namespace GoNavi.Harness

open Scan RunLedger Machine List Table

/-! ### The machine -/

/-- A model turn with the messages of its request, and the runs that are queued behind at that
time. -/
structure Turn where
  runID : ℕ
  request : List Entry
  waiting : List ℕ
deriving DecidableEq

structure Floor where
  desk : Desk
  /-- The runs of which a worker has passed the gate. -/
  passed : List ℕ
  turns : List Turn

def Floor.empty : Floor := ⟨Desk.empty, [], []⟩

/-- The test of `waitForFIFO`: an active run of the session precedes. -/
def Store.blocked (S : Store) (r : SessionRun) : Bool :=
  (S.runsOf r.sessionID).any fun s => s.id ≠ r.id ∧ s.active ∧ s.precedes r

/-- The runs of the session that are queued behind a run. -/
def Store.waiting (S : Store) (r : SessionRun) : List ℕ :=
  ((S.runsOf r.sessionID).filter fun s => s.rows.run.state = .queued ∧ r.precedes s).map
    SessionRun.id

inductive FloorMove where
  | desk (m : Move)
  /-- A worker polls the gate for a run. -/
  | gate (runID : ℕ)
  /-- A worker behind the gate takes a model turn. -/
  | turn (runID : ℕ)

def Floor.step (host : Host) (F : Floor) : FloorMove → Floor
  | .desk m => { F with desk := F.desk.step host m }
  | .gate runID =>
    match F.desk.store.run? runID with
    | none => F
    | some r => if F.desk.store.blocked r then F else { F with passed := runID :: F.passed }
  | .turn runID =>
    match F.desk.store.run? runID with
    | none => F
    | some r =>
      if runID ∈ F.passed then
        { F with turns := F.turns ++
          [⟨runID, F.desk.store.messagesForRun r, F.desk.store.waiting r⟩] }
      else F

/-! ### The property -/

/-- Whether a run is between its first model turn and its end. -/
def Floor.running (F : Floor) (r : SessionRun) : Prop :=
  r ∈ F.desk.store.runs ∧ (∃ t ∈ F.turns, t.runID = r.id) ∧ r.active = true

/-- No user message of a run that waits is in the request. -/
def Turn.clean (t : Turn) : Prop :=
  ∀ e ∈ t.request, e.message.role = .user → e.runID ∉ t.waiting

structure InTurn (F : Floor) : Prop where
  /-- One run of a session is running at a time. -/
  single : ∀ r s, F.running r → F.running s → r.sessionID = s.sessionID → r = s
  /-- A run takes its first turn when those that precede it have ended. -/
  ordered : ∀ t ∈ F.turns, ∀ r ∈ F.desk.store.runs, r.id = t.runID →
    ∀ s ∈ F.desk.store.runs, s.sessionID = r.sessionID → s.precedes r = true → s.active = false
  /-- The request of a chat run has no message of a run queued behind it. -/
  clean : ∀ t ∈ F.turns, ∀ r ∈ F.desk.store.runs, r.id = t.runID → r.chat = true → t.clean

/-- A new run comes after the runs of its session that have passed the gate, and a chat run
takes a turn only while no run waits behind it. -/
def queueable (F : Floor) : FloorMove → Bool
  | .desk (.advance caller input) =>
    match F.desk.callers caller with
    | .submit _ sessionID _ _ _ => input.fault || (F.desk.store.runsOf sessionID).all fun s =>
      s.id ∉ F.passed ∨ s.createdAt < input.now ∨
        (s.createdAt = input.now ∧ s.id < input.runID)
    | _ => true
  | .desk _ => true
  | .gate _ => true
  | .turn runID =>
    (F.desk.store.run? runID).all fun r => r.chat = false ∨ F.desk.store.waiting r = []

/-! ### The order of creation -/

theorem precedes_irrefl (r : SessionRun) : r.precedes r = false := by
  simp [SessionRun.precedes]

variable {r s : SessionRun}

theorem precedes_asymm (h : r.precedes s = true) : s.precedes r = false := by
  simp only [SessionRun.precedes, decide_eq_true_eq, decide_eq_false_iff_not] at h ⊢
  omega

theorem precedes_total (h : r.id ≠ s.id) :
    r.precedes s = true ∨ s.precedes r = true := by
  simp only [SessionRun.precedes, decide_eq_true_eq]
  omega

/-! ### Runs keep their place -/

/-- A run keeps its place, and once it has ended, it stays ended. -/
structure SessionRun.Follows (r r' : SessionRun) : Prop where
  id : r'.id = r.id
  sessionID : r'.sessionID = r.sessionID
  createdAt : r'.createdAt = r.createdAt
  chat : r'.chat = r.chat
  ended : r.active = false → r'.active = false

theorem SessionRun.follows_refl (r : SessionRun) : r.Follows r := ⟨rfl, rfl, rfl, rfl, fun h => h⟩

theorem SessionRun.Follows.precedes {r' s' : SessionRun} (hr : r.Follows r') (hs : s.Follows s') :
    r'.precedes s' = r.precedes s := by
  rw [SessionRun.precedes, SessionRun.precedes, hr.id, hr.createdAt, hs.id, hs.createdAt]

/-! ### Transcripts grow -/

/-- Every session stays, with a longer transcript. -/
def SessionsEvolve (S S' : Store) : Prop :=
  ∀ id s, S.session? id = some s → ∃ s', S'.session? id = some s' ∧
    ∀ e ∈ s.transcript, e ∈ s'.transcript

theorem sessionsEvolve_refl (S : Store) : SessionsEvolve S S := fun _ s hs => ⟨s, hs, fun _ => id⟩

variable {S S' : Store}

theorem SessionsEvolve.trans {S'' : Store} (h : SessionsEvolve S S') (h' : SessionsEvolve S' S'') :
    SessionsEvolve S S'' := by
  intro id s hs
  obtain ⟨s', hs', hsub⟩ := h id s hs
  obtain ⟨s'', hs'', hsub'⟩ := h' id s' hs'
  exact ⟨s'', hs'', fun e he => hsub' e (hsub e he)⟩

theorem session?_updateSession (S : Store) (id : ℕ) (f : Session → Session)
    (hf : ∀ s, (f s).id = s.id) :
    (S.updateSession id f).session? id = (S.session? id).map f :=
  lookup_update_self hf S.sessions

theorem sessionsEvolve_update (S : Store) (id : ℕ) (f : Session → Session)
    (hf : ∀ s, (f s).id = s.id) (hsub : ∀ s, ∀ e ∈ s.transcript, e ∈ (f s).transcript) :
    SessionsEvolve S (S.updateSession id f) := by
  intro id' s hs
  by_cases hid : id' = id
  · subst hid
    exact ⟨f s, by rw [session?_updateSession S id' f hf, hs]; rfl, hsub s⟩
  · refine ⟨s, ?_, fun _ h => h⟩
    rw [← hs]
    exact lookup_update_of_ne hf hid S.sessions

theorem sessionsEvolve_append (S : Store) (s : Session) :
    SessionsEvolve S { S with sessions := S.sessions ++ [s] } :=
  fun _ a ha => ⟨a, lookup_append_of_some ha [s], fun _ h => h⟩

theorem sessionsEvolve_say (S : Store) (id : ℕ) (entries : List Entry) :
    SessionsEvolve S (S.updateSession id (·.append entries)) :=
  sessionsEvolve_update S id _ (fun _ => rfl) fun _ _ => mem_append_left _

theorem sessionsEvolve_ensure (S : Store) (id : ℕ) :
    SessionsEvolve S (S.ensureSession id) ∧ ((S.ensureSession id).session? id).isSome := by
  rw [Store.ensureSession]
  split
  · rename_i s hs
    exact ⟨sessionsEvolve_refl S, by rw [hs]; rfl⟩
  · rename_i hnone
    refine ⟨sessionsEvolve_append S _, ?_⟩
    have : Store.session? { S with sessions := S.sessions ++ [⟨id, 1, 0, 0, []⟩] } id =
        some ⟨id, 1, 0, 0, []⟩ := by
      rw [Store.session?, Table.lookup_append_of_none hnone]
      simp [Table.lookup]
    rw [this]
    rfl

/-- A user message of the run is in the transcript of its session. -/
def Spoken (S : Store) (r : SessionRun) : Prop :=
  ∃ s, S.session? r.sessionID = some s ∧
    ∃ e ∈ s.transcript, e.runID = r.id ∧ e.message.role = .user

/-- The first message of a new run is in the transcript at once. -/
theorem spoken_insertRun {now runID : ℕ} {r : Store.CreateRunRequest}
    (h : (S.session? r.sessionID).isSome) : Spoken (S.insertRun now runID r) (r.row now runID) := by
  obtain ⟨s, hs⟩ := Option.isSome_iff_exists.mp h
  refine ⟨s.append [⟨runID, ⟨.user, 0, [], r.content⟩⟩], ?_, ⟨runID, ⟨.user, 0, [], r.content⟩⟩,
    mem_append_right _ (mem_singleton_self _), rfl, rfl⟩
  refine (session?_updateSession _ _ (·.append [⟨runID, ⟨.user, 0, [], r.content⟩⟩])
    fun _ => rfl).trans ?_
  change (S.session? r.sessionID).map _ = _
  rw [hs]
  rfl

theorem sessionsEvolve_branch {id source sequence expectedRevision : ℕ}
    (h : S.createSessionBranch id source sequence expectedRevision = .ok S') :
    SessionsEvolve S S' := by
  rw [Store.createSessionBranch] at h
  split at h
  · cases h
  · split at h
    · cases h
    · split at h
      · split_ifs at h
        cases h
        exact sessionsEvolve_refl S
      · split at h
        · cases h
        · split_ifs at h
          cases h
          exact sessionsEvolve_append S _

/-! ### What a step does to the store -/

/-- The runs of `S'` are those of `S`, each followed, and some more, which have spoken. -/
structure RunsEvolve (S S' : Store) (more : List SessionRun) : Prop where
  runs : ∃ f : SessionRun → SessionRun, S'.runs = S.runs.map f ++ more ∧
    ∀ r : SessionRun, r.Follows (f r)
  sessions : SessionsEvolve S S'
  spoken : ∀ n ∈ more, Spoken S' n

theorem runsEvolve_of_eq (h : S'.runs = S.runs) (hsessions : SessionsEvolve S S') :
    RunsEvolve S S' [] :=
  ⟨⟨id, by rw [map_id, append_nil, h], fun r => r.follows_refl⟩, hsessions,
    forall_mem_nil _⟩

theorem runsEvolve_refl (S : Store) : RunsEvolve S S [] :=
  runsEvolve_of_eq rfl (sessionsEvolve_refl S)

theorem runsEvolve_setRows {l : RunLedger} (hids : (S.runs.map SessionRun.id).Nodup)
    (hr : S.run? r.id = some r)
    (hl : r.rows.run.state.terminal = true → l.run.state.terminal = true) :
    RunsEvolve S (S.setRows r l) [] := by
  refine ⟨⟨fun a => if a = r then { a with rows := l } else a, ?_, fun a => ?_⟩,
    sessionsEvolve_say _ _ _, forall_mem_nil _⟩
  · rw [append_nil, Store.setRows, updateSession_runs, update]
    refine map_congr_left fun a ha => ?_
    by_cases hid : a.id = r.id
    · rw [if_pos hid, if_pos (eq_of_lookup hids hr ha hid)]
    · rw [if_neg hid, if_neg fun h => hid (congrArg SessionRun.id h)]
  · dsimp only
    split
    · rename_i ha
      subst ha
      refine ⟨rfl, rfl, rfl, rfl, fun hended => ?_⟩
      simp only [SessionRun.active, Bool.not_eq_false'] at hended ⊢
      exact hl hended
    · exact a.follows_refl

/-- A run that `CreateRun` inserts. -/
theorem runsEvolve_createRun {now runID : ℕ} {r : Store.CreateRunRequest} {row : SessionRun}
    (h : S.createRun now runID r = .ok (S', row)) :
    RunsEvolve S S' [] ∨ (RunsEvolve S S' [r.row now runID] ∧ S.run? runID = none) := by
  rw [Store.createRun] at h
  split at h
  · cases h
  · split at h
    · cases h
      exact .inl (runsEvolve_refl S)
    · split_ifs at h with hrevision hfresh
      cases h
      refine .inr ⟨⟨⟨id, ?_, fun r => r.follows_refl⟩, ?_, ?_⟩, by simpa using (not_or.mp hfresh).2⟩
      · rw [map_id, Store.insertRun, updateSession_runs, ensureSession_runs]
      · exact (sessionsEvolve_ensure S r.sessionID).1.trans (sessionsEvolve_say _ _ _)
      · intro n hn
        obtain rfl := mem_singleton.mp hn
        exact spoken_insertRun (sessionsEvolve_ensure S r.sessionID).2

variable {host : Host}

theorem runsEvolve_take {input : Input} {r : AgentInputRequest} {sessionID target expected : ℕ}
    {mode : DispatchMode} {row : SessionRun} {steered : Bool}
    (hids : (S.runs.map SessionRun.id).Nodup)
    (h : S.take host input r sessionID mode target expected = .ok (S', row, steered)) :
    RunsEvolve S S' [] ∨ ∃ n : SessionRun, RunsEvolve S S' [n] ∧ S.run? n.id = none ∧
      n.sessionID = sessionID ∧ n.createdAt = input.now ∧ n.id = input.runID := by
  have hcreate : ∀ {c : Store.CreateRunRequest} {S'' : Store} {a : SessionRun},
      c.sessionID = sessionID → S.createRun input.now input.runID c = .ok (S'', a) →
        RunsEvolve S S'' [] ∨ ∃ n : SessionRun, RunsEvolve S S'' [n] ∧ S.run? n.id = none ∧
          n.sessionID = sessionID ∧ n.createdAt = input.now ∧ n.id = input.runID := by
    intro c S'' a hsession hok
    rcases runsEvolve_createRun hok with hsame | ⟨hnew, hfresh⟩
    · exact .inl hsame
    · exact .inr ⟨_, hnew, hfresh, hsession, rfl, rfl⟩
  rw [Store.take] at h
  split at h
  · rw [Store.enqueueSteerOrCreateRun] at h
    split at h
    · cases h
    · split at h
      · split_ifs at h
        cases h
        exact .inl (runsEvolve_refl S)
      · split at h
        · cases h
          exact .inl (runsEvolve_refl S)
        · split at h
          · rename_i a ha
            obtain ⟨hrun, -⟩ := Option.filter_eq_some_iff.mp ha
            have hid := lookup_key hrun
            split at h
            · cases h
            · rename_i l hl
              cases h
              have hwrote : Wrote row.rows input.now (.enqueueSteer r.command false) l :=
                wrote_of_apply hl
              refine .inl (runsEvolve_setRows hids (hid ▸ hrun) fun hterminal => ?_)
              rwa [state_of_terminal hwrote hterminal]
          · split at h
            · cases h
            · rename_i hok
              cases h
              exact hcreate rfl hok
  · split at h
    · cases h
    · rename_i hok
      cases h
      exact hcreate rfl hok

/-- **What a step of the submissions does to the runs.** -/
theorem runsEvolve_desk (host : Host) (D : Desk) (m : Move)
    (hids : (D.store.runs.map SessionRun.id).Nodup) :
    RunsEvolve D.store (D.step host m).store [] ∨ ∃ caller input r sessionID mode target expected,
      m = .advance caller input ∧
      D.callers caller = .submit r sessionID mode target expected ∧ input.fault = false ∧
      ∃ n : SessionRun, RunsEvolve D.store (D.step host m).store [n] ∧
        D.store.run? n.id = none ∧ n.sessionID = sessionID ∧ n.createdAt = input.now ∧
        n.id = input.runID := by
  have hsame : RunsEvolve D.store D.store [] := runsEvolve_refl D.store
  cases m with
  | submit caller r =>
    rw [Desk.step]
    split <;> exact .inl hsame
  | mutateSession sessionID =>
    exact .inl (runsEvolve_of_eq rfl
      (sessionsEvolve_update _ _ _ (fun _ => rfl) fun _ _ h => h))
  | mutate runID a =>
    refine .inl ?_
    rw [Desk.step, Store.mutate]
    split
    · exact hsame
    · rename_i r hr
      split
      · obtain rfl : r.id = runID := lookup_key hr
        refine runsEvolve_setRows hids hr fun hterminal => ?_
        rwa [state_of_terminal (wrote_step _ _) hterminal]
      · exact hsame
  | advance caller input =>
    change RunsEvolve D.store ((D.callers caller).step host D.store input).1 [] ∨ _
    cases hcaller : D.callers caller with
    | submit r sessionID mode target expected =>
      by_cases hfault : input.fault = true
      · rw [Caller.step, if_pos hfault]
        exact .inl hsame
      · rw [Caller.step, if_neg hfault]
        cases htake : D.store.take host input r sessionID mode target expected with
        | error e => exact .inl hsame
        | ok result =>
          obtain ⟨S', row, steered⟩ := result
          rcases runsEvolve_take hids htake with hkeep | ⟨n, hnew, hfresh, hn⟩
          · exact .inl hkeep
          · refine .inr ⟨caller, input, r, sessionID, mode, target, expected, rfl, hcaller,
              by simpa using hfault, n, ?_, hfresh, hn⟩
            rw [Desk.step, hcaller, Caller.step, if_neg hfault, htake]
            exact hnew
    | branch r =>
      refine .inl ?_
      rw [Caller.step]
      split
      · exact hsame
      · split
        · exact hsame
        · rename_i hbranch
          exact runsEvolve_of_eq (createSessionBranch_runs hbranch)
            (sessionsEvolve_branch hbranch)
    | _ =>
      refine .inl (runsEvolve_of_eq ?_ ?_)
      all_goals
        simp only [Caller.step]
        repeat' split
      all_goals first | rfl | exact sessionsEvolve_refl _

/-! ### The invariant -/

/-- Behind the gate stands who has no active run in front. -/
structure Gated (F : Floor) : Prop where
  ids : (F.desk.store.runs.map SessionRun.id).Nodup
  named : ∀ id ∈ F.passed, ∃ r ∈ F.desk.store.runs, r.id = id
  first : ∀ r ∈ F.desk.store.runs, r.id ∈ F.passed → ∀ s ∈ F.desk.store.runs,
    s.sessionID = r.sessionID → s.precedes r = true → s.active = false
  turns : ∀ t ∈ F.turns, t.runID ∈ F.passed
  alone : ∀ t ∈ F.turns, ∀ r ∈ F.desk.store.runs, r.id = t.runID → r.chat = true →
    t.waiting = []

theorem gated_empty : Gated .empty where
  ids := nodup_nil
  named := forall_mem_nil _
  first := forall_mem_nil _
  turns := forall_mem_nil _
  alone := forall_mem_nil _

variable {more : List SessionRun}

theorem ids_of_evolve (h : RunsEvolve S S' more) (hids : (S.runs.map SessionRun.id).Nodup)
    (hmore : more = [] ∨ ∃ n, more = [n] ∧ S.run? n.id = none) :
    (S'.runs.map SessionRun.id).Nodup := by
  obtain ⟨f, hf, hfollows⟩ := h.runs
  have hmap : S'.runs.map SessionRun.id = S.runs.map SessionRun.id ++ more.map SessionRun.id := by
    rw [hf, map_append, map_map]
    congr 1
    exact map_congr_left fun r _ => (hfollows r).id
  rw [hmap]
  rcases hmore with rfl | ⟨n, rfl, hfresh⟩
  · simpa using hids
  · refine nodup_append.mpr ⟨hids, by simp, ?_⟩
    rintro _ hid _ hn rfl
    obtain ⟨a, ha, haid⟩ := mem_map.mp hid
    obtain rfl := mem_singleton.mp hn
    exact lookup_eq_none.mp hfresh a ha haid

/-- The runs change, and new ones come behind those that have passed the gate. -/
theorem gated_desk {F : Floor} {D' : Desk} (h : Gated F)
    (hruns : RunsEvolve F.desk.store D'.store more)
    (hmore : more = [] ∨ ∃ n, more = [n] ∧ F.desk.store.run? n.id = none ∧
      ∀ s ∈ F.desk.store.runs, s.sessionID = n.sessionID → s.id ∈ F.passed →
        s.precedes n = true) : Gated { F with desk := D' } := by
  have hids := ids_of_evolve hruns h.ids (hmore.imp id fun ⟨n, hn, hfresh, _⟩ => ⟨n, hn, hfresh⟩)
  obtain ⟨f, hf, hfollows⟩ := hruns.runs
  -- a new run has not passed the gate
  have hnew : ∀ n ∈ more, n.id ∉ F.passed := by
    intro n hn hpassed
    rcases hmore with rfl | ⟨_, rfl, hfresh, -⟩
    · exact absurd hn not_mem_nil
    · obtain rfl := mem_singleton.mp hn
      obtain ⟨r, hr, hid⟩ := h.named _ hpassed
      exact lookup_eq_none.mp hfresh r hr hid
  have hold : ∀ r ∈ D'.store.runs, r.id ∈ F.passed → ∃ a ∈ F.desk.store.runs, f a = r := by
    intro r hr hpassed
    rw [hf] at hr
    rcases mem_append.mp hr with hr | hr
    · exact mem_map.mp hr
    · exact absurd hpassed (hnew r hr)
  refine ⟨hids, fun id hid => ?_, fun r hr hpassed s hs hsession hprecedes => ?_, h.turns,
    fun t ht r hr hid hchat => ?_⟩
  · obtain ⟨r, hr, rfl⟩ := h.named id hid
    refine ⟨f r, ?_, (hfollows r).id⟩
    rw [show D'.store.runs = _ from hf]
    exact mem_append_left _ (mem_map_of_mem hr)
  · obtain ⟨a, ha, rfl⟩ := hold r hr hpassed
    rw [show D'.store.runs = _ from hf] at hs
    rcases mem_append.mp hs with hs | hs
    · obtain ⟨b, hb, rfl⟩ := mem_map.mp hs
      rw [(hfollows b).precedes (hfollows a)] at hprecedes
      rw [(hfollows b).sessionID, (hfollows a).sessionID] at hsession
      rw [(hfollows a).id] at hpassed
      exact (hfollows b).ended (h.first a ha hpassed b hb hsession hprecedes)
    · -- the new run comes after the one behind the gate
      rcases hmore with rfl | ⟨n, rfl, -, hafter⟩
      · exact absurd hs not_mem_nil
      · obtain rfl := mem_singleton.mp hs
        rw [(hfollows a).id] at hpassed
        rw [(hfollows a).sessionID] at hsession
        have hbefore := hafter a ha hsession.symm hpassed
        rw [← (hfollows a).precedes s.follows_refl] at hbefore
        rw [precedes_asymm hbefore] at hprecedes
        cases hprecedes
  · have hpassed : r.id ∈ F.passed := hid ▸ h.turns t ht
    obtain ⟨a, ha, rfl⟩ := hold r hr hpassed
    rw [(hfollows a).id] at hid
    rw [(hfollows a).chat] at hchat
    exact h.alone t ht a ha hid hchat

/-- **The step lemma of the queue.** -/
theorem gated_step (F : Floor) (m : FloorMove) (hm : queueable F m = true) (h : Gated F) :
    Gated (F.step host m) := by
  cases m with
  | desk m =>
    rcases runsEvolve_desk host F.desk m h.ids with hkeep |
      ⟨caller, input, r, sessionID, mode, target, expected, rfl, hcaller, hfault, n, hnew, hfresh,
        hsession, hcreated, hid⟩
    · exact gated_desk h hkeep (.inl rfl)
    · refine gated_desk h hnew (.inr ⟨n, rfl, hfresh, fun s hs hsame hpassed => ?_⟩)
      simp only [queueable, hcaller, hfault, Bool.false_or] at hm
      have hbefore := all_eq_true.mp hm s
        (mem_filter.mpr ⟨hs, by simpa using hsame.trans hsession⟩)
      simp only [hpassed, not_true, false_or, decide_eq_true_eq] at hbefore
      simpa only [SessionRun.precedes, hcreated, hid, decide_eq_true_eq] using hbefore
  | gate runID =>
    rw [Floor.step]
    split
    · exact h
    · rename_i r hr
      split
      · exact h
      · rename_i hfree
        have hid := lookup_key hr
        have hmem := mem_of_lookup hr
        refine ⟨h.ids, ?_, ?_, fun t ht => mem_cons_of_mem _ (h.turns t ht), h.alone⟩
        · intro id hpassed
          rcases mem_cons.mp hpassed with rfl | hpassed
          · exact ⟨r, hmem, hid⟩
          · exact h.named id hpassed
        · intro a ha hpassed s hs hsession hprecedes
          rcases mem_cons.mp hpassed with hrun | hpassed
          · obtain rfl := eq_of_lookup h.ids hr ha hrun
            have hopen := any_eq_false.mp (Bool.not_eq_true _ ▸ hfree) s
              (mem_filter.mpr ⟨hs, by simpa using hsession⟩)
            by_contra hactive
            have hne : s.id ≠ a.id := fun heq => by
              obtain rfl := eq_of_lookup h.ids hr hs (heq.trans hid)
              rw [precedes_irrefl] at hprecedes
              cases hprecedes
            exact hopen (by simpa [hne, hprecedes] using hactive)
          · exact h.first a ha hpassed s hs hsession hprecedes
  | turn runID =>
    rw [Floor.step]
    split
    · exact h
    · rename_i r hr
      split
      · rename_i hpassed
        refine ⟨h.ids, h.named, h.first, fun t ht => ?_, fun t ht a ha hid hchat => ?_⟩
        · rcases mem_append.mp ht with ht | ht
          · exact h.turns t ht
          · obtain rfl := mem_singleton.mp ht
            exact hpassed
        · rcases mem_append.mp ht with ht | ht
          · exact h.alone t ht a ha hid hchat
          · obtain rfl := mem_singleton.mp ht
            obtain rfl := eq_of_lookup h.ids hr ha hid
            simpa [queueable, hr, hchat] using hm
      · exact h

/-- **Queued inputs wait their turn**, over every run in which new runs come after those that
have passed the gate and no chat turn is taken while a run waits behind. -/
theorem queue_in_order (host : Host) (moves : List FloorMove)
    (hmoves : Along (Floor.step host) (fun F m => queueable F m = true) .empty moves) :
    InTurn (run (Floor.step host) .empty moves) := by
  have h : Gated (run (Floor.step host) .empty moves) :=
    run_induction gated_step hmoves gated_empty
  refine ⟨?_, ?_, ?_⟩
  · rintro r s ⟨hr, ⟨t, ht, htr⟩, hactive⟩ ⟨hs, ⟨u, hu, hus⟩, hactive'⟩ hsession
    by_contra hne
    have hid : r.id ≠ s.id := fun heq => hne (inj_on_of_nodup_map h.ids hr hs heq)
    rcases precedes_total hid with hprecedes | hprecedes
    · have := h.first s hs (hus ▸ h.turns u hu) r hr hsession hprecedes
      rw [hactive] at this
      cases this
    · have := h.first r hr (htr ▸ h.turns t ht) s hs hsession.symm hprecedes
      rw [hactive'] at this
      cases this
  · intro t ht r hr hid s hs hsession hprecedes
    exact h.first r hr (hid ▸ h.turns t ht) s hs hsession hprecedes
  · intro t ht r hr hid hchat e _ _
    rw [h.alone t ht r hr hid hchat]
    exact not_mem_nil

/-! ### Two inputs of a conversation -/

/-- A run starts and takes a turn; an input is queued behind it. -/
def queuedInput : List FloorMove :=
  startedRun.map .desk ++ [.gate 1, .turn 1] ++
    ([.submit 1 ⟨2, 101, 0, bytes "and then", false, some .queue, 1, true⟩,
      .advance 1 ⟨30, 2, false, true⟩, .advance 1 ⟨31, 2, false, true⟩,
      .advance 1 ⟨32, 2, false, true⟩, .advance 1 ⟨33, 2, false, true⟩,
      .advance 1 ⟨34, 2, false, true⟩].map .desk) ++ [.gate 2]

theorem queue_in_order_queuedInput :
    InTurn (run (Floor.step plainHost) .empty queuedInput) :=
  queue_in_order plainHost queuedInput (by decide)

/-- The next turn of the run reads what the input says that waits behind it. -/
theorem turn_reads_queued :
    ¬ InTurn (run (Floor.step plainHost) .empty (queuedInput ++ [.turn 1])) := by
  intro h
  have hturn : ∃ t ∈ (run (Floor.step plainHost) .empty (queuedInput ++ [.turn 1])).turns,
      t.runID = 1 ∧ ∃ e ∈ t.request, e.message.role = .user ∧ e.runID ∈ t.waiting := by decide
  have hrun : ∃ r ∈ (run (Floor.step plainHost) .empty
      (queuedInput ++ [.turn 1])).desk.store.runs, r.id = 1 ∧ r.chat = true := by decide
  obtain ⟨t, ht, hid, e, he, hrole, hwaiting⟩ := hturn
  obtain ⟨r, hr, hrid, hchat⟩ := hrun
  exact h.clean t ht r hr (hrid.trans hid.symm) hchat e he hrole hwaiting

end GoNavi.Harness
