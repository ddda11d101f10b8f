import GoNavi.Machine.Fallible
import GoNavi.Syncjob.Manager

/-! # What a request makes of the runs and the jobs

A request works on the runs one by one, adds a queued run, or deletes runs (`runs_operationOf`).
What it can make of one run is listed once (`RunTurn`): **a run that is over is never touched
again**, and a run gets an owner only when it is claimed. -/

namespace GoNavi.Syncjob

open Scan Fallible List

variable {δ : Type}

/-! ### Turns -/

/-- What a request can make of a run; `claim` is the run that it claims, with the token that it
has drawn. -/
inductive RunTurn (claim : Option (Text × Text)) : RunRecord → RunRecord → Prop where
  | same (r : RunRecord) : RunTurn claim r r
  | claimed {r r' : RunRecord} (hid : r'.id = r.id) (hjob : r'.jobID = r.jobID)
      (hbefore : r.status = .queued) (hafter : r'.status = .running)
      (hclaim : claim = some (r.id, r'.ownerToken)) : RunTurn claim r r'
  | worked {r r' : RunRecord} (hid : r'.id = r.id) (hjob : r'.jobID = r.jobID)
      (hbefore : active r.status) (hafter : r'.status = r.status)
      (howner : r'.ownerToken = r.ownerToken) : RunTurn claim r r'
  | stopping {r r' : RunRecord} (hid : r'.id = r.id) (hjob : r'.jobID = r.jobID)
      (hbefore : active r.status) (hafter : r'.status = .cancelling)
      (howner : r'.ownerToken = r.ownerToken) : RunTurn claim r r'
  | ended {r r' : RunRecord} (hid : r'.id = r.id) (hjob : r'.jobID = r.jobID)
      (hbefore : pending r.status) (hafter : terminalRunStatus r'.status)
      (howner : r'.ownerToken = []) : RunTurn claim r r'

variable {status : RunStatus}

theorem not_active_of_terminal (h : terminalRunStatus status) :
    ¬ active status := by
  cases status <;> simp_all [terminalRunStatus, active]

section turns

variable {claim : Option (Text × Text)} {r r' : RunRecord}

theorem RunTurn.id_eq (h : RunTurn claim r r') : r'.id = r.id := by
  cases h <;> first | rfl | assumption

theorem RunTurn.job_eq (h : RunTurn claim r r') : r'.jobID = r.jobID := by
  cases h <;> first | rfl | assumption

theorem not_pending_of_terminal (h : terminalRunStatus status) :
    ¬ pending status := by
  cases status <;> simp_all [terminalRunStatus, pending]

theorem pending_of_active (h : active status) : pending status := by
  cases status <;> simp_all [active, pending]

/-- **A run that is over is left as it is.** -/
theorem RunTurn.terminal_same (h : RunTurn claim r r') (hover : terminalRunStatus r.status) :
    r' = r := by
  have hidle : ¬ active r.status := not_active_of_terminal hover
  cases h with
  | same => rfl
  | claimed hid hjob hbefore hafter hclaim =>
    rw [hbefore] at hover
    cases hover
  | worked hid hjob hbefore hafter howner => exact absurd hbefore hidle
  | stopping hid hjob hbefore hafter howner => exact absurd hbefore hidle
  | ended hid hjob hbefore hafter howner =>
    exact absurd hbefore (not_pending_of_terminal hover)

theorem RunTurn.queued_same (h : RunTurn claim r r') (hqueued : r'.status = .queued) :
    r' = r := by
  cases h with
  | same => rfl
  | claimed hid hjob hbefore hafter hclaim =>
    rw [hafter] at hqueued
    cases hqueued
  | worked hid hjob hbefore hafter howner =>
    rw [← hafter, hqueued] at hbefore
    cases hbefore
  | stopping hid hjob hbefore hafter howner =>
    rw [hafter] at hqueued
    cases hqueued
  | ended hid hjob hbefore hafter howner =>
    rw [hqueued] at hafter
    cases hafter

/-- A run that is worked on has been claimed now, or was worked on by the same owner before. -/
theorem RunTurn.active_before (h : RunTurn claim r r') (hactive : active r'.status) :
    (r.status = .queued ∧ claim = some (r.id, r'.ownerToken)) ∨
      (active r.status ∧ r'.ownerToken = r.ownerToken) := by
  cases h with
  | same => exact .inr ⟨hactive, rfl⟩
  | claimed hid hjob hbefore hafter hclaim => exact .inl ⟨hbefore, hclaim⟩
  | worked hid hjob hbefore hafter howner => exact .inr ⟨hbefore, howner⟩
  | stopping hid hjob hbefore hafter howner => exact .inr ⟨hbefore, howner⟩
  | ended hid hjob hbefore hafter howner => exact absurd hactive (not_active_of_terminal hafter)

end turns

/-! ### Transactions -/

/-- A transaction keeps what its operation keeps when it succeeds. -/
theorem transaction_keeps {α : Type} {P : Store δ → Prop} {world : World}
    {operation : Store δ → Except Err (α × Store δ)} {s : Store δ} (h : P s)
    (hkeeps : ∀ result s', operation s = .ok (result, s') → P s') :
    P (transaction world operation s).2 := by
  unfold transaction
  split
  · exact h
  · split
    · exact hkeeps _ _ ‹_›
    · exact h

theorem runs_upsertJob (definition : JobDefinition δ) (s : Store δ) :
    (upsertJob definition s).runs = s.runs := by
  unfold upsertJob
  split <;> rfl

theorem runs_appendRunEvent {world : World} {event event' : RunEvent} {s s' : Store δ}
    (h : appendRunEvent world event s = .ok (event', s')) : s'.runs = s.runs := by
  unfold appendRunEvent at h
  dsimp only at h
  split at h
  · cases h
  · obtain ⟨run, _, h⟩ := bind_eq_ok.mp h
    rw [pure_eq_ok] at h
    cases h
    rfl

/-! ### What the operations write -/

section writes

variable {world : World} {s s' : Store δ} {run : RunRecord} {id ownerToken : Text} {nowMillis : ℤ}

theorem getJob_state {definition : JobDefinition δ} (hget : getJob id s = .ok (definition, s')) :
    s' = s := by
  unfold getJob at hget
  split at hget
  · cases hget
    rfl
  · cases hget

theorem getRun_state (hget : getRun id s = .ok (run, s')) :
    s' = s := by
  unfold getRun at hget
  cases hfind : findRun (trimSpace id) s with
  | error err =>
    rw [hfind] at hget
    cases hget
  | ok run =>
    rw [hfind] at hget
    cases hget
    rfl

variable {done : Unit}

theorem saveJob_state {definitions : Definitions δ} {definition saved : JobDefinition δ}
    (h : saveJob definitions world definition s = .ok (saved, s')) :
    s' = upsertJob saved s := by
  obtain ⟨definition', _, h⟩ := bind_eq_ok.mp h
  rw [pure_eq_ok] at h
  cases h
  rfl

theorem purgeJob_state {purged : Bool} (h : purgeJob id s = .ok (purged, s')) :
    s' = s ∨ s' = { (deleteRuns (fun r => r.jobID = trimSpace id) s).2 with
      jobs := s.jobs.filter fun row => row.id ≠ trimSpace id } := by
  unfold purgeJob at h
  dsimp only at h
  split at h
  · cases h
    exact .inl rfl
  · split at h
    · cases h
      exact .inl rfl
    · cases h
      exact .inr rfl

theorem touchRunOwned_state (h : touchRunOwned world id ownerToken nowMillis s = .ok (done, s')) :
    (∃ r ∈ s.runs, ownedBy (trimSpace id) ownerToken r) ∧
      s' = (updateRuns (ownedBy (trimSpace id) ownerToken) (fun r => { r with
        heartbeatAt := timeOr world nowMillis, updatedAt := timeOr world nowMillis }) s).2 := by
  unfold touchRunOwned at h
  dsimp only at h
  split_ifs at h with _ haffected
  cases h
  exact ⟨countP_pos_iff.mp (Nat.pos_of_ne_zero haffected), rfl⟩

/-- What progress writes into a run. -/
def progressRecord (progress : RunProgress) (now : ℤ) (r : RunRecord) : RunRecord :=
  { r with
    current := progress.current
    total := progress.total
    table := trimSpace progress.table
    stage := trimSpace progress.stage
    message := progress.message
    heartbeatAt := now
    updatedAt := now }

/-- A run that its owner works on. -/
def runningFor (id ownerToken : Text) (r : RunRecord) : Bool :=
  r.id = id ∧ r.ownerToken = ownerToken ∧ r.status = .running

theorem active_of_runningFor {r : RunRecord} (h : runningFor id ownerToken r = true) :
    active r.status := by
  rw [runningFor, decide_eq_true_eq] at h
  rw [h.2.2]
  rfl

theorem updateRunProgressOwned_state {progress : RunProgress}
    (h : updateRunProgressOwned world id ownerToken progress nowMillis s = .ok (done, s')) :
    (∃ r ∈ s.runs, runningFor (trimSpace id) ownerToken r) ∧
      s' = (updateRuns (runningFor (trimSpace id) ownerToken)
        (progressRecord progress (timeOr world nowMillis)) s).2 := by
  unfold updateRunProgressOwned at h
  dsimp only at h
  split_ifs at h with _ _ haffected
  cases h
  exact ⟨countP_pos_iff.mp (Nat.pos_of_ne_zero haffected), rfl⟩

theorem completeWithEvent_ok {status : RunStatus}
    {outcome : ExecutionOutcome} {message : Text} {result : RunRecord × RunEvent}
    (h : completeRunOwnedWithTerminalEvent world id ownerToken status outcome message nowMillis s =
      .ok (result, s')) :
    ∃ completion updated completed event,
      completeRunOwned world id ownerToken status outcome message nowMillis s =
        .ok (completion, updated) ∧
      findRun (trimSpace id) updated = .ok completed ∧
      event.runID = completed.id ∧ event.type = terminalEventTypeForStatus status ∧
      event.status = completed.status ∧
      appendRunEvent world event updated = .ok (result.2, s') := by
  obtain ⟨⟨completion, updated⟩, hcomplete, h⟩ := bind_eq_ok.mp h
  obtain ⟨completed, hfind, h⟩ := bind_eq_ok.mp h
  obtain ⟨⟨event, logged⟩, happend, h⟩ := bind_eq_ok.mp h
  rw [pure_eq_ok] at h
  cases h
  exact ⟨completion, updated, completed, _, hcomplete, hfind, rfl, rfl, rfl, happend⟩

theorem deleteTerminalRun_state (h : deleteTerminalRun id s = .ok (done, s')) :
    s' = (deleteRuns (fun r => r.id = id ∧ terminalRunStatus r.status) s).2 := by
  unfold deleteTerminalRun at h
  dsimp only at h
  split_ifs at h
  cases h
  rfl

end writes

/-! ### Operations -/

/-- What becomes of the runs of a store; `creates` is the job that a run is created for. -/
inductive RunsTurn (claim : Option (Text × Text)) (creates : Option Text) (deletes : Bool)
    (runs : List RunRecord) : List RunRecord → Prop where
  | worked (f : RunRecord → RunRecord) (h : ∀ r ∈ runs, RunTurn claim r (f r)) :
    RunsTurn claim creates deletes runs (runs.map f)
  | added (run : RunRecord) (hcreates : creates = some run.jobID) (hqueued : run.status = .queued)
      (hnew : ∀ r ∈ runs, r.id ≠ run.id) : RunsTurn claim creates deletes runs (runs ++ [run])
  | deleted (hdeletes : deletes = true) (cond : RunRecord → Bool) :
    RunsTurn claim creates deletes runs (runs.filter fun r => ¬ cond r)

theorem RunsTurn.refl (claim : Option (Text × Text)) (creates : Option Text) (deletes : Bool)
    (runs : List RunRecord) : RunsTurn claim creates deletes runs runs := by
  have h : RunsTurn claim creates deletes runs (runs.map id) := .worked id fun r _ => .same r
  rwa [map_id] at h

section operations

variable {world : World} {s s' : Store δ} {run : RunRecord}

theorem prepareRunForInsert_ok {world : World} {prepared : RunRecord}
    (h : prepareRunForInsert world run = .ok prepared) :
    prepared.jobID = run.jobID ∧ (trimSpace run.id ≠ [] → prepared.id = run.id) := by
  unfold prepareRunForInsert at h
  dsimp only at h
  split at h
  · cases h
  · cases h
    exact ⟨rfl, fun hid => if_neg hid⟩

theorem runs_createRun {policy : Text} {eventCreatedAt : ℤ}
    {result : RunRecord × RunEvent}
    (hcreate : createRunWithPolicyAndQueuedEvent world run policy eventCreatedAt s =
      .ok (result, s')) :
    result.1.status = .queued ∧ (∀ r ∈ s.runs, r.id ≠ result.1.id) ∧
      s'.runs = s.runs ++ [result.1] ∧ s'.jobs = s.jobs ∧ result.1.jobID = run.jobID := by
  obtain ⟨forbid, _, hcreate⟩ := bind_eq_ok.mp hcreate
  obtain ⟨run', hprepared, hcreate⟩ := bind_eq_ok.mp hcreate
  split at hcreate
  · cases hcreate
  · rename_i hqueued
    obtain ⟨inserted, hinsert, hcreate⟩ := bind_eq_ok.mp hcreate
    rw [pure_eq_ok] at hcreate
    cases hcreate
    unfold insertRun at hinsert
    split at hinsert
    · cases hinsert
    · split at hinsert
      · cases hinsert
      · rename_i hnew
        split at hinsert
        · cases hinsert
        · cases hinsert
          refine ⟨not_not.mp hqueued, ?_, rfl, rfl, (prepareRunForInsert_ok hprepared).1⟩
          intro r hr hid
          exact hnew ⟨r, hr, hid⟩

theorem createRun_prepared {policy : Text} {eventCreatedAt : ℤ}
    {result : RunRecord × RunEvent}
    (hcreate : createRunWithPolicyAndQueuedEvent world run policy eventCreatedAt s =
      .ok (result, s')) : prepareRunForInsert world run = .ok result.1 := by
  obtain ⟨forbid, _, hcreate⟩ := bind_eq_ok.mp hcreate
  obtain ⟨run', hprepared, hcreate⟩ := bind_eq_ok.mp hcreate
  split at hcreate
  · cases hcreate
  · obtain ⟨inserted, _, hcreate⟩ := bind_eq_ok.mp hcreate
    rw [pure_eq_ok] at hcreate
    cases hcreate
    exact hprepared

variable {completion : Completion}

theorem turn_completion {claim : Option (Text × Text)} {r : RunRecord}
    (hover : terminalRunStatus completion.status) (hactive : active r.status) :
    RunTurn claim r (completion.apply r) :=
  .ended rfl rfl (pending_of_active hactive) hover rfl

theorem active_of_ownedBy {id ownerToken : Text} {r : RunRecord} (h : ownedBy id ownerToken r) :
    r.id = id ∧ r.ownerToken = ownerToken ∧ active r.status := by
  unfold ownedBy at h
  rwa [decide_eq_true_eq] at h

theorem completeRunOwned_ok {id ownerToken message : Text}
    {outcome : ExecutionOutcome} {nowMillis : ℤ}
    (hcomplete : completeRunOwned world id ownerToken status outcome message nowMillis s =
      .ok (completion, s')) :
    terminalRunStatus completion.status ∧ completion.status = status ∧
      (∃ r ∈ s.runs, ownedBy (trimSpace id) ownerToken r) ∧
      s' = (updateRuns (ownedBy (trimSpace id) ownerToken) completion.apply s).2 := by
  unfold completeRunOwned at hcomplete
  split at hcomplete
  · cases hcomplete
  · obtain ⟨completion', hnormal, hcomplete⟩ := bind_eq_ok.mp hcomplete
    unfold normalizeTerminalRunCompletion at hnormal
    split at hnormal
    · rename_i hover
      dsimp only at hcomplete
      split at hcomplete
      · cases hcomplete
      · rename_i haffected
        cases hnormal
        cases hcomplete
        have hpos : 0 < s.runs.countP (ownedBy (trimSpace id) ownerToken) :=
          Nat.pos_of_ne_zero haffected
        exact ⟨hover, rfl, countP_pos_iff.mp hpos, rfl⟩
    · cases hnormal

theorem turn_cancelRecord {claim : Option (Text × Text)} {now : ℤ} {canceledMessage : Text}
    {otherMessage : Text → Text} {r : RunRecord} (hpending : pending r.status) :
    RunTurn claim r (cancelRecord now canceledMessage otherMessage r) := by
  unfold cancelRecord
  split
  · exact .ended rfl rfl hpending rfl rfl
  · rename_i hworked
    refine .stopping rfl rfl ?_ rfl rfl
    cases hstatus : r.status <;> simp_all [pending, active]

/-- A recovery leaves a run as it is or ends it. -/
def Recovered (r r' : RunRecord) : Prop :=
  r' = r ∨ (active r.status ∧ r'.id = r.id ∧ r'.jobID = r.jobID ∧
    terminalRunStatus r'.status ∧ r'.ownerToken = [])

theorem terminal_recoverRecord (now : ℤ) (candidate r : RunRecord) :
    terminalRunStatus (recoverRecord now candidate r).status := by
  unfold recoverRecord
  dsimp only
  split <;> rfl

/-- The loop of the recovery; induction on the candidates. -/
theorem recovered_of_recoverRuns {cutoff now : ℤ} {candidates recovered result : List RunRecord}
    (hactive : ∀ candidate ∈ candidates, active candidate.status)
    (hrecover : recoverRuns cutoff now candidates recovered s = .ok (result, s')) :
    ∃ f : RunRecord → RunRecord, s' = { s with runs := s.runs.map f } ∧
      ∀ r, Recovered r (f r) ∧ (f r).createdAt = r.createdAt := by
  induction candidates generalizing s recovered with
  | nil =>
    cases hrecover
    exact ⟨id, by rw [map_id], fun r => ⟨.inl rfl, rfl⟩⟩
  | cons candidate candidates ih =>
    have hrest : ∀ candidate ∈ candidates, active candidate.status :=
      fun c hc => hactive c (mem_cons_of_mem _ hc)
    have hstep : ∀ {recovered : List RunRecord} {updated : Store δ},
        updated = (updateRuns (fun r : RunRecord => decide (r.id = candidate.id ∧
          r.status = candidate.status ∧ r.ownerToken = candidate.ownerToken ∧
          (r.heartbeatAt = 0 ∨ r.heartbeatAt ≤ cutoff))) (recoverRecord now candidate) s).2 →
        recoverRuns cutoff now candidates recovered updated = .ok (result, s') →
        ∃ f : RunRecord → RunRecord, s' = { s with runs := s.runs.map f } ∧
          ∀ r, Recovered r (f r) ∧ (f r).createdAt = r.createdAt := by
      intro recovered updated hupdated hrecover
      obtain ⟨g, hg, hturn⟩ := ih hrest hrecover
      rw [hupdated] at hg
      refine ⟨fun r => g (if decide (r.id = candidate.id ∧ r.status = candidate.status ∧
        r.ownerToken = candidate.ownerToken ∧ (r.heartbeatAt = 0 ∨ r.heartbeatAt ≤ cutoff))
        then recoverRecord now candidate r else r), ?_, ?_⟩
      · rw [hg]
        exact congrArg (fun runs => { s with runs }) map_map
      · intro r
        dsimp only
        split
        · rename_i hmet
          rw [decide_eq_true_eq] at hmet
          have hover := terminal_recoverRecord now candidate r
          have hworked : active r.status := by
            rw [hmet.2.1]
            exact hactive candidate mem_cons_self
          obtain ⟨hrecovered, hcreated⟩ := hturn (recoverRecord now candidate r)
          refine ⟨?_, hcreated⟩
          cases hrecovered with
          | inl hsame =>
            rw [hsame]
            exact .inr ⟨hworked, rfl, rfl, hover, rfl⟩
          | inr hagain => exact absurd hagain.1 (not_active_of_terminal hover)
        · exact hturn r
    unfold recoverRuns at hrecover
    dsimp only at hrecover
    split at hrecover
    · exact hstep rfl hrecover
    · obtain ⟨run, _, hrecover⟩ := bind_eq_ok.mp hrecover
      exact hstep rfl hrecover

theorem active_of_stale {cutoff : ℤ} {r : RunRecord} (h : stale cutoff r) : active r.status := by
  unfold stale at h
  rw [decide_eq_true_eq] at h
  exact h.1

theorem recovered_of_interrupt {cutoffMillis nowMillis : ℤ} {result : List RunRecord}
    (hinterrupt : interruptStaleRuns world cutoffMillis nowMillis s = .ok (result, s')) :
    ∃ f : RunRecord → RunRecord, s' = { s with runs := s.runs.map f } ∧
      ∀ r, Recovered r (f r) ∧ (f r).createdAt = r.createdAt := by
  refine recovered_of_recoverRuns ?_ hinterrupt
  intro candidate hcandidate
  rw [mem_insertionSort, mem_filter] at hcandidate
  exact active_of_stale hcandidate.2

theorem Recovered.turn {claim : Option (Text × Text)} {r r' : RunRecord} (h : Recovered r r') :
    RunTurn claim r r' := by
  cases h with
  | inl hsame =>
    rw [hsame]
    exact .same r
  | inr hended =>
    obtain ⟨hactive, hid, hjob, hover, howner⟩ := hended
    exact .ended hid hjob (pending_of_active hactive) hover howner

theorem jobs_appendRunEvent {event event' : RunEvent}
    (h : appendRunEvent world event s = .ok (event', s')) : s'.jobs = s.jobs := by
  unfold appendRunEvent at h
  dsimp only at h
  split at h
  · cases h
  · obtain ⟨run, _, h⟩ := bind_eq_ok.mp h
    rw [pure_eq_ok] at h
    cases h
    rfl

/-- The requests that delete runs. -/
def Request.deletes : Request δ → Bool
  | .purgeJob _ | .deleteTerminalRun _ | .clearTerminalRuns _ => true
  | _ => false

/-- The job that a request creates a run for. -/
def Request.creates : Request δ → Option Text
  | .createRun run _ _ => some run.jobID
  | _ => none

/-- The run that a request claims, with the token that it draws. -/
def Request.claim (world : World) : Request δ → Option (Text × Text)
  | .claimRun id _ => some (trimSpace id, world.uuid)
  | _ => none

/-- The requests that work on the runs one by one and leave the jobs and the events. -/
def Request.works : Request δ → Bool
  | .saveJob _ | .purgeJob _ | .createRun .. | .completeRunOwnedWithTerminalEvent ..
  | .deleteTerminalRun _ | .clearTerminalRuns _ | .appendRunEvent _ | .advanceSchedule .. => false
  | _ => true

/-- Every run is worked on by itself, and keeps its time of creation. -/
def Works (claim : Option (Text × Text)) (s s' : Store δ) : Prop :=
  ∃ f : RunRecord → RunRecord, s' = { s with runs := s.runs.map f } ∧
    ∀ run, RunTurn claim run (f run) ∧ (f run).createdAt = run.createdAt

theorem Works.of_eq {claim : Option (Text × Text)} (h : s' = s) : Works claim s s' := by
  refine ⟨id, ?_, fun run => ⟨.same run, rfl⟩⟩
  rw [h, map_id]

theorem Works.update {claim : Option (Text × Text)} {cond : RunRecord → Bool}
    {f : RunRecord → RunRecord} (h : s' = (updateRuns cond f s).2)
    (hturn : ∀ run, cond run → RunTurn claim run (f run))
    (hcreated : ∀ run, (f run).createdAt = run.createdAt) : Works claim s s' := by
  refine ⟨_, h, fun run => ?_⟩
  split
  · exact ⟨hturn run ‹_›, hcreated run⟩
  · exact ⟨.same run, rfl⟩

theorem Works.cancel {claim : Option (Text × Text)} {cond : RunRecord → Bool} {now : ℤ}
    {canceledMessage : Text} {otherMessage : Text → Text}
    (h : s' = (updateRuns cond (cancelRecord now canceledMessage otherMessage) s).2)
    (hpending : ∀ run, cond run → pending run.status) : Works claim s s' := by
  refine .update h (fun run hrun => turn_cancelRecord (hpending run hrun)) fun run => ?_
  unfold cancelRecord
  split <;> rfl

/-- **What a request makes of the runs that it works on.** -/
theorem works_operationOf {definitions : Definitions δ} {r : Request δ} (hworks : r.works = true)
    {result : r.Result} (hop : operationOf definitions world r s = .ok (result, s')) :
    Works (r.claim world) s s' := by
  cases r with
  | getJob id => exact .of_eq (getJob_state hop)
  | getRun id => exact .of_eq (getRun_state hop)
  | jobExists id | listDueJobs nowMillis =>
    cases hop
    exact .of_eq rfl
  | requestCancelRunsForJob jobID nowMillis reason =>
    cases hop
    exact .cancel rfl fun run hrun => (Bool.and_eq_true_iff.mp hrun).2
  | requestCancelRun id nowMillis =>
    cases hop
    exact .cancel rfl fun run hrun => (Bool.and_eq_true_iff.mp hrun).2
  | claimRun id nowMillis =>
    cases hop
    refine .update rfl (fun run hrun => ?_) fun run => rfl
    unfold claimable at hrun
    rw [decide_eq_true_eq] at hrun
    refine .claimed rfl rfl hrun.2.1 rfl ?_
    rw [hrun.1]
    rfl
  | touchRunOwned id ownerToken nowMillis =>
    refine .update (touchRunOwned_state hop).2 (fun run hrun => ?_) fun run => rfl
    exact .worked rfl rfl (active_of_ownedBy hrun).2.2 rfl rfl
  | updateRunProgressOwned id ownerToken progress nowMillis =>
    refine .update (updateRunProgressOwned_state hop).2 (fun run hrun => ?_) fun run => rfl
    exact .worked rfl rfl (active_of_runningFor hrun) rfl rfl
  | completeRunOwned id ownerToken status outcome message nowMillis =>
    obtain ⟨hover, _, _, hs'⟩ := completeRunOwned_ok hop
    refine .update hs' (fun run hrun => ?_) fun run => rfl
    exact turn_completion hover (active_of_ownedBy hrun).2.2
  | interruptStaleRuns cutoffMillis nowMillis =>
    obtain ⟨f, hs', hturn⟩ := recovered_of_interrupt hop
    exact ⟨f, hs', fun run => ⟨(hturn run).1.turn, (hturn run).2⟩⟩
  | _ => cases hworks

/-- A completion with its event is a completion, with the event behind it. -/
theorem works_completeWithEvent {definitions : Definitions δ} {id ownerToken message : Text}
    {outcome : ExecutionOutcome} {nowMillis : ℤ} {result : RunRecord × RunEvent}
    (hop : operationOf definitions world (.completeRunOwnedWithTerminalEvent id ownerToken status
      outcome message nowMillis) s = .ok (result, s')) :
    ∃ f : RunRecord → RunRecord, s'.runs = s.runs.map f ∧ s'.jobs = s.jobs ∧
      ∀ run, RunTurn none run (f run) ∧ (f run).createdAt = run.createdAt := by
  obtain ⟨completion, updated, _, _, hcomplete, _, _, _, _, happend⟩ := completeWithEvent_ok hop
  have hcomplete' : operationOf definitions world (.completeRunOwned id ownerToken status outcome
    message nowMillis) s = .ok (completion, updated) := hcomplete
  obtain ⟨f, rfl, hturn⟩ := works_operationOf rfl hcomplete'
  exact ⟨f, (runs_appendRunEvent happend).trans rfl, (jobs_appendRunEvent happend).trans rfl, hturn⟩

/-- **What a request makes of the runs.** -/
theorem runs_operationOf (definitions : Definitions δ) (r : Request δ) {result : r.Result}
    (hop : operationOf definitions world r s = .ok (result, s')) :
    RunsTurn (r.claim world) r.creates r.deletes s.runs s'.runs := by
  by_cases hworks : r.works = true
  · obtain ⟨f, rfl, hturn⟩ := works_operationOf hworks hop
    exact .worked f fun run _ => (hturn run).1
  · cases r with
    | saveJob definition =>
      rw [saveJob_state hop, runs_upsertJob]
      exact .refl _ _ _ _
    | purgeJob id =>
      rcases purgeJob_state hop with rfl | rfl
      · exact .refl _ _ _ _
      · exact .deleted rfl _
    | createRun run policy eventCreatedAt =>
      obtain ⟨hqueued, hnew, hruns, _, hjob⟩ := runs_createRun hop
      rw [hruns]
      exact .added _ (congrArg some hjob.symm) hqueued hnew
    | completeRunOwnedWithTerminalEvent id ownerToken status outcome message nowMillis =>
      obtain ⟨f, hruns, _, hturn⟩ := works_completeWithEvent hop
      rw [hruns]
      exact .worked f fun run _ => (hturn run).1
    | deleteTerminalRun id =>
      rw [deleteTerminalRun_state hop]
      exact .deleted rfl _
    | clearTerminalRuns jobID =>
      cases hop
      exact .deleted rfl _
    | appendRunEvent event =>
      rw [runs_appendRunEvent hop]
      exact .refl _ _ _ _
    | advanceSchedule id scheduledAt next =>
      cases hop
      exact .refl _ _ _ _
    | _ => exact absurd rfl hworks

/-! ### Jobs -/

/-- **What a request makes of the jobs**: it leaves them, saves one, deletes some, or moves the
next run of one. -/
theorem jobs_operationOf (definitions : Definitions δ) (r : Request δ) {result : r.Result}
    (hop : operationOf definitions world r s = .ok (result, s')) :
    s'.jobs = s.jobs ∨
      (∃ definition saved, r = .saveJob definition ∧
        saveJob definitions world definition s = .ok (saved, s')) ∨
      (r.deletes = true ∧ ∃ p : JobRow δ → Bool, s'.jobs = s.jobs.filter p) ∨
      ∃ id scheduledAt next, r = .advanceSchedule id scheduledAt next ∧
        s'.jobs = s.jobs.map fun row => if dueAt id scheduledAt row then
          { row with nextRunAt := next, lastScheduledAt := scheduledAt } else row := by
  by_cases hworks : r.works = true
  · obtain ⟨f, rfl, _⟩ := works_operationOf hworks hop
    exact .inl rfl
  · cases r with
    | saveJob definition => exact .inr (.inl ⟨definition, result, rfl, hop⟩)
    | purgeJob id =>
      rcases purgeJob_state hop with rfl | rfl
      · exact .inl rfl
      · exact .inr (.inr (.inl ⟨rfl, _, rfl⟩))
    | createRun run policy eventCreatedAt => exact .inl (runs_createRun hop).2.2.2.1
    | completeRunOwnedWithTerminalEvent id ownerToken status outcome message nowMillis =>
      obtain ⟨_, _, hjobs, _⟩ := works_completeWithEvent hop
      exact .inl hjobs
    | deleteTerminalRun id =>
      rw [deleteTerminalRun_state hop]
      exact .inl rfl
    | clearTerminalRuns jobID =>
      cases hop
      exact .inl rfl
    | appendRunEvent event => exact .inl (jobs_appendRunEvent hop)
    | advanceSchedule id scheduledAt next =>
      cases hop
      exact .inr (.inr (.inr ⟨id, scheduledAt, next, rfl, rfl⟩))
    | _ => exact absurd rfl hworks

/-- A request leaves the store as it is, or its operation succeeds. -/
theorem serve_cases (definitions : Definitions δ) (s : Store δ) (r : Request δ) (world : World) :
    (serve definitions s r world).2 = s ∨
      ∃ result, (serve definitions s r world).1 = .ok result ∧
        operationOf definitions world r s = .ok (result, (serve definitions s r world).2) := by
  unfold serve transaction
  split
  · exact .inl rfl
  · split
    · exact .inr ⟨_, rfl, by assumption⟩
    · exact .inl rfl

theorem serve_ok {definitions : Definitions δ} {s : Store δ} {r : Request δ} {world : World}
    {result : r.Result}
    (h : (serve definitions s r world).1 = .ok result) :
    operationOf definitions world r s = .ok (result, (serve definitions s r world).2) := by
  obtain hsame | ⟨result', hanswer, hop⟩ := serve_cases definitions s r world
  · unfold serve transaction at h hsame ⊢
    split at h
    · cases h
    · split at h
      · cases h
        assumption
      · cases h
  · rw [h] at hanswer
    cases hanswer
    exact hop

theorem getRun_found {s s' : Store δ} {id : Text} (hget : getRun id s = .ok (run, s')) :
    run ∈ s.runs ∧ run.id = trimSpace id := by
  unfold getRun findRun at hget
  split at hget
  · rename_i found hfind
    cases hget
    exact ⟨mem_of_find?_eq_some hfind, by simpa using find?_some hfind⟩
  · cases hget

end operations

end GoNavi.Syncjob
