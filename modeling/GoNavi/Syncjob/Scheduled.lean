import GoNavi.Machine.History
import GoNavi.Syncjob.Exclusive

/-! # Scheduled runs

A scheduler, and a process that is started for one job, both create a run for the instant that a
job is due at and then move the schedule on, in two transactions.  The identifier of the run is
derived from the job and the instant.

**An instant is run once at most, and is left only behind its run** or behind another run of the
job that was not over (`scheduled_instants`), however many processes there are and wherever they
stop. -/

namespace GoNavi.Syncjob

open Scan Fallible Callers List

variable {δ : Type}

/-! ### Enqueuing -/

section enqueue

variable (definitions : Definitions δ)

/-- `scheduledRunID`. -/
def scheduledRunID (jobID : Text) (scheduledAt : ℤ) : Text :=
  bytes "sync-run-scheduled-" ++
    definitions.nameUUID (jobID ++ 0 :: bytes (toString scheduledAt))

/-- The run that `createRunWithID` asks for. -/
def newRun (definition : JobDefinition δ) (trigger : RunTrigger) (parentRunID : Text)
    (attempt : ℤ) (runID : Text) : RunRecord where
  id := runID
  jobID := definition.id
  ownerToken := []
  jobRevision := definition.revision
  trigger
  status := .queued
  parentRunID
  attempt
  queuedAt := 0
  startedAt := 0
  finishedAt := 0
  heartbeatAt := 0
  current := 0
  total := 0
  table := []
  stage := []
  rowsInserted := 0
  rowsUpdated := 0
  rowsDeleted := 0
  rowsFailed := 0
  message := []
  resumable := false
  definitionSnapshot := definitions.marshal definition
  createdAt := 0
  updatedAt := 0

/-- `Store.AdvanceScheduleIfDue`. -/
def advanceScheduleIfDue (id : Text) (scheduledAt now : ℤ) : Method δ Unit :=
  onResult (.getJob id) fun definition =>
    if scheduledAt ≤ 0 ∨ definition.nextRunAt ≠ scheduledAt then .ret (.ok ())
    else
      let base := if definitions.catchUp definition then scheduledAt else now
      onResult (.advanceSchedule definition.id scheduledAt
        (definitions.nextRunAt definition base)) fun _ => .ret (.ok ())

/-- `Manager.enqueueScheduled`: the run of the instant is created, and the schedule moves on
behind it, or behind another run of the job. -/
def enqueueScheduled (definition : JobDefinition δ) (now nowMillis : ℤ) : Method δ Unit :=
  let scheduledAt := definition.nextRunAt
  if scheduledAt ≤ 0 then .ret (.ok ())
  else
    let runID := scheduledRunID definitions definition.id scheduledAt
    let advance := advanceScheduleIfDue definitions definition.id scheduledAt now
    .ask (.createRun (newRun definitions definition .schedule [] 1 runID)
        definition.concurrencyPolicy nowMillis) fun
      | .ok _ => advance
      | .error .runAlreadyActive => advance
      | .error _ => onResult (.getRun runID) fun _ => advance

/-- `Manager.EnqueueDueJobRun`. -/
def enqueueDueJobRun (jobID : Text) (now nowMillis : ℤ) : Method δ Unit :=
  onResult (.listDueJobs now) fun due =>
    match due.find? fun candidate => candidate.id = jobID with
    | none => .ret (.ok ())
    | some definition =>
      if definitions.continuous definition then .ret (.ok ())
      else enqueueScheduled definitions definition now nowMillis

/-- The requests of others that delete no runs, and name the job that they save. -/
def Request.keepsInstants : Request δ → Bool
  | .purgeJob _ | .deleteTerminalRun _ | .clearTerminalRuns _ | .advanceSchedule .. => false
  | .saveJob definition => definition.id ≠ [] ∧ trimSpace definition.id = definition.id
  | _ => true

/-- What the processes do beside each other. -/
inductive ScheduleOperation (δ : Type) where
  /-- A scheduler enqueues one of the jobs that it has listed. -/
  | enqueueScheduled (now nowMillis : ℤ) (pick : ℕ)
  | enqueueDueJobRun (jobID : Text) (now nowMillis : ℤ)
  /-- Any other request that keeps the instants. -/
  | request (r : Request δ) (h : r.keepsInstants = true)

def scheduleProgram : ScheduleOperation δ → Method δ Unit
  | .enqueueScheduled now nowMillis pick =>
    onResult (.listDueJobs now) fun due =>
      match due[pick]? with
      | none => .ret (.ok ())
      | some definition => enqueueScheduled definitions definition now nowMillis
  | .enqueueDueJobRun jobID now nowMillis => enqueueDueJobRun definitions jobID now nowMillis
  | .request r _ => onResult r fun _ => .ret (.ok ())

end enqueue

/-! ### Instants -/

section instants

variable (definitions : Definitions δ) (s₀ : Store δ)

/-- The store behind a history. -/
abbrev storeOf (h : List (Action (Request δ) World)) : Store δ :=
  stateOf (serve definitions) s₀ h

/-- The request creates the run of an instant. -/
def createsInstant (jobID : Text) (instant : ℤ) (s : Store δ) : Action (Request δ) World → Bool
  | ⟨.createRun run policy eventCreatedAt, world⟩ =>
    match (serve definitions s (.createRun run policy eventCreatedAt) world).1 with
    | .ok (created, _) => created.id = scheduledRunID definitions jobID instant
    | .error _ => false
  | _ => false

/-- The run of the instant is there. -/
def HasRun (jobID : Text) (instant : ℤ) (s : Store δ) : Prop :=
  ∃ r ∈ s.runs, r.id = scheduledRunID definitions jobID instant

/-- The run of the instant was asked for while another run of the job was not over. -/
def Refused (jobID : Text) (instant : ℤ) (h : List (Action (Request δ) World)) : Prop :=
  ∃ before run policy eventCreatedAt world after,
    h = before ++ ⟨.createRun run policy eventCreatedAt, world⟩ :: after ∧
    run.id = scheduledRunID definitions jobID instant ∧ run.jobID = jobID ∧
    ∃ r ∈ (storeOf definitions s₀ before).runs, r.jobID = jobID ∧ pending r.status ∧
      r.id ≠ scheduledRunID definitions jobID instant

/-- The request moves the next run of a job away from an instant. -/
def Leaves (jobID : Text) (instant : ℤ) (s : Store δ) (a : Action (Request δ) World) : Prop :=
  ∃ row row', findJob jobID s = some row ∧ row.nextRunAt = instant ∧
    findJob jobID (serve definitions s a.1 a.2).2 = some row' ∧ row'.nextRunAt ≠ instant

/-- The rows of jobs are named by their definitions, without white space around the name. -/
def Named (s : Store δ) : Prop :=
  ∀ row ∈ s.jobs, row.definition.id = row.id ∧ trimSpace row.id = row.id

/-- What the schedule may move behind. -/
def Settled (jobID : Text) (instant : ℤ) (h : List (Action (Request δ) World)) : Prop :=
  HasRun definitions jobID instant (storeOf definitions s₀ h) ∨
    Refused definitions s₀ jobID instant h

/-- What the processes promise each other. -/
def SchedulePromise : Promise (Request δ) World := fun h a =>
  a.1.deletes = false ∧
  (∀ definition, a.1 = .saveJob definition →
    definition.id ≠ [] ∧ trimSpace definition.id = definition.id) ∧
  ∀ id scheduledAt next, a.1 = .advanceSchedule id scheduledAt next →
    Settled definitions s₀ id scheduledAt h

/-! ### What a request keeps -/

variable {definitions} {s₀} {definition : JobDefinition δ} {s : Store δ} {world : World}

theorem reviseDefinition_id {revised : JobDefinition δ} (hid : definition.id ≠ [])
    (h : reviseDefinition world definition s = .ok revised) :
    revised.id = definition.id := by
  unfold reviseDefinition at h
  rw [if_neg hid] at h
  split at h
  · split at h
    · cases h
    · cases h
      rfl
  · split at h
    · cases h
    · cases h
      rfl

theorem stampDefinition_id (now : ℤ) (definition : JobDefinition δ) :
    (stampDefinition now definition).id = definition.id := by
  have hanchor : ∀ d : JobDefinition δ, (if d.intervalSchedule ∧ d.anchorAt ≤ 0 then
      { d with anchorAt := now } else d).id = d.id := by
    intro d
    split <;> rfl
  unfold stampDefinition
  rw [hanchor]
  split_ifs <;> rfl

theorem named_upsertJob (h : Named s) (htrim : trimSpace definition.id = definition.id) :
    Named (upsertJob definition s) := by
  unfold upsertJob
  split
  · intro row hrow
    rw [mem_append, mem_singleton] at hrow
    cases hrow with
    | inl hold => exact h row hold
    | inr hnew =>
      rw [hnew]
      exact ⟨rfl, htrim⟩
  · intro row hrow
    obtain ⟨row₀, hrow₀, rfl⟩ := mem_map.mp hrow
    split
    · rename_i hid
      exact ⟨hid.symm, (h row₀ hrow₀).2⟩
    · exact h row₀ hrow₀

variable {a : Action (Request δ) World}

theorem named_serve (h : Named s) {h' : List (Action (Request δ) World)}
    (hpromise : SchedulePromise definitions s₀ h' a) :
    Named (serve definitions s a.1 a.2).2 := by
  obtain ⟨r, world⟩ := a
  cases serve_cases definitions s r world with
  | inl hsame =>
    rw [hsame]
    exact h
  | inr hok =>
    obtain ⟨result, _, hop⟩ := hok
    generalize (serve definitions s r world).2 = s' at hop ⊢
    obtain hsame | ⟨definition, saved, rfl, hsave⟩ | ⟨hdeletes, _⟩ | ⟨id, scheduledAt, next, rfl,
      hjobs⟩ := jobs_operationOf definitions r hop
    · unfold Named
      rw [hsame]
      exact h
    · obtain ⟨hid, htrim⟩ := hpromise.2.1 definition rfl
      obtain ⟨revised, hrevised, hsave⟩ := bind_eq_ok.mp hsave
      rw [pure_eq_ok] at hsave
      cases hsave
      have hsame : revised.id = definition.id := by
        rw [← stampDefinition_id world.now definition] at hid ⊢
        exact reviseDefinition_id hid hrevised
      apply named_upsertJob h
      show trimSpace revised.id = revised.id
      rw [hsame]
      exact htrim
    · rw [hpromise.1] at hdeletes
      cases hdeletes
    · intro row hrow
      rw [hjobs] at hrow
      obtain ⟨row₀, hrow₀, rfl⟩ := mem_map.mp hrow
      split
      · exact h row₀ hrow₀
      · exact h row₀ hrow₀

variable {h : List (Action (Request δ) World)}

theorem named_of_kept (h₀ : Named s₀) (hkept : Kept (SchedulePromise definitions s₀) h) :
    Named (storeOf definitions s₀ h) :=
  hkept.invariant h₀ fun _ _ hpromise hnamed => named_serve hnamed hpromise

variable (definitions) in
/-- A run is there under its identifier until runs are deleted. -/
theorem id_kept {r : RunRecord} (hr : r ∈ s.runs) (hdeletes : a.1.deletes = false) :
    ∃ r' ∈ (serve definitions s a.1 a.2).2.runs, r'.id = r.id := by
  cases serve_cases definitions s a.1 a.2 with
  | inl hsame =>
    rw [hsame]
    exact ⟨r, hr, rfl⟩
  | inr hok =>
    obtain ⟨result, _, hop⟩ := hok
    have hturn := runs_operationOf definitions a.1 hop
    rw [hdeletes] at hturn
    generalize (serve definitions s a.1 a.2).2.runs = runs at hturn
    cases hturn with
    | worked f hf => exact ⟨f r, mem_map_of_mem hr, (hf r hr).id_eq⟩
    | added run hcreates hqueued hnew => exact ⟨r, mem_append_left _ hr, rfl⟩
    | deleted hdeletes cond => cases hdeletes

/-- What is settled stays settled; induction on what follows from its end. -/
theorem Settled.later {jobID : Text} {instant : ℤ}
    (hsettled : Settled definitions s₀ jobID instant h) (more : List (Action (Request δ) World))
    (hkept : Kept (SchedulePromise definitions s₀) (h ++ more)) :
    Settled definitions s₀ jobID instant (h ++ more) := by
  induction more using List.reverseRecOn with
  | nil =>
    rw [append_nil]
    exact hsettled
  | append_singleton more a ih =>
    rw [← append_assoc] at hkept ⊢
    have hdeletes : a.1.deletes = false := (hkept (h ++ more) a [] rfl).1
    cases ih hkept.front with
    | inl hrun =>
      left
      obtain ⟨r, hr, hid⟩ := hrun
      obtain ⟨r', hr', hid'⟩ := id_kept definitions hr hdeletes
      unfold HasRun storeOf
      rw [stateOf_append]
      exact ⟨r', hr', hid'.trans hid⟩
    | inr hrefused =>
      right
      obtain ⟨before, run, policy, eventCreatedAt, world, after, hsplit, hrest⟩ := hrefused
      refine ⟨before, run, policy, eventCreatedAt, world, after ++ [a], ?_, hrest⟩
      rw [hsplit, append_assoc, cons_append]

/-! ### What the processes keep -/

theorem keeps_onResult {G : Promise (Request δ) World}
    {α : Type} {r : Request δ} {next : r.Result → Method δ α}
    (hask : ∀ more x, Kept G (h ++ more) → G (h ++ more) ⟨r, x⟩ ∧
      ∀ result, (serve definitions (storeOf definitions s₀ (h ++ more)) r x).1 = .ok result →
        Kept G (h ++ more ++ [⟨r, x⟩]) →
        Keeps (serve definitions) s₀ G (next result) (h ++ more ++ [⟨r, x⟩])) :
    Keeps (serve definitions) s₀ G (onResult r next) h := by
  intro more x hkept
  obtain ⟨hpromise, hnext⟩ := hask more x hkept
  refine ⟨hpromise, ?_⟩
  cases hanswer : (serve definitions (stateOf (serve definitions) s₀ (h ++ more)) r x).1 with
  | ok result => exact hnext result hanswer (hkept.append hpromise)
  | error err => trivial

theorem promise_of_keepsInstants {r : Request δ} (hr : r.keepsInstants = true) (world : World) :
    SchedulePromise definitions s₀ h ⟨r, world⟩ := by
  refine ⟨?_, ?_, ?_⟩
  · cases r <;> first | rfl | cases hr
  · intro definition hsave
    obtain rfl : r = .saveJob definition := hsave
    simpa [Request.keepsInstants] using hr
  · intro id scheduledAt next hadvance
    obtain rfl : r = .advanceSchedule id scheduledAt next := hadvance
    cases hr

variable {id : Text} {scheduledAt : ℤ}

theorem promise_of_settled (hsettled : Settled definitions s₀ id scheduledAt h) (next : ℤ)
    (world : World) :
    SchedulePromise definitions s₀ h ⟨.advanceSchedule id scheduledAt next, world⟩ := by
  refine ⟨rfl, ?_, ?_⟩
  · intro definition hsave
    cases hsave
  · intro id' scheduledAt' next' hadvance
    cases hadvance
    exact hsettled

variable {s' : Store δ}

/-- A job that is found is named, and named as it was looked for. -/
theorem getJob_named (h : Named s) (hget : getJob id s = .ok (definition, s')) :
    definition.id = trimSpace id := by
  unfold getJob at hget
  split at hget
  · rename_i row hfind
    cases hget
    have hid : row.id = trimSpace id := by simpa [findJob] using find?_some hfind
    exact (h row (mem_of_find?_eq_some hfind)).1.trans hid
  · cases hget

theorem keeps_advanceScheduleIfDue (h₀ : Named s₀) (now : ℤ) (htrim : trimSpace id = id)
    (hsettled : Settled definitions s₀ id scheduledAt h) :
    Keeps (serve definitions) s₀ (SchedulePromise definitions s₀)
      (advanceScheduleIfDue definitions id scheduledAt now) h := by
  apply keeps_onResult
  intro more x hkept
  refine ⟨promise_of_keepsInstants rfl x, ?_⟩
  intro definition hanswer hkept'
  have hid : definition.id = id := by
    rw [getJob_named (named_of_kept h₀ hkept) (serve_ok hanswer), htrim]
  split
  · trivial
  · apply keeps_onResult
    intro more' x' hkept''
    refine ⟨promise_of_settled ?_ _ x', fun _ _ _ => trivial⟩
    rw [hid]
    rw [append_assoc, append_assoc] at hkept'' ⊢
    exact hsettled.later _ hkept''

/-- The identifier of a scheduled run is not trimmed, and there is something of it. -/
theorem trimSpace_scheduledRunID
    (huuid : ∀ name, ∀ c ∈ definitions.nameUUID name, c ∈ bytes "0123456789abcdef-")
    (jobID : Text) (scheduledAt : ℤ) :
    trimSpace (scheduledRunID definitions jobID scheduledAt) =
      scheduledRunID definitions jobID scheduledAt := by
  have hplain : ∀ c ∈ bytes "sync-run-scheduled-" ++ bytes "0123456789abcdef-",
      c ∉ spaceRunes.flatten := by decide +kernel
  apply trimSpace_of_plain
  intro c hc
  apply hplain
  rw [mem_append]
  exact (mem_append.mp hc).imp_right (huuid _ c)

theorem scheduledRunID_ne_nil (jobID : Text) (scheduledAt : ℤ) :
    scheduledRunID definitions jobID scheduledAt ≠ [] := by
  have hpre : bytes "sync-run-scheduled-" ≠ [] := by decide
  unfold scheduledRunID
  intro hnil
  exact hpre (append_eq_nil_iff.mp hnil).1

/-- A run that is created is there under the identifier that was asked for. -/
theorem createRun_id {run : RunRecord} {policy : Text} {eventCreatedAt : ℤ}
    {created : RunRecord × RunEvent} (hid : trimSpace run.id ≠ [])
    (h : createRunWithPolicyAndQueuedEvent world run policy eventCreatedAt s =
      .ok (created, s')) : created.1.id = run.id ∧ created.1 ∈ s'.runs := by
  constructor
  · obtain ⟨forbid, _, h⟩ := bind_eq_ok.mp h
    obtain ⟨prepared, hprepared, h⟩ := bind_eq_ok.mp h
    split at h
    · cases h
    · obtain ⟨inserted, _, h⟩ := bind_eq_ok.mp h
      rw [pure_eq_ok] at h
      cases h
      exact (prepareRunForInsert_ok hprepared).2 hid
  · rw [(runs_createRun h).2.2.1]
    exact mem_append_right _ mem_cons_self

/-- A run is refused for another one of its job that is not over. -/
theorem createRun_refused {run : RunRecord} {policy : Text} {eventCreatedAt : ℤ}
    (h : (serve definitions s (.createRun run policy eventCreatedAt) world).1 =
      .error .runAlreadyActive) : ∃ r ∈ s.runs, r.jobID = run.jobID ∧ pending r.status := by
  unfold serve transaction at h
  split at h
  · cases h
  · split at h
    · cases h
    · rename_i err hop
      obtain rfl : err = .runAlreadyActive := by simpa using h
      obtain hop : createRunWithPolicyAndQueuedEvent world run policy eventCreatedAt s =
        .error .runAlreadyActive := hop
      unfold createRunWithPolicyAndQueuedEvent at hop
      cases hforbid : forbidPendingForPolicy policy with
      | error err =>
        rw [hforbid] at hop
        cases hop
        unfold forbidPendingForPolicy at hforbid
        dsimp only at hforbid
        split_ifs at hforbid
        all_goals simp at hforbid
      | ok forbid =>
        rw [hforbid, ok_bind] at hop
        cases hprepared : prepareRunForInsert world run with
        | error err =>
          rw [hprepared] at hop
          cases hop
          unfold prepareRunForInsert at hprepared
          dsimp only at hprepared
          split at hprepared <;> cases hprepared
        | ok prepared =>
          rw [hprepared, ok_bind] at hop
          split at hop
          · cases hop
          · cases hinsert : insertRun prepared forbid s with
            | ok inserted =>
              rw [hinsert] at hop
              cases hop
            | error err =>
              rw [hinsert] at hop
              cases hop
              unfold insertRun at hinsert
              split at hinsert
              · rename_i hpending
                obtain ⟨r, hr, hjob, hpending⟩ := hpending.2
                rw [(prepareRunForInsert_ok hprepared).1] at hjob
                exact ⟨r, hr, hjob, hpending⟩
              · split_ifs at hinsert
                all_goals simp at hinsert

theorem keeps_enqueueScheduled (h₀ : Named s₀)
    (huuid : ∀ name, ∀ c ∈ definitions.nameUUID name, c ∈ bytes "0123456789abcdef-")
    (now nowMillis : ℤ) (htrim : trimSpace definition.id = definition.id) :
    Keeps (serve definitions) s₀ (SchedulePromise definitions s₀)
      (enqueueScheduled definitions definition now nowMillis) h := by
  have hrunID := trimSpace_scheduledRunID huuid definition.id definition.nextRunAt
  unfold enqueueScheduled
  dsimp only
  split
  · trivial
  · intro more x hkept
    have hpromise : SchedulePromise definitions s₀ (h ++ more)
        ⟨.createRun (newRun definitions definition .schedule [] 1
          (scheduledRunID definitions definition.id definition.nextRunAt))
          definition.concurrencyPolicy nowMillis, x⟩ :=
      promise_of_keepsInstants rfl x
    refine ⟨hpromise, ?_⟩
    have hkept' := hkept.append hpromise
    dsimp only
    split
    · rename_i created hanswer
      have hid : trimSpace (newRun definitions definition .schedule [] 1
          (scheduledRunID definitions definition.id definition.nextRunAt)).id ≠ [] := by
        show trimSpace (scheduledRunID definitions definition.id definition.nextRunAt) ≠ []
        rw [hrunID]
        exact scheduledRunID_ne_nil _ _
      obtain ⟨hid, hmem⟩ := createRun_id hid (serve_ok hanswer)
      refine keeps_advanceScheduleIfDue h₀ now htrim (.inl ⟨created.1, ?_, hid⟩)
      unfold storeOf
      rw [stateOf_append]
      exact hmem
    · rename_i hanswer
      obtain ⟨r, hr, hjob, hpending⟩ := createRun_refused hanswer
      apply keeps_advanceScheduleIfDue h₀ now htrim
      by_cases hown : r.id = scheduledRunID definitions definition.id definition.nextRunAt
      · have hsettled : Settled definitions s₀ definition.id definition.nextRunAt (h ++ more) :=
          .inl ⟨r, hr, hown⟩
        exact hsettled.later _ hkept'
      · exact .inr ⟨h ++ more, _, _, _, x, [], rfl, rfl, rfl, r, hr, hjob, hpending, hown⟩
    · apply keeps_onResult
      intro more' x' hkept₁
      refine ⟨promise_of_keepsInstants rfl x', ?_⟩
      intro run hanswer _
      have hget := serve_ok hanswer
      apply keeps_advanceScheduleIfDue h₀ now htrim
      left
      unfold HasRun storeOf
      rw [stateOf_append, getRun_state hget]
      obtain ⟨hmem, hid⟩ := getRun_found hget
      exact ⟨run, hmem, hid.trans hrunID⟩

theorem listDueJobs_named (h : Named s) {nowMillis : ℤ} {due : List (JobDefinition δ)}
    (hlist : listDueJobs nowMillis s = .ok (due, s')) :
    ∀ definition ∈ due, trimSpace definition.id = definition.id := by
  cases hlist
  intro definition hdefinition
  obtain ⟨row, hrow, rfl⟩ := mem_map.mp hdefinition
  rw [mem_insertionSort, mem_filter] at hrow
  obtain ⟨hid, htrim⟩ := h row hrow.1
  show trimSpace row.definition.id = row.definition.id
  rw [hid]
  exact htrim

theorem keeps_scheduleProgram (h₀ : Named s₀)
    (huuid : ∀ name, ∀ c ∈ definitions.nameUUID name, c ∈ bytes "0123456789abcdef-")
    (operation : ScheduleOperation δ) (h : List (Action (Request δ) World)) :
    Keeps (serve definitions) s₀ (SchedulePromise definitions s₀)
      (scheduleProgram definitions operation) h := by
  cases operation with
  | enqueueScheduled now nowMillis pick =>
    apply keeps_onResult
    intro more x hkept
    refine ⟨promise_of_keepsInstants rfl x, ?_⟩
    intro due hanswer _
    have hnamed := listDueJobs_named (named_of_kept h₀ hkept) (serve_ok hanswer)
    split
    · trivial
    · rename_i definition hpick
      exact keeps_enqueueScheduled h₀ huuid now nowMillis
        (hnamed definition (mem_of_getElem? hpick))
  | enqueueDueJobRun jobID now nowMillis =>
    apply keeps_onResult
    intro more x hkept
    refine ⟨promise_of_keepsInstants rfl x, ?_⟩
    intro due hanswer _
    have hnamed := listDueJobs_named (named_of_kept h₀ hkept) (serve_ok hanswer)
    split
    · trivial
    · rename_i definition hfind
      split
      · trivial
      · exact keeps_enqueueScheduled h₀ huuid now nowMillis
          (hnamed definition (mem_of_find?_eq_some hfind))
  | request r hr =>
    apply keeps_onResult
    intro more x hkept
    exact ⟨promise_of_keepsInstants hr x, fun _ _ _ => trivial⟩

/-! ### The law -/

/-- How many runs there are under an identifier. -/
def runsUnder (id : Text) (s : Store δ) : ℕ := s.runs.countP fun r => r.id = id

theorem runsUnder_le_one (h : Exclusive s) (id : Text) : runsUnder id s ≤ 1 := by
  have hunique : (s.runs.map RunRecord.id).Nodup := by
    unfold List.Nodup
    rw [pairwise_map]
    exact List.Pairwise.imp (fun hapart => hapart.1) h
  have hcount := nodup_iff_count_le_one.mp hunique id
  rw [List.count, countP_map] at hcount
  refine le_trans (le_of_eq (countP_congr ?_)) hcount
  intro r _
  simp

variable (definitions) in
/-- A request that deletes no runs keeps the runs under an identifier, and adds the run that it
creates. -/
theorem createsInstant_le (jobID : Text) (instant : ℤ) (s : Store δ)
    (a : Action (Request δ) World) (hdeletes : a.1.deletes = false) :
    runsUnder (scheduledRunID definitions jobID instant) s +
        (if createsInstant definitions jobID instant s a then 1 else 0) ≤
      runsUnder (scheduledRunID definitions jobID instant) (serve definitions s a.1 a.2).2 := by
  unfold runsUnder
  by_cases hcreates : createsInstant definitions jobID instant s a = true
  · rw [if_pos hcreates]
    unfold createsInstant at hcreates
    split at hcreates
    · split at hcreates
      · rename_i created _ hanswer
        rw [(runs_createRun (serve_ok hanswer)).2.2.1, countP_append]
        rw [countP_singleton, if_pos hcreates]
      · cases hcreates
    · cases hcreates
  · rw [if_neg hcreates, Nat.add_zero]
    cases serve_cases definitions s a.1 a.2 with
    | inl hsame => rw [hsame]
    | inr hok =>
      obtain ⟨result, _, hop⟩ := hok
      have hturn := runs_operationOf definitions a.1 hop
      rw [hdeletes] at hturn
      generalize (serve definitions s a.1 a.2).2.runs = runs at hturn
      cases hturn with
      | worked f hf =>
        rw [countP_map]
        apply countP_mono_left
        intro r hr hid
        rw [Function.comp, (hf r hr).id_eq]
        exact hid
      | added run hcreates hqueued hnew =>
        rw [countP_append]
        exact Nat.le_add_right _ _
      | deleted hdeletes cond => cases hdeletes

theorem findJob_map {f : JobRow δ → JobRow δ} (hid : ∀ row, (f row).id = row.id)
    (hjobs : s'.jobs = s.jobs.map f) : findJob id s' = (findJob id s).map f := by
  unfold findJob
  rw [hjobs, find?_map]
  congr 2
  funext row
  rw [Function.comp, hid row]

/-- A request that saves no job leaves an instant only by a move of the schedule. -/
theorem leaves_advance {jobID : Text} {instant : ℤ} (hpromise : SchedulePromise definitions s₀ h a)
    (hsave : ∀ definition, a.1 ≠ .saveJob definition)
    (hleaves : Leaves definitions jobID instant (storeOf definitions s₀ h) a) :
    Settled definitions s₀ jobID instant h := by
  obtain ⟨row, row', hfind, hnext, hfind', hnext'⟩ := hleaves
  obtain ⟨r, world⟩ := a
  have hchanged : (serve definitions (storeOf definitions s₀ h) r world).2.jobs ≠
      (storeOf definitions s₀ h).jobs := by
    intro hsame
    unfold findJob at hfind hfind'
    rw [hsame, hfind] at hfind'
    cases hfind'
    exact hnext' hnext
  cases serve_cases definitions (storeOf definitions s₀ h) r world with
  | inl hsame => exact absurd (congrArg Store.jobs hsame) hchanged
  | inr hok =>
    obtain ⟨result, _, hop⟩ := hok
    obtain hsame | ⟨definition, saved, rfl, _⟩ | ⟨hdeletes, _⟩ | ⟨id, scheduledAt, next, rfl,
      hjobs⟩ := jobs_operationOf definitions r hop
    · exact absurd hsame hchanged
    · exact absurd rfl (hsave definition)
    · rw [hpromise.1] at hdeletes
      cases hdeletes
    · have hid : row.id = jobID := by simpa [findJob] using find?_some hfind
      rw [findJob_map (fun row => by split <;> rfl) hjobs, hfind] at hfind'
      cases hfind'
      have hmoved : dueAt id scheduledAt row = true := by
        by_contra hidle
        dsimp only at hnext'
        rw [if_neg hidle] at hnext'
        exact hnext' hnext
      unfold dueAt at hmoved
      rw [decide_eq_true_eq] at hmoved
      have hsettled := hpromise.2.2 id scheduledAt next rfl
      rw [← hmoved.1, ← hmoved.2.1, hid, hnext] at hsettled
      exact hsettled

end instants

/-- **Scheduled instants run once at most and are not lost.**  The processes start on a store
whose runs are apart and whose jobs are named. -/
theorem scheduled_instants (definitions : Definitions δ)
    (huuid : ∀ name, ∀ c ∈ definitions.nameUUID name, c ∈ bytes "0123456789abcdef-")
    (s₀ : Store δ) (hexclusive : Exclusive s₀) (hnamed : Named s₀)
    (moves : List (Move (ScheduleOperation δ) World)) (jobID : Text) (instant : ℤ) :
    let history := served (serve definitions) (scheduleProgram definitions) ⟨s₀, []⟩ moves
    Machine.count (fun s a => (serve definitions s a.1 a.2).2)
      (createsInstant definitions jobID instant) s₀ history ≤ 1 ∧
    ∀ before a after, history = before ++ a :: after →
      (∀ definition, a.1 ≠ .saveJob definition) →
      Leaves definitions jobID instant (storeOf definitions s₀ before) a →
      HasRun definitions jobID instant (storeOf definitions s₀ before) ∨
        Refused definitions s₀ jobID instant before := by
  intro history
  have hkept : Kept (SchedulePromise definitions s₀) history :=
    kept_served (fun operation h _ => keeps_scheduleProgram hnamed huuid operation h) moves
  constructor
  · have halong : Machine.Along (fun s a => (serve definitions s a.1 a.2).2)
        (fun _ a => a.1.deletes = false) s₀ history := by
      apply Machine.along_of_forall
      intro a ha
      obtain ⟨before, after, hsplit⟩ := append_of_mem ha
      exact (hkept before a after hsplit).1
    have hcount := Machine.le_of_count (createsInstant_le definitions jobID instant) halong
    have hend : Exclusive (Machine.run (fun s a => (serve definitions s a.1 a.2).2) s₀ history) :=
      Machine.run_preserves (fun s a h => exclusive_serve definitions s a.1 a.2 h) hexclusive
    have hone := runsUnder_le_one hend (scheduledRunID definitions jobID instant)
    exact (Nat.le_add_left _ _).trans (hcount.trans hone)
  · intro before a after hsplit hsave hleaves
    exact leaves_advance (hkept before a after hsplit) hsave hleaves

/-- A job that runs every minute. -/
def minuteJob : JobDefinition Unit where
  id := bytes "job-1"
  lifecycle := .enabled
  enabled := true
  intervalSchedule := true
  anchorAt := 1000
  concurrencyPolicy := bytes "forbid"
  revision := 1
  createdAt := 500
  updatedAt := 500
  nextRunAt := 1000
  lastScheduledAt := 0
  archivedAt := 0
  details := ()

def minuteDefinitions : Definitions Unit where
  normalizeDefinition definition := { definition with
    id := trimSpace definition.id
    enabled := definition.lifecycle = .enabled }
  validatePersistableDefinition _ := none
  validateDefinition _ := none
  nextRunAt definition after :=
    definition.anchorAt + ((after - definition.anchorAt) / 60000 + 1) * 60000
  marshal _ := bytes "{}"
  decodeRunDefinition _ := .ok minuteJob
  executionPlanHash _ := .ok []
  catchUp _ := false
  continuous _ := false
  neverResumes _ := false
  insertOnly _ := false
  nameUUID _ := bytes "b5687ca0-1325-5619-8577-2e6c75c79044"

def minuteStore : Store Unit where
  jobs := [⟨bytes "job-1", true, minuteJob, 1, 500, 1000, 0, 0⟩]
  runs := []
  events := []

/-- A scheduler and a process for the job find the same instant; the one that creates the run
stops before it moves the schedule on, the other one does so behind it. -/
def sameInstantMoves : List (Move (ScheduleOperation Unit) World) :=
  let world : World := ⟨5000, bytes "8f14e45f", none⟩
  [.start (.enqueueScheduled 5000 5000 0), .start (.enqueueDueJobRun (bytes "job-1") 5000 5000),
    .serve 0 world, .serve 1 world, .serve 0 world, .crash 0, .serve 0 world, .serve 0 world,
    .serve 0 world]

/-- The moves leave the instant behind its run. -/
theorem scheduled_instants_minute :
    let history := served (serve minuteDefinitions) (scheduleProgram minuteDefinitions)
      ⟨minuteStore, []⟩ sameInstantMoves
    Machine.count (fun s a => (serve minuteDefinitions s a.1 a.2).2)
      (createsInstant minuteDefinitions (bytes "job-1") 1000) minuteStore history ≤ 1 ∧
    ∀ before a after, history = before ++ a :: after →
      (∀ definition, a.1 ≠ .saveJob definition) →
      Leaves minuteDefinitions (bytes "job-1") 1000
        (storeOf minuteDefinitions minuteStore before) a →
      HasRun minuteDefinitions (bytes "job-1") 1000
        (storeOf minuteDefinitions minuteStore before) ∨
        Refused minuteDefinitions minuteStore (bytes "job-1") 1000 before := by
  refine scheduled_instants minuteDefinitions ?_ minuteStore List.Pairwise.nil ?_ sameInstantMoves
    (bytes "job-1") 1000
  · intro name
    have hplain : ∀ c ∈ bytes "b5687ca0-1325-5619-8577-2e6c75c79044",
        c ∈ bytes "0123456789abcdef-" := by decide +kernel
    exact hplain
  · intro row hrow
    rw [minuteStore, mem_singleton] at hrow
    subst hrow
    exact ⟨rfl, by decide⟩

end GoNavi.Syncjob
