import GoNavi.Machine.Debts
import GoNavi.Syncjob.Fencing
import GoNavi.Syncjob.Scheduled

/-! # Paused and archived jobs

Pausing or archiving a job saves it in one transaction and cancels its runs in the next one, while
a run is created in one transaction by a caller that has read the job in another.

**Once all callers have returned, no run of a paused or archived job is queued**
(`paused_jobs_queue_nothing`), as long as no run is created for a job that is paused or archived
by then, and no cancellation fails or is cut off.  A run that is created behind the pause stays
queued (`paused_jobs_queue_nothing_fails`). -/

namespace GoNavi.Syncjob

open Scan Fallible Callers List

variable {δ : Type}

/-! ### Resuming and retrying -/

section resume

variable (definitions : Definitions δ)

/-- `requireCurrentRunnableDefinition`. -/
def requireCurrentRunnableDefinition {α : Type} (run : RunRecord) (snapshot : JobDefinition δ)
    (next : JobDefinition δ → TableMethod δ α) : TableMethod δ α :=
  onTable (.store (.getJob run.jobID)) fun current =>
    if current.lifecycle ≠ .ready ∧ current.lifecycle ≠ .enabled then .ret (.error .jobDisabled)
    else
      match definitions.executionPlanHash snapshot, definitions.executionPlanHash current with
      | .error err, _ => .ret (.error (.other err))
      | .ok _, .error err => .ret (.error (.other err))
      | .ok snapshotHash, .ok currentHash =>
        if snapshot.id ≠ run.jobID ∨ snapshot.revision ≠ run.jobRevision ∨
            snapshotHash ≠ currentHash then .ret (.error .revisionConflict)
        else next current

/-- The loop of `checkpointBelongsToRunLineage`, with the runs that it may still look up. -/
def belongsToLineage (parent : RunRecord) (checkpoint : Checkpoint) (expectedPlanHash : Text) :
    ℕ → List Text → RunRecord → TableMethod δ Bool
  | 0, _, _ => .ret (.ok false)
  | lookups + 1, visited, candidate =>
    if candidate.jobID ≠ parent.jobID ∨ candidate.id ∈ visited then .ret (.ok false)
    else if candidate.id = checkpoint.runID then
      if checkpoint.definitionRevision ≠ 0 ∧
          checkpoint.definitionRevision ≠ candidate.jobRevision then .ret (.ok false)
      else
        match definitions.decodeRunDefinition candidate with
        | .error err => .ret (.error (.other err))
        | .ok candidateDefinition =>
          match definitions.executionPlanHash candidateDefinition with
          | .error err => .ret (.error (.other err))
          | .ok candidatePlanHash => .ret (.ok (candidatePlanHash = expectedPlanHash))
    else if trimSpace candidate.parentRunID = [] then .ret (.ok false)
    else
      onTable (.store (.getRun candidate.parentRunID))
        (belongsToLineage parent checkpoint expectedPlanHash lookups (candidate.id :: visited))

/-- `checkpointBelongsToRunLineage`. -/
def checkpointBelongsToRunLineage (parent : RunRecord) (checkpoint : Checkpoint)
    (definition : JobDefinition δ) (lookups : ℕ) : TableMethod δ Bool :=
  if checkpoint.jobID ≠ parent.jobID ∨ trimSpace checkpoint.runID = [] then .ret (.ok false)
  else
    match definitions.executionPlanHash definition with
    | .error err => .ret (.error (.other err))
    | .ok expectedPlanHash =>
      belongsToLineage definitions parent checkpoint expectedPlanHash lookups [] parent

/-- The run that follows another one, with the definition as it is now. -/
def createFollower (current : JobDefinition δ) (trigger : RunTrigger) (parent : RunRecord)
    (nowMillis : ℤ) : TableMethod δ Unit :=
  onTable (.store (.createRun (newRun definitions current trigger parent.id (parent.attempt + 1) [])
    current.concurrencyPolicy nowMillis)) fun _ => .ret (.ok ())

/-- `Manager.ResumeRun`; `lookups` bounds the runs that its lineage has. -/
def resumeRun (runID : Text) (nowMillis : ℤ) (lookups : ℕ) : TableMethod δ Unit :=
  onTable (.store (.getRun (trimSpace runID))) fun parent =>
    if parent.status ∉ [.failed, .canceled, .interrupted, .partially, .paused] ∨
        ¬ parent.resumable then .ret (.error .runNotResumable)
    else
      match definitions.decodeRunDefinition parent with
      | .error err => .ret (.error (.other err))
      | .ok definition =>
        requireCurrentRunnableDefinition definitions parent definition fun current =>
          if definitions.neverResumes current ∨ definitions.insertOnly current then
            .ret (.error .runNotResumable)
          else
            .ask (.getCheckpoint parent.jobID) fun
              | .error .notFound => .ret (.error .runNotResumable)
              | .error err => .ret (.error err)
              | .ok checkpoint =>
                (checkpointBelongsToRunLineage definitions parent checkpoint current lookups).bind
                  fun
                  | .error err => .ret (.error err)
                  | .ok inLineage =>
                    if inLineage = true then
                      createFollower definitions current .resume parent nowMillis
                    else .ret (.error .runNotResumable)

/-- `Manager.RetryRun`. -/
def retryRun (runID : Text) (nowMillis : ℤ) : TableMethod δ Unit :=
  onTable (.store (.getRun (trimSpace runID))) fun parent =>
    if parent.status ∉ [.failed, .partially, .canceled, .interrupted] then
      .ret (.error .runNotRetryable)
    else
      match definitions.decodeRunDefinition parent with
      | .error err => .ret (.error (.other err))
      | .ok definition =>
        requireCurrentRunnableDefinition definitions parent definition fun current =>
          if definitions.insertOnly current then .ret (.error .runNotRetryable)
          else createFollower definitions current .retry parent nowMillis

end resume

/-! ### Callers -/

/-- The requests that create no run and save no job. -/
def TableRequest.queuesNothing : TableRequest δ → Bool
  | .store (.createRun ..) | .store (.saveJob _) => false
  | _ => true

/-- What callers do beside each other. -/
inductive LifecycleOperation (δ : Type) where
  | startRun (jobID : Text) (nowMillis : ℤ)
  | resumeRun (runID : Text) (nowMillis : ℤ) (lookups : ℕ)
  | retryRun (runID : Text) (nowMillis : ℤ)
  | enqueueScheduled (now nowMillis : ℤ) (pick : ℕ)
  | enqueueDueJobRun (jobID : Text) (now nowMillis : ℤ)
  | pauseJob (id : Text) (nowMillis : ℤ)
  | deleteJob (id : Text) (nowMillis : ℤ)
  | putJob (definition : JobDefinition δ) (nowMillis : ℤ) (h : trimSpace definition.id ≠ [])
  /-- Any other request. -/
  | request (r : TableRequest δ) (h : r.queuesNothing = true)

def lifecycleProgram (definitions : Definitions δ) : LifecycleOperation δ → TableMethod δ Unit
  | .startRun jobID nowMillis => onStore (startRun definitions jobID nowMillis)
  | .resumeRun runID nowMillis lookups => resumeRun definitions runID nowMillis lookups
  | .retryRun runID nowMillis => retryRun definitions runID nowMillis
  | .enqueueScheduled now nowMillis pick =>
    onStore (scheduleProgram definitions (.enqueueScheduled now nowMillis pick))
  | .enqueueDueJobRun jobID now nowMillis =>
    onStore (enqueueDueJobRun definitions jobID now nowMillis)
  | .pauseJob id nowMillis => onStore (pauseJob definitions id nowMillis)
  | .deleteJob id nowMillis => onStore (deleteJob definitions id nowMillis)
  | .putJob definition nowMillis _ =>
    onStore ((putJob definitions definition true nowMillis).bind fun result =>
      .ret (result.map fun _ => ()))
  | .request r _ => onTable r fun _ => .ret (.ok ())

/-- A move of the callers over the tables. -/
def lifecycleStep (definitions : Definitions δ) (validJSON : Text → Bool) :
    Config (Tables δ) (TableRequest δ) TableRequest.Answer (Except Err Unit) →
      Move (LifecycleOperation δ) World →
      Config (Tables δ) (TableRequest δ) TableRequest.Answer (Except Err Unit) :=
  Callers.step (serveTable definitions validJSON) (lifecycleProgram definitions)

/-! ### Debts -/

/-- A job of this lifecycle runs nothing. -/
def inactive (lifecycle : JobLifecycle) : Bool := lifecycle ∈ [.paused, .archived]

/-- The job is paused or archived, and a run of it is queued. -/
def QueuedBehind (s : Tables δ) (id : Text) : Prop :=
  (∃ row ∈ s.store.jobs, row.id = id ∧ inactive row.definition.lifecycle) ∧
    ∃ r ∈ s.store.runs, r.jobID = id ∧ r.status = .queued

/-- Saving a job as paused or archived incurs the cancellation of its runs. -/
def lifecycleLedger : Ledger Text (TableRequest δ) TableRequest.Answer where
  allowed
    | .store (.saveJob definition) =>
      definition.id ≠ [] ∧ trimSpace definition.id = definition.id
    | _ => True
  tells
    | .store (.getJob _), .ok definition =>
      definition.id ≠ [] ∧ trimSpace definition.id = definition.id
    | .store (.saveJob definition), .ok saved =>
      saved.id = definition.id ∧ saved.lifecycle = definition.lifecycle
    | _, _ => True
  incurs
    | .store (.saveJob _), .ok saved, id => saved.id = id ∧ inactive saved.lifecycle
    | _, _, _ => False
  pays
    | .store (.requestCancelRunsForJob jobID _ _) => some (trimSpace jobID)
    | _ => none

/-- The job that a request creates a run for. -/
def TableRequest.creates : TableRequest δ → Option Text
  | .store r => r.creates
  | _ => none

/-- No run is created for a job that is paused or archived, and no cancellation fails. -/
def InTime (s : Tables δ) (r : TableRequest δ) (world : World) : Prop :=
  (∀ row ∈ s.store.jobs, r.creates = some row.id → ¬ inactive row.definition.lifecycle) ∧
    (lifecycleLedger.pays r ≠ none → world.fails = none)

instance (s : Tables δ) (r : TableRequest δ) (world : World) : Decidable (InTime s r world) :=
  inferInstanceAs (Decidable (_ ∧ _))

/-! ### The programs are diligent -/

variable {r : TableRequest δ} {definition : JobDefinition δ}

section programs

variable {definitions : Definitions δ} {α : Type}

/-- Only a save incurs anything. -/
def TableRequest.saves : TableRequest δ → Bool
  | .store (.saveJob _) => true
  | _ => false

theorem not_incurs (hr : r.saves = false) (answer : r.Answer) (id : Text) :
    ¬ lifecycleLedger.incurs r answer id := by
  intro hincurs
  cases r with
  | store r =>
    cases r with
    | saveJob definition => cases hr
    | _ => exact hincurs
  | _ => exact hincurs

theorem diligent_ask (hr : r.saves = false) {next : r.Answer → TableMethod δ α}
    (hnext : ∀ answer, lifecycleLedger.tells r answer → Diligent lifecycleLedger (next answer)) :
    Diligent lifecycleLedger (Program.ask r next) := by
  refine ⟨?_, ?_⟩
  · cases r with
    | store r =>
      cases r with
      | saveJob definition => cases hr
      | _ => trivial
    | _ => trivial
  · intro answer htells
    exact ⟨fun id hincurs => absurd hincurs (not_incurs hr answer id), hnext answer htells⟩

theorem diligent_onTable (hr : r.saves = false)
    {next : r.Result → TableMethod δ α}
    (hnext : ∀ result, lifecycleLedger.tells r (.ok result) →
      Diligent lifecycleLedger (next result)) :
    Diligent lifecycleLedger (onTable r next) := by
  apply diligent_ask hr
  intro answer htells
  cases answer with
  | ok result => exact hnext result htells
  | error err => trivial

theorem onStore_onResult {r : Request δ} (next : r.Result → Method δ α) :
    onStore (onResult r next) = onTable (.store r) fun result => onStore (next result) := by
  unfold onResult onTable
  rw [onStore]
  congr 1
  funext answer
  cases answer <;> rfl

/-- Induction on the first method. -/
theorem onStore_bind {β : Type} (p : Method δ α) (f : Except Err α → Method δ β) :
    onStore (p.bind f) = (onStore p).bind fun result => onStore (f result) := by
  induction p with
  | ret a => rfl
  | ask r next ih =>
    show Program.ask _ _ = Program.ask _ _
    congr 1
    funext answer
    exact ih answer

theorem diligent_onResult {r : Request δ} (hr : (TableRequest.store r).saves = false)
    {next : r.Result → Method δ α}
    (hnext : ∀ result, lifecycleLedger.tells (.store r) (.ok result) →
      Diligent lifecycleLedger (onStore (next result))) :
    Diligent lifecycleLedger (onStore (onResult r next)) := by
  rw [onStore_onResult]
  exact diligent_onTable hr hnext

/-- What normalizing keeps of a definition. -/
def KeepsLifecycle (definitions : Definitions δ) : Prop :=
  ∀ definition, (definitions.normalizeDefinition definition).id = trimSpace definition.id ∧
    (definitions.normalizeDefinition definition).lifecycle = definition.lifecycle

/-- The rule for saving a definition and going on with the answer. -/
theorem diligent_saveJob (hid : definition.id ≠ [])
    (htrim : trimSpace definition.id = definition.id)
    {next : (Request.saveJob definition).Answer → Method δ α}
    (herr : ∀ err, Diligent lifecycleLedger (onStore (next (.error err))))
    (hnext : ∀ saved, saved.id = definition.id → saved.lifecycle = definition.lifecycle →
      (inactive saved.lifecycle → Owes lifecycleLedger saved.id (onStore (next (.ok saved)))) ∧
        Diligent lifecycleLedger (onStore (next (.ok saved)))) :
    Diligent lifecycleLedger (onStore (Program.ask (.saveJob definition) next)) := by
  refine ⟨⟨hid, htrim⟩, ?_⟩
  intro answer htells
  cases answer with
  | error err => exact ⟨fun id hincurs => absurd hincurs not_false, herr err⟩
  | ok saved =>
    obtain ⟨howes, hdiligent⟩ := hnext saved htells.1 htells.2
    refine ⟨?_, hdiligent⟩
    intro id hincurs
    rw [← hincurs.1]
    exact howes hincurs.2

/-- The cancellation of the runs of a job, in front of anything. -/
theorem owes_cancel {jobID id : Text} (h : trimSpace jobID = id) (nowMillis : ℤ) (reason : Text)
    (next : List RunRecord → Method δ α) :
    Owes lifecycleLedger id (onStore (onResult (.requestCancelRunsForJob jobID nowMillis reason)
      next)) := congrArg some h

variable (hnormal : KeepsLifecycle definitions)
include hnormal

/-- Saving a job, and canceling its runs when it is paused or archived. -/
theorem diligent_putJob (hid : trimSpace definition.id ≠ []) (nowMillis : ℤ) :
    Diligent lifecycleLedger (onStore (putJob definitions definition true nowMillis)) := by
  have hnormalID := (hnormal definition).1
  unfold putJob
  dsimp only
  split
  · trivial
  · apply diligent_saveJob
    · rw [hnormalID]
      exact hid
    · rw [hnormalID, trimSpace_trimSpace]
    · intro err
      trivial
    · intro saved hsaved _
      dsimp only
      split
      · refine ⟨fun _ => owes_cancel ?_ _ _ _, diligent_onResult rfl fun _ _ => trivial⟩
        rw [hsaved, hnormalID, trimSpace_trimSpace]
      · rename_i hactive
        refine ⟨fun hinactive => absurd ?_ hactive, trivial⟩
        simpa [inactive] using hinactive

theorem diligent_putJob_cancel (hid : definition.id ≠ [])
    (htrim : trimSpace definition.id = definition.id) (nowMillis : ℤ)
    {rest : Except Err (JobDefinition δ) → Method δ α}
    (herr : ∀ err, Diligent lifecycleLedger (onStore (rest (.error err))))
    (hrest : ∀ saved, saved.id = definition.id →
      Owes lifecycleLedger saved.id (onStore (rest (.ok saved))) ∧
        Diligent lifecycleLedger (onStore (rest (.ok saved)))) :
    Diligent lifecycleLedger
      (onStore ((putJob definitions definition false nowMillis).bind rest)) := by
  have hnormalID := (hnormal definition).1
  rw [htrim] at hnormalID
  unfold putJob
  dsimp only
  split
  · exact herr _
  · apply diligent_saveJob
    · rw [hnormalID]
      exact hid
    · rw [hnormalID, htrim]
    · exact herr
    · intro saved hsaved _
      obtain ⟨howes, hdiligent⟩ := hrest saved (hsaved.trans hnormalID)
      exact ⟨fun _ => howes, hdiligent⟩

theorem diligent_pauseJob (id : Text) (nowMillis : ℤ) :
    Diligent lifecycleLedger (onStore (pauseJob definitions id nowMillis)) := by
  apply diligent_onResult rfl
  intro definition htells
  split
  · trivial
  · apply diligent_putJob_cancel hnormal
    · exact htells.1
    · exact htells.2
    · intro err
      trivial
    · intro saved hsaved
      refine ⟨owes_cancel ?_ _ _ _, diligent_onResult rfl fun _ _ => trivial⟩
      rw [hsaved]
      exact htells.2

theorem diligent_deleteJob (id : Text) (nowMillis : ℤ) :
    Diligent lifecycleLedger (onStore (deleteJob definitions id nowMillis)) := by
  have hannounce : ∀ runs, Diligent lifecycleLedger
      (onStore (announceCancellations (δ := δ) nowMillis runs)) := by
    intro runs
    induction runs with
    | nil => trivial
    | cons run runs ih => exact diligent_ask rfl fun answer _ => ih
  apply diligent_onResult rfl
  intro definition htells
  split
  · trivial
  · apply diligent_putJob_cancel hnormal
    · exact htells.1
    · exact htells.2
    · intro err
      trivial
    · intro saved hsaved
      refine ⟨owes_cancel ?_ _ _ _, diligent_onResult rfl fun runs _ => hannounce runs⟩
      rw [hsaved]
      exact htells.2

omit hnormal

variable (definitions)

theorem diligent_startRun (jobID : Text) (nowMillis : ℤ) :
    Diligent lifecycleLedger (onStore (startRun definitions jobID nowMillis)) := by
  apply diligent_onResult rfl
  intro definition _
  split
  · trivial
  · split
    · trivial
    · exact diligent_onResult rfl fun _ _ => trivial

theorem diligent_advance (id : Text) (scheduledAt now : ℤ) :
    Diligent lifecycleLedger (onStore (advanceScheduleIfDue definitions id scheduledAt now)) := by
  apply diligent_onResult rfl
  intro definition _
  split
  · trivial
  · exact diligent_onResult rfl fun _ _ => trivial

theorem diligent_enqueue (definition : JobDefinition δ) (now nowMillis : ℤ) :
    Diligent lifecycleLedger
      (onStore (enqueueScheduled definitions definition now nowMillis)) := by
  unfold enqueueScheduled
  dsimp only
  split
  · trivial
  · apply diligent_ask rfl
    intro answer _
    dsimp only
    split
    · exact diligent_advance definitions _ _ _
    · exact diligent_advance definitions _ _ _
    · exact diligent_onResult rfl fun _ _ => diligent_advance definitions _ _ _

theorem diligent_enqueueDueJobRun (jobID : Text) (now nowMillis : ℤ) :
    Diligent lifecycleLedger (onStore (enqueueDueJobRun definitions jobID now nowMillis)) := by
  apply diligent_onResult rfl
  intro due _
  split
  · trivial
  · split
    · trivial
    · exact diligent_enqueue definitions _ _ _

theorem diligent_createFollower (current : JobDefinition δ) (trigger : RunTrigger)
    (parent : RunRecord) (nowMillis : ℤ) :
    Diligent lifecycleLedger (createFollower definitions current trigger parent nowMillis) :=
  diligent_onTable rfl fun _ _ => trivial

theorem diligent_requireCurrent (run : RunRecord) (snapshot : JobDefinition δ)
    {next : JobDefinition δ → TableMethod δ α}
    (hnext : ∀ current, Diligent lifecycleLedger (next current)) :
    Diligent lifecycleLedger
      (requireCurrentRunnableDefinition definitions run snapshot next) := by
  apply diligent_onTable rfl
  intro current _
  split
  · trivial
  · split
    · trivial
    · trivial
    · split
      · trivial
      · exact hnext current

/-- Induction on the lookups. -/
theorem diligent_belongsToLineage (parent : RunRecord) (checkpoint : Checkpoint)
    (expectedPlanHash : Text) (lookups : ℕ) (visited : List Text) (candidate : RunRecord) :
    Diligent lifecycleLedger (belongsToLineage definitions parent checkpoint expectedPlanHash
      lookups visited candidate) := by
  induction lookups generalizing visited candidate with
  | zero => trivial
  | succ lookups ih =>
    unfold belongsToLineage
    split
    · trivial
    · split
      · split
        · trivial
        · split
          · trivial
          · split <;> trivial
      · split
        · trivial
        · exact diligent_onTable rfl fun run _ => ih _ run

theorem diligent_resumeRun (runID : Text) (nowMillis : ℤ) (lookups : ℕ) :
    Diligent lifecycleLedger (resumeRun definitions runID nowMillis lookups) := by
  apply diligent_onTable rfl
  intro parent _
  split
  · trivial
  · split
    · trivial
    · apply diligent_requireCurrent
      intro current
      split
      · trivial
      · apply diligent_ask rfl
        intro answer _
        split
        · trivial
        · trivial
        · rename_i checkpoint _
          have hlineage : Diligent lifecycleLedger (checkpointBelongsToRunLineage definitions
              parent checkpoint current lookups) := by
            unfold checkpointBelongsToRunLineage
            split
            · trivial
            · split
              · trivial
              · exact diligent_belongsToLineage definitions _ _ _ _ _ _
          apply hlineage.bind
          intro result
          split
          · trivial
          · split
            · exact diligent_createFollower definitions _ _ _ _
            · trivial

theorem diligent_retryRun (runID : Text) (nowMillis : ℤ) :
    Diligent lifecycleLedger (retryRun definitions runID nowMillis) := by
  apply diligent_onTable rfl
  intro parent _
  split
  · trivial
  · split
    · trivial
    · apply diligent_requireCurrent
      intro current
      split
      · trivial
      · exact diligent_createFollower definitions _ _ _ _

variable {definitions}

/-- **Every caller pays what it incurs.** -/
theorem diligent_lifecycleProgram (hnormal : KeepsLifecycle definitions)
    (operation : LifecycleOperation δ) :
    Diligent lifecycleLedger (lifecycleProgram definitions operation) := by
  cases operation with
  | startRun jobID nowMillis => exact diligent_startRun definitions jobID nowMillis
  | resumeRun runID nowMillis lookups =>
    exact diligent_resumeRun definitions runID nowMillis lookups
  | retryRun runID nowMillis => exact diligent_retryRun definitions runID nowMillis
  | enqueueScheduled now nowMillis pick =>
    apply diligent_onResult rfl
    intro due _
    split
    · trivial
    · exact diligent_enqueue definitions _ _ _
  | enqueueDueJobRun jobID now nowMillis =>
    exact diligent_enqueueDueJobRun definitions jobID now nowMillis
  | pauseJob id nowMillis => exact diligent_pauseJob hnormal id nowMillis
  | deleteJob id nowMillis => exact diligent_deleteJob hnormal id nowMillis
  | putJob definition nowMillis hid =>
    show Diligent lifecycleLedger (onStore ((putJob definitions definition true nowMillis).bind _))
    rw [onStore_bind]
    exact (diligent_putJob hnormal hid nowMillis).bind fun _ => trivial
  | request r hr =>
    apply diligent_onTable
    · cases r with
      | store r =>
        cases r with
        | saveJob definition => cases hr
        | _ => rfl
      | _ => rfl
    · intro result _
      trivial

end programs

/-! ### What a request leaves open -/

section requests

variable {definitions : Definitions δ} {validJSON : Text → Bool}

/-- The rows of jobs are named, by their definitions and without white space around the name. -/
def WellNamed (s : Tables δ) : Prop :=
  Named s.store ∧ ∀ row ∈ s.store.jobs, row.id ≠ []

variable {s : Store δ} {world : World}

theorem reviseDefinition_lifecycle {revised : JobDefinition δ}
    (h : reviseDefinition world definition s = .ok revised) :
    revised.lifecycle = definition.lifecycle := by
  unfold reviseDefinition at h
  split at h
  · cases h
    rfl
  · split at h
    · split at h
      · cases h
      · cases h
        rfl
    · split at h
      · cases h
      · cases h
        rfl

theorem stampDefinition_lifecycle (now : ℤ) (definition : JobDefinition δ) :
    (stampDefinition now definition).lifecycle = definition.lifecycle := by
  unfold stampDefinition
  dsimp only
  split_ifs <;> rfl

/-- A definition that is saved keeps its name and its lifecycle. -/
theorem saveJob_ok {saved : JobDefinition δ} {s' : Store δ} (hid : definition.id ≠ [])
    (hsave : saveJob definitions world definition s = .ok (saved, s')) :
    saved.id = definition.id ∧ saved.lifecycle = definition.lifecycle := by
  obtain ⟨revised, hrevised, hsave⟩ := bind_eq_ok.mp hsave
  rw [pure_eq_ok] at hsave
  cases hsave
  have hstamp := stampDefinition_id world.now definition
  rw [← hstamp] at hid
  have hsame := reviseDefinition_id hid hrevised
  exact ⟨hsame.trans hstamp, (reviseDefinition_lifecycle hrevised).trans
    (stampDefinition_lifecycle _ _)⟩

theorem jobs_upsertJob {row : JobRow δ} (hrow : row ∈ (upsertJob definition s).jobs) :
    row ∈ s.jobs ∨ (row.id = definition.id ∧ row.definition = definition) := by
  unfold upsertJob at hrow
  split at hrow
  · rw [mem_append, mem_singleton] at hrow
    cases hrow with
    | inl hold => exact .inl hold
    | inr hnew =>
      rw [hnew]
      exact .inr ⟨rfl, rfl⟩
  · obtain ⟨row₀, hrow₀, rfl⟩ := mem_map.mp hrow
    split
    · rename_i hid
      exact .inr ⟨hid, rfl⟩
    · exact .inl hrow₀

/-- Where a row comes from: it was there, but for the instants, or it is saved now. -/
theorem row_before {r : Request δ} {s' : Store δ} {result : r.Result}
    (hop : operationOf definitions world r s = .ok (result, s')) {row : JobRow δ}
    (hrow : row ∈ s'.jobs) :
    (∃ row₀ ∈ s.jobs, row₀.id = row.id ∧ row₀.definition = row.definition) ∨
      ∃ definition saved, r = .saveJob definition ∧
        saveJob definitions world definition s = .ok (saved, s') ∧
        row.id = saved.id ∧ row.definition = saved := by
  obtain hsame | ⟨definition, saved, hr, hsave⟩ | ⟨_, p, hjobs⟩ | ⟨id, scheduledAt, next, _,
    hjobs⟩ := jobs_operationOf definitions r hop
  · rw [hsame] at hrow
    exact .inl ⟨row, hrow, rfl, rfl⟩
  · obtain ⟨revised, _, hsaved⟩ := bind_eq_ok.mp hsave
    rw [pure_eq_ok] at hsaved
    cases hsaved
    cases jobs_upsertJob hrow with
    | inl hold => exact .inl ⟨row, hold, rfl, rfl⟩
    | inr hnew => exact .inr ⟨definition, _, hr, hsave, hnew.1, hnew.2⟩
  · rw [hjobs] at hrow
    exact .inl ⟨row, mem_of_mem_filter hrow, rfl, rfl⟩
  · rw [hjobs] at hrow
    obtain ⟨row₀, hrow₀, rfl⟩ := mem_map.mp hrow
    refine .inl ⟨row₀, hrow₀, ?_, ?_⟩ <;> split <;> rfl

/-- Where a queued run comes from: it was there, or it is created now. -/
theorem queued_before {r : Request δ} {s' : Store δ} {result : r.Result}
    (hop : operationOf definitions world r s = .ok (result, s')) {run : RunRecord}
    (hrun : run ∈ s'.runs) (hqueued : run.status = .queued) :
    run ∈ s.runs ∨ r.creates = some run.jobID := by
  have hturn := runs_operationOf definitions r hop
  generalize s'.runs = runs at hturn hrun
  cases hturn with
  | worked f hf =>
    obtain ⟨run₀, hrun₀, rfl⟩ := mem_map.mp hrun
    rw [(hf run₀ hrun₀).queued_same hqueued]
    exact .inl hrun₀
  | added created hcreates hcreated hnew =>
    rw [mem_append, mem_singleton] at hrun
    cases hrun with
    | inl hold => exact .inl hold
    | inr hadded =>
      rw [hadded]
      exact .inr hcreates
  | deleted hdeletes cond => exact .inl (mem_of_mem_filter hrun)

theorem wellNamed_serve {s : Tables δ} (h : WellNamed s) (world : World)
    (hallowed : lifecycleLedger.allowed r) :
    WellNamed (serveTable definitions validJSON s r world).2 := by
  cases store_of_tableStep definitions validJSON s ⟨r, world⟩ with
  | inl hsame =>
    obtain hsame : (serveTable definitions validJSON s r world).2.store = s.store := hsame
    unfold WellNamed
    rw [hsame]
    exact h
  | inr hstore =>
    obtain ⟨request, world', result, hrequest, _, hop⟩ := hstore
    cases hrequest
    have hrows : ∀ row ∈ (serveTable definitions validJSON s (.store request) world).2.store.jobs,
        (row.definition.id = row.id ∧ trimSpace row.id = row.id) ∧ row.id ≠ [] := by
      intro row hrow
      cases row_before hop hrow with
      | inl hold =>
        obtain ⟨row₀, hrow₀, hid, hdefinition⟩ := hold
        rw [← hid, ← hdefinition]
        exact ⟨h.1 row₀ hrow₀, h.2 row₀ hrow₀⟩
      | inr hsaved =>
        obtain ⟨definition, saved, rfl, hsave, hid, hdefinition⟩ := hsaved
        obtain ⟨hne, htrim⟩ := hallowed
        have hsame := (saveJob_ok hne hsave).1
        rw [hdefinition, hid, hsame]
        exact ⟨⟨rfl, htrim⟩, hne⟩
    exact ⟨fun row hrow => (hrows row hrow).1, fun row hrow => (hrows row hrow).2⟩

theorem getJob_row {s' : Store δ} {id : Text} (hget : getJob id s = .ok (definition, s')) :
    ∃ row ∈ s.jobs, definition.id = row.definition.id := by
  unfold getJob at hget
  split at hget
  · rename_i row hfind
    cases hget
    exact ⟨row, mem_of_find?_eq_some hfind, rfl⟩
  · cases hget

theorem tells_of_serve {s : Tables δ} (h : WellNamed s) (hallowed : lifecycleLedger.allowed r) :
    lifecycleLedger.tells r (serveTable definitions validJSON s r world).1 := by
  cases hanswer : (serveTable definitions validJSON s r world).1 with
  | error err =>
    cases r with
    | store r => cases r <;> trivial
    | _ => trivial
  | ok result =>
    have hop := attempt_ok hanswer
    cases r with
    | store r =>
      have hstore := tableOperation_store hop
      cases r with
      | getJob id =>
        obtain ⟨row, hrow, hid⟩ := getJob_row hstore
        show result.id ≠ [] ∧ trimSpace result.id = result.id
        rw [hid, (h.1 row hrow).1]
        exact ⟨h.2 row hrow, (h.1 row hrow).2⟩
      | saveJob definition => exact saveJob_ok hallowed.1 hstore
      | _ => trivial
    | _ => trivial

/-- A cancellation that does not fail leaves no run of the job queued. -/
theorem canceled_of_serve {s : Tables δ} {jobID reason : Text} {nowMillis : ℤ}
    (hfails : world.fails = none) :
    ∀ r ∈ (tableStep definitions validJSON s
      ⟨.store (.requestCancelRunsForJob jobID nowMillis reason), world⟩).store.runs,
      r.jobID = trimSpace jobID → r.status ≠ .queued := by
  unfold tableStep serveTable attempt
  rw [hfails]
  intro r hr hjob hqueued
  obtain ⟨r₀, hr₀, rfl⟩ := mem_map.mp hr
  split at hqueued
  · unfold cancelRecord at hqueued
    split at hqueued <;> cases hqueued
  · rename_i hmiss
    rw [if_neg hmiss] at hjob
    apply hmiss
    dsimp only
    rw [hjob, hqueued]
    simp [pending]

/-- **What is queued behind a pause was so before, or is incurred by the request.** -/
theorem open_of_serve {s : Tables δ} (hallowed : lifecycleLedger.allowed r)
    (hintime : InTime s r world) {id : Text}
    (hopen : QueuedBehind (serveTable definitions validJSON s r world).2 id) :
    lifecycleLedger.incurs r (serveTable definitions validJSON s r world).1 id ∨
      (QueuedBehind s id ∧ lifecycleLedger.pays r ≠ some id) := by
  obtain ⟨⟨row, hrow, hid, hinactive⟩, run, hrun, hjob, hqueued⟩ := hopen
  have hpays : lifecycleLedger.pays r ≠ some id := by
    intro hpays
    cases r with
    | store r =>
      cases r with
      | requestCancelRunsForJob jobID nowMillis reason =>
        cases hpays
        exact canceled_of_serve (hintime.2 nofun) run hrun hjob hqueued
      | _ => cases hpays
    | _ => cases hpays
  cases store_of_tableStep definitions validJSON s ⟨r, world⟩ with
  | inl hsame =>
    obtain hsame : (serveTable definitions validJSON s r world).2.store = s.store := hsame
    rw [hsame] at hrow hrun
    exact .inr ⟨⟨⟨row, hrow, hid, hinactive⟩, run, hrun, hjob, hqueued⟩, hpays⟩
  | inr hstore =>
    obtain ⟨request, world', result, hrequest, hanswer, hop⟩ := hstore
    cases hrequest
    cases row_before hop hrow with
    | inl hrowBefore =>
      right
      obtain ⟨row₀, hrow₀, hid₀, hdefinition⟩ := hrowBefore
      rw [← hdefinition] at hinactive
      refine ⟨⟨⟨row₀, hrow₀, hid₀.trans hid, hinactive⟩, run, ?_, hjob, hqueued⟩, hpays⟩
      cases queued_before hop hrun hqueued with
      | inl hrunBefore => exact hrunBefore
      | inr hcreates =>
        -- a run is created only for a job that is neither paused nor archived
        refine absurd hinactive (hintime.1 row₀ hrow₀ (hcreates.trans ?_))
        rw [hjob, hid₀, hid]
    | inr hsaved =>
      left
      obtain ⟨definition, saved, rfl, hsave, hid', hdefinition⟩ := hsaved
      rw [hdefinition] at hinactive
      obtain hanswer' : result = saved := by
        have hboth := hop.symm.trans hsave
        cases hboth
        rfl
      rw [hanswer, hanswer']
      exact ⟨hid'.symm.trans hid, hinactive⟩

end requests

/-! ### The law -/

/-- **Once all callers have returned, no run of a paused or archived job is queued**, when every
run was created for a job that was neither, and no cancellation failed or was cut off. -/
theorem paused_jobs_queue_nothing (definitions : Definitions δ)
    (hnormal : KeepsLifecycle definitions) (validJSON : Text → Bool)
    (moves : List (Move (LifecycleOperation δ) World))
    (hmoves : Machine.Along (lifecycleStep definitions validJSON)
      (Orderly lifecycleLedger InTime) ⟨Tables.empty, []⟩ moves) :
    let c := Machine.run (lifecycleStep definitions validJSON) ⟨Tables.empty, []⟩ moves
    (∀ p ∈ c.callers, Returned p) →
      ∀ row ∈ c.state.store.jobs, inactive row.definition.lifecycle →
        ∀ r ∈ c.state.store.runs, r.jobID = row.id → r.status ≠ .queued := by
  intro c hreturned row hrow hinactive r hr hjob hqueued
  have hserve : ∀ (s : Tables δ) (r : TableRequest δ) (world : World), WellNamed s →
      lifecycleLedger.allowed r → InTime s r world →
      WellNamed (serveTable definitions validJSON s r world).2 ∧
        lifecycleLedger.tells r (serveTable definitions validJSON s r world).1 ∧
        ∀ id, QueuedBehind (serveTable definitions validJSON s r world).2 id →
          lifecycleLedger.incurs r (serveTable definitions validJSON s r world).1 id ∨
            (QueuedBehind s id ∧ lifecycleLedger.pays r ≠ some id) := by
    intro s r world hnamed hallowed hintime
    exact ⟨wellNamed_serve hnamed world hallowed, tells_of_serve hnamed hallowed,
      fun id hopen => open_of_serve hallowed hintime hopen⟩
  have hempty : WellNamed (Tables.empty : Tables δ) := by
    constructor <;> intro row hrow <;> cases hrow
  have hclosed : ∀ id, ¬ QueuedBehind (Tables.empty : Tables δ) id := by
    intro id hopen
    obtain ⟨⟨row, hrow, _⟩, _⟩ := hopen
    cases hrow
  have hcovered : Covered lifecycleLedger WellNamed QueuedBehind c :=
    open_owed (diligent_lifecycleProgram hnormal) hserve hempty hclosed hmoves
  exact hcovered.nothing_open hreturned row.id
    ⟨⟨row, hrow, rfl, hinactive⟩, r, hr, hjob, hqueued⟩

/-- A job is saved and a run of it is started, and then the job is paused. -/
def pauseBehindStart : List (Move (LifecycleOperation Unit) World) :=
  let world : World := ⟨5000, bytes "8f14e45f", none⟩
  [.start (.putJob { minuteJob with revision := 0 } 5000 (by decide)), .serve 0 world,
    .start (.startRun (bytes "job-1") 5000), .serve 1 world, .serve 1 world,
    .start (.pauseJob (bytes "job-1") 5000), .serve 2 world, .serve 2 world, .serve 2 world]

theorem keepsLifecycle_minute : KeepsLifecycle minuteDefinitions := fun _ => ⟨rfl, rfl⟩

/-- The run that is started is canceled. -/
theorem paused_jobs_queue_nothing_canceled :
    let c := Machine.run (lifecycleStep minuteDefinitions fun _ => true) ⟨Tables.empty, []⟩
      pauseBehindStart
    c.state.store.runs.map RunRecord.status = [.canceled] ∧
      ∀ row ∈ c.state.store.jobs, inactive row.definition.lifecycle →
        ∀ r ∈ c.state.store.runs, r.jobID = row.id → r.status ≠ .queued := by
  refine ⟨by decide, ?_⟩
  apply paused_jobs_queue_nothing minuteDefinitions keepsLifecycle_minute (fun _ => true)
    pauseBehindStart
  · decide
  · decide

/-- The caller that starts a run has read the job before it is paused, and creates the run
behind the cancellation. -/
def pauseWithinStart : List (Move (LifecycleOperation Unit) World) :=
  let world : World := ⟨5000, bytes "8f14e45f", none⟩
  [.start (.putJob { minuteJob with revision := 0 } 5000 (by decide)), .serve 0 world,
    .start (.startRun (bytes "job-1") 5000), .start (.pauseJob (bytes "job-1") 5000),
    .serve 1 world, .serve 2 world, .serve 2 world, .serve 2 world, .serve 1 world]

/-- **A run that is created behind the pause stays queued**, though no caller is cut off and no
transaction fails. -/
theorem paused_jobs_queue_nothing_fails :
    ¬ ∀ moves : List (Move (LifecycleOperation Unit) World),
      (∀ move ∈ moves, ∀ i, move ≠ .crash i) →
      let c := Machine.run (lifecycleStep minuteDefinitions fun _ => true) ⟨Tables.empty, []⟩ moves
      (∀ p ∈ c.callers, Returned p) →
        ∀ row ∈ c.state.store.jobs, inactive row.definition.lifecycle →
          ∀ r ∈ c.state.store.runs, r.jobID = row.id → r.status ≠ .queued := by
  intro h
  have hcalm : ∀ move ∈ pauseWithinStart, ∀ i, move ≠ .crash i := by
    intro move hmove i hcrash
    rw [hcrash] at hmove
    simp [pauseWithinStart] at hmove
  have hfound : ¬ ∀ row ∈ (Machine.run (lifecycleStep minuteDefinitions fun _ => true)
      ⟨Tables.empty, []⟩ pauseWithinStart).state.store.jobs, inactive row.definition.lifecycle →
      ∀ r ∈ (Machine.run (lifecycleStep minuteDefinitions fun _ => true)
        ⟨Tables.empty, []⟩ pauseWithinStart).state.store.runs,
        r.jobID = row.id → r.status ≠ .queued := by decide
  exact hfound (h pauseWithinStart hcalm (by decide))

end GoNavi.Syncjob
