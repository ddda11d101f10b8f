import GoNavi.Machine.Machine
import GoNavi.Importjob.Retry
import Mathlib.Algebra.Ring.Nat

/-! # Failed rows are written once

The resume of an interrupted job claims the job in the store, but a retry of failed rows only reads
its parent, so a job that is retried by two calls has its rows written twice (`retried_twice`).
**While no job is retried by two calls, the retries of a job and of the jobs they create write a
row at most as often as it is in the job's artifact** (`failed_rows_written_once`).  The rows that
can still be written are in the artifacts of jobs that were not retried, or still to be done by a
retry: no step makes them more. -/

namespace GoNavi.Importjob

open Scan Stoppable Machine List Table

variable {β : Type} [DecidableEq β] (lib : RetryLibraries β)

/-! ### What is claimed -/

/-- No row is written more often than it is in the artifact. -/
def WrittenOnce (rows : List (ImportRowError β)) (s : Retries β) : Prop :=
  ∀ row, s.written.count row ≤ (retryableRows lib rows).count row

/-- The action does not retry a job that was retried before. -/
def RetriesOnce (s : Retries β) : RetryAction → Prop
  | .call call =>
    match retryScope lib call s with
    | none => True
    | some (job, _) => job.id ∉ s.retried
  | .proceed _ | .restart => True

instance (s : Retries β) (a : RetryAction) : Decidable (RetriesOnce lib s a) := by
  unfold RetriesOnce
  split
  · split
    · exact .isTrue trivial
    · exact inferInstance
  · exact .isTrue trivial
  · exact .isTrue trivial

/-! ### The rows of a task -/

section

variable (row : Row β)

/-- The rows that an effect writes or keeps for another retry. -/
def Effect.rows : Effect β → List (Row β)
  | .submit _ rows .written | .submit _ rows (.unknown true) => rows
  | .submit .. => []
  | .put _ => []
  | .publish _ rows => retryableRows lib rows

/-- How often a task has a row: done, rejected or in its batch. -/
def Task.held (t : Task β) : ℕ :=
  (t.effects.flatMap (Effect.rows lib)).count row + (retryableRows lib t.artifact.rows).count row +
    t.batch.count row

/-- An effect that a task has before its end. -/
def Effect.Plain (job : Job) : Effect β → Prop
  | .submit .. => True
  | .put job' => job'.id = job.id ∧ job'.errorArtifactID = job.errorArtifactID
  | .publish .. => False

/-- A task goes on and takes at most a number of rows. -/
structure Task.Goes (n : ℕ) (t t' : Task β) : Prop where
  held : t'.held lib row ≤ t.held lib row + n
  id : t'.job.id = t.job.id
  artifactID : t'.job.errorArtifactID = t.job.errorArtifactID
  effects : ∀ e ∈ t'.effects, e ∈ t.effects ∨ e.Plain t.job

/-- An effect of the retry with this job and this artifact. -/
def Effect.BelongsTo (jobID artifactID : Text) : Effect β → Prop
  | .submit .. => True
  | .put job => job.id = jobID ∧ (job.errorArtifactID = [] ∨ job.errorArtifactID = artifactID)
  | .publish id _ => id = artifactID

/-- What a retry does in the end is its own, and within the rows of its parent. -/
structure Task.Within (n : ℕ) (jobID artifactID : Text) (t : Task β) : Prop where
  rows : (t.effects.flatMap (Effect.rows lib)).count row ≤ n
  belongs : ∀ e ∈ t.effects, e.BelongsTo jobID artifactID

/-- A task whose job has not ended. -/
structure Task.Open (n : ℕ) (jobID artifactID : Text) (t : Task β) : Prop where
  held : t.held lib row ≤ n
  id : t.job.id = jobID
  errorArtifactID : t.job.errorArtifactID = []
  belongs : ∀ e ∈ t.effects, e.BelongsTo jobID artifactID

variable {lib row}

omit [DecidableEq β] in
theorem Effect.Plain.congr {job job' : Job} {e : Effect β} (h : e.Plain job) (hid : job.id = job'.id)
    (hartifact : job.errorArtifactID = job'.errorArtifactID) : e.Plain job' := by
  cases e with
  | submit => trivial
  | put job => exact ⟨h.1.trans hid, h.2.trans hartifact⟩
  | publish => exact h

variable {t t' : Task β} {r : Task β × Option Stop}

namespace Task.Goes

theorem refl (t : Task β) : t.Goes lib row 0 t :=
  ⟨Nat.le_refl _, rfl, rfl, fun _ he => .inl he⟩

theorem trans {n m : ℕ} {t₁ t₂ t₃ : Task β} (h : t₁.Goes lib row n t₂) (h' : t₂.Goes lib row m t₃) :
    t₁.Goes lib row (n + m) t₃ where
  held := by
    have := h.held
    have := h'.held
    omega
  id := h'.id.trans h.id
  artifactID := h'.artifactID.trans h.artifactID
  effects e he := by
    cases h'.effects e he with
    | inl he => exact h.effects e he
    | inr he => exact .inr (he.congr h.id h.artifactID)

theorem mono {n m : ℕ} (h : t.Goes lib row n t') (hnm : n ≤ m) :
    t.Goes lib row m t' :=
  { h with held := Nat.le_trans h.held (Nat.add_le_add_left hnm _) }

theorem last {n : ℕ} {t₁ t₂ t₃ : Task β} (h' : t₂.Goes lib row 0 t₃) (h : t₁.Goes lib row n t₂) :
    t₁.Goes lib row n t₃ := h.trans h'

theorem andThen {n m : ℕ} {next : Task β → Task β × Option Stop} (h : t.Goes lib row n r.1)
    (hnext : ∀ t, Goes lib row m t (next t).1) :
    t.Goes lib row (n + m) (Stoppable.andThen r next).1 := by
  obtain ⟨t', stop⟩ := r
  cases stop with
  | none => exact h.trans (hnext t')
  | some stop => exact h.mono (Nat.le_add_right n m)

theorem forEach {α : Type} {body : α → Task β → Task β × Option Stop} {cost : α → ℕ}
    (hbody : ∀ a t, Goes lib row (cost a) t (body a t).1) :
    ∀ (as : List α) (t : Task β), t.Goes lib row (as.map cost).sum (forEach body as t).1
  | [], t => .refl t
  | a :: as, t => (hbody a t).andThen fun t => Goes.forEach hbody as t

theorem quiet (heffects : t'.effects = t.effects) (hartifact : t'.artifact = t.artifact)
    (hbatch : t'.batch = t.batch) (hid : t'.job.id = t.job.id)
    (herror : t'.job.errorArtifactID = t.job.errorArtifactID) :
    t.Goes lib row 0 t' where
  held := by
    unfold Task.held
    rw [heffects, hartifact, hbatch]
    exact Nat.le_refl _
  id := hid
  artifactID := herror
  effects e he := .inl (heffects ▸ he)

theorem does (t : Task β) {e : Effect β} (he : e.Plain t.job) :
    t.Goes lib row ((e.rows lib).count row) (t.does e) where
  held := by
    simp only [Task.held, Task.does, List.flatMap_cons, List.count_append]
    omega
  id := rfl
  artifactID := rfl
  effects e' he' := by
    cases mem_cons.mp he' with
    | inl h => exact .inr (h ▸ he)
    | inr h => exact .inl h

end Task.Goes

variable (env : Env) (setup : Setup)

theorem contextError_goes (t : Task β) : t.Goes lib row 0 (contextError env t).1 := by
  unfold contextError
  split
  · exact .quiet rfl rfl rfl rfl rfl
  · exact .quiet rfl rfl rfl rfl rfl

theorem putJob_goes {job : Job} (hid : job.id = t.job.id)
    (herror : job.errorArtifactID = t.job.errorArtifactID) :
    t.Goes lib row 0 (putJob env job t) := by
  unfold putJob
  split
  · exact .quiet rfl rfl rfl hid herror
  · have hset : t.Goes lib row 0 { t with job := { job with revision := job.revision + 1 } } :=
      .quiet rfl rfl rfl hid herror
    have hdoes : Task.Goes lib row 0 { t with job := { job with revision := job.revision + 1 } }
        (Task.does (.put { job with revision := job.revision + 1 })
          { t with job := { job with revision := job.revision + 1 } }) :=
      .does _ (e := .put { job with revision := job.revision + 1 }) ⟨rfl, rfl⟩
    refine Task.Goes.mono ((hset.trans hdoes).trans (m := 0) ?_) (Nat.le_refl 0)
    exact .quiet rfl rfl rfl rfl rfl

theorem update_goes (current : ℕ) (checkpointSafe : Bool) (t : Task β) :
    t.Goes lib row 0 (update env setup current checkpointSafe t) := by
  unfold update
  split
  · exact .refl t
  · split
    · exact .quiet rfl rfl rfl rfl rfl
    · exact putJob_goes env rfl rfl

theorem emitProgress_goes (current : ℕ) (forced : Bool) (t : Task β) :
    t.Goes lib row 0 (emitProgress env setup current forced t) := by
  unfold emitProgress
  split
  · exact .quiet rfl rfl rfl rfl rfl
  · exact (update_goes env setup _ _ _).last (.quiet rfl rfl rfl rfl rfl)

theorem count_rows_submit (sourceRow : ℕ) (rows : List (Row β)) (outcome : Outcome) :
    ((Effect.submit sourceRow rows outcome).rows lib).count row ≤ rows.count row := by
  cases outcome with
  | written => exact Nat.le_refl _
  | skipped => exact Nat.zero_le _
  | failed => exact Nat.zero_le _
  | unknown landed =>
    cases landed with
    | false => exact Nat.zero_le _
    | true => exact Nat.le_refl _

theorem submit_goes (t : Task β) (sourceRow : ℕ) (rows : List (Row β)) (outcome : Outcome) :
    t.Goes lib row (rows.count row) (t.does (.submit sourceRow rows outcome)) :=
  (Task.Goes.does t (e := .submit sourceRow rows outcome) trivial).mono
    (count_rows_submit sourceRow rows outcome)

theorem afterRow_goes (sourceRow : ℕ) (t : Task β) :
    t.Goes lib row 0 (afterRow env setup sourceRow t).1 := by
  have hemit : t.Goes lib row 0 (contextError env (emitProgress env setup sourceRow false t)).1 :=
    (contextError_goes env _).last (emitProgress_goes env setup sourceRow false t)
  unfold afterRow
  split
  · rename_i t' stop heq
    rw [heq] at hemit
    exact hemit.trans (emitProgress_goes env setup sourceRow true t')
  · rename_i t' heq
    rw [heq] at hemit
    exact hemit


theorem count_append_artifact (fails : Bool) (sourceRow : ℕ) (w : ArtifactWriter β) (values : Row β) :
    (retryableRows lib (w.append lib.toImportLibraries fails
      ⟨sourceRow, bytes "database", true, values⟩).rows).count row ≤
    (retryableRows lib w.rows).count row + [values].count row := by
  unfold ArtifactWriter.append
  split
  · exact Nat.le_add_right _ _
  · dsimp only
    split
    · exact Nat.le_add_right _ _
    · split
      · exact Nat.le_add_right _ _
      · split
        · exact Nat.le_add_right _ _
        · simp only [retryableRows, List.filter_append, List.map_append, List.count_append]
          refine Nat.add_le_add_left ?_ _
          exact (List.filter_sublist.map ImportRowError.values).count_le row

theorem append_goes (fails : Bool) (sourceRow : ℕ) (values : Row β) (t : Task β) :
    t.Goes lib row ([values].count row) { t with
      artifact := t.artifact.append lib.toImportLibraries fails
        ⟨sourceRow, bytes "database", true, values⟩ } where
  held := by
    have hkept : (retryableRows lib (t.artifact.append lib.toImportLibraries fails
        ⟨sourceRow, bytes "database", true, values⟩).rows).count row ≤
        (retryableRows lib t.artifact.rows).count row + [values].count row :=
      count_append_artifact fails sourceRow t.artifact values
    simp only [Task.held]
    omega
  id := rfl
  artifactID := rfl
  effects _ he := .inl he

/-- A row that is refused is kept for another retry but not written. -/
theorem rejectRow_goes (values : Row β) (sourceRow : ℕ) (t : Task β) :
    t.Goes lib row ([values].count row)
      (rejectRow lib.toImportLibraries env setup values sourceRow t).1 := by
  have hsubmit : t.Goes lib row 0 (t.does (.submit sourceRow [values] .failed)) :=
    Task.Goes.does t (e := .submit sourceRow [values] .failed) trivial
  have hcount : (t.does (.submit sourceRow [values] .failed)).Goes lib row 0
      { t.does (.submit sourceRow [values] .failed) with failedCount := t.failedCount + 1 } :=
    .quiet rfl rfl rfl rfl rfl
  have hkept := ((hsubmit.trans hcount).trans
    (append_goes (env.appendFails t.clock) sourceRow values _)).mono (m := [values].count row)
      (by omega)
  have hstop : ∀ {t' : Task β} {stop : Stop}, t.Goes lib row ([values].count row) t' →
      t.Goes lib row ([values].count row)
        (emitProgress env setup sourceRow true { t' with stoppedOnError := true }, some stop).1 :=
    fun h => (emitProgress_goes env setup sourceRow true _).last
      (h.trans (m := 0) (.quiet rfl rfl rfl rfl rfl))
  unfold rejectRow
  dsimp only
  split
  · exact hstop hkept
  · split
    · exact hstop hkept
    · exact hkept.trans (afterRow_goes env setup sourceRow _)

theorem applyRow_goes (values : Row β) (sourceRow : ℕ) (t : Task β) :
    t.Goes lib row ([values].count row)
      (applyRow lib.toImportLibraries env setup values sourceRow t).1 := by
  have hsubmit : ∀ (t : Task β) (outcome : Outcome), t.Goes lib row ([values].count row)
      (t.does (.submit sourceRow [values] outcome)).tick := fun t outcome =>
    (submit_goes t sourceRow [values] outcome).trans (m := 0) (.quiet rfl rfl rfl rfl rfl)
  unfold applyRow
  refine (Task.Goes.andThen (n := 0) (m := [values].count row) (contextError_goes env t)
    fun t => ?_).mono (Nat.zero_add _).le
  split
  · exact (afterRow_goes env setup sourceRow _).last
      ((hsubmit t .written).trans (m := 0) (.quiet rfl rfl rfl rfl rfl))
  · exact (afterRow_goes env setup sourceRow _).last
      ((hsubmit t .skipped).trans (m := 0) (.quiet rfl rfl rfl rfl rfl))
  · exact (emitProgress_goes env setup sourceRow true _).last
      ((hsubmit t _).trans (m := 0) (.quiet rfl rfl rfl rfl rfl))
  · exact (hsubmit t _).trans (m := 0) (.quiet rfl rfl rfl rfl rfl)
  · have hcontext : t.Goes lib row 0 (contextError env t).1 := contextError_goes env t
    split
    · rename_i t' stop heq
      rw [heq] at hcontext
      have hdone := (hcontext.trans (submit_goes t' sourceRow [values]
        (.unknown (env.lands t.clock)))).mono (Nat.zero_add _).le
      exact hdone.trans (m := 0) (.quiet rfl rfl rfl rfl rfl)
    · rename_i t' heq
      rw [heq] at hcontext
      exact (hcontext.trans (rejectRow_goes env setup values sourceRow t')).mono (Nat.zero_add _).le


theorem Task.Goes.cleared
    (h : Task.Goes lib row (t.batch.count row)
      { t with batch := [], batchBytes := 0, batchStartRow := 0 } t') : t.Goes lib row 0 t' where
  held := by
    have := h.held
    simp only [Task.held, count_nil] at this ⊢
    omega
  id := h.id
  artifactID := h.artifactID
  effects := h.effects

theorem sum_count_zipIdx : ∀ (rows : List (Row β)) (n : ℕ),
    ((rows.zipIdx n).map fun p => [p.1].count row).sum = rows.count row
  | [], _ => rfl
  | values :: rows, n => by
    rw [List.zipIdx_cons, List.map_cons, List.sum_cons, sum_count_zipIdx rows (n + 1),
      ← List.count_append, List.singleton_append]

theorem applyRows_goes (rows : List (Row β)) (startRow : ℕ) (t : Task β) :
    t.Goes lib row (rows.count row)
      (applyRows lib.toImportLibraries env setup rows startRow t).1 := by
  rw [← sum_count_zipIdx rows startRow]
  exact Task.Goes.forEach (fun p t => applyRow_goes env setup p.1 p.2 t) _ t

theorem applyBatch_goes (rows : List (Row β)) (startRow : ℕ) (t : Task β) :
    t.Goes lib row (rows.count row) (applyBatch env setup rows startRow t).1 := by
  have hsubmit : ∀ outcome : Outcome, t.Goes lib row (rows.count row)
      (t.does (.submit startRow rows outcome)).tick := fun outcome =>
    (submit_goes t startRow rows outcome).trans (m := 0) (.quiet rfl rfl rfl rfl rfl)
  have hsucceeded : t.Goes lib row (rows.count row)
      (contextError env (emitProgress env setup (startRow + rows.length - 1) true
        { (t.does (.submit startRow rows .written)).tick with
          successCount := t.successCount + rows.length })).1 :=
    (contextError_goes env _).last ((emitProgress_goes env setup _ true _).last
      ((hsubmit .written).trans (m := 0) (.quiet rfl rfl rfl rfl rfl)))
  have hcontext := (contextError_goes env _).last (hsubmit (.unknown (env.lands t.clock)))
  unfold applyBatch
  dsimp only
  split
  · exact hsucceeded
  · exact hsucceeded
  · exact (hsubmit _).trans (m := 0) (.quiet rfl rfl rfl rfl rfl)
  all_goals
    split
    · rename_i t' stop heq
      rw [heq] at hcontext
      exact hcontext.trans (m := 0) (.quiet rfl rfl rfl rfl rfl)
    · rename_i t' heq
      rw [heq] at hcontext
      exact (emitProgress_goes env setup _ true _).last
        (hcontext.trans (m := 0) (.quiet rfl rfl rfl rfl rfl))

theorem flush_goes (t : Task β) :
    t.Goes lib row 0 (flush lib.toImportLibraries env setup t).1 := by
  unfold flush
  refine Task.Goes.andThen (n := 0) (m := 0) (contextError_goes env t) fun t => ?_
  split
  · exact .refl t
  · split
    · exact (applyBatch_goes env setup t.batch _ _).cleared
    · refine Task.Goes.cleared (Task.Goes.andThen (m := 0) (applyRows_goes env setup t.batch _ _) ?_)
      intro t
      exact emitProgress_goes env setup _ true t

theorem consumeRow_goes (values : Row β) (t : Task β) :
    t.Goes lib row ([values].count row)
      (consumeRow lib.toImportLibraries env setup values t).1 := by
  unfold consumeRow
  refine (Task.Goes.andThen (n := 0) (m := [values].count row) (contextError_goes env t)
    fun t => ?_).mono (Nat.zero_add _).le
  split
  · exact (Task.Goes.refl t).mono (Nat.zero_le _)
  · rename_i rowBytes _
    dsimp only
    refine (Task.Goes.andThen (n := 0) (m := [values].count row) ?_ fun t => ?_).mono
      (Nat.zero_add _).le
    · split
      · exact flush_goes env setup t
      · exact .refl t
    · have hadded : t.Goes lib row ([values].count row) { t with
          currentRow := t.currentRow + 1
          batchStartRow := if t.batch = [] then t.currentRow + 1 else t.batchStartRow
          batch := t.batch ++ [values]
          batchBytes := t.batchBytes + rowBytes } := {
        held := by
          simp only [Task.held, List.count_append]
          omega
        id := rfl
        artifactID := rfl
        effects := fun _ he => .inl he }
      split
      · exact (flush_goes env setup _).last hadded
      · exact hadded


/-! ### The rows of a retry -/

variable (renv : RetryEnv)

theorem replayRow_goes (r : ImportRowError β) (index : ℕ) (t : Task β) :
    t.Goes lib row ((retryableRows lib [r]).count row) (replayRow lib renv r index t).1 := by
  unfold replayRow
  refine (Task.Goes.andThen (n := 0) (m := (retryableRows lib [r]).count row)
    (contextError_goes renv.toEnv t) fun t => ?_).mono (Nat.zero_add _).le
  split
  · exact (Task.Goes.refl t).mono (Nat.zero_le _)
  · split
    · rename_i hretryable
      have hrows : retryableRows lib [r] = [r.values] := by
        simp [retryableRows, hretryable]
      rw [hrows]
      exact consumeRow_goes renv.toEnv (retrySetup renv) r.values t
    · exact (Task.Goes.refl t).mono (Nat.zero_le _)

theorem sum_count_retryableRows : ∀ (rows : List (ImportRowError β)) (n : ℕ),
    ((rows.zipIdx n).map fun p => (retryableRows lib [p.1]).count row).sum =
      (retryableRows lib rows).count row
  | [], _ => rfl
  | r :: rows, n => by
    rw [List.zipIdx_cons, List.map_cons, List.sum_cons, sum_count_retryableRows rows (n + 1),
      ← List.count_append]
    simp only [retryableRows, ← List.map_append, ← List.filter_append, List.singleton_append]

theorem replayRows_goes (rows : List (ImportRowError β)) (t : Task β) :
    t.Goes lib row ((retryableRows lib rows).count row) (replayRows lib renv rows t).1 := by
  unfold replayRows
  refine Task.Goes.andThen (n := (retryableRows lib rows).count row) (m := 0) ?_ fun t => ?_
  · rw [← sum_count_retryableRows rows 0]
    exact Task.Goes.forEach (fun p t => replayRow_goes renv p.1 p.2 t) _ t
  · refine Task.Goes.andThen (n := 0) (m := 0) (contextError_goes renv.toEnv t) fun t => ?_
    split
    · exact .refl t
    · exact flush_goes renv.toEnv (retrySetup renv) t

variable {n : ℕ} {jobID artifactID : Text}

theorem Task.Goes.open {n m : ℕ} (h : t.Goes lib row m t')
    (ht : t.Open lib row n jobID artifactID) :
    t'.Open lib row (n + m) jobID artifactID where
  held := Nat.le_trans h.held (Nat.add_le_add_right ht.held m)
  id := h.id.trans ht.id
  errorArtifactID := h.artifactID.trans ht.errorArtifactID
  belongs e he := by
    cases h.effects e he with
    | inl he => exact ht.belongs e he
    | inr he =>
      cases e with
      | submit => trivial
      | put job => exact ⟨he.1.trans ht.id, .inl (he.2.trans ht.errorArtifactID)⟩
      | publish => exact he.elim

/-- The last status of the job names no artifact but the task's own. -/
theorem Task.Within.finishJob (result : Result)
    (h : t.Within lib row n jobID artifactID) (hid : t.job.id = jobID)
    (hresult : trimSpace result.errorArtifactID = [] ∨
      trimSpace result.errorArtifactID = artifactID) :
    (finishJob env result t).Within lib row n jobID artifactID := by
  unfold Importjob.finishJob
  split
  · exact h
  · unfold putJob
    split
    · exact ⟨h.rows, h.belongs⟩
    · refine ⟨h.rows, fun e he => ?_⟩
      cases mem_cons.mp he with
      | inl he =>
        rw [he]
        refine ⟨hid, ?_⟩
        show (if result.hasPayload then trimSpace result.errorArtifactID else []) = [] ∨
          (if result.hasPayload then trimSpace result.errorArtifactID else []) = artifactID
        split
        · exact hresult
        · exact .inl rfl
      | inr he => exact h.belongs e he

theorem Task.Open.within (h : t.Open lib row n jobID artifactID) :
    t.Within lib row n jobID artifactID where
  rows := by
    have := h.held
    unfold Task.held at this
    omega
  belongs := h.belongs

theorem Task.Open.finishRetry (htrim : trimSpace artifactID = artifactID)
    (h : r.1.Open lib row n jobID artifactID) :
    (finishRetry renv artifactID r).Within lib row n jobID artifactID := by
  obtain ⟨t, stop⟩ := r
  have hpublished : ∀ t' published, finishArtifact artifactID renv.publishFails t = (t', published) →
      t'.Within lib row n jobID artifactID ∧ t'.job.id = jobID ∧
        ∀ id ∈ published, trimSpace id = [] ∨ trimSpace id = artifactID := by
    intro t' published heq
    unfold finishArtifact at heq
    split at heq
    · cases heq
      exact ⟨h.within, h.id, nofun⟩
    · split at heq
      · cases heq
        refine ⟨h.within, h.id, fun id hid => ?_⟩
        cases hid
        exact .inl trimSpace_nil
      · split at heq
        · cases heq
          exact ⟨h.within, h.id, nofun⟩
        · cases heq
          refine ⟨⟨?_, fun e he => ?_⟩, h.id, fun id hid => ?_⟩
          · have := h.held
            simp only [Task.held] at this
            simp only [Task.does, List.flatMap_cons, List.count_append, Effect.rows]
            omega
          · cases List.mem_cons.mp he with
            | inl he => exact he ▸ rfl
            | inr he => exact h.belongs e he
          · cases hid
            exact .inr htrim
  unfold Importjob.finishRetry
  split
  · rename_i t' heq
    obtain ⟨hwithin, hid, -⟩ := hpublished t' none heq
    exact hwithin.finishJob renv.toEnv _ hid (.inl trimSpace_nil)
  · rename_i t' id heq
    obtain ⟨hwithin, hid, hname⟩ := hpublished t' (some id) heq
    split
    · exact hwithin.finishJob renv.toEnv _ hid (hname id rfl)
    · split
      · exact hwithin.finishJob renv.toEnv _ hid (hname id rfl)
      · exact hwithin.finishJob renv.toEnv _ hid (hname id rfl)
      · exact hwithin.finishJob renv.toEnv _ hid (hname id rfl)

/-- **A retry takes its parent's rows at most once**, for writing or for another retry. -/
theorem retryTask_within (parent : Job) (rows : List (ImportRowError β))
    (hjob : trimSpace jobID = jobID) (hartifact : trimSpace artifactID = artifactID) :
    (retryTask lib renv parent jobID artifactID rows).Within lib row
      ((retryableRows lib rows).count row) jobID artifactID := by
  have hstart : (Task.does (.put (retryJob parent jobID))
      { job := retryJob parent jobID }).Open lib row 0 jobID artifactID := {
    held := Nat.le_refl 0
    id := hjob
    errorArtifactID := rfl
    belongs := fun e he => by
      cases mem_singleton.mp he
      exact ⟨hjob, .inl rfl⟩ }
  have hmono : ∀ {t : Task β}, t.Within lib row 0 jobID artifactID →
      t.Within lib row ((retryableRows lib rows).count row) jobID artifactID :=
    fun h => ⟨Nat.le_trans h.rows (Nat.zero_le _), h.belongs⟩
  unfold retryTask
  dsimp only
  split
  · exact ⟨Nat.zero_le _, forall_mem_nil _⟩
  · split
    · exact hmono (hstart.within.finishJob renv.toEnv _ hstart.id (.inl trimSpace_nil))
    · split
      · exact hmono (hstart.within.finishJob renv.toEnv _ hstart.id (.inl trimSpace_nil))
      · exact hmono (hstart.within.finishJob renv.toEnv _ hstart.id (.inl trimSpace_nil))
      · have hcontext := (contextError_goes renv.toEnv _).open hstart
        split
        · rename_i t stop heq
          rw [heq] at hcontext
          exact hmono (hcontext.within.finishJob renv.toEnv _ hcontext.id (.inl trimSpace_nil))
        · rename_i t heq
          rw [heq] at hcontext
          split
          · exact hmono (hcontext.within.finishJob renv.toEnv _ hcontext.id (.inl trimSpace_nil))
          · have hreplayed := (replayRows_goes renv rows t).open hcontext
            rw [Nat.add_zero, Nat.zero_add] at hreplayed
            exact hreplayed.finishRetry renv hartifact

end

/-! ### Retries side by side -/

section

variable (row : Row β)

/-- How often an artifact offers a row: not at all when its job was retried. -/
def Artifact.offers (retried : List Text) (artifact : Artifact β) : ℕ :=
  if artifact.owner ∈ retried then 0 else (retryableRows lib artifact.rows).count row

/-- How often a retry under way still writes or keeps a row. -/
def RetryRun.left (run : RetryRun β) : ℕ := (run.todo.flatMap (Effect.rows lib)).count row

def Retries.open (s : Retries β) : ℕ := (s.artifacts.map (Artifact.offers lib row s.retried)).sum

def Retries.todo (s : Retries β) : ℕ := (s.runs.map (RetryRun.left lib row)).sum

/-- How often a row was written or can still be written. -/
def Retries.level (s : Retries β) : ℕ := s.written.count row + s.todo lib row + s.open lib row

/-- The artifact of a retry is its own. -/
structure RetryRun.Owns (artifacts : List (Artifact β)) (run : RetryRun β) : Prop where
  trimmed : trimSpace run.artifactID = run.artifactID
  lower : lib.toLower run.artifactID = run.artifactID
  artifact : ∃ artifact, lookup Artifact.id run.artifactID artifacts = some artifact ∧
    artifact.owner = run.jobID
  belongs : ∀ e ∈ run.todo, e.BelongsTo run.jobID run.artifactID

/-- The artifact that a job names is the job's. -/
def OwnsArtifact (artifacts : List (Artifact β)) (job : Job) : Prop :=
  trimSpace job.errorArtifactID ≠ [] → ∀ artifact,
    openArtifact lib job.errorArtifactID artifacts = some artifact → artifact.owner = job.id

/-- Every row that was or can be written is accounted for. -/
structure Accounts (total : ℕ) (s : Retries β) : Prop where
  artifactNames : (s.artifacts.map Artifact.id).Nodup
  runNames : (s.runs.map RetryRun.jobID).Nodup
  level : s.level lib row ≤ total
  owned : ∀ job ∈ s.jobs, OwnsArtifact lib s.artifacts job
  runs : ∀ run ∈ s.runs, run.Owns lib s.artifacts

variable {lib row} {total : ℕ} {s : Retries β}

/-! ### The start of a retry -/

variable {rows : List (ImportRowError β)}

omit [DecidableEq β] in
/-- A retry that passes the checks has read the artifact of its job. -/
theorem retryScope_eq_some {call : RetryCall} {job : Job}
    (h : retryScope lib call s = some (job, rows)) :
    job ∈ s.jobs ∧ trimSpace job.errorArtifactID ≠ [] ∧
      ∃ artifact, openArtifact lib job.errorArtifactID s.artifacts = some artifact ∧
        artifact.rows = rows := by
  unfold retryScope at h
  split at h
  · cases h
  · rename_i job' hget
    split at h
    · cases h
    · split at h
      · cases h
      · rename_i hchecks
        repeat' split at h
        all_goals try cases h
        have hinspect : inspectRetryable lib call.env job.errorArtifactID s.artifacts = some rows :=
          ‹_›
        refine ⟨Store.mem_of_getLocked hget, fun hname => hchecks (.inr (.inr (.inr hname))), ?_⟩
        unfold inspectRetryable at hinspect
        split at hinspect
        · cases hinspect
        · split at hinspect
          · cases hinspect
          · cases hinspect
            exact ⟨_, ‹_›, rfl⟩

variable {artifacts : List (Artifact β)} {artifact : Artifact β} {id : Text}

omit [DecidableEq β] in
theorem lookup_of_openArtifact (h : openArtifact lib id artifacts = some artifact) :
    lib.parseUUID (trimSpace id) = some (lib.toLower (trimSpace id)) ∧
      lookup Artifact.id (lib.toLower (trimSpace id)) artifacts = some artifact := by
  unfold openArtifact at h
  split at h
  · cases h
  · rename_i parsed hparsed
    split at h
    · rename_i hlower
      subst hlower
      exact ⟨hparsed, h⟩
    · cases h

omit [DecidableEq β] in
theorem OwnsArtifact.append {job : Job} {new : Artifact β} (h : OwnsArtifact lib artifacts job)
    (hfresh : lib.parseUUID (trimSpace job.errorArtifactID) ≠ some new.id) :
    OwnsArtifact lib (artifacts ++ [new]) job := by
  intro hname artifact hopen
  obtain ⟨hparsed, hlookup⟩ := lookup_of_openArtifact hopen
  cases hold : lookup Artifact.id (lib.toLower (trimSpace job.errorArtifactID)) artifacts with
  | some old =>
    rw [lookup_append_of_some hold] at hlookup
    cases hlookup
    refine h hname artifact ?_
    unfold openArtifact
    rw [hparsed]
    exact (if_pos rfl).trans hold
  | none =>
    rw [lookup_append_of_none hold] at hlookup
    have hid := lookup_key hlookup
    have hnew : artifact = new := mem_singleton.mp (mem_of_lookup hlookup)
    exact absurd (hparsed.trans (congrArg some (hid.symm.trans (congrArg _ hnew)))) hfresh

variable {run : RetryRun β}

omit [DecidableEq β] in
theorem RetryRun.Owns.append (h : run.Owns lib artifacts) (new : Artifact β) :
    run.Owns lib (artifacts ++ [new]) :=
  let ⟨artifact, hlookup, howner⟩ := h.artifact
  { h with artifact := ⟨artifact, lookup_append_of_some hlookup _, howner⟩ }

/-- What a retry takes on is what its parent's artifact no longer offers. -/
theorem level_call {jobID artifactID : Text} {job : Job}
    (h : s.level lib row ≤ total) (hmem : artifact ∈ s.artifacts) (howner : artifact.owner = job.id)
    (honce : job.id ∉ s.retried) {effects : List (Effect β)}
    (heffects : (effects.flatMap (Effect.rows lib)).count row ≤
      (retryableRows lib artifact.rows).count row) :
    Retries.level lib row { s with
      artifacts := s.artifacts ++ [⟨artifactID, jobID, []⟩]
      runs := s.runs ++ [⟨jobID, artifactID, effects⟩]
      retried := job.id :: s.retried } ≤ total := by
  have hopen : (s.artifacts.map (Artifact.offers lib row (job.id :: s.retried))).sum +
      (retryableRows lib artifact.rows).count row ≤ s.open lib row := by
    refine sum_map_add_le (fun a => ?_) ?_ hmem
    · unfold Artifact.offers
      split
      · exact Nat.zero_le _
      · rename_i hnot
        rw [if_neg fun hin => hnot (mem_cons_of_mem _ hin)]
    · unfold Artifact.offers
      rw [if_pos (howner ▸ mem_cons_self), if_neg (howner ▸ honce), Nat.zero_add]
  have hnew : Artifact.offers lib row (job.id :: s.retried) ⟨artifactID, jobID, []⟩ = 0 := by
    unfold Artifact.offers
    split <;> rfl
  have htaken : RetryRun.left lib row ⟨jobID, artifactID, effects⟩ ≤
      (retryableRows lib artifact.rows).count row := heffects
  unfold Retries.level Retries.todo at h
  simp only [Retries.level, Retries.todo, Retries.open, map_append, sum_append,
    map_singleton, sum_singleton, hnew]
  unfold Retries.open at h hopen
  omega

theorem accounts_call {call : RetryCall} (h : Accounts lib row total s)
    (honce : RetriesOnce lib s (.call call)) :
    Accounts lib row total (retryStep lib s (.call call)) := by
  unfold retryStep
  dsimp only
  split
  · rename_i hfresh
    obtain ⟨hjobTrim, htrim, hlower, hnames, hartifact, -, hrun⟩ := hfresh
    split
    · exact h
    · rename_i job rows hscope
      obtain ⟨hjob, hname, artifact, hopen, rfl⟩ := retryScope_eq_some hscope
      have hnot : job.id ∉ s.retried := by
        simp only [RetriesOnce, hscope] at honce
        exact honce
      have hmem : artifact ∈ s.artifacts := mem_of_lookup (lookup_of_openArtifact hopen).2
      have hwithin : (retryTask lib call.env job call.retryJobID call.artifactID
          artifact.rows).Within lib row _ call.retryJobID call.artifactID :=
        retryTask_within call.env job artifact.rows hjobTrim htrim
      have hperm := (reverse_perm (retryTask lib call.env job call.retryJobID
        call.artifactID artifact.rows).effects).flatMap_right (Effect.rows lib)
      refine ⟨nodup_append_of_lookup h.artifactNames hartifact, nodup_append_of_lookup h.runNames hrun,
        level_call h.level hmem (h.owned job hjob hname artifact hopen) hnot
          (hperm.count_eq row ▸ hwithin.rows),
        fun job' hjob' => (h.owned job' hjob').append (hnames job' hjob'), fun run hrun' => ?_⟩
      cases mem_append.mp hrun' with
      | inl hrun' => exact (h.runs run hrun').append _
      | inr hrun' =>
        cases mem_singleton.mp hrun'
        refine ⟨htrim, hlower, ⟨⟨call.artifactID, call.retryJobID, []⟩, ?_, rfl⟩, fun e he => ?_⟩
        · rw [Table.lookup_append_of_none hartifact]
          simp [Table.lookup]
        · exact hwithin.belongs e (mem_reverse.mp he)
  · exact h

/-! ### The effects of a retry -/

variable {effect : Effect β}

/-- A retry with one effect less to do, in the state before the effect takes place. -/
theorem level_next {todo : List (Effect β)} (hnames : (s.runs.map RetryRun.jobID).Nodup)
    (hrun : lookup RetryRun.jobID run.jobID s.runs = some run)
    (htodo : run.todo = effect :: todo) :
    Retries.level lib row { s with
      runs := Table.update RetryRun.jobID run.jobID (.next todo) s.runs } +
        (effect.rows lib).count row = s.level lib row := by
  have hsum : ((Table.update RetryRun.jobID run.jobID (.next todo) s.runs).map
      (RetryRun.left lib row)).sum + run.left lib row =
        (s.runs.map (RetryRun.left lib row)).sum + (run.next todo).left lib row :=
    sum_update_nat hrun hnames
  have hleft : run.left lib row = (effect.rows lib).count row + (run.next todo).left lib row := by
    unfold RetryRun.left
    rw [htodo, List.flatMap_cons, List.count_append]
    rfl
  simp only [Retries.level, Retries.todo, Retries.open]
  omega

/-- An effect turns what was to be done into rows that are written or can be retried. -/
theorem level_perform (hnames : (s.artifacts.map Artifact.id).Nodup) (effect : Effect β) :
    (perform s effect).level lib row ≤ s.level lib row + (effect.rows lib).count row := by
  cases effect with
  | submit sourceRow rows outcome =>
    have hwritten : Retries.level lib row { s with written := s.written ++ rows } =
        s.level lib row + rows.count row := by
      simp only [Retries.level, Retries.todo, Retries.open, List.count_append]
      omega
    cases outcome with
    | written => exact hwritten.le
    | skipped => exact Nat.le_add_right _ _
    | failed => exact Nat.le_add_right _ _
    | unknown landed =>
      cases landed with
      | true => exact hwritten.le
      | false => exact Nat.le_add_right _ _
  | put job => exact Nat.le_add_right _ _
  | publish id rows =>
    show Retries.level lib row { s with artifacts := Table.update Artifact.id id _ s.artifacts } ≤
      s.level lib row + (retryableRows lib rows).count row
    cases hlookup : Table.lookup Artifact.id id s.artifacts with
    | none =>
      have hsame : Table.update Artifact.id id (Artifact.publish rows) s.artifacts =
          s.artifacts :=
        (map_congr_left fun a ha => if_neg (Table.lookup_eq_none.mp hlookup a ha)).trans
          (map_id _)
      rw [hsame]
      exact Nat.le_add_right _ _
    | some artifact =>
      have hsum : ((Table.update Artifact.id id (.publish rows) s.artifacts).map
          (Artifact.offers lib row s.retried)).sum + artifact.offers lib row s.retried =
            (s.artifacts.map (Artifact.offers lib row s.retried)).sum +
              (artifact.publish rows).offers lib row s.retried :=
        sum_update_nat hlookup hnames
      have hnew : (artifact.publish rows).offers lib row s.retried ≤
          (retryableRows lib rows).count row := by
        unfold Artifact.offers
        split
        · exact Nat.zero_le _
        · exact Nat.le_refl _
      simp only [Retries.level, Retries.todo, Retries.open]
      omega

omit [DecidableEq β] in
theorem lookup_publish {name : Text}
    (h : Table.lookup Artifact.id name
      (Table.update Artifact.id id (Artifact.publish rows) artifacts) = some artifact) :
    ∃ old, Table.lookup Artifact.id name artifacts = some old ∧ old.owner = artifact.owner := by
  have hkeep : ∀ a : Artifact β, (a.publish rows).id = a.id := fun _ => rfl
  by_cases hname : name = id
  · subst hname
    rw [Table.lookup_update_self (f := Artifact.publish rows) hkeep] at h
    obtain ⟨old, hold, rfl⟩ := Option.map_eq_some_iff.mp h
    exact ⟨old, hold, rfl⟩
  · rw [Table.lookup_update_of_ne (f := Artifact.publish rows) hkeep hname] at h
    exact ⟨artifact, h, rfl⟩

omit [DecidableEq β] in
theorem OwnsArtifact.publish {job : Job} (h : OwnsArtifact lib artifacts job) :
    OwnsArtifact lib (Table.update Artifact.id id (Artifact.publish rows) artifacts)
      job := by
  intro hname artifact hopen
  obtain ⟨hparsed, hlookup⟩ := lookup_of_openArtifact hopen
  obtain ⟨old, hold, howner⟩ := lookup_publish hlookup
  rw [← howner]
  refine h hname old ?_
  unfold openArtifact
  rw [hparsed]
  exact (if_pos rfl).trans hold

omit [DecidableEq β] in
theorem RetryRun.Owns.publish (hrun : run.Owns lib artifacts) :
    run.Owns lib (Table.update Artifact.id id (Artifact.publish rows) artifacts) := by
  obtain ⟨artifact, hlookup, howner⟩ := hrun.artifact
  refine { hrun with artifact := ?_ }
  have hkeep : ∀ a : Artifact β, (a.publish rows).id = a.id := fun _ => rfl
  by_cases hname : run.artifactID = id
  · subst hname
    exact ⟨artifact.publish rows,
      (Table.lookup_update_self (f := Artifact.publish rows) hkeep artifacts).trans (congrArg (Option.map _) hlookup), howner⟩
  · exact ⟨artifact, (Table.lookup_update_of_ne (f := Artifact.publish rows) hkeep hname artifacts).trans hlookup, howner⟩

omit [DecidableEq β] in
theorem RetryRun.Owns.job {job : Job} (hrun : run.Owns lib artifacts)
    (hjob : (Effect.put job : Effect β).BelongsTo run.jobID run.artifactID) :
    OwnsArtifact lib artifacts job := by
  intro hname artifact hopen
  obtain ⟨-, hlookup⟩ := lookup_of_openArtifact hopen
  obtain ⟨hid, hempty | hartifact⟩ := hjob
  · exact absurd ((congrArg trimSpace hempty).trans trimSpace_nil) hname
  · obtain ⟨own, hown, howner⟩ := hrun.artifact
    rw [hartifact, hrun.trimmed, hrun.lower, hown] at hlookup
    cases hlookup
    exact howner.trans hid.symm

theorem accounts_perform (run : RetryRun β)
    (h : Accounts lib row (total - (effect.rows lib).count row) s)
    (hroom : (effect.rows lib).count row ≤ total) (hrun : run.Owns lib s.artifacts)
    (hown : effect.BelongsTo run.jobID run.artifactID) :
    Accounts lib row total (perform s effect) := by
  have hlevel : (perform s effect).level lib row ≤ total := by
    have hperform : (perform s effect).level lib row ≤
        s.level lib row + (effect.rows lib).count row := level_perform h.artifactNames effect
    have hlevel := h.level
    omega
  cases effect with
  | submit sourceRow rows outcome =>
    have hsame : ∀ s' : Retries β, s'.artifacts = s.artifacts → s'.runs = s.runs → s'.jobs = s.jobs →
        s'.level lib row ≤ total → Accounts lib row total s' := fun s' ha hr hj hl =>
      ⟨ha ▸ h.artifactNames, hr ▸ h.runNames, hl, ha ▸ hj ▸ h.owned, ha ▸ hr ▸ h.runs⟩
    cases outcome with
    | unknown landed => cases landed <;> exact hsame _ rfl rfl rfl hlevel
    | _ => exact hsame _ rfl rfl rfl hlevel
  | put job =>
    refine ⟨h.artifactNames, h.runNames, hlevel, fun job' hjob' => ?_, h.runs⟩
    cases Store.mem_write hjob' with
    | inl heq =>
      subst heq
      exact hrun.job hown
    | inr hmem => exact h.owned job' hmem
  | publish id rows =>
    refine ⟨?_, h.runNames, hlevel, fun job hjob => (h.owned job hjob).publish,
      fun run hrun => (h.runs run hrun).publish⟩
    show ((Table.update Artifact.id id _ s.artifacts).map Artifact.id).Nodup
    rw [Table.map_key_update (f := Artifact.publish rows) fun _ => rfl]
    exact h.artifactNames

theorem accounts_proceed {jobID : Text} (h : Accounts lib row total s) :
    Accounts lib row total (retryStep lib s (.proceed jobID)) := by
  unfold retryStep
  dsimp only
  split
  · rename_i run hlookup
    split
    · exact h
    · rename_i effect todo htodo
      obtain rfl := lookup_key hlookup
      have hlevel : Retries.level lib row { s with
          runs := Table.update RetryRun.jobID run.jobID (.next todo) s.runs } +
            (effect.rows lib).count row = s.level lib row :=
        level_next h.runNames hlookup htodo
      have hrun := h.runs run (mem_of_lookup hlookup)
      have hroom := h.level
      refine accounts_perform run ⟨h.artifactNames, ?_, by omega, h.owned, ?_⟩ (by omega)
        hrun (hrun.belongs effect (htodo ▸ mem_cons_self))
      · show ((Table.update RetryRun.jobID run.jobID _ s.runs).map RetryRun.jobID).Nodup
        rw [Table.map_key_update (f := RetryRun.next todo) fun _ => rfl]
        exact h.runNames
      · refine forall_update h.runs fun run' hmem hkey => ?_
        have hsame : run' = run := eq_of_lookup h.runNames hlookup hmem hkey
        subst hsame
        exact ⟨hrun.trimmed, hrun.lower, hrun.artifact,
          fun e he => hrun.belongs e (htodo ▸ mem_cons_of_mem _ he)⟩
  · exact h

/-- A restart gives up what was under way, and keeps the jobs' artifacts. -/
theorem accounts_restart (h : Accounts lib row total s) :
    Accounts lib row total (retryStep lib s .restart) where
  artifactNames := h.artifactNames
  runNames := by
    show ((s.runs.map (RetryRun.next [])).map RetryRun.jobID).Nodup
    rw [map_map]
    exact h.runNames
  level := by
    have hlevel := h.level
    have hnone : ((s.runs.map (RetryRun.next [])).map (RetryRun.left lib row)).sum = 0 := by
      rw [map_map]
      exact sum_eq_zero fun n hn => by
        obtain ⟨run, -, rfl⟩ := mem_map.mp hn
        rfl
    show s.written.count row + ((s.runs.map (RetryRun.next [])).map (RetryRun.left lib row)).sum +
      s.open lib row ≤ total
    unfold Retries.level at hlevel
    omega
  owned job hjob := by
    obtain ⟨job', hjob', rfl⟩ := mem_map.mp hjob
    have hsame : (Store.recovered job').id = job'.id ∧
        (Store.recovered job').errorArtifactID = job'.errorArtifactID := by
      unfold Store.recovered
      split <;> exact ⟨rfl, rfl⟩
    unfold OwnsArtifact
    rw [hsame.1, hsame.2]
    exact h.owned job' hjob'
  runs run hrun := by
    obtain ⟨run', hrun', rfl⟩ := mem_map.mp hrun
    exact ⟨(h.runs run' hrun').trimmed, (h.runs run' hrun').lower, (h.runs run' hrun').artifact,
      forall_mem_nil _⟩

end

/-! ### What holds -/

/-- Before any retry, the artifact's rows are all that can be retried. -/
theorem accounts_init (row : Row β) (job : Job) (artifactID : Text)
    (rows : List (ImportRowError β)) :
    Accounts lib row ((retryableRows lib rows).count row) (Retries.init job artifactID rows) where
  artifactNames := nodup_singleton _
  runNames := nodup_nil
  level := by simp [Retries.level, Retries.todo, Retries.open, Retries.init, Artifact.offers]
  owned job' hjob := by
    intro _ artifact hopen
    cases mem_singleton.mp hjob
    obtain ⟨-, hlookup⟩ := lookup_of_openArtifact hopen
    cases mem_singleton.mp (mem_of_lookup hlookup)
    rfl
  runs run hrun := absurd hrun not_mem_nil

/-- **Failed rows are written once**: whatever retries of a job and of the jobs they create do, side
by side and with restarts between, they write a row at most as often as it is in the job's artifact
while no job is retried by two calls. -/
theorem failed_rows_written_once (job : Job) (artifactID : Text) (rows : List (ImportRowError β))
    (actions : List RetryAction)
    (honce : Along (retryStep lib) (RetriesOnce lib) (Retries.init job artifactID rows) actions) :
    WrittenOnce lib rows (run (retryStep lib) (Retries.init job artifactID rows) actions) := by
  intro row
  have haccounts := run_induction (P := Accounts lib row ((retryableRows lib rows).count row))
    (fun s a hcall h => by
      cases a with
      | call call => exact accounts_call h hcall
      | proceed jobID => exact accounts_proceed h
      | restart => exact accounts_restart h)
    honce (accounts_init lib row job artifactID rows)
  have hlevel := haccounts.level
  unfold Retries.level at hlevel
  omega

/-! ### A job that is retried -/

/-- Libraries for numbers as values. -/
def plainLibraries : RetryLibraries ℕ where
  toLower := id
  fold := id
  rowBytes _ := some 1
  encodedBytes _ := 1
  optionsHash _ := bytes "options"
  parseUUID := some

/-- Everything works, and each write gets the given reply. -/
def replyingEnv (reply : Reply) : RetryEnv where
  contextError _ := none
  reply _ := reply
  lands _ := false
  progressDue _ := true
  persistDue _ := true
  putFails _ := false
  appendFails _ := false
  targetFingerprint := some (bytes "target")
  inspectFails := false
  accepts := true
  createJobFails := false
  createArtifactFails := false
  connectError := none
  batchEnabled := true
  columnsFail := false
  readFails _ := false
  publishFails := false

/-- A partial import with one row in its artifact. -/
def partialJob : Job where
  id := bytes "job"
  kind := .table
  status := .partially
  sourceIdentityToken := bytes "source"
  targetFingerprint := bytes "target"
  connectionID := bytes "connection"
  optionsHash := bytes "options"
  tableImportOptions := some {}
  errorArtifactID := bytes "errors"

def failedRow : ImportRowError ℕ := ⟨1, bytes "database", true, [(bytes "column", 7)]⟩

/-- A call and enough time for its retry to end. -/
def retryToEnd (jobID retryJobID artifactID : Text) (reply : Reply) : List RetryAction :=
  .call ⟨jobID, retryJobID, artifactID, replyingEnv reply⟩ ::
    List.replicate 7 (.proceed retryJobID)

/-- A row that fails again is written by the retry of the retry. -/
theorem failed_rows_written_once_twice_failed :
    WrittenOnce plainLibraries [failedRow]
      (run (retryStep plainLibraries) (Retries.init partialJob (bytes "errors") [failedRow])
        (retryToEnd (bytes "job") (bytes "first") (bytes "errors-1") .failed ++
          retryToEnd (bytes "first") (bytes "second") (bytes "errors-2") .succeeded)) ∧
    (run (retryStep plainLibraries) (Retries.init partialJob (bytes "errors") [failedRow])
      (retryToEnd (bytes "job") (bytes "first") (bytes "errors-1") .failed ++
        retryToEnd (bytes "first") (bytes "second") (bytes "errors-2") .succeeded)).written =
      [[(bytes "column", 7)]] :=
  ⟨failed_rows_written_once plainLibraries partialJob (bytes "errors") [failedRow] _
    (by decide), by decide⟩

/-- A job that is retried by two calls has its row written twice. -/
theorem retried_twice : ¬ ∀ (lib : RetryLibraries ℕ) (job : Job) (artifactID : Text)
    (rows : List (ImportRowError ℕ)) (actions : List RetryAction),
    WrittenOnce lib rows (run (retryStep lib) (Retries.init job artifactID rows) actions) := by
  intro h
  have hcount := h plainLibraries partialJob (bytes "errors") [failedRow]
    (retryToEnd (bytes "job") (bytes "first") (bytes "errors-1") .succeeded ++
      retryToEnd (bytes "job") (bytes "second") (bytes "errors-2") .succeeded)
    [(bytes "column", 7)]
  revert hcount
  decide

end GoNavi.Importjob
