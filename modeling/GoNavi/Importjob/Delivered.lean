import GoNavi.Machine.Machine
import GoNavi.Importjob.Resume

/-! # Every row is delivered

A task submits the rows of its source in order, from its checkpoint on, and its job's checkpoint
never runs ahead of what was submitted with a known outcome.  It may lag: a crash between a write
and the report of it makes the resumed import submit the row again (`resubmitted`).  **No row up to
a durable checkpoint is lost or submitted again by the import that resumes from it, and an import
that succeeds leaves every row of the source submitted with a known outcome**
(`rows_delivered`). -/

namespace GoNavi.Importjob

open Scan Stoppable Machine List

variable {β : Type}

/-! ### What is claimed -/

def Outcome.known : Outcome → Bool
  | .unknown _ => false
  | .written | .skipped | .failed => true

/-- A row of the source was submitted and written, skipped or refused. -/
def Delivered (src : List (Row β)) (log : List (Effect β)) (i : ℕ) : Prop :=
  ∃ first rows outcome, Effect.submit first rows outcome ∈ log ∧ outcome.known = true ∧
    first ≤ i + 1 ∧ i + 1 < first + rows.length ∧ rows[i + 1 - first]? = src[i]?

section

variable (lib : FileLibraries β) (source : Source β) (options : TableImportOptions)

/-- The checkpoint that an action goes on from. -/
def resumesFrom (s : ImportState β) : ImportAction → ℕ
  | .resume jobID attempt =>
    match claimTableImportRecovery lib source jobID attempt s with
    | some (claimed, _) => claimed.checkpoint.sourceRow
    | none => 0
  | .restart | .start .. => 0

/-- The action is an import that runs to its end and succeeds. -/
def Succeeds (s : ImportState β) : ImportAction → Prop
  | .restart => False
  | .start connectionID databaseName tableName attempt =>
    attempt.crashAfter = none ∧ attempt.env.accepts = true ∧ attempt.env.createJobFails = false ∧
      ∃ fingerprint ∈ attempt.env.targetFingerprint,
        (importTask lib attempt.env options (newImportJob lib source options attempt fingerprint
          connectionID databaseName tableName) attempt.artifactID (source.parse options)).2 = true
  | .resume jobID attempt =>
    attempt.crashAfter = none ∧ attempt.env.createJobFails = false ∧
      ∃ claimed options' fingerprint jobs,
        claimTableImportRecovery lib source jobID attempt s =
          some (claimed, options', fingerprint, jobs) ∧
        (importTask lib attempt.env options' (resumedJob lib source options' attempt fingerprint
          claimed) attempt.artifactID (source.parse options')).2 = true

def Effect.submits (i : ℕ) : Effect β → Prop
  | .submit first rows _ => first ≤ i ∧ i < first + rows.length
  | .put _ | .publish .. => False

def Effect.writes (i : ℕ) : Effect β → Prop
  | .submit first rows outcome => outcome = .written ∧ first ≤ i ∧ i < first + rows.length
  | .put _ | .publish .. => False

/-- No row that was written is submitted again; the log has the last submission first. -/
def NeverResubmitted (s : ImportState β) : Prop :=
  s.log.Pairwise fun later earlier => ∀ i, earlier.writes i → ¬ later.submits i

/-- What every action does about the rows. -/
structure Delivers (s : ImportState β) (a : ImportAction) (s' : ImportState β) : Prop where
  /-- No row up to a durable checkpoint is lost. -/
  checkpoint : ∀ job ∈ s'.jobs, job.checkpoint.safe = true →
    ∀ i < job.checkpoint.sourceRow, Delivered (source.parse options) s'.log i
  /-- The job's counters record what became of these rows. -/
  counted : ∀ job ∈ s'.jobs, job.checkpoint.safe = true →
    job.succeeded + job.skipped + job.failed = job.checkpoint.sourceRow
  /-- What is submitted lies behind the checkpoint. -/
  behind : ∃ new, s'.log = new ++ s.log ∧
    ∀ first rows outcome, Effect.submit first rows outcome ∈ new → resumesFrom lib source s a < first
  /-- An import that succeeds has delivered every row. -/
  complete : Succeeds lib source options s a →
    ∀ i < (source.parse options).length, Delivered (source.parse options) s'.log i

end

/-! ### The order of the submissions -/

variable {job : Job} {effects : List (Effect β)} {i : ℕ}

section

variable (base : ℕ) (src : List (Row β)) (options : TableImportOptions)

/-- The last row that was submitted with a known outcome. -/
def reach : List (Effect β) → ℕ
  | [] => base
  | .submit _ rows outcome :: rest => if outcome.known then reach rest + rows.length else reach rest
  | .put _ :: rest | .publish .. :: rest => reach rest

def AllKnown (effects : List (Effect β)) : Prop :=
  ∀ first rows outcome, Effect.submit first rows outcome ∈ effects → outcome.known = true

/-- A safe checkpoint is within what was submitted, and the counters agree with it. -/
structure Honest (n : ℕ) (job : Job) : Prop where
  options : job.tableImportOptions = some options
  base : job.checkpoint.safe = true → base ≤ job.checkpoint.sourceRow
  reached : job.checkpoint.safe = true → job.checkpoint.sourceRow ≤ n
  counts : job.checkpoint.safe = true →
    job.succeeded + job.skipped + job.failed = job.checkpoint.sourceRow

/-- The rows are submitted one after the other, nothing is submitted behind an unknown outcome, and
every job that is stored is honest. -/
def InOrder : List (Effect β) → Prop
  | [] => True
  | .submit first rows _ :: rest => InOrder rest ∧ AllKnown rest ∧ first = reach base rest + 1 ∧
      rows = (src.drop (reach base rest)).take rows.length
  | .put job :: rest => InOrder rest ∧ Honest base options (reach base rest) job
  | .publish .. :: rest => InOrder rest

/-- The task has submitted the rows up to `n` and read those up to `k`, the last of which are in its
batch. -/
structure Task.At (n k : ℕ) (held : List (Row β)) (t : Task β) : Prop where
  order : InOrder base src options t.effects
  known : AllKnown t.effects
  reach : reach base t.effects = n
  sure : t.outcomeUnknown = false
  counts : t.successCount + t.skippedCount + t.failedCount = n
  job : Honest base options n t.job
  currentRow : t.currentRow = k
  batch : t.batch = held
  startRow : held ≠ [] → t.batchStartRow = n + 1

/-- The task has stopped. -/
structure Task.Ended (t : Task β) : Prop where
  order : InOrder base src options t.effects
  job : Honest base options (reach base t.effects) t.job

variable {base src options}

theorem Honest.mono {n m : ℕ} (h : Honest base options n job) (hnm : n ≤ m) :
    Honest base options m job :=
  { h with reached := fun hsafe => Nat.le_trans (h.reached hsafe) hnm }

theorem Task.At.ended {n k : ℕ} {held : List (Row β)} {t : Task β}
    (h : t.At base src options n k held) : t.Ended base src options :=
  ⟨h.order, h.reach.symm ▸ h.job⟩

theorem inOrder_tail {e : Effect β} {rest : List (Effect β)}
    (h : InOrder base src options (e :: rest)) : InOrder base src options rest := by
  cases e with
  | submit => exact h.1
  | put => exact h.1
  | publish => exact h

theorem InOrder.drop : ∀ {effects : List (Effect β)} (m : ℕ), InOrder base src options effects →
    InOrder base src options (effects.drop m)
  | [], m, _ => by simp [InOrder]
  | _ :: _, 0, h => h
  | _ :: _, m + 1, h => InOrder.drop m (inOrder_tail h)

theorem base_le_reach (base : ℕ) (effects : List (Effect β)) : base ≤ reach base effects := by
  induction effects with
  | nil => exact Nat.le_refl _
  | cons e rest ih =>
    cases e with
    | submit first rows outcome =>
      unfold reach
      split
      · omega
      · exact ih
    | put => exact ih
    | publish => exact ih

theorem InOrder.reach_le (h : InOrder base src options effects) (hbase : base ≤ src.length) :
    reach base effects ≤ src.length := by
  induction effects with
  | nil => exact hbase
  | cons e rest ih =>
    have hrest := ih (inOrder_tail h)
    cases e with
    | submit first rows outcome =>
      obtain ⟨-, -, -, hrows⟩ := h
      have hlength := congrArg List.length hrows
      rw [length_take, length_drop] at hlength
      unfold reach
      split
      · omega
      · exact hrest
    | put => exact hrest
    | publish => exact hrest

variable {rows : List (Row β)}

theorem InOrder.behind (h : InOrder base src options effects) {first : ℕ} {outcome : Outcome}
    (hmem : .submit first rows outcome ∈ effects) : base < first := by
  induction effects with
  | nil => cases hmem
  | cons e rest ih =>
    cases mem_cons.mp hmem with
    | inl heq =>
      subst heq
      have := base_le_reach base rest
      have := h.2.2.1
      omega
    | inr hmem => exact ih (inOrder_tail h) hmem

/-- The rows between the checkpoint and the last known one are delivered. -/
theorem InOrder.delivered (h : InOrder base src options effects) (hi : base ≤ i)
    (hreach : i < reach base effects) : Delivered src effects i := by
  induction effects with
  | nil =>
    unfold reach at hreach
    omega
  | cons e rest ih =>
    have hrest : i < reach base rest → Delivered src (e :: rest) i := fun hlt =>
      let ⟨first, rows, outcome, hmem, hknown⟩ := ih (inOrder_tail h) hlt
      ⟨first, rows, outcome, mem_cons_of_mem _ hmem, hknown⟩
    cases e with
    | submit first rows outcome =>
      by_cases hlt : i < reach base rest
      · exact hrest hlt
      · obtain ⟨-, -, hfirst, hrows⟩ := h
        unfold reach at hreach
        split at hreach
        · rename_i hknown
          refine ⟨first, rows, outcome, mem_cons_self, hknown, by omega, by omega, ?_⟩
          rw [hrows, getElem?_take_of_lt (by omega), getElem?_drop]
          congr 1
          omega
        · exact absurd hreach hlt
    | put => exact hrest hreach
    | publish => exact hrest hreach

/-! ### The parts of a task -/

variable {env : Env} {setup : Setup} {n k : ℕ} {held : List (Row β)} {t : Task β}

@[simp] theorem contextError_fst (env : Env) (t : Task β) : (contextError env t).1 = t.tick := by
  unfold contextError
  split <;> rfl

variable {t' : Task β}

theorem eq_tick_of_contextError {stop : Option Stop} (h : contextError env t = (t', stop)) :
    t' = t.tick := by
  rw [← contextError_fst env, h]

theorem Task.At.tick (h : t.At base src options n k held) : t.tick.At base src options n k held :=
  { h with }

theorem Task.Ended.tick (h : t.Ended base src options) : t.tick.Ended base src options :=
  ⟨h.order, h.job⟩

theorem Task.At.contextError (h : t.At base src options n k held) :
    Ends (Task.At base src options n k held) (fun _ => Task.Ended base src options)
      (contextError env t) := by
  unfold Ends
  split
  · rw [contextError_fst]
    exact h.tick
  · rw [contextError_fst]
    exact h.tick.ended

theorem Task.At.putJob (h : t.At base src options n k held) (hjob : Honest base options n job) :
    (putJob env job t).At base src options n k held := by
  unfold Importjob.putJob
  split
  · exact { h with job := hjob }
  · have hput : Honest base options n { job with revision := job.revision + 1 } :=
      { hjob with }
    refine ⟨⟨h.order, h.reach.symm ▸ hput⟩, fun first rows outcome hmem => ?_, h.reach, h.sure,
      h.counts, hput, h.currentRow, h.batch, h.startRow⟩
    cases mem_cons.mp hmem with
    | inl heq => cases heq
    | inr hmem => exact h.known first rows outcome hmem

theorem Task.Ended.putJob (h : t.Ended base src options)
    (hjob : Honest base options (Importjob.reach base t.effects) job) :
    (putJob env job t).Ended base src options := by
  unfold Importjob.putJob
  split
  · exact ⟨h.order, hjob⟩
  · have hput : Honest base options (Importjob.reach base t.effects)
        { job with revision := job.revision + 1 } :=
      { hjob with }
    exact ⟨⟨h.order, hput⟩, hput⟩

theorem Task.At.emitProgress (h : t.At base src options n k held) (hbase : base ≤ n)
    (forced : Bool) : (emitProgress env setup n forced t).At base src options n k held := by
  unfold Importjob.emitProgress
  split
  · exact h.tick
  · unfold Importjob.update
    have hnext : Task.At base src options n k held
        { t with lastProgressRow := n, progressed := true }.tick :=
      { h with }
    have hjob : ∀ safe, Honest base options n (Task.progressJob setup n safe
        { t with lastProgressRow := n, progressed := true }.tick) := fun safe =>
      ⟨h.job.options, fun _ => hbase, fun _ => Nat.le_refl n, fun _ => h.counts⟩
    split
    · exact hnext
    · split
      · exact { h with job := hjob _ }
      · exact hnext.putJob (hjob _)

theorem Task.Ended.emitProgress (h : t.Ended base src options) (hunknown : t.outcomeUnknown = true)
    (current : ℕ) (forced : Bool) :
    (emitProgress env setup current forced t).Ended base src options := by
  unfold Importjob.emitProgress
  split
  · exact h.tick
  · unfold Importjob.update
    have hjob : ∀ n, Honest base options n (Task.progressJob setup current
        (!t.outcomeUnknown && (!setup.batchEnabled || setup.continueOnError || forced))
        { t with lastProgressRow := current, progressed := true }.tick) := by
      intro n
      rw [hunknown]
      exact ⟨h.job.options, nofun, nofun, nofun⟩
    have hnext : Task.Ended base src options
        { t with lastProgressRow := current, progressed := true }.tick := ⟨h.order, h.job⟩
    split
    · exact hnext
    · split
      · exact ⟨h.order, hjob _⟩
      · exact hnext.putJob (hjob _)

theorem drop_eq_cons_of_take {row : Row β} (h : row :: rows = (src.drop n).take (rows.length + 1)) :
    [row] = (src.drop n).take 1 ∧ rows = (src.drop (n + 1)).take rows.length := by
  cases hdrop : src.drop n with
  | nil =>
    rw [hdrop] at h
    cases h
  | cons a as =>
    rw [hdrop, take_succ_cons] at h
    obtain ⟨rfl, hrows⟩ := List.cons.inj h
    refine ⟨rfl, hrows.trans ?_⟩
    rw [← drop_drop, hdrop]
    rfl

theorem Task.At.settle (h : t.At base src options n k []) (outcome : Outcome)
    (hrows : rows = (src.drop n).take rows.length) (hknown : outcome.known = true)
    (heffects : t'.effects = .submit (n + 1) rows outcome :: t.effects)
    (hcounts : t'.successCount + t'.skippedCount + t'.failedCount = n + rows.length)
    (hjob : t'.job = t.job) (hsure : t'.outcomeUnknown = t.outcomeUnknown)
    (hcurrent : t'.currentRow = t.currentRow) (hbatch : t'.batch = t.batch) :
    t'.At base src options (n + rows.length) k [] where
  order := by
    rw [heffects]
    exact ⟨h.order, h.known, by rw [h.reach], by rw [h.reach]; exact hrows⟩
  known first rows' outcome' hmem := by
    rw [heffects] at hmem
    cases mem_cons.mp hmem with
    | inl heq =>
      cases heq
      exact hknown
    | inr hmem => exact h.known first rows' outcome' hmem
  reach := by
    rw [heffects, Importjob.reach, if_pos hknown, h.reach]
  sure := hsure.trans h.sure
  counts := hcounts
  job := hjob ▸ h.job.mono (Nat.le_add_right n _)
  currentRow := hcurrent.trans h.currentRow
  batch := hbatch.trans h.batch
  startRow := fun hne => absurd rfl hne

theorem Task.At.unsure {landed : Bool} (h : t.At base src options n k [])
    (hrows : rows = (src.drop n).take rows.length)
    (heffects : t'.effects = .submit (n + 1) rows (.unknown landed) :: t.effects)
    (hjob : t'.job = t.job) : t'.Ended base src options where
  order := by
    rw [heffects]
    exact ⟨h.order, h.known, by rw [h.reach], by rw [h.reach]; exact hrows⟩
  job := by
    rw [heffects, Importjob.reach, if_neg (by simp [Outcome.known]), h.reach, hjob]
    exact h.job

theorem Task.At.afterRow (h : t.At base src options n k held) (hbase : base ≤ n) :
    Ends (Task.At base src options n k held) (fun _ => Task.Ended base src options)
      (afterRow env setup n t) := by
  have hemit : Task.At base src options n k held (Importjob.emitProgress env setup n false t) :=
    h.emitProgress hbase false
  unfold Importjob.afterRow
  split
  · rename_i t' stop heq
    rw [eq_tick_of_contextError heq]
    exact (hemit.tick.emitProgress hbase true).ended
  · rename_i t' heq
    rw [eq_tick_of_contextError heq]
    exact hemit.tick

variable {lib : ImportLibraries β} {row : Row β}

theorem Task.At.rejectRow (h : t.At base src options n k []) (hbase : base ≤ n)
    (hrow : [row] = (src.drop n).take 1) :
    Ends (Task.At base src options (n + 1) k []) (fun _ => Task.Ended base src options)
      (rejectRow lib env setup row (n + 1) t) := by
  have hsettled : ∀ artifact stopped, Task.At base src options (n + 1) k []
      { t.does (.submit (n + 1) [row] .failed) with
        failedCount := t.failedCount + 1, artifact := artifact, stoppedOnError := stopped } :=
    fun artifact stopped => h.settle .failed hrow rfl rfl
      (by have := h.counts; simp only [Task.does, length_singleton]; omega) rfl rfl rfl rfl
  have hstop : ∀ artifact, Task.Ended base src options (Importjob.emitProgress env setup (n + 1) true
      { t.does (.submit (n + 1) [row] .failed) with
        failedCount := t.failedCount + 1, artifact := artifact, stoppedOnError := true }) :=
    fun artifact => ((hsettled artifact true).emitProgress (by omega) true).ended
  unfold Importjob.rejectRow
  dsimp only
  split
  · exact hstop _
  · split
    · exact hstop _
    · exact (hsettled _ _).afterRow (by omega)

theorem Task.At.applyRow (h : t.At base src options n k []) (hbase : base ≤ n)
    (hrow : [row] = (src.drop n).take 1) :
    Ends (Task.At base src options (n + 1) k []) (fun _ => Task.Ended base src options)
      (applyRow lib env setup row (n + 1) t) := by
  unfold Importjob.applyRow
  refine h.contextError.andThen fun t h => ?_
  split
  · refine Task.At.afterRow ?_ (by omega)
    exact h.settle .written hrow rfl rfl
      (by have := h.counts; simp only [Task.does, Task.tick, length_singleton]; omega)
      rfl rfl rfl rfl
  · refine Task.At.afterRow ?_ (by omega)
    exact h.settle .skipped hrow rfl rfl
      (by have := h.counts; simp only [Task.does, Task.tick, length_singleton]; omega)
      rfl rfl rfl rfl
  · rw [ends_stop]
    refine Task.Ended.emitProgress ?_ ?_ _ _
    · exact h.unsure hrow rfl rfl
    · rfl
  · exact h.unsure hrow rfl rfl
  · split
    · rename_i t' stop heq
      rw [eq_tick_of_contextError heq]
      exact h.tick.unsure hrow rfl rfl
    · rename_i t' heq
      rw [eq_tick_of_contextError heq]
      exact h.tick.rejectRow hbase hrow

theorem Task.At.applyRows (h : t.At base src options n k []) (hbase : base ≤ n)
    (hrows : rows = (src.drop n).take rows.length) (hk : n + rows.length = k) :
    Ends (Task.At base src options k k []) (fun _ => Task.Ended base src options)
      (applyRows lib env setup rows (n + 1) t) := by
  unfold Importjob.applyRows
  have hloop := Ends.forEach (E := fun _ => Task.Ended base src options)
    (b := fun (p : Row β × ℕ) => Importjob.applyRow lib env setup p.1 p.2)
    (I := fun as t => ∃ n rows, as = rows.zipIdx (n + 1) ∧ base ≤ n ∧
      rows = (src.drop n).take rows.length ∧ n + rows.length = k ∧ t.At base src options n k [])
    (fun p as t => ?_) (rows.zipIdx (n + 1)) t ⟨n, rows, rfl, hbase, hrows, hk, h⟩
  · refine hloop.mono (fun t => ?_) fun _ _ h => h
    rintro ⟨n, rows, hnil, -, -, hk, h⟩
    obtain rfl : rows = [] := by simpa using hnil.symm
    obtain rfl : n = k := hk
    exact h
  · rintro ⟨n, rows, hcons, hbase, hrows, hk, h⟩
    cases rows with
    | nil => cases hcons
    | cons row rows =>
      rw [zipIdx_cons] at hcons
      cases hcons
      rw [length_cons] at hrows hk
      obtain ⟨hhead, htail⟩ := drop_eq_cons_of_take hrows
      refine (h.applyRow hbase hhead).mono (fun t h => ?_) fun _ _ h => h
      exact ⟨n + 1, rows, rfl, by omega, htail, by omega, h⟩

theorem Task.At.applyBatch (h : t.At base src options n k []) (hbase : base ≤ n)
    (hrows : rows = (src.drop n).take rows.length) (hk : n + rows.length = k) (hne : rows ≠ []) :
    Ends (Task.At base src options k k []) (fun _ => Task.Ended base src options)
      (applyBatch env setup rows (n + 1) t) := by
  have hlength : 0 < rows.length := length_pos_of_ne_nil hne
  have hlast : n + 1 + rows.length - 1 = k := by omega
  have hdone : Ends (Task.At base src options k k []) (fun _ => Task.Ended base src options)
      (Importjob.contextError env (Importjob.emitProgress env setup (n + 1 + rows.length - 1) true
        { (t.does (.submit (n + 1) rows .written)).tick with
          successCount := t.successCount + rows.length })) := by
    rw [hlast]
    refine Task.At.contextError (Task.At.emitProgress ?_ (by omega) true)
    subst hk
    exact h.settle .written hrows rfl rfl
      (by have := h.counts; simp only [Task.does, Task.tick]; omega) rfl rfl rfl rfl
  have hunsure : ∀ {t' : Task β},
      t'.effects = .submit (n + 1) rows (.unknown (env.lands t.clock)) :: t.effects →
      t'.job = t.job → t'.Ended base src options := fun heffects hjob =>
    h.unsure hrows heffects hjob
  unfold Importjob.applyBatch
  dsimp only
  split
  · exact hdone
  · exact hdone
  · exact hunsure rfl rfl
  all_goals
    split
    · rename_i t' stop heq
      rw [eq_tick_of_contextError heq]
      exact hunsure rfl rfl
    · rename_i t' heq
      rw [eq_tick_of_contextError heq, ends_stop]
      refine Task.Ended.emitProgress ?_ ?_ _ _
      · exact hunsure rfl rfl
      · rfl

/-- The task has read the rows up to `k`; the last of them, not yet submitted, are its batch. -/
def Task.Read (base : ℕ) (src : List (Row β)) (options : TableImportOptions) (k : ℕ) (t : Task β) :
    Prop :=
  ∃ n held, base ≤ n ∧ held = (src.drop n).take held.length ∧ n + held.length = k ∧
    t.At base src options n k held

theorem Task.At.read (h : t.At base src options k k []) (hbase : base ≤ k) :
    t.Read base src options k :=
  ⟨k, [], hbase, take_zero.symm, rfl, h⟩

theorem Task.Read.ended (h : t.Read base src options k) : t.Ended base src options :=
  let ⟨_, _, _, _, _, h⟩ := h
  h.ended

theorem Task.Read.base_le (h : t.Read base src options k) : base ≤ k := by
  obtain ⟨n, held, hbase, -, hk, -⟩ := h
  omega

theorem Task.Read.contextError (h : t.Read base src options k) :
    Ends (Task.Read base src options k) (fun _ => Task.Ended base src options)
      (Importjob.contextError env t) :=
  let ⟨n, held, hbase, hheld, hk, h⟩ := h
  h.contextError.mono (fun _ h => ⟨n, held, hbase, hheld, hk, h⟩) fun _ _ h => h

variable (env setup lib) in
theorem Task.Read.flush (h : t.Read base src options k) :
    Ends (Task.At base src options k k []) (fun _ => Task.Ended base src options)
      (flush lib env setup t) := by
  obtain ⟨n, held, hbase, hheld, hk, h⟩ := h
  unfold Importjob.flush
  refine h.contextError.andThen fun t h => ?_
  split
  · rename_i hempty
    obtain rfl : held = [] := h.batch.symm.trans hempty
    obtain rfl : n = k := hk
    exact h
  · rename_i hne
    rw [h.batch] at hne
    rw [h.batch, h.startRow hne]
    have hcleared : Task.At base src options n k []
        { t with batch := [], batchBytes := 0, batchStartRow := 0 } :=
      { h with batch := rfl, startRow := fun hne => absurd rfl hne }
    split
    · exact hcleared.applyBatch hbase hheld hk hne
    · refine (hcleared.applyRows hbase hheld hk).andThen fun t h => ?_
      have hlength : 0 < held.length := length_pos_of_ne_nil hne
      have hlast : n + 1 + held.length - 1 = k := by omega
      rw [hlast]
      exact h.emitProgress (by omega) true

theorem Task.Read.consumeRow (h : t.Read base src options k) (hrow : src[k]? = some row) :
    Ends (Task.Read base src options (k + 1)) (fun _ => Task.Ended base src options)
      (consumeRow lib env setup row t) := by
  unfold Importjob.consumeRow
  refine h.contextError.andThen fun t h => ?_
  split
  · exact h.ended
  · rename_i rowBytes _
    dsimp only
    refine Ends.andThen (P := Task.Read base src options k) ?_ fun t h => ?_
    · split
      · exact (h.flush env setup lib).mono (fun t h' => h'.read h.base_le) fun _ _ h => h
      · exact h
    · obtain ⟨n, held, hbase, hheld, hk, h⟩ := h
      have hadded : Task.Read base src options (k + 1) { t with
          currentRow := t.currentRow + 1
          batchStartRow := if t.batch = [] then t.currentRow + 1 else t.batchStartRow
          batch := t.batch ++ [row]
          batchBytes := t.batchBytes + rowBytes } := by
        refine ⟨n, held ++ [row], hbase, ?_, ?_, ?_⟩
        · rw [length_append, length_singleton, take_add_one, ← hheld,
            getElem?_drop, hk, hrow]
          rfl
        · rw [length_append, length_singleton]
          omega
        · refine ⟨h.order, h.known, h.reach, h.sure, h.counts, h.job, congrArg (· + 1) h.currentRow,
            congrArg (· ++ [row]) h.batch, fun _ => ?_⟩
          show (if t.batch = [] then t.currentRow + 1 else t.batchStartRow) = n + 1
          rw [h.batch, h.currentRow]
          split
          · rename_i hempty
            rw [hempty, length_nil] at hk
            omega
          · exact h.startRow ‹_›
      split
      · exact (hadded.flush env setup lib).mono (fun t h => h.read (by omega)) fun _ _ h => h
      · exact hadded

/-! ### One import -/

variable {flib : FileLibraries β} {ienv : ImportEnv}

/-- A row up to the checkpoint is skipped, a later one is read. -/
theorem Task.Read.importRow (h : t.Read base src options (max i base)) (hrow : src[i]? = some row) :
    Ends (Task.Read base src options (max (i + 1) base)) (fun _ => Task.Ended base src options)
      (importRow flib ienv options base row i t) := by
  unfold Importjob.importRow
  refine h.contextError.andThen fun t h => ?_
  split
  · exact h.ended
  · split
    · rename_i hlt
      rw [ends_go, show max (i + 1) base = max i base by omega]
      exact h
    · have hi : max i base = i := by omega
      rw [show max (i + 1) base = i + 1 by omega]
      rw [hi] at h
      exact h.consumeRow hrow

variable (flib ienv) in
theorem Task.Read.importRows (h : t.Read base src options base) (hbase : base ≤ src.length) :
    Ends (Task.Read base src options src.length) (fun _ => Task.Ended base src options)
      (importRows flib ienv options base src t) := by
  unfold Importjob.importRows
  have hloop := Ends.forEach (E := fun _ => Task.Ended base src options)
    (b := fun (p : Row β × ℕ) => Importjob.importRow flib ienv options base p.1 p.2)
    (I := fun as t => ∃ i, as = (src.drop i).zipIdx i ∧ i ≤ src.length ∧
      t.Read base src options (max i base))
    (fun p as t => ?_) src.zipIdx t
    ⟨0, rfl, Nat.zero_le _, (Nat.zero_max base).symm ▸ h⟩
  · refine Ends.andThen (P := Task.Read base src options src.length)
      (hloop.mono (fun t => ?_) fun _ _ h => h) fun t h => ?_
    · rintro ⟨i, hnil, hi, h⟩
      have hlength := congrArg List.length hnil
      rw [length_nil, length_zipIdx, length_drop] at hlength
      rwa [show max i base = src.length by omega] at h
    · split
      · exact h.ended
      · exact h
  · rintro ⟨i, hcons, hi, h⟩
    cases hdrop : src.drop i with
    | nil =>
      rw [hdrop] at hcons
      cases hcons
    | cons row rows =>
      rw [hdrop, zipIdx_cons] at hcons
      cases hcons
      have hrow : src[i]? = some row := by
        have := congrArg List.head? hdrop
        rwa [head?_drop] at this
      have hrows : rows = src.drop (i + 1) := by
        rw [← drop_drop, hdrop]
        rfl
      have hlt : i < src.length := (List.getElem?_eq_some_iff.mp hrow).1
      exact (h.importRow hrow).mono (fun t h => ⟨i + 1, by rw [hrows], hlt, h⟩) fun _ _ h => h

theorem Task.Ended.finishJob {result : Result} (h : t.Ended base src options) :
    (finishJob env result t).Ended base src options := by
  unfold Importjob.finishJob
  split
  · exact h
  · exact h.putJob ⟨h.job.options, h.job.base, h.job.reached, h.job.counts⟩

theorem reach_finishJob (result : Result) (t : Task β) :
    reach base (finishJob env result t).effects = reach base t.effects := by
  unfold finishJob
  split
  · rfl
  · unfold putJob
    split <;> rfl

variable {artifactID : Text}

theorem Task.Ended.finishArtifact {fails : Bool} {published : Option Text}
    (h : t.Ended base src options) (heq : finishArtifact artifactID fails t = (t', published)) :
    t'.Ended base src options ∧ reach base t'.effects = reach base t.effects := by
  unfold Importjob.finishArtifact at heq
  split at heq
  · cases heq
    exact ⟨h, rfl⟩
  · split at heq
    · cases heq
      exact ⟨h, rfl⟩
    · split at heq
      · cases heq
        exact ⟨h, rfl⟩
      · cases heq
        exact ⟨⟨h.order, h.job⟩, rfl⟩

theorem Task.Ended.failImport {parsing : Bool} {stop : Stop} (h : t.Ended base src options) :
    (failImport flib ienv artifactID parsing stop t).Ended base src options := by
  have hkept : ∀ kept, Task.Ended base src options
      (if t.persistFailed = false ∧ stop ≠ .canceled ∧ stop ≠ .stoppedOnError ∧ parsing then
        { t with artifact := kept } else t) := by
    intro kept
    split
    · exact ⟨h.order, h.job⟩
    · exact h
  unfold Importjob.failImport
  dsimp only
  split
  · exact ((hkept _).finishArtifact ‹_›).1.finishJob
  · exact ((hkept _).finishArtifact ‹_›).1.finishJob

variable (ienv) in
theorem Task.Ended.completeImport (artifactID : Text) (h : t.Ended base src options) :
    (completeImport ienv artifactID t).1.Ended base src options ∧
      reach base (completeImport ienv artifactID t).1.effects = reach base t.effects := by
  unfold Importjob.completeImport
  split
  · obtain ⟨hended, hreach⟩ := h.finishArtifact ‹_›
    exact ⟨hended.finishJob, (reach_finishJob _ _).trans hreach⟩
  · obtain ⟨hended, hreach⟩ := h.finishArtifact ‹_›
    split
    · exact ⟨hended.finishJob, (reach_finishJob _ _).trans hreach⟩
    · exact ⟨hended.finishJob, (reach_finishJob _ _).trans hreach⟩

variable (flib ienv) in
/-- **An import submits its rows in order**, and when it succeeds it has reached the last one. -/
theorem importTask_spec (artifactID : Text) (hoptions : job.tableImportOptions = some options)
    (hsource : job.checkpoint.sourceRow ≤ src.length)
    (hcounts : job.succeeded + job.skipped + job.failed = job.checkpoint.sourceRow) :
    (importTask flib ienv options job artifactID src).1.Ended job.checkpoint.sourceRow src options ∧
      ((importTask flib ienv options job artifactID src).2 = true →
        reach job.checkpoint.sourceRow (importTask flib ienv options job artifactID src).1.effects =
          src.length) := by
  have hjob : Honest job.checkpoint.sourceRow options job.checkpoint.sourceRow
      { job with revision := 1 } :=
    ⟨hoptions, fun _ => Nat.le_refl _, fun _ => Nat.le_refl _, fun _ => hcounts⟩
  have hstart : Task.Ended job.checkpoint.sourceRow src options
      (Task.does (.put { job with revision := 1 }) { job := { job with revision := 1 } }) :=
    ⟨⟨trivial, hjob⟩, hjob⟩
  unfold importTask
  dsimp only
  split
  · exact ⟨hstart.finishJob, nofun⟩
  · split
    · exact ⟨hstart.finishJob, nofun⟩
    · exact ⟨hstart.finishJob, nofun⟩
    · have hbegin : Task.At job.checkpoint.sourceRow src options job.checkpoint.sourceRow
          job.checkpoint.sourceRow []
          { Task.does (.put { job with revision := 1 }) { job := { job with revision := 1 } } with
            currentRow := job.checkpoint.sourceRow
            successCount := job.succeeded
            skippedCount := job.skipped
            failedCount := job.failed
            lastProgressRow := job.checkpoint.sourceRow } :=
        ⟨⟨trivial, hjob⟩, fun first rows outcome hmem => (by cases mem_singleton.mp hmem), rfl,
          rfl, hcounts, hjob, rfl, rfl, fun hne => absurd rfl hne⟩
      split
      · rename_i t stop heq
        rw [eq_tick_of_contextError heq]
        exact ⟨hbegin.tick.ended.failImport, nofun⟩
      · rename_i t heq
        obtain rfl := eq_tick_of_contextError heq
        split
        · exact ⟨hbegin.tick.ended.failImport, nofun⟩
        · unfold streamImport
          have hrows := (hbegin.tick.read (Nat.le_refl _)).importRows flib ienv hsource
          split
          · rename_i t stop heq
            dsimp only [Task.tick, Task.does] at heq hrows
            rw [heq] at hrows
            exact ⟨Task.Ended.failImport hrows, nofun⟩
          · rename_i t heq
            dsimp only [Task.tick, Task.does] at heq hrows
            rw [heq] at hrows
            have hflush := Task.Read.flush ienv.toEnv (importSetup flib ienv options)
              flib.toImportLibraries hrows
            split
            · rename_i t stop heq
              rw [heq] at hflush
              exact ⟨Task.Ended.failImport hflush, nofun⟩
            · rename_i t heq
              rw [heq] at hflush
              have hdone := (Task.At.ended hflush).completeImport ienv artifactID
              exact ⟨hdone.1, fun _ => hdone.2.trans hflush.reach⟩

end

/-! ### What outlives the process -/

section

variable (src : List (Row β)) (options : TableImportOptions)

/-- The checkpoint of a job tells what was delivered. -/
structure KeepsWord (log : List (Effect β)) (job : Job) : Prop where
  options : job.tableImportOptions = some options
  source : job.checkpoint.safe = true → job.checkpoint.sourceRow ≤ src.length
  counts : job.checkpoint.safe = true →
    job.succeeded + job.skipped + job.failed = job.checkpoint.sourceRow
  delivered : job.checkpoint.safe = true → ∀ i < job.checkpoint.sourceRow, Delivered src log i

/-- All jobs do. -/
def KeepWord (s : ImportState β) : Prop := ∀ job ∈ s.jobs, KeepsWord src options s.log job

variable {src options} {base : ℕ} {s : ImportState β} {log : List (Effect β)}

theorem Delivered.append (h : Delivered src log i) (new : List (Effect β)) :
    Delivered src (new ++ log) i :=
  let ⟨first, rows, outcome, hmem, hknown⟩ := h
  ⟨first, rows, outcome, mem_append_right new hmem, hknown⟩

theorem KeepsWord.append (h : KeepsWord src options log job) (new : List (Effect β)) :
    KeepsWord src options (new ++ log) job :=
  { h with delivered := fun hsafe i hi => (h.delivered hsafe i hi).append new }

theorem KeepsWord.congr {job' : Job} (h : KeepsWord src options log job)
    (hoptions : job'.tableImportOptions = job.tableImportOptions)
    (hcheckpoint : job'.checkpoint = job.checkpoint) (hsucceeded : job'.succeeded = job.succeeded)
    (hskipped : job'.skipped = job.skipped) (hfailed : job'.failed = job.failed) :
    KeepsWord src options log job' := by
  refine ⟨hoptions.trans h.options, ?_, ?_, ?_⟩
  · rw [hcheckpoint]
    exact h.source
  · rw [hcheckpoint, hsucceeded, hskipped, hfailed]
    exact h.counts
  · rw [hcheckpoint]
    exact h.delivered

def Effect.isSubmit : Effect β → Bool
  | .submit .. => true
  | .put _ | .publish .. => false

/-- The effects of a task take place; the submissions are logged. -/
theorem log_effects (s : ImportState β) : ∀ effects : List (Effect β),
    (effects.reverse.foldl ImportState.perform s).log = effects.filter Effect.isSubmit ++ s.log
  | [] => rfl
  | e :: rest => by
    rw [reverse_cons, foldl_append, foldl_cons, foldl_nil]
    cases e with
    | submit => exact congrArg (List.cons _) (log_effects s rest)
    | put => exact log_effects s rest
    | publish => exact log_effects s rest

theorem delivered_effects (h : InOrder base src options effects)
    (hcover : ∀ i < base, Delivered src s.log i) (hi : i < reach base effects) :
    Delivered src (effects.reverse.foldl ImportState.perform s).log i := by
  rw [log_effects]
  by_cases hlt : i < base
  · exact (hcover i hlt).append _
  · obtain ⟨first, rows, outcome, hmem, hknown⟩ := h.delivered (Nat.le_of_not_lt hlt) hi
    exact ⟨first, rows, outcome, mem_append_left _ (mem_filter.mpr ⟨hmem, rfl⟩), hknown⟩

theorem keepWord_effects : ∀ {effects : List (Effect β)}, InOrder base src options effects →
    KeepWord src options s → base ≤ src.length → (∀ i < base, Delivered src s.log i) →
    KeepWord src options (effects.reverse.foldl ImportState.perform s)
  | [], _, hs, _, _ => hs
  | e :: rest, h, hs, hbase, hcover => by
    have hword := keepWord_effects (inOrder_tail h) hs hbase hcover
    have hreached := fun i => delivered_effects (inOrder_tail h) hcover (i := i)
    rw [reverse_cons, foldl_append, foldl_cons, foldl_nil]
    cases e with
    | submit first rows outcome => exact fun job hjob => (hword job hjob).append [_]
    | put job =>
      intro job' hjob'
      cases Store.mem_write hjob' with
      | inl heq =>
        subst heq
        exact ⟨h.2.options, fun hsafe => Nat.le_trans (h.2.reached hsafe)
          ((inOrder_tail h).reach_le hbase), h.2.counts, fun hsafe i hi =>
            hreached i (Nat.lt_of_lt_of_le hi (h.2.reached hsafe))⟩
      | inr hmem => exact hword job' hmem
    | publish => exact hword

/-- What an attempt leaves behind, whether it ends or crashes. -/
structure Leaves (base : ℕ) (src : List (Row β)) (options : TableImportOptions)
    (log : List (Effect β)) (s' : ImportState β) : Prop where
  word : KeepWord src options s'
  behind : ∃ new, s'.log = new ++ log ∧
    ∀ first rows outcome, Effect.submit first rows outcome ∈ new → base < first

/-- **An attempt** goes on behind its checkpoint, and when it succeeds all rows are delivered. -/
theorem attempt_leaves (flib : FileLibraries β) (attempt : Attempt) (job : Job)
    (hoptions : job.tableImportOptions = some options)
    (hsource : job.checkpoint.sourceRow ≤ src.length)
    (hcounts : job.succeeded + job.skipped + job.failed = job.checkpoint.sourceRow)
    (hs : KeepWord src options s) (hcover : ∀ i < job.checkpoint.sourceRow, Delivered src s.log i) :
    let task := importTask flib attempt.env options job attempt.artifactID src
    let s' := (attempt.effects task.1).foldl ImportState.perform s
    Leaves job.checkpoint.sourceRow src options s.log s' ∧
      (attempt.crashAfter = none → task.2 = true → ∀ i < src.length, Delivered src s'.log i) := by
  intro task s'
  obtain ⟨hended, hreach⟩ := importTask_spec flib attempt.env attempt.artifactID hoptions hsource
    hcounts
  have heffects : ∃ m, attempt.effects task.1 = (task.1.effects.drop m).reverse := by
    unfold Attempt.effects
    split
    · exact ⟨0, rfl⟩
    · rename_i n _
      exact ⟨task.1.effects.length - n, by rw [take_reverse]⟩
  constructor
  · obtain ⟨m, hm⟩ := heffects
    have horder := hended.order.drop m
    show Leaves _ _ _ _ ((attempt.effects task.1).foldl ImportState.perform s)
    rw [hm]
    refine ⟨keepWord_effects horder hs hsource hcover, _, log_effects s _, ?_⟩
    exact fun first rows outcome hmem => horder.behind (mem_filter.mp hmem).1
  · intro hcrash hok i hi
    show Delivered src ((attempt.effects task.1).foldl ImportState.perform s).log i
    unfold Attempt.effects
    rw [hcrash]
    exact delivered_effects hended.order hcover ((hreach hok).symm ▸ hi)

/-- A restart marks jobs interrupted and leaves their checkpoints. -/
theorem keepWord_restart (hs : KeepWord src options s) :
    KeepWord src options { s with jobs := s.jobs.recoverInterrupted } := by
  intro job hjob
  obtain ⟨job', hjob', rfl⟩ := mem_map.mp hjob
  refine (hs job' hjob').congr ?_ ?_ ?_ ?_ ?_
  all_goals
    unfold Store.recovered
    split <;> rfl

variable {jobs : Store}

theorem keepWord_putLocked {job' : Job} (hs : KeepWord src options s)
    (hjob : KeepsWord src options s.log job) (h : s.jobs.putLocked job = .ok (job', jobs)) :
    KeepWord src options { s with jobs := jobs } ∧ KeepsWord src options s.log job' ∧
      job'.checkpoint = job.checkpoint ∧ job'.succeeded = job.succeeded ∧
        job'.skipped = job.skipped ∧ job'.failed = job.failed := by
  have hwrite : ∀ {job'' : Job}, KeepsWord src options s.log job'' →
      KeepWord src options { s with jobs := s.jobs.write job'' } := by
    intro job'' hword job₁ hmem
    cases Store.mem_write hmem with
    | inl heq => exact heq ▸ hword
    | inr hmem => exact hs job₁ hmem
  unfold Store.putLocked at h
  dsimp only at h
  split at h
  · cases h
  · split at h
    · split at h
      · cases h
      · cases h
        have hword : KeepsWord src options s.log
            { job with id := trimSpace job.id, revision := job.revision + 1 } :=
          hjob.congr rfl rfl rfl rfl rfl
        exact ⟨hwrite hword, hword, rfl, rfl, rfl, rfl⟩
    · split at h
      · cases h
      · cases h
        have hword : KeepsWord src options s.log
            { job with id := trimSpace job.id, revision := 1 } :=
          hjob.congr rfl rfl rfl rfl rfl
        exact ⟨hwrite hword, hword, rfl, rfl, rfl, rfl⟩

variable {lib : FileLibraries β} {source : Source β} {attempt : Attempt}

/-- A claim keeps the word of all jobs, and what is claimed is a safe checkpoint. -/
theorem keepWord_claim {jobID fingerprint : Text} {claimed : Job}
    {options' : TableImportOptions} (hs : KeepWord src options s)
    (h : claimTableImportRecovery lib source jobID attempt s =
      some (claimed, options', fingerprint, jobs)) :
    options' = options ∧ KeepWord src options { s with jobs := jobs } ∧
      KeepsWord src options s.log claimed ∧ claimed.checkpoint.safe = true := by
  unfold claimTableImportRecovery at h
  split at h
  · cases h
  · rename_i job hget
    split at h
    · rename_i options'' fingerprint' hoptions _
      repeat' split at h
      all_goals try cases h
      have hclaim : s.jobs.claimResume job.id source.identityToken fingerprint
          (lib.optionsHash options') = .ok (claimed, jobs) := ‹_›
      have hown := (hs job (Store.mem_of_getLocked hget)).options
      rw [hoptions] at hown
      unfold Store.claimResume at hclaim
      split at hclaim
      · cases hclaim
      · rename_i job' hget'
        split at hclaim
        · cases hclaim
        · rename_i hvalid
          have hword := hs job' (Store.mem_of_getLocked hget')
          have hconsumed : KeepsWord src options s.log { job' with resumable := false } :=
            hword.congr rfl rfl rfl rfl rfl
          obtain ⟨hkeep, hclaimed, hcheckpoint, -⟩ := keepWord_putLocked hs hconsumed hclaim
          refine ⟨Option.some.inj hown, hkeep, hclaimed, ?_⟩
          rw [hcheckpoint]
          by_contra hsafe
          refine hvalid (.inl ?_)
          unfold canResume
          simp [hsafe]
    · cases h

theorem keepWord_release {id : Text} {jobs' : Store}
    (hs : KeepWord src options { s with jobs := jobs })
    (h : Store.releaseResumeClaim id jobs = .ok jobs') :
    KeepWord src options { s with jobs := jobs' } := by
  unfold Store.releaseResumeClaim at h
  split at h
  · cases h
  · rename_i job hget
    split at h
    · cases h
      exact hs
    · split at h
      · cases h
      · cases hput : Store.putLocked { job with resumable := true } jobs with
        | error e =>
          rw [hput] at h
          cases h
        | ok result =>
          rw [hput] at h
          cases h
          have hword : KeepsWord src options s.log { job with resumable := true } :=
            (hs job (Store.mem_of_getLocked hget)).congr rfl rfl rfl rfl rfl
          exact (keepWord_putLocked hs hword hput).1

/-! ### What holds -/

variable {s' : ImportState β}

theorem delivers_quiet {a : ImportAction} (hs : KeepWord (source.parse options) options s')
    (hlog : s'.log = s.log) (hfails : ¬ Succeeds lib source options s a) :
    Delivers lib source options s a s' where
  checkpoint job hjob hsafe := (hs job hjob).delivered hsafe
  counted job hjob := (hs job hjob).counts
  behind := ⟨[], hlog, fun _ _ _ hmem => absurd hmem not_mem_nil⟩
  complete h := absurd h hfails

theorem delivers_of_leaves {a : ImportAction}
    (h : Leaves (resumesFrom lib source s a) (source.parse options) options s.log s')
    (hcomplete : Succeeds lib source options s a →
      ∀ i < (source.parse options).length, Delivered (source.parse options) s'.log i) :
    Delivers lib source options s a s' where
  checkpoint job hjob hsafe := (h.word job hjob).delivered hsafe
  counted job hjob := (h.word job hjob).counts
  behind := h.behind
  complete := hcomplete

theorem start_delivers {connectionID databaseName tableName : Text}
    (hs : KeepWord (source.parse options) options s) :
    let s' := startImport lib source options connectionID databaseName tableName attempt s
    KeepWord (source.parse options) options s' ∧
      Delivers lib source options s (.start connectionID databaseName tableName attempt) s' := by
  intro s'
  show KeepWord _ _ (startImport _ _ _ _ _ _ _ _) ∧ Delivers _ _ _ _ _ (startImport _ _ _ _ _ _ _ _)
  unfold startImport
  split
  · rename_i hnone
    refine ⟨hs, delivers_quiet hs rfl ?_⟩
    rintro ⟨-, -, -, fingerprint, hsome, -⟩
    rw [hnone] at hsome
    cases hsome
  · rename_i fingerprint hsome
    split
    · rename_i hrefused
      refine ⟨hs, delivers_quiet hs rfl ?_⟩
      rintro ⟨-, haccepts, hcreate, -⟩
      rcases hrefused with h | h
      · rw [haccepts] at h
        cases h
      · rw [hcreate] at h
        cases h
    · obtain ⟨hleaves, hcomplete⟩ := attempt_leaves lib attempt
        (newImportJob lib source options attempt fingerprint connectionID databaseName tableName) rfl (Nat.zero_le _) rfl hs (fun i hi => absurd hi (Nat.not_lt_zero i))
      refine ⟨hleaves.word, delivers_of_leaves hleaves ?_⟩
      rintro ⟨hcrash, -, -, fingerprint', hsome', hok⟩
      rw [hsome] at hsome'
      cases hsome'
      exact hcomplete hcrash hok

theorem resume_delivers {jobID : Text} (hs : KeepWord (source.parse options) options s) :
    KeepWord (source.parse options) options (resumeImportJob lib source jobID attempt s) ∧
      Delivers lib source options s (.resume jobID attempt)
        (resumeImportJob lib source jobID attempt s) := by
  unfold resumeImportJob
  split
  · rename_i hnone
    refine ⟨hs, delivers_quiet hs rfl ?_⟩
    rintro ⟨-, -, claimed, options', fingerprint, jobs, hsome, -⟩
    rw [hnone] at hsome
    cases hsome
  · rename_i claimed options' fingerprint jobs hclaim
    obtain ⟨rfl, hjobs, hclaimed, hsafe⟩ := keepWord_claim hs hclaim
    have hreleased : KeepWord (source.parse options') options'
        { s with jobs := releaseTableImportRecovery claimed jobs } := by
      unfold releaseTableImportRecovery
      split
      · exact keepWord_release hjobs ‹_›
      · exact hjobs
    split
    · rename_i hcreate
      refine ⟨hreleased, delivers_quiet hreleased rfl ?_⟩
      rintro ⟨-, hok, -⟩
      rw [hcreate] at hok
      cases hok
    · rename_i hcreate
      have hfrom : resumesFrom lib source s (.resume jobID attempt) =
          claimed.checkpoint.sourceRow := by
        simp only [resumesFrom, hclaim]
      have hstore : KeepWord (source.parse options') options' { s with jobs :=
          if attempt.env.createArtifactFails = true then releaseTableImportRecovery claimed jobs
          else jobs } := by
        split
        · exact hreleased
        · exact hjobs
      obtain ⟨hleaves, hcomplete⟩ := attempt_leaves lib attempt
        (resumedJob lib source options' attempt fingerprint claimed) rfl
        (hclaimed.source hsafe) (hclaimed.counts hsafe) hstore (hclaimed.delivered hsafe)
      refine ⟨hleaves.word, delivers_of_leaves (hfrom.symm ▸ hleaves) ?_⟩
      rintro ⟨hcrash, -, claimed', options'', fingerprint', jobs', hclaim', hok⟩
      rw [hclaim] at hclaim'
      cases hclaim'
      exact hcomplete hcrash hok

end

/-- Libraries for numbers as values. -/
def numberLibraries : FileLibraries ℕ where
  toLower := id
  fold := id
  rowBytes _ := some 1
  encodedBytes _ := 1
  optionsHash _ := bytes "options"

/-- Everything works, and rows are written one by one. -/
def rowByRowEnv : ImportEnv where
  contextError _ := none
  reply _ := .succeeded
  lands _ := false
  progressDue _ := true
  persistDue _ := true
  putFails _ := false
  appendFails _ := false
  targetFingerprint := some (bytes "target")
  accepts := true
  createJobFails := false
  createArtifactFails := false
  connectError := none
  batchApplier := false
  batchSize := 1000
  columnsFail := false
  readFails _ := false
  publishFails := false

/-- A source of two rows. -/
def twoRows : Source ℕ where
  path := bytes "rows.csv"
  identityToken := bytes "source"
  parse _ := [[(bytes "column", 1)], [(bytes "column", 2)]]

/-- The process ends behind the write of the second row and in front of its report. -/
def crashAndResume : List ImportAction :=
  [.start (bytes "connection") (bytes "db") (bytes "table")
      ⟨bytes "import", bytes "errors-1", rowByRowEnv, some 4⟩,
    .restart, .resume (bytes "import") ⟨bytes "resumed", bytes "errors-2", rowByRowEnv, none⟩]

end GoNavi.Importjob
