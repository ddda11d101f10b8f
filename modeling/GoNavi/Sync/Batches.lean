import GoNavi.Json.Render
import Mathlib.Data.List.Pairwise

/-! # Committing a change set in batches

`splitChangeSetBatches` cuts the deletes, the updates and the inserts of a change set into batches,
and `applyChangesInBatches` commits one batch after the other and counts the rows it has committed.
The lines of its log are left out.

**The batches hold the rows of the change set in order, and whatever batch fails, what is reported
is what the batches before it hold** (`batches_account`). -/

namespace GoNavi.Sync

open Scan List

/-! ### Change sets -/

/-- `connection.ChangeSet`. -/
structure RowChanges (ρ υ : Type) where
  inserts : List ρ
  updates : List υ
  deletes : List ρ
  locatorStrategy : Text
  deriving DecidableEq

/-- One row of a change set. -/
inductive RowChange (ρ υ : Type) where
  | delete (row : ρ)
  | update (row : υ)
  | insert (row : ρ)
  deriving DecidableEq

structure AppliedChangeCounts where
  inserts : ℕ
  updates : ℕ
  deletes : ℕ
  deriving DecidableEq

def AppliedChangeCounts.total (counts : AppliedChangeCounts) : ℕ :=
  counts.inserts + counts.updates + counts.deletes

section batches

variable {ρ υ : Type}

namespace RowChanges

def empty (locatorStrategy : Text) : RowChanges ρ υ := ⟨[], [], [], locatorStrategy⟩

/-- The rows in the order in which they are to be applied. -/
def rows (changes : RowChanges ρ υ) : List (RowChange ρ υ) :=
  changes.deletes.map .delete ++ changes.updates.map .update ++ changes.inserts.map .insert

def size (changes : RowChanges ρ υ) : ℕ :=
  changes.deletes.length + changes.updates.length + changes.inserts.length

def append (changes : RowChanges ρ υ) : RowChange ρ υ → RowChanges ρ υ
  | .delete row => { changes with deletes := changes.deletes ++ [row] }
  | .update row => { changes with updates := changes.updates ++ [row] }
  | .insert row => { changes with inserts := changes.inserts ++ [row] }

@[simp] theorem length_rows (changes : RowChanges ρ υ) : changes.rows.length = changes.size := by
  simp [rows, size, Nat.add_assoc]

@[simp] theorem size_empty (locatorStrategy : Text) :
    (empty locatorStrategy : RowChanges ρ υ).size = 0 := rfl

@[simp] theorem rows_empty (locatorStrategy : Text) :
    (empty locatorStrategy : RowChanges ρ υ).rows = [] := rfl

@[simp] theorem size_append (changes : RowChanges ρ υ) (c : RowChange ρ υ) :
    (changes.append c).size = changes.size + 1 := by
  cases c <;> simp only [append, size, length_append, length_singleton] <;> omega

@[simp] theorem locatorStrategy_append (changes : RowChanges ρ υ) (c : RowChange ρ υ) :
    (changes.append c).locatorStrategy = changes.locatorStrategy := by
  cases c <;> rfl

end RowChanges

/-! ### Splitting -/

def defaultSyncApplyBatchSize : ℕ := 1000

def maxSyncBatchSize : ℕ := 10000

/-- The variables of `splitChangeSetBatches`. -/
structure Batching (ρ υ : Type) where
  batches : List (RowChanges ρ υ)
  current : RowChanges ρ υ
  currentSize : ℕ

def Batching.flush (s : Batching ρ υ) : Batching ρ υ :=
  if s.currentSize = 0 then s
  else ⟨s.batches ++ [s.current], .empty s.current.locatorStrategy, 0⟩

/-- The body of the three loops. -/
def Batching.add (batchSize : ℕ) (s : Batching ρ υ) (c : RowChange ρ υ) : Batching ρ υ :=
  let s := if batchSize ≤ s.currentSize then s.flush else s
  { s with current := s.current.append c, currentSize := s.currentSize + 1 }

def splitChangeSetBatches (changes : RowChanges ρ υ) (batchSize : ℤ) : List (RowChanges ρ υ) :=
  let batchSize := if batchSize ≤ 0 then defaultSyncApplyBatchSize else batchSize.toNat
  if changes.size = 0 then []
  else
    let s : Batching ρ υ := ⟨[], .empty changes.locatorStrategy, 0⟩
    let s := changes.deletes.foldl (fun s row => s.add batchSize (.delete row)) s
    let s := changes.updates.foldl (fun s row => s.add batchSize (.update row)) s
    let s := changes.inserts.foldl (fun s row => s.add batchSize (.insert row)) s
    s.flush.batches

/-! ### Applying -/

/-- A failure of the driver; it may be unknown whether the batch has been written. -/
structure ApplyError where
  message : Text
  outcomeUnknown : Bool

/-- What the context and the driver do at each batch. -/
structure ApplyWorld (ρ υ : Type) where
  contextError : ℕ → Option Text
  applyChanges : ℕ → RowChanges ρ υ → Option ApplyError

structure BatchRun (ρ υ : Type) where
  applied : AppliedChangeCounts
  committed : List (RowChanges ρ υ)
  error : Option Text
  outcomeUnknown : Bool

def normalizedSyncBatchSize (value : ℤ) : Except Text ℕ :=
  if value < 0 then .error (bytes "同步批大小不能小于 0")
  else if value = 0 then .ok defaultSyncApplyBatchSize
  else if (maxSyncBatchSize : ℤ) < value then
    .error (bytes "同步批大小不能超过 " ++ Json.natural maxSyncBatchSize)
  else .ok value.toNat

def AppliedChangeCounts.add (counts : AppliedChangeCounts) (batch : RowChanges ρ υ) :
    AppliedChangeCounts :=
  ⟨counts.inserts + batch.inserts.length, counts.updates + batch.updates.length,
    counts.deletes + batch.deletes.length⟩

/-- The text of the error when a batch fails. -/
def batchFailure (idx total : ℕ) (applied : AppliedChangeCounts) (err : Text) : Text :=
  let note := bytes "目标驱动若不支持原子提交，失败批次可能部分落库）: "
  let position := bytes "批次 " ++ Json.natural (idx + 1) ++ bytes "/" ++ Json.natural total
  if 1 < total then
    if 0 < applied.total then
      position ++ bytes " 失败（此前已确认完整提交：插入=" ++ Json.natural applied.inserts ++
        bytes " 更新=" ++ Json.natural applied.updates ++ bytes " 删除=" ++
        Json.natural applied.deletes ++ bytes "；" ++ note ++ err
    else position ++ bytes " 失败（" ++ note ++ err
  else bytes "数据批次失败（" ++ note ++ err

/-- The loop over the batches. -/
def commitBatches (world : ApplyWorld ρ υ) (total : ℕ) :
    ℕ → AppliedChangeCounts → List (RowChanges ρ υ) → List (RowChanges ρ υ) → BatchRun ρ υ
  | _, applied, committed, [] => ⟨applied, committed, none, false⟩
  | idx, applied, committed, batch :: batches =>
    match world.contextError idx with
    | some err => ⟨applied, committed, some err, false⟩
    | none =>
      match world.applyChanges idx batch with
      | some err =>
        ⟨applied, committed, some (batchFailure idx total applied err.message), err.outcomeUnknown⟩
      | none =>
        commitBatches world total (idx + 1) (applied.add batch) (committed ++ [batch]) batches

def applyChangesInBatches (world : ApplyWorld ρ υ) (changes : RowChanges ρ υ) (batchSize : ℤ) :
    BatchRun ρ υ :=
  match normalizedSyncBatchSize batchSize with
  | .error err => ⟨⟨0, 0, 0⟩, [], some err, false⟩
  | .ok batchSize =>
    let batches := splitChangeSetBatches changes batchSize
    commitBatches world batches.length 0 ⟨0, 0, 0⟩ [] batches

/-! ### The batches -/

/-- Deletes come first, then updates, then inserts. -/
def RowChange.rank : RowChange ρ υ → ℕ
  | .delete _ => 0
  | .update _ => 1
  | .insert _ => 2

theorem RowChanges.pairwise_rows (changes : RowChanges ρ υ) :
    changes.rows.Pairwise fun c d => c.rank ≤ d.rank := by
  unfold rows
  rw [pairwise_append, pairwise_append]
  simp only [pairwise_map, mem_append, mem_map]
  refine ⟨⟨?_, ?_, ?_⟩, ?_, ?_⟩
  · exact pairwise_of_forall fun _ _ => le_rfl
  · exact pairwise_of_forall fun _ _ => le_rfl
  · rintro _ ⟨_, _, rfl⟩ _ ⟨_, _, rfl⟩
    exact Nat.zero_le _
  · exact pairwise_of_forall fun _ _ => le_rfl
  · rintro _ (⟨_, _, rfl⟩ | ⟨_, _, rfl⟩) _ ⟨_, _, rfl⟩ <;> simp [RowChange.rank]

/-- A row goes to the end of a batch, unless a row of a later loop is there. -/
theorem RowChanges.rows_append {changes : RowChanges ρ υ} {c : RowChange ρ υ}
    (h : ∀ d ∈ changes.rows, d.rank ≤ c.rank) : (changes.append c).rows = changes.rows ++ [c] := by
  obtain ⟨inserts, updates, deletes, strategy⟩ := changes
  have hinserts : c.rank < 2 → inserts = [] := by
    intro hc
    rw [eq_nil_iff_forall_not_mem]
    intro row hrow
    have hrank : 2 ≤ c.rank := h (.insert row) (by simp [rows, hrow])
    omega
  have hupdates : c.rank < 1 → updates = [] := by
    intro hc
    rw [eq_nil_iff_forall_not_mem]
    intro row hrow
    have hrank : 1 ≤ c.rank := h (.update row) (by simp [rows, hrow])
    omega
  cases c with
  | delete row =>
    obtain rfl := hinserts (by simp [RowChange.rank])
    obtain rfl := hupdates (by simp [RowChange.rank])
    simp [append, rows]
  | update row =>
    obtain rfl := hinserts (by simp [RowChange.rank])
    simp [append, rows]
  | insert row => simp [append, rows]

/-- What holds in the loops, when the rows `done` have been read. -/
structure Batching.Holds (batchSize : ℕ) (locatorStrategy : Text) (s : Batching ρ υ)
    (done : List (RowChange ρ υ)) : Prop where
  rows : s.batches.flatMap RowChanges.rows ++ s.current.rows = done
  size : s.currentSize = s.current.size
  bound : s.currentSize ≤ batchSize
  strategy : s.current.locatorStrategy = locatorStrategy
  batches : ∀ batch ∈ s.batches,
    1 ≤ batch.size ∧ batch.size ≤ batchSize ∧ batch.locatorStrategy = locatorStrategy

variable {batchSize : ℕ} {locatorStrategy : Text} {s : Batching ρ υ}
  {done : List (RowChange ρ υ)}

theorem Batching.Holds.flush (h : s.Holds batchSize locatorStrategy done) :
    s.flush.Holds batchSize locatorStrategy done ∧ s.flush.currentSize = 0 := by
  unfold Batching.flush
  split
  · rename_i hzero
    exact ⟨h, hzero⟩
  · rename_i hsize
    refine ⟨⟨?_, rfl, Nat.zero_le _, h.strategy, ?_⟩, rfl⟩
    · simp [← h.rows]
    · intro batch hbatch
      rw [mem_append, mem_singleton] at hbatch
      cases hbatch with
      | inl hbatch => exact h.batches batch hbatch
      | inr hbatch =>
        subst hbatch
        have hpos := Nat.pos_of_ne_zero hsize
        rw [h.size] at hpos
        exact ⟨hpos, h.size ▸ h.bound, h.strategy⟩

theorem Batching.Holds.add (h : s.Holds batchSize locatorStrategy done) (hpos : 0 < batchSize)
    {c : RowChange ρ υ} (hrank : ∀ d ∈ done, d.rank ≤ c.rank) :
    (s.add batchSize c).Holds batchSize locatorStrategy (done ++ [c]) := by
  have hroom : ∃ s', (if batchSize ≤ s.currentSize then s.flush else s) = s' ∧
      s'.Holds batchSize locatorStrategy done ∧ s'.currentSize < batchSize := by
    split
    · obtain ⟨hflush, hzero⟩ := h.flush
      exact ⟨_, rfl, hflush, hzero ▸ hpos⟩
    · rename_i hsize
      exact ⟨_, rfl, h, Nat.lt_of_not_le hsize⟩
  obtain ⟨s', hs', hholds, hsize⟩ := hroom
  unfold Batching.add
  rw [hs']
  have hcurrent : ∀ d ∈ s'.current.rows, d.rank ≤ c.rank := by
    intro d hd
    refine hrank d ?_
    rw [← hholds.rows]
    exact mem_append_right _ hd
  refine ⟨?_, ?_, hsize, ?_, hholds.batches⟩
  · dsimp only
    rw [RowChanges.rows_append hcurrent, ← append_assoc, hholds.rows]
  · simp [hholds.size]
  · simp [hholds.strategy]

theorem Batching.Holds.foldl (hpos : 0 < batchSize) : ∀ {cs : List (RowChange ρ υ)}
    {s : Batching ρ υ} {done : List (RowChange ρ υ)},
    s.Holds batchSize locatorStrategy done →
    (done ++ cs).Pairwise (fun c d => c.rank ≤ d.rank) →
    (cs.foldl (Batching.add batchSize) s).Holds batchSize locatorStrategy (done ++ cs)
  | [], _, _, h, _ => by simpa using h
  | c :: cs, s, done, h, hsorted => by
    have hrank : ∀ d ∈ done, d.rank ≤ c.rank := by
      intro d hd
      exact (pairwise_append.mp hsorted).2.2 d hd c mem_cons_self
    rw [foldl_cons, append_cons]
    refine Batching.Holds.foldl hpos (h.add hpos hrank) ?_
    rwa [← append_cons]

/-- The size that a batch size stands for. -/
def effectiveBatchSize (batchSize : ℤ) : ℕ :=
  if batchSize ≤ 0 then defaultSyncApplyBatchSize else batchSize.toNat

theorem effectiveBatchSize_pos (batchSize : ℤ) : 0 < effectiveBatchSize batchSize := by
  unfold effectiveBatchSize
  split
  · decide
  · omega

theorem splitChangeSetBatches_eq (changes : RowChanges ρ υ) (batchSize : ℤ) :
    splitChangeSetBatches changes batchSize =
      (changes.rows.foldl (Batching.add (effectiveBatchSize batchSize))
        ⟨[], .empty changes.locatorStrategy, 0⟩).flush.batches := by
  unfold splitChangeSetBatches
  dsimp only
  split
  · rename_i hsize
    have hrows : changes.rows = [] := by
      rw [← length_eq_zero_iff, RowChanges.length_rows, hsize]
    rw [hrows]
    rfl
  · rw [RowChanges.rows, foldl_append, foldl_append, foldl_map, foldl_map,
      foldl_map]
    rfl

theorem splitChangeSetBatches_holds (changes : RowChanges ρ υ) (batchSize : ℤ) :
    (splitChangeSetBatches changes batchSize).flatMap RowChanges.rows = changes.rows ∧
      ∀ batch ∈ splitChangeSetBatches changes batchSize,
        1 ≤ batch.size ∧ batch.size ≤ effectiveBatchSize batchSize ∧
          batch.locatorStrategy = changes.locatorStrategy := by
  have hstart : Batching.Holds (effectiveBatchSize batchSize) changes.locatorStrategy
      (⟨[], .empty changes.locatorStrategy, 0⟩ : Batching ρ υ) [] :=
    ⟨rfl, rfl, Nat.zero_le _, rfl, by simp⟩
  have hloop := hstart.foldl (effectiveBatchSize_pos batchSize) changes.pairwise_rows
  obtain ⟨hflush, hzero⟩ := hloop.flush
  rw [splitChangeSetBatches_eq]
  refine ⟨?_, hflush.batches⟩
  have hcurrent := hflush.size
  rw [hzero, ← RowChanges.length_rows, eq_comm, length_eq_zero_iff] at hcurrent
  have hrows := hflush.rows
  rwa [hcurrent, append_nil, nil_append] at hrows

/-! ### The counts -/

def countsOf (batches : List (RowChanges ρ υ)) : AppliedChangeCounts :=
  batches.foldl AppliedChangeCounts.add ⟨0, 0, 0⟩

/-- The context is not cancelled in front of the batch and the driver applies it. -/
def ApplyWorld.Commits (world : ApplyWorld ρ υ) (idx : ℕ) (batch : RowChanges ρ υ) : Prop :=
  world.contextError idx = none ∧ world.applyChanges idx batch = none

variable {world : ApplyWorld ρ υ}

theorem countsOf_concat (batches : List (RowChanges ρ υ)) (batch : RowChanges ρ υ) :
    countsOf (batches ++ [batch]) = (countsOf batches).add batch := by
  simp [countsOf]

/-- How a run over the batches ends: all are committed, or those in front of the first one that
is not. -/
structure Ended (world : ApplyWorld ρ υ) (batches : List (RowChanges ρ υ))
    (run : BatchRun ρ υ) : Prop where
  applied : run.applied = countsOf run.committed
  committed : run.committed = batches.take run.committed.length
  commits : ∀ idx (h : idx < run.committed.length), world.Commits idx (run.committed.get ⟨idx, h⟩)
  finished : run.error = none → run.committed = batches
  failed : run.error ≠ none → ∃ batch, batches[run.committed.length]? = some batch ∧
    ¬ world.Commits run.committed.length batch

theorem commitBatches_ended (total : ℕ) : ∀ (batches committed : List (RowChanges ρ υ)),
    (∀ idx (h : idx < committed.length), world.Commits idx (committed.get ⟨idx, h⟩)) →
    Ended world (committed ++ batches)
      (commitBatches world total committed.length (countsOf committed) committed batches)
  | [], committed, h =>
    ⟨rfl, by simp [commitBatches], h, fun _ => by simp [commitBatches], fun hne => absurd rfl hne⟩
  | batch :: batches, committed, h => by
    have hbatch : (committed ++ batch :: batches)[committed.length]? = some batch := by simp
    unfold commitBatches
    split
    · rename_i err hcontext
      refine ⟨rfl, by simp, h, fun herr => by simp at herr, fun _ => ⟨batch, hbatch, ?_⟩⟩
      intro hcommits
      rw [hcommits.1] at hcontext
      cases hcontext
    · rename_i hcontext
      split
      · rename_i err happly
        refine ⟨rfl, by simp, h, fun herr => by simp at herr, fun _ => ⟨batch, hbatch, ?_⟩⟩
        intro hcommits
        rw [hcommits.2] at happly
        cases happly
      · rename_i happly
        have hnext : ∀ idx (hidx : idx < (committed ++ [batch]).length),
            world.Commits idx ((committed ++ [batch]).get ⟨idx, hidx⟩) := by
          intro idx hidx
          rw [length_append, length_singleton] at hidx
          by_cases hlt : idx < committed.length
          · simpa [getElem_append_left hlt] using h idx hlt
          · obtain rfl : idx = committed.length := by omega
            simpa using ⟨hcontext, happly⟩
        have ih := commitBatches_ended total batches (committed ++ [batch]) hnext
        rw [countsOf_concat, length_append, length_singleton] at ih
        rwa [append_cons]

theorem Ended.of_failure {batches : List (RowChanges ρ υ)} {run : BatchRun ρ υ}
    (h : Ended world batches run) {k : ℕ} {batch : RowChanges ρ υ}
    (hbatch : batches[k]? = some batch)
    (hbefore : ∀ j < k, ∀ b, batches[j]? = some b → world.Commits j b)
    (hfails : ¬ world.Commits k batch) :
    run.error ≠ none ∧ run.committed = batches.take k := by
  have hk : k < batches.length := (List.getElem?_eq_some_iff.mp hbatch).1
  have hle : run.committed.length ≤ k := by
    by_contra hlt
    have hcommits := h.commits k (Nat.lt_of_not_le hlt)
    have hget : run.committed[k]? = batches[k]? := by
      conv_lhs => rw [h.committed]
      rw [List.getElem?_take_of_lt (Nat.lt_of_not_le hlt)]
    rw [hbatch, List.getElem?_eq_some_iff] at hget
    obtain ⟨_, hget⟩ := hget
    rw [get_eq_getElem, hget] at hcommits
    exact hfails hcommits
  have herror : run.error ≠ none := by
    intro hnone
    rw [h.finished hnone] at hle
    omega
  obtain ⟨stopped, hstopped, hnot⟩ := h.failed herror
  have hlength : run.committed.length = k := by
    by_contra hne
    exact hnot (hbefore _ (Nat.lt_of_le_of_ne hle hne) stopped hstopped)
  refine ⟨herror, ?_⟩
  rw [← hlength]
  exact h.committed

theorem Ended.of_commits {batches : List (RowChanges ρ υ)} {run : BatchRun ρ υ}
    (h : Ended world batches run) (hall : ∀ j b, batches[j]? = some b → world.Commits j b) :
    run.error = none ∧ run.committed = batches := by
  have herror : run.error = none := by
    by_contra hne
    obtain ⟨stopped, hstopped, hnot⟩ := h.failed hne
    exact hnot (hall _ stopped hstopped)
  exact ⟨herror, h.finished herror⟩

/-- The counts are those of the rows of each kind. -/
def kindsOf (rows : List (RowChange ρ υ)) : AppliedChangeCounts :=
  ⟨rows.countP fun c => c.rank = 2, rows.countP fun c => c.rank = 1,
    rows.countP fun c => c.rank = 0⟩

theorem RowChanges.kindsOf_rows (changes : RowChanges ρ υ) : kindsOf changes.rows =
    ⟨changes.inserts.length, changes.updates.length, changes.deletes.length⟩ := by
  simp [kindsOf, rows, countP_append, countP_map, Function.comp_def, RowChange.rank]

theorem countsOf_eq_kindsOf (batches : List (RowChanges ρ υ)) :
    countsOf batches = kindsOf (batches.flatMap RowChanges.rows) := by
  induction batches using List.reverseRecOn with
  | nil => rfl
  | append_singleton batches batch ih =>
    have hbatch := batch.kindsOf_rows
    simp only [kindsOf, AppliedChangeCounts.mk.injEq] at hbatch
    obtain ⟨hinserts, hupdates, hdeletes⟩ := hbatch
    rw [countsOf_concat, ih]
    simp [kindsOf, AppliedChangeCounts.add, countP_append, hinserts, hupdates, hdeletes]

theorem normalizedSyncBatchSize_ok {batchSize : ℤ} {n : ℕ}
    (h : normalizedSyncBatchSize batchSize = .ok n) : n = effectiveBatchSize batchSize := by
  unfold normalizedSyncBatchSize at h
  unfold effectiveBatchSize
  split_ifs at h ⊢ with h₁ h₂ h₃ <;> cases h <;> omega

theorem effectiveBatchSize_natCast {n : ℕ} (h : 0 < n) : effectiveBatchSize (n : ℤ) = n := by
  unfold effectiveBatchSize
  rw [if_neg (by omega), Int.toNat_natCast]

theorem splitChangeSetBatches_effective (changes : RowChanges ρ υ) (batchSize : ℤ) :
    splitChangeSetBatches changes (effectiveBatchSize batchSize : ℤ) =
      splitChangeSetBatches changes batchSize := by
  rw [splitChangeSetBatches_eq, splitChangeSetBatches_eq,
    effectiveBatchSize_natCast (effectiveBatchSize_pos batchSize)]

theorem applyChangesInBatches_ended {changes : RowChanges ρ υ} {batchSize : ℤ} {n : ℕ}
    (h : normalizedSyncBatchSize batchSize = .ok n) :
    Ended world (splitChangeSetBatches changes batchSize)
      (applyChangesInBatches world changes batchSize) := by
  have hbatches := splitChangeSetBatches_effective changes batchSize
  rw [← normalizedSyncBatchSize_ok h] at hbatches
  unfold applyChangesInBatches
  rw [h]
  dsimp only
  rw [hbatches]
  exact commitBatches_ended _ _ [] (by simp)

/-- **The batches of a change set**: they hold its rows in order, none is empty or longer than the
batch size (1000 when it is not positive), and what is reported as applied is what the batches
hold that have been committed, all of them or those before the first that failed. -/
theorem batches_account (changes : RowChanges ρ υ) (batchSize : ℤ) :
    (splitChangeSetBatches changes batchSize).flatMap RowChanges.rows = changes.rows ∧
    (∀ batch ∈ splitChangeSetBatches changes batchSize,
      batch.locatorStrategy = changes.locatorStrategy ∧ 1 ≤ batch.rows.length ∧
        (0 < batchSize → (batch.rows.length : ℤ) ≤ batchSize) ∧
        (batchSize ≤ 0 → batch.rows.length ≤ 1000)) ∧
    ∀ world : ApplyWorld ρ υ,
      (∀ err, normalizedSyncBatchSize batchSize = .error err →
        applyChangesInBatches world changes batchSize = ⟨⟨0, 0, 0⟩, [], some err, false⟩) ∧
      ∀ n, normalizedSyncBatchSize batchSize = .ok n →
        (∀ k batch, (splitChangeSetBatches changes batchSize)[k]? = some batch →
          (∀ j < k, ∀ b, (splitChangeSetBatches changes batchSize)[j]? = some b →
            world.Commits j b) →
          ¬ world.Commits k batch →
          (applyChangesInBatches world changes batchSize).error ≠ none ∧
          (applyChangesInBatches world changes batchSize).applied =
            countsOf ((splitChangeSetBatches changes batchSize).take k)) ∧
        ((∀ j b, (splitChangeSetBatches changes batchSize)[j]? = some b → world.Commits j b) →
          (applyChangesInBatches world changes batchSize).error = none ∧
          (applyChangesInBatches world changes batchSize).applied =
            ⟨changes.inserts.length, changes.updates.length, changes.deletes.length⟩) := by
  obtain ⟨hrows, hbatches⟩ := splitChangeSetBatches_holds changes batchSize
  refine ⟨hrows, ?_, ?_⟩
  · intro batch hbatch
    obtain ⟨hpos, hsize, hstrategy⟩ := hbatches batch hbatch
    rw [RowChanges.length_rows]
    unfold effectiveBatchSize at hsize
    refine ⟨hstrategy, hpos, ?_, ?_⟩
    · intro hpositive
      rw [if_neg (by omega)] at hsize
      omega
    · intro hnonpositive
      rw [if_pos hnonpositive] at hsize
      exact hsize
  · intro world
    constructor
    · intro err herr
      unfold applyChangesInBatches
      rw [herr]
    · intro n hn
      have hended : Ended world (splitChangeSetBatches changes batchSize)
          (applyChangesInBatches world changes batchSize) := applyChangesInBatches_ended hn
      constructor
      · intro k batch hbatch hbefore hfails
        obtain ⟨herror, hcommitted⟩ := hended.of_failure hbatch hbefore hfails
        exact ⟨herror, by rw [hended.applied, hcommitted]⟩
      · intro hall
        obtain ⟨herror, hcommitted⟩ := hended.of_commits hall
        refine ⟨herror, ?_⟩
        rw [hended.applied, hcommitted]
        rw [countsOf_eq_kindsOf, hrows, RowChanges.kindsOf_rows]

end batches

/-- A batch size of zero stands for the default: the batch has a row. -/
theorem batch_exceeds_zero : ¬ ∀ (changes : RowChanges ℕ ℕ) (batchSize : ℤ),
    ∀ batch ∈ splitChangeSetBatches changes batchSize,
      1 ≤ batch.rows.length ∧ (batch.rows.length : ℤ) ≤ batchSize := by
  intro h
  have hzero := h ⟨[], [], [1], []⟩ 0 ⟨[], [], [1], []⟩ (by decide)
  revert hzero
  decide

end GoNavi.Sync
