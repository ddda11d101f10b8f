import GoNavi.Machine.Word
import Mathlib.Data.Set.Basic
import Mathlib.Tactic.Ring

/-! # Counting in machine integers

A loop counts from a machine integer by a step, as long as it is not beyond a bound.  When the
first sum beyond the bound is a machine integer, the loop visits the grid of the step up to the
bound (`mem_steps`).  When it is not, the sum wraps around, and the loop goes on below zero
(`exists_neg_of_steps`).  Either way a loop with a low bound ends (`steps_returns`). -/

namespace Word

/-- The integers that are reached from `start` in steps, up to `stop`. -/
def Grid (start stop step : ℤ) : Set ℤ := {v | v ≤ stop ∧ ∃ k : ℕ, v = start + k * step}

/-- The last integer of the grid. -/
def lastOf (start stop step : ℤ) : ℤ := stop - (stop - start) % step

/-- `for value := start; value <= stop; value += step`: the values of the turns, when there are
not more turns than that. -/
def steps : ℕ → (value stop step : Int64) → Option (List Int64)
  | 0, _, _, _ => none
  | turns + 1, value, stop, step =>
    if value ≤ stop then (steps turns (value + step) stop step).map (value :: ·) else some []

variable {turns : ℕ} {value stop step : Int64} {visited : List Int64}

/-! ### The grid -/

theorem lastOf_of_lt {start stop step : ℤ} (h : start ≤ stop) (hlt : stop < start + step) :
    lastOf start stop step = start := by
  unfold lastOf
  rw [Int.emod_eq_of_lt] <;> omega

@[simp] theorem lastOf_add (start stop step : ℤ) :
    lastOf (start + step) stop step = lastOf start stop step := by
  unfold lastOf
  rw [← sub_sub, Int.sub_emod_right]

theorem mem_grid_add {start stop step : ℤ} {v : ℤ} (h : start ≤ stop) :
    v ∈ Grid start stop step ↔ v = start ∨ v ∈ Grid (start + step) stop step := by
  constructor
  · rintro ⟨hle, k, rfl⟩
    cases k with
    | zero => exact .inl (by simp)
    | succ k => exact .inr ⟨hle, k, by push_cast; ring⟩
  · rintro (rfl | ⟨hle, k, rfl⟩)
    · exact ⟨h, 0, by simp⟩
    · exact ⟨hle, k + 1, by push_cast; ring⟩

theorem grid_eq_empty {start stop step : ℤ} (hstep : 0 < step) (h : stop < start) :
    Grid start stop step = ∅ := by
  ext v
  simp only [Grid, Set.mem_ofPred_eq, Set.mem_empty_iff_false, iff_false, not_and, not_exists]
  intro hle k hk
  have := Int.mul_nonneg (Int.natCast_nonneg k) hstep.le
  omega

/-- The grid lies between its ends, and its last integer is the greatest. -/
theorem le_lastOf {start stop step : ℤ} (hstep : 0 < step) {v : ℤ}
    (h : v ∈ Grid start stop step) : start ≤ v ∧ v ≤ lastOf start stop step := by
  obtain ⟨hle, k, rfl⟩ := h
  have hk := Int.mul_nonneg (Int.natCast_nonneg k) hstep.le
  refine ⟨by omega, ?_⟩
  have hsplit := Int.mul_ediv_add_emod (stop - start) step
  have hquot : (k : ℤ) ≤ (stop - start) / step := by
    rw [Int.le_ediv_iff_mul_le hstep]
    omega
  have hmul : step * (k : ℤ) ≤ step * ((stop - start) / step) :=
    Int.mul_le_mul_of_nonneg_left hquot hstep.le
  unfold lastOf
  rw [mul_comm (k : ℤ) step]
  omega

theorem lastOf_mem {start stop step : ℤ} (hstep : 0 < step) (h : start ≤ stop) :
    lastOf start stop step ∈ Grid start stop step := by
  have hsplit := Int.mul_ediv_add_emod (stop - start) step
  have hmod := Int.emod_nonneg (stop - start) hstep.ne'
  have hquot : 0 ≤ (stop - start) / step := Int.ediv_nonneg (by omega) hstep.le
  refine ⟨by unfold lastOf; omega, ((stop - start) / step).toNat, ?_⟩
  unfold lastOf
  rw [Int.toNat_of_nonneg hquot, mul_comm]
  omega

/-! ### The loop -/

theorem toInt_add_wrapped {a b : Int64} (h : 2 ^ 63 ≤ a.toInt + b.toInt) :
    (a + b).toInt = a.toInt + b.toInt - 2 ^ 64 := by
  have := Int64.toInt_lt a
  have := Int64.toInt_lt b
  rw [Int64.toInt_add, Int.bmod_def]
  omega

theorem steps_succ (h : steps (turns + 1) value stop step = some visited) :
    (stop.toInt < value.toInt ∧ visited = []) ∨ (value.toInt ≤ stop.toInt ∧
      ∃ rest, steps turns (value + step) stop step = some rest ∧ visited = value :: rest) := by
  unfold steps at h
  split at h
  · rename_i hle
    obtain ⟨rest, hrest, rfl⟩ := Option.map_eq_some_iff.mp h
    exact .inr ⟨Int64.le_iff_toInt_le.mp hle, rest, hrest, rfl⟩
  · rename_i hle
    rw [Int64.le_iff_toInt_le] at hle
    cases h
    exact .inl ⟨by omega, rfl⟩

/-- **A loop that does not wrap around visits the grid**; induction on the turns. -/
theorem mem_steps (hstep : 0 < step.toInt) (h : steps turns value stop step = some visited)
    (hfits : lastOf value.toInt stop.toInt step.toInt + step.toInt < 2 ^ 63) (v : Int64) :
    v ∈ visited ↔ v.toInt ∈ Grid value.toInt stop.toInt step.toInt := by
  induction turns generalizing value visited with
  | zero => cases h
  | succ turns ih =>
    obtain ⟨hbeyond, rfl⟩ | ⟨hle, rest, hrest, rfl⟩ := steps_succ h
    · rw [grid_eq_empty hstep hbeyond]
      simp
    · have hlow := Int64.le_toInt value
      have hsum : (value + step).toInt = value.toInt + step.toInt := by
        have hstart : value.toInt ∈ Grid value.toInt stop.toInt step.toInt :=
          (mem_grid_add hle).mpr (.inl rfl)
        have hlast := (le_lastOf hstep hstart).2
        exact toInt_add (by omega) (by omega)
      have ih := ih hrest (by rwa [hsum, lastOf_add])
      rw [List.mem_cons, mem_grid_add hle, ih, hsum, Int64.toInt_inj]

/-- **A loop that wraps around goes on below zero**; induction on the turns. -/
theorem exists_neg_of_steps (hstep : 0 < step.toInt)
    (hle : value.toInt ≤ stop.toInt) (h : steps turns value stop step = some visited)
    (hwraps : 2 ^ 63 ≤ lastOf value.toInt stop.toInt step.toInt + step.toInt) :
    ∃ v ∈ visited, v.toInt < 0 := by
  induction turns generalizing value visited with
  | zero => cases h
  | succ turns ih =>
    obtain ⟨hbeyond, rfl⟩ | ⟨_, rest, hrest, rfl⟩ := steps_succ h
    · exact absurd hle (by omega)
    · have hlow := Int64.le_toInt value
      have hhigh := Int64.toInt_lt value
      have hstep' := Int64.toInt_lt step
      by_cases hsum : value.toInt + step.toInt < 2 ^ 63
      · have hexact := toInt_add (by omega) hsum
        have hnext : value.toInt + step.toInt ≤ stop.toInt := by
          by_contra hbeyond
          rw [lastOf_of_lt hle (by omega)] at hwraps
          omega
        obtain ⟨v, hv, hneg⟩ := ih (by omega) hrest (by rwa [hexact, lastOf_add])
        exact ⟨v, List.mem_cons_of_mem _ hv, hneg⟩
      · have hwrapped := toInt_add_wrapped (a := value) (b := step) (by omega)
        cases turns with
        | zero => cases hrest
        | succ turns =>
          obtain ⟨hbeyond, rfl⟩ | ⟨_, rest', _, rfl⟩ := steps_succ hrest
          · omega
          · exact ⟨value + step, by simp, by omega⟩

/-- A loop that cannot jump over the integers behind its bound; induction on the turns. -/
theorem steps_returns_of_short (hstep : 0 < step.toInt)
    (hshort : stop.toInt + step.toInt < 2 ^ 63) (hpos : 0 < turns)
    (hturns : stop.toInt - value.toInt + 1 < turns) :
    ∃ visited, steps turns value stop step = some visited := by
  induction turns generalizing value with
  | zero => omega
  | succ turns ih =>
    unfold steps
    split
    · rename_i hle
      rw [Int64.le_iff_toInt_le] at hle
      have hlow := Int64.le_toInt value
      have hsum : (value + step).toInt = value.toInt + step.toInt :=
        toInt_add (by omega) (by omega)
      have hrest : ∃ rest, steps turns (value + step) stop step = some rest := by
        apply ih <;> omega
      obtain ⟨rest, hrest⟩ := hrest
      exact ⟨value :: rest, by rw [hrest]; rfl⟩
    · exact ⟨[], rfl⟩

/-- A loop that jumps over them: two turns lead to a smaller value, and from a value that is not
positive the loop ends; induction on the turns. -/
theorem steps_returns_of_long (hstop : stop.toInt < 2 ^ 60)
    (hlong : 2 ^ 63 ≤ stop.toInt + step.toInt) (hlow : -2 ^ 61 ≤ value.toInt)
    (hturns : 2 * value.toInt + 2 < turns) (hpos : 2 < turns) :
    ∃ visited, steps turns value stop step = some visited := by
  induction turns using Nat.strong_induction_on generalizing value with
  | _ turns ih =>
    obtain ⟨turns, rfl⟩ : ∃ n, turns = n + 2 := ⟨turns - 2, by omega⟩
    have hstep' := Int64.toInt_lt step
    have hsome : ∀ {n : ℕ} {v : Int64}, (∃ visited, steps n (v + step) stop step = some visited) →
        ∃ visited, steps (n + 1) v stop step = some visited := by
      rintro n v ⟨visited, hvisited⟩
      unfold steps
      rw [hvisited]
      split
      · exact ⟨_, rfl⟩
      · exact ⟨_, rfl⟩
    by_cases hsum : value.toInt + step.toInt < 2 ^ 63
    · have hexact := toInt_add (by omega) hsum
      apply hsome
      unfold steps
      rw [if_neg (by rw [Int64.le_iff_toInt_le]; omega)]
      exact ⟨_, rfl⟩
    · have hhigh := Int64.toInt_lt value
      have hwrapped := toInt_add_wrapped (a := value) (b := step) (by omega)
      have hback : (value + step + step).toInt = value.toInt + 2 * step.toInt - 2 ^ 64 := by
        rw [toInt_add] <;> omega
      apply hsome
      apply hsome
      apply ih turns (by omega) <;> omega

/-- **A loop with a low bound ends.** -/
theorem steps_returns (hstep : 0 < step.toInt) (hvalue : 0 ≤ value.toInt)
    (hle : value.toInt ≤ stop.toInt) (hstop : stop.toInt < 2 ^ 60)
    (hturns : 2 * stop.toInt + 2 < turns) :
    ∃ visited, steps turns value stop step = some visited := by
  by_cases hshort : stop.toInt + step.toInt < 2 ^ 63
  · apply steps_returns_of_short hstep hshort <;> omega
  · apply steps_returns_of_long hstop <;> omega

end Word
