import GoNavi.Sync.Watermark
import Mathlib

/-! # Reading numbers keeps their order

**`parseFloat` is monotone** (`monotone_parseFloat`): numbers that are read as different numbers
stand in the order in which they are read. -/

namespace GoNavi.Sync

/-! ### Integers -/

theorem floor_le_roundToNearestEven (q : ℚ) :
    ⌊q⌋ ≤ roundToNearestEven q ∧ roundToNearestEven q ≤ ⌊q⌋ + 1 := by
  unfold roundToNearestEven
  split
  · omega
  split
  · omega
  split <;> omega

theorem monotone_roundToNearestEven : Monotone roundToNearestEven := by
  intro q q' hle
  have hq := floor_le_roundToNearestEven q
  have hq' := floor_le_roundToNearestEven q'
  have hfloor : ⌊q⌋ ≤ ⌊q'⌋ := Int.floor_mono hle
  cases hfloor.lt_or_eq with
  | inl hlt => omega
  | inr heq =>
    -- between the same integers the fractions decide
    have hfract : q - ⌊q⌋ ≤ q' - ⌊q⌋ := by linarith
    unfold roundToNearestEven
    rw [← heq]
    split_ifs <;> first | omega | linarith

theorem roundToNearestEven_intCast (n : ℤ) : roundToNearestEven n = n := by
  unfold roundToNearestEven
  rw [Int.floor_intCast, sub_self, if_pos (by norm_num)]

/-! ### Bits -/

theorem ulp_pos (e : ℤ) : (0 : ℚ) < 2 ^ (e - 255) := zpow_pos (by norm_num) _

variable {q q' : ℚ}

theorem roundToBits_mono {e : ℤ} (hq : Int.log 2 |q| = e) (hq' : Int.log 2 |q'| = e)
    (hle : q ≤ q') : roundToBits q ≤ roundToBits q' := by
  have hulp := ulp_pos e
  unfold roundToBits
  rw [hq, hq']
  have hround := monotone_roundToNearestEven (div_le_div_of_nonneg_right hle hulp.le)
  exact mul_le_mul_of_nonneg_right (by exact_mod_cast hround) hulp.le

theorem le_roundToBits {n : ℤ} (h : n * 2 ^ (Int.log 2 |q| - 255) ≤ q) :
    n * 2 ^ (Int.log 2 |q| - 255) ≤ roundToBits q := by
  have hulp := ulp_pos (Int.log 2 |q|)
  have hround := monotone_roundToNearestEven ((le_div_iff₀ hulp).mpr h)
  rw [roundToNearestEven_intCast] at hround
  exact mul_le_mul_of_nonneg_right (by exact_mod_cast hround) hulp.le

theorem roundToBits_le {n : ℤ} (h : q ≤ n * 2 ^ (Int.log 2 |q| - 255)) :
    roundToBits q ≤ n * 2 ^ (Int.log 2 |q| - 255) := by
  have hulp := ulp_pos (Int.log 2 |q|)
  have hround := monotone_roundToNearestEven ((div_le_iff₀ hulp).mpr h)
  rw [roundToNearestEven_intCast] at hround
  exact mul_le_mul_of_nonneg_right (by exact_mod_cast hround) hulp.le

theorem ulp_mul (e : ℤ) (k : ℕ) : ((2 ^ k : ℤ) : ℚ) * 2 ^ (e - 255) = 2 ^ (e - 255 + k) := by
  rw [zpow_add₀ (by norm_num), zpow_natCast, mul_comm]
  norm_cast

theorem binade_start (e : ℤ) : ((2 ^ 255 : ℤ) : ℚ) * 2 ^ (e - 255) = 2 ^ e := by
  rw [ulp_mul]
  congr 1
  omega

theorem binade_end (e : ℤ) : ((2 ^ 256 : ℤ) : ℚ) * 2 ^ (e - 255) = 2 ^ (e + 1) := by
  rw [ulp_mul]
  congr 1
  omega

theorem roundToBits_of_pos (hq : 0 < q) : 2 ^ Int.log 2 |q| ≤ roundToBits q ∧
    roundToBits q ≤ 2 ^ (Int.log 2 |q| + 1) := by
  rw [← binade_start, ← binade_end]
  constructor
  · apply le_roundToBits
    rw [binade_start, abs_of_pos hq]
    exact_mod_cast Int.zpow_log_le_self one_lt_two hq
  · apply roundToBits_le
    rw [binade_end, abs_of_pos hq]
    exact_mod_cast (Int.lt_zpow_succ_log_self one_lt_two q).le

theorem roundToBits_of_neg (hq : q < 0) : -2 ^ (Int.log 2 |q| + 1) ≤ roundToBits q ∧
    roundToBits q ≤ -2 ^ Int.log 2 |q| := by
  constructor
  · rw [← binade_end, ← neg_mul, ← Int.cast_neg]
    apply le_roundToBits
    rw [Int.cast_neg, neg_mul, binade_end, abs_of_neg hq]
    have hlt : -q < 2 ^ (Int.log 2 (-q) + 1) :=
      by exact_mod_cast Int.lt_zpow_succ_log_self one_lt_two (-q)
    linarith
  · rw [← binade_start, ← neg_mul, ← Int.cast_neg]
    apply roundToBits_le
    rw [Int.cast_neg, neg_mul, binade_start, abs_of_neg hq]
    have hle : 2 ^ Int.log 2 (-q) ≤ -q :=
      by exact_mod_cast Int.zpow_log_le_self one_lt_two (neg_pos.mpr hq)
    linarith

theorem roundToBits_pos (hq : 0 < q) : 0 < roundToBits q :=
  (zpow_pos (by norm_num) _).trans_le (roundToBits_of_pos hq).1

theorem roundToBits_neg (hq : q < 0) : roundToBits q < 0 :=
  (roundToBits_of_neg hq).2.trans_lt (neg_neg_of_pos (zpow_pos (by norm_num) _))

theorem zpow_le_zpow {m n : ℤ} (h : m ≤ n) : (2 : ℚ) ^ m ≤ 2 ^ n :=
  zpow_le_zpow_right₀ (by norm_num) h

theorem roundToBits_le_roundToBits (hq : q ≠ 0) (hq' : q' ≠ 0) (hle : q ≤ q') :
    roundToBits q ≤ roundToBits q' := by
  cases hq.lt_or_gt with
  | inl hneg =>
    cases hq'.lt_or_gt with
    | inl hneg' =>
      have hlog : Int.log 2 |q'| ≤ Int.log 2 |q| := by
        rw [abs_of_neg hneg, abs_of_neg hneg']
        exact Int.log_mono_right (neg_pos.mpr hneg') (neg_le_neg hle)
      cases hlog.lt_or_eq with
      | inl hlt =>
        have hpow : (2 : ℚ) ^ (Int.log 2 |q'| + 1) ≤ 2 ^ Int.log 2 |q| := zpow_le_zpow (by omega)
        have hround := (roundToBits_of_neg hneg).2
        have hround' := (roundToBits_of_neg hneg').1
        linarith
      | inr heq => exact roundToBits_mono heq.symm rfl hle
    | inr hpos' => exact (roundToBits_neg hneg).le.trans (roundToBits_pos hpos').le
  | inr hpos =>
    have hpos' : 0 < q' := hpos.trans_le hle
    have hlog : Int.log 2 |q| ≤ Int.log 2 |q'| := by
      rw [abs_of_pos hpos, abs_of_pos hpos']
      exact Int.log_mono_right hpos hle
    cases hlog.lt_or_eq with
    | inl hlt =>
      have hpow : (2 : ℚ) ^ (Int.log 2 |q| + 1) ≤ 2 ^ Int.log 2 |q'| := zpow_le_zpow (by omega)
      have hround := (roundToBits_of_pos hpos).2
      have hround' := (roundToBits_of_pos hpos').1
      linarith
    | inr heq => exact roundToBits_mono heq rfl hle

/-! ### Exponents -/

/-- A number whose exponent is too small. -/
def Underflows (q : ℚ) : Prop := q = 0 ∨ Int.log 2 |q| + 1 < minExp

theorem overflows_iff (hq : 0 < q) : maxExp < Int.log 2 q + 1 ↔ 2 ^ maxExp ≤ q := by
  rw [Int.lt_add_one_iff, ← Int.zpow_le_iff_le_log one_lt_two hq]
  norm_cast

/-- A number that is not too small is rounded and cut off at both ends. -/
theorem parseFloat_of_not_underflows (h : ¬ Underflows q) :
    parseFloat q = max (-2 ^ maxExp) (min (roundToBits q) (2 ^ maxExp)) := by
  have hinf : (0 : ℚ) < 2 ^ maxExp := zpow_pos (by norm_num) _
  unfold parseFloat
  unfold Underflows at h
  rw [if_neg h]
  dsimp only
  rw [not_or] at h
  cases (Ne.lt_or_gt h.1) with
  | inl hneg =>
    have hround := roundToBits_neg hneg
    have hover := overflows_iff (neg_pos.mpr hround)
    rw [if_neg hneg.not_gt, abs_of_neg hround, if_congr hover rfl rfl, min_eq_left (by linarith)]
    split
    · rw [max_eq_left (by linarith)]
    · rw [max_eq_right (by linarith)]
  | inr hpos =>
    have hround := roundToBits_pos hpos
    rw [if_pos hpos, abs_of_pos hround, if_congr (overflows_iff hround) rfl rfl]
    split
    · rw [min_eq_right (by linarith), max_eq_right (by linarith)]
    · rw [min_eq_left (by linarith), max_eq_right (by linarith)]

theorem parseFloat_of_underflows (h : Underflows q) : parseFloat q = 0 := by
  unfold parseFloat
  exact if_pos h

theorem Underflows.of_le (h : Underflows q') (hq : 0 < q) (hle : q ≤ q') :
    Underflows q := by
  cases h with
  | inl hzero => exact absurd (hq.trans_le hle) (hzero ▸ lt_irrefl _)
  | inr hlog =>
    have hmono : Int.log 2 |q| ≤ Int.log 2 |q'| := by
      rw [abs_of_pos hq, abs_of_pos (hq.trans_le hle)]
      exact Int.log_mono_right hq hle
    exact .inr (by omega)

theorem Underflows.neg (h : Underflows q) : Underflows (-q) := by
  unfold Underflows at h ⊢
  rw [neg_eq_zero, abs_neg]
  exact h

/-- **Reading a number keeps the order.** -/
theorem monotone_parseFloat : Monotone parseFloat := by
  intro q q' hle
  have hinf : (0 : ℚ) < 2 ^ maxExp := zpow_pos (by norm_num) _
  by_cases hq : Underflows q
  · rw [parseFloat_of_underflows hq]
    by_cases hq' : Underflows q'
    · rw [parseFloat_of_underflows hq']
    · rw [parseFloat_of_not_underflows hq']
      apply le_max_of_le_right
      apply le_min _ hinf.le
      apply (roundToBits_pos _).le
      refine lt_of_le_of_ne ?_ fun hzero => hq' (.inl hzero.symm)
      by_contra hneg
      have hneg' := hq.neg.of_le (q := -q') (by linarith) (by linarith)
      exact hq' (neg_neg q' ▸ hneg'.neg)
  · rw [parseFloat_of_not_underflows hq]
    by_cases hq' : Underflows q'
    · rw [parseFloat_of_underflows hq']
      apply max_le (by linarith)
      apply min_le_of_left_le
      apply (roundToBits_neg _).le
      refine lt_of_le_of_ne ?_ fun hzero => hq (.inl hzero)
      by_contra hpos
      exact hq (hq'.of_le (not_le.mp hpos) hle)
    · rw [parseFloat_of_not_underflows hq']
      have hround := roundToBits_le_roundToBits (fun h => hq (.inl h)) (fun h => hq' (.inl h)) hle
      exact max_le_max le_rfl (min_le_min hround le_rfl)

theorem parseFloat_bounds (q : ℚ) : -2 ^ maxExp ≤ parseFloat q ∧ parseFloat q ≤ 2 ^ maxExp := by
  have hinf : (0 : ℚ) < 2 ^ maxExp := zpow_pos (by norm_num) _
  by_cases h : Underflows q
  · rw [parseFloat_of_underflows h]
    constructor <;> linarith
  · rw [parseFloat_of_not_underflows h]
    constructor
    · exact le_max_left _ _
    · apply max_le (by linarith)
      exact min_le_right _ _

end GoNavi.Sync
