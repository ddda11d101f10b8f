import GoNavi.Scan.Text
import Mathlib.Algebra.Order.Ring.Int
import Mathlib.Data.Nat.Cast.Order.Basic
import Mathlib.Tactic.Ring

/-! # Waiting after failures

`continuousFailureBackoff` doubles the wait with every failure in a row, up to five minutes, and
adds up to a fifth of it, by a hash of the job, the run and the number of failures, so that jobs
that fail together do not start together.

**The wait is at least the doubled one, never above the maximum, and no shorter after one more
failure** (`continuousFailureBackoff_paced`), whatever the identifiers; the machine's arithmetic is
exact at every number of failures. -/

namespace GoNavi.Syncjob

open Scan

/-! ### The hash -/

/-- What `fnv.New64a` makes of the bytes written to it. -/
def fnv64a (t : Text) : UInt64 :=
  t.foldl (fun hash c => (hash ^^^ c.toUInt64) * 1099511628211) 14695981039346656037

/-- The hash of a failure: `byte(consecutiveFailures)` keeps the lowest eight bits. -/
def failureHash (jobID latestRunID : Text) (consecutiveFailures : ℕ) : UInt64 :=
  fnv64a (jobID ++ [0] ++ latestRunID ++ [0, UInt8.ofNat consecutiveFailures])

/-! ### The wait -/

/-- `5 * time.Second`, in nanoseconds. -/
def continuousFailureBackoffInitial : ℤ := 5000000000

/-- `5 * time.Minute`. -/
def continuousFailureBackoffMaximum : ℤ := 300000000000

/-- What `time.Duration`, an `int64`, holds of a number. -/
def duration (n : ℤ) : ℤ := n.bmod (2 ^ 64)

/-- The loop over the attempts that are left; `fit` is what a duration holds of a number. -/
def doubled (fit : ℤ → ℤ) : ℕ → ℤ → ℤ
  | 0, base => base
  | attempts + 1, base =>
    if base < continuousFailureBackoffMaximum then
      if base > continuousFailureBackoffMaximum / 2 then continuousFailureBackoffMaximum
      else doubled fit attempts (fit (base * 2))
    else base

/-- `continuousFailureBackoff`, in the arithmetic that `fit` stands for. -/
def backoffIn (fit : ℤ → ℤ) (jobID latestRunID : Text) (consecutiveFailures : ℕ) : ℤ :=
  if consecutiveFailures < 1 then 0
  else
    let base := doubled fit (consecutiveFailures - 1) continuousFailureBackoffInitial
    if base ≥ continuousFailureBackoffMaximum then continuousFailureBackoffMaximum
    else
      let jitterRoom := base / 5
      let remaining := fit (continuousFailureBackoffMaximum - base)
      let jitterRoom := if jitterRoom > remaining then remaining else jitterRoom
      if jitterRoom ≤ 0 then base
      else
        let hash := (failureHash jobID latestRunID consecutiveFailures).toNat
        let jitter := fit (hash % (jitterRoom.toNat + 1) : ℕ)
        fit (base + jitter)

def continuousFailureBackoff (jobID latestRunID : Text) (consecutiveFailures : ℕ) : ℤ :=
  backoffIn duration jobID latestRunID consecutiveFailures

/-! ### The doubled wait -/

/-- An arithmetic that is exact up to twice the longest wait. -/
def Exact (fit : ℤ → ℤ) : Prop :=
  ∀ n, 0 ≤ n → n ≤ 2 * continuousFailureBackoffMaximum → fit n = n

theorem exact_duration : Exact duration := by
  intro n hlow hhigh
  unfold continuousFailureBackoffMaximum at hhigh
  unfold duration
  apply Int.bmod_eq_of_le <;> omega

theorem exact_id : Exact id := fun _ _ _ => rfl

variable {fit : ℤ → ℤ} {base : ℤ}

theorem doubled_eq (hfit : Exact fit) (attempts : ℕ) (hpos : 0 < base)
    (hmax : base ≤ continuousFailureBackoffMaximum) :
    doubled fit attempts base = min (base * 2 ^ attempts) continuousFailureBackoffMaximum := by
  induction attempts generalizing base with
  | zero => simpa [doubled] using hmax
  | succ attempts ih =>
    have hpow : base * 2 ^ (attempts + 1) = base * 2 * 2 ^ attempts := by ring
    have hgrow : base * 2 ≤ base * 2 ^ (attempts + 1) := by
      rw [hpow]
      exact le_mul_of_one_le_right (by omega) (one_le_pow₀ (by omega))
    unfold doubled
    unfold continuousFailureBackoffMaximum at hmax ih ⊢
    by_cases hbelow : base < 300000000000
    · rw [if_pos hbelow]
      by_cases hhalf : base > 300000000000 / 2
      · rw [if_pos hhalf, min_eq_right (by omega)]
      · have hexact : fit (base * 2) = base * 2 := by
          apply hfit <;> unfold continuousFailureBackoffMaximum at * <;> omega
        rw [if_neg hhalf, hexact, ih (by omega) (by omega), hpow]
    · rw [if_neg hbelow, min_eq_right (by omega)]
      omega

/-- The wait after `failures + 1` failures in a row, before the jitter. -/
def doubledWait (failures : ℕ) : ℤ :=
  min (continuousFailureBackoffInitial * 2 ^ failures) continuousFailureBackoffMaximum

theorem doubledWait_pos (failures : ℕ) : 0 < doubledWait failures := by
  have hpow : (0 : ℤ) < 2 ^ failures := pow_pos (by omega) failures
  unfold doubledWait continuousFailureBackoffInitial continuousFailureBackoffMaximum
  omega

theorem doubledWait_le (failures : ℕ) : doubledWait failures ≤ continuousFailureBackoffMaximum :=
  min_le_right _ _

/-- One more failure doubles the wait, unless the maximum is reached. -/
theorem doubledWait_succ (failures : ℕ) :
    doubledWait (failures + 1) =
      min (doubledWait failures * 2) continuousFailureBackoffMaximum := by
  have hpow : (2 : ℤ) ^ (failures + 1) = 2 ^ failures * 2 := pow_succ 2 failures
  unfold doubledWait continuousFailureBackoffInitial continuousFailureBackoffMaximum
  rw [hpow]
  omega

theorem doubledWait_mono (failures more : ℕ) :
    doubledWait failures ≤ doubledWait (failures + more) := by
  induction more with
  | zero => exact le_rfl
  | succ more ih =>
    have hpos := doubledWait_pos (failures + more)
    have hle := doubledWait_le (failures + more)
    rw [← Nat.add_assoc, doubledWait_succ]
    omega

/-! ### The jitter -/

/-- The longest jitter: a fifth of the wait, or what is left up to the maximum. -/
def room (failures : ℕ) : ℤ :=
  min (doubledWait failures / 5) (continuousFailureBackoffMaximum - doubledWait failures)

theorem room_nonneg (failures : ℕ) : 0 ≤ room failures := by
  have hpos := doubledWait_pos failures
  have hle := doubledWait_le failures
  unfold room
  omega

/-- The wait in an exact arithmetic. -/
theorem backoffIn_eq (hfit : Exact fit) (jobID latestRunID : Text) (failures : ℕ) :
    backoffIn fit jobID latestRunID (failures + 1) = doubledWait failures +
      ((failureHash jobID latestRunID (failures + 1)).toNat % ((room failures).toNat + 1) : ℕ) := by
  have hpos := doubledWait_pos failures
  have hle := doubledWait_le failures
  have hbase : doubled fit failures continuousFailureBackoffInitial = doubledWait failures :=
    doubled_eq hfit failures (by decide) (by decide)
  unfold backoffIn room
  rw [if_neg (by omega), Nat.add_sub_cancel, hbase]
  dsimp only
  generalize (failureHash jobID latestRunID (failures + 1)).toNat = hash
  generalize doubledWait failures = base at hpos hle ⊢
  by_cases hmax : base ≥ continuousFailureBackoffMaximum
  · have hnone : min (base / 5) (continuousFailureBackoffMaximum - base) = 0 := by omega
    rw [if_pos hmax, hnone, Int.toNat_zero, Nat.zero_add, Nat.mod_one]
    omega
  · have hroom : (if base / 5 > continuousFailureBackoffMaximum - base then
        continuousFailureBackoffMaximum - base else base / 5) =
        min (base / 5) (continuousFailureBackoffMaximum - base) := by
      split <;> omega
    rw [if_neg hmax, hfit (continuousFailureBackoffMaximum - base) (by omega) (by omega), hroom]
    generalize hr : min (base / 5) (continuousFailureBackoffMaximum - base) = room
    by_cases hnone : room ≤ 0
    · rw [if_pos hnone, Int.toNat_of_nonpos hnone, Nat.zero_add, Nat.mod_one]
      omega
    · have hlt : hash % (room.toNat + 1) < room.toNat + 1 := Nat.mod_lt _ (by omega)
      have hjitter := hfit (hash % (room.toNat + 1) : ℕ) (by omega) (by omega)
      rw [if_neg hnone, hjitter, hfit _ (by omega) (by omega)]

/-- The jitter is at most a fifth of the wait, and does not lead past the maximum. -/
theorem continuousFailureBackoff_between (jobID latestRunID : Text) (failures : ℕ) :
    doubledWait failures ≤ continuousFailureBackoff jobID latestRunID (failures + 1) ∧
      continuousFailureBackoff jobID latestRunID (failures + 1) ≤
        doubledWait failures + room failures := by
  have hroom := room_nonneg failures
  have hlt := Nat.mod_lt (failureHash jobID latestRunID (failures + 1)).toNat
    (Nat.succ_pos (room failures).toNat)
  unfold continuousFailureBackoff
  rw [backoffIn_eq exact_duration]
  generalize (failureHash jobID latestRunID (failures + 1)).toNat %
    ((room failures).toNat + 1) = jitter at hlt ⊢
  omega

/-- The bounds of the wait after `failures + 1` failures in a row, in nanoseconds; that it does
not shrink with more failures, whatever the identifiers; and that no operation on durations leaves
what an `int64` holds. -/
theorem continuousFailureBackoff_paced (jobID latestRunID : Text) (failures : ℕ) :
    min (5000000000 * 2 ^ failures) 300000000000 ≤
        continuousFailureBackoff jobID latestRunID (failures + 1) ∧
      continuousFailureBackoff jobID latestRunID (failures + 1) ≤ 300000000000 ∧
      (∀ (jobID' latestRunID' : Text) (more : ℕ),
        continuousFailureBackoff jobID latestRunID (failures + 1) ≤
          continuousFailureBackoff jobID' latestRunID' (failures + 1 + (more + 1))) ∧
      continuousFailureBackoff jobID latestRunID (failures + 1) =
        backoffIn id jobID latestRunID (failures + 1) := by
  have hpos := doubledWait_pos failures
  have hhere := continuousFailureBackoff_between jobID latestRunID failures
  have hlong : room failures ≤ continuousFailureBackoffMaximum - doubledWait failures :=
    min_le_right _ _
  refine ⟨hhere.1, ?_, ?_, ?_⟩
  · have hmax : continuousFailureBackoffMaximum = 300000000000 := rfl
    omega
  · intro jobID' latestRunID' more
    have hthere := continuousFailureBackoff_between jobID' latestRunID' (failures + 1 + more)
    have hmono := doubledWait_mono (failures + 1) more
    have hsucc := doubledWait_succ failures
    have hfifth : room failures ≤ doubledWait failures / 5 := min_le_left _ _
    rw [← Nat.add_assoc]
    omega
  · unfold continuousFailureBackoff
    rw [backoffIn_eq exact_duration, backoffIn_eq exact_id]

end GoNavi.Syncjob
