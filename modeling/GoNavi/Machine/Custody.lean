import Mathlib.Data.List.Count
import Mathlib.Data.List.Basic

/-! # What threads have

Threads have things, which pass from one to the other: tokens, or locks that they hold.  `total`
counts how often a thing is had.  A step replaces one thread (`total_set`) or adds one
(`total_concat`), and **what is had once is had by one thread only** (`exclusive`). -/

namespace Custody

universe u v

variable {τ : Type u} {ι : Type v} [DecidableEq ι] {has : τ → List ι} {threads : List τ}
  {t t' : ℕ} {th th' : τ} {i : ι}

/-- How often the threads have a thing. -/
def total (has : τ → List ι) (threads : List τ) (i : ι) : ℕ := (threads.flatMap has).count i

theorem total_concat (threads : List τ) (th : τ) (i : ι) :
    total has (threads ++ [th]) i = total has threads i + (has th).count i := by
  simp [total]

theorem total_cons (th : τ) (threads : List τ) (i : ι) :
    total has (th :: threads) i = (has th).count i + total has threads i := by
  simp [total]

variable (has) in
/-- What a thread had goes, what it has now comes; induction on the threads. -/
theorem total_set (h : threads[t]? = some th) (th' : τ) (i : ι) :
    total has (threads.set t th') i + (has th).count i =
      total has threads i + (has th').count i := by
  induction threads generalizing t with
  | nil => cases h
  | cons first rest ih =>
    cases t with
    | zero =>
      obtain rfl : first = th := Option.some.inj h
      rw [List.set_cons_zero, total_cons, total_cons]
      omega
    | succ t =>
      have hrest := ih h
      rw [List.set_cons_succ, total_cons, total_cons]
      omega

theorem count_le_total (h : threads[t]? = some th) : (has th).count i ≤ total has threads i := by
  induction threads generalizing t with
  | nil => cases h
  | cons first rest ih =>
    rw [total_cons]
    cases t with
    | zero =>
      obtain rfl : first = th := Option.some.inj h
      omega
    | succ t =>
      have hrest := ih h
      omega

/-- Two threads have no more than all have; induction on the threads. -/
theorem count_add_count_le_total (hne : t ≠ t') (h : threads[t]? = some th)
    (h' : threads[t']? = some th') :
    (has th).count i + (has th').count i ≤ total has threads i := by
  induction threads generalizing t t' with
  | nil => cases h
  | cons first rest ih =>
    rw [total_cons]
    cases t with
    | zero =>
      obtain rfl : first = th := Option.some.inj h
      cases t' with
      | zero => exact absurd rfl hne
      | succ t' =>
        have hrest : (has th').count i ≤ total has rest i := count_le_total h'
        omega
    | succ t =>
      cases t' with
      | zero =>
        obtain rfl : first = th' := Option.some.inj h'
        have hrest : (has th).count i ≤ total has rest i := count_le_total h
        omega
      | succ t' =>
        have hrest := ih (fun heq => hne (congrArg _ heq)) h h'
        omega

/-- **What is had once at most is had by no other thread.** -/
theorem exclusive (hone : total has threads i ≤ 1) (hne : t ≠ t') (h : threads[t]? = some th)
    (hi : i ∈ has th) (h' : threads[t']? = some th') : i ∉ has th' := by
  intro hi'
  have hsum : (has th).count i + (has th').count i ≤ total has threads i :=
    count_add_count_le_total hne h h'
  have hth : 0 < (has th).count i := List.count_pos_iff.mpr hi
  have hth' : 0 < (has th').count i := List.count_pos_iff.mpr hi'
  omega

theorem total_eq_zero : total has threads i = 0 ↔ ∀ th ∈ threads, i ∉ has th := by
  unfold total
  rw [List.count_eq_zero]
  simp

end Custody
