import Mathlib.Data.List.Infix

/-! # Scanners over a list

A `Scanner` reads a list from left to right.  In a state `s`, in front of a symbol `c`
with `t` behind it, one `step` either stops or moves to a new state and to a suffix of
`t`: a step consumes the symbol it looks at, possibly more, and never gives anything back.
That last fact is a field of the structure, so a scanner always terminates: `run` gives it
as many steps as there are symbols, and `run_step` and `run_stop` are the equations of the
unbounded loop.

* `Reach` is the reflexive-transitive closure of `step` on pairs (state, unread part).
* `Reach.induction` is the invariant rule of the loop: what one step preserves, a run
  preserves.
* `Reach.run_eq` says that a run can be resumed at any pair it passes through.
* `run_simulation` relates the runs of two scanners that step together. -/

namespace Scan

open List

universe u v w

/-- A deterministic left-to-right scanner whose steps only consume. -/
structure Scanner (α : Type u) (σ : Type v) where
  /-- One step in front of a symbol and the symbols behind it; `none` stops the loop. -/
  step : σ → α → List α → Option (σ × List α)
  /-- What a step leaves unread is a suffix of what was behind the symbol. -/
  step_suffix : ∀ {s c t s' t'}, step s c t = some (s', t') → t' <:+ t

namespace Scanner

variable {α : Type u} {σ : Type v} (M : Scanner α σ)

/-- The loop, with a bound on the number of steps. -/
def drive : ℕ → σ → List α → σ × List α
  | 0, s, t => (s, t)
  | _ + 1, s, [] => (s, [])
  | n + 1, s, c :: t =>
    match M.step s c t with
    | none => (s, c :: t)
    | some (s', t') => drive n s' t'

/-- The loop on a whole list: final state and unread part. -/
def run (s : σ) (t : List α) : σ × List α := M.drive t.length s t

variable {M} {s s' : σ} {t t' : List α} {c : α}

theorem step_length (h : M.step s c t = some (s', t')) :
    t'.length ≤ t.length :=
  (M.step_suffix h).length_le

/-- Once the bound covers the list, it does not matter any more. -/
theorem drive_eq_of_le : ∀ {m n : ℕ} {s : σ} {t : List α}, t.length ≤ m → t.length ≤ n →
    M.drive m s t = M.drive n s t
  | 0, 0, _, _, _, _ => rfl
  | 0, _ + 1, _, [], _, _ => rfl
  | _ + 1, 0, _, [], _, _ => rfl
  | _ + 1, _ + 1, _, [], _, _ => rfl
  | m + 1, n + 1, s, c :: t, hm, hn => by
    cases h : M.step s c t with
    | none => simp only [drive, h]
    | some p =>
      obtain ⟨s', t'⟩ := p
      have ht := step_length h
      simp only [length_cons] at hm hn
      simp only [drive, h]
      exact drive_eq_of_le (by omega) (by omega)

@[simp] theorem run_nil (s : σ) : M.run s [] = (s, []) := rfl

theorem run_stop (h : M.step s c t = none) :
    M.run s (c :: t) = (s, c :: t) := by
  simp only [run, length_cons, drive, h]

theorem run_step (h : M.step s c t = some (s', t')) :
    M.run s (c :: t) = M.run s' t' := by
  simp only [run, length_cons, drive, h]
  exact drive_eq_of_le (step_length h) le_rfl

/-! ### Runs as a relation -/

variable (M) in
/-- `M.Reach s t s' t'`: from state `s` in front of `t` the loop passes through state `s'`
in front of `t'`. -/
inductive Reach (s : σ) (t : List α) : σ → List α → Prop where
  | refl : Reach s t s t
  | tail {s₁ s₂ : σ} {c : α} {t₁ t₂ : List α} :
      Reach s t s₁ (c :: t₁) → M.step s₁ c t₁ = some (s₂, t₂) → Reach s t s₂ t₂

variable {P : σ → List α → Prop}

namespace Reach

variable {s₀ s₁ s₂ : σ} {t₀ t₁ t₂ : List α}

theorem single (h : M.step s₀ c t₀ = some (s₁, t₁)) : M.Reach s₀ (c :: t₀) s₁ t₁ :=
  .tail .refl h

theorem trans (h₁ : M.Reach s₀ t₀ s₁ t₁) (h₂ : M.Reach s₁ t₁ s₂ t₂) : M.Reach s₀ t₀ s₂ t₂ := by
  induction h₂ with
  | refl => exact h₁
  | tail _ hstep ih => exact .tail ih hstep

theorem head (h : M.step s₀ c t₀ = some (s₁, t₁)) (h' : M.Reach s₁ t₁ s₂ t₂) :
    M.Reach s₀ (c :: t₀) s₂ t₂ :=
  (single h).trans h'

/-- A run stands at its start, or goes through its first step. -/
theorem cases_head (h : M.Reach s₀ t₀ s₁ t₁) :
    (s₁ = s₀ ∧ t₁ = t₀) ∨ ∃ c u s t, t₀ = c :: u ∧ M.step s₀ c u = some (s, t) ∧
      M.Reach s t s₁ t₁ := by
  induction h with
  | refl => exact .inl ⟨rfl, rfl⟩
  | tail _ hst ih =>
    rcases ih with ⟨rfl, rfl⟩ | ⟨c, u, s, t, ht, hs, hreach⟩
    · exact .inr ⟨_, _, _, _, rfl, hst, .refl⟩
    · exact .inr ⟨c, u, s, t, ht, hs, hreach.tail hst⟩

/-- The invariant rule: what every step preserves holds of every pair on the way. -/
theorem induction (hstep : ∀ {s c t s' t'}, P s (c :: t) → M.step s c t = some (s', t') → P s' t')
    (h : M.Reach s₀ t₀ s₁ t₁) (h₀ : P s₀ t₀) : P s₁ t₁ := by
  induction h with
  | refl => exact h₀
  | tail _ hst ih => exact hstep ih hst

theorem suffix (h : M.Reach s₀ t₀ s₁ t₁) : t₁ <:+ t₀ := by
  induction h with
  | refl => exact suffix_refl _
  | tail _ hstep ih =>
    exact ((M.step_suffix hstep).trans (suffix_cons _ _)).trans ih

theorem run_eq (h : M.Reach s₀ t₀ s₁ t₁) : M.run s₀ t₀ = M.run s₁ t₁ := by
  induction h with
  | refl => rfl
  | tail _ hstep ih => rw [ih, run_step hstep]

end Reach

theorem run_reach (s : σ) (t : List α) : M.Reach s t (M.run s t).1 (M.run s t).2 := by
  induction hn : t.length using Nat.strong_induction_on generalizing s t with
  | _ n ih =>
    cases t with
    | nil => exact .refl
    | cons c t =>
      cases h : M.step s c t with
      | none => rw [run_stop h]; exact .refl
      | some p =>
        obtain ⟨s', t'⟩ := p
        have ht := step_length h
        rw [run_step h]
        exact .head h (ih t'.length (by simp at hn; omega) s' t' rfl)

theorem drive_reach : ∀ (n : ℕ) (s : σ) (t : List α),
    M.Reach s t (M.drive n s t).1 (M.drive n s t).2
  | 0, _, _ => .refl
  | _ + 1, _, [] => .refl
  | n + 1, s, c :: t => by
    rw [drive]
    cases h : M.step s c t with
    | none => exact .refl
    | some p => exact .head h (drive_reach n p.1 p.2)

/-- A run that leaves something unread stands where the scanner stops. -/
theorem run_stuck {u : List α} (h : (M.run s t).2 = c :: u) :
    M.step (M.run s t).1 c u = none := by
  cases hst : M.step (M.run s t).1 c u with
  | none => rfl
  | some p =>
    obtain ⟨s', t'⟩ := p
    have hreach : M.Reach s t (M.run s t).1 (c :: u) := h ▸ run_reach s t
    have hrun := (hreach.tail hst).run_eq
    have hsuf := (run_reach (M := M) s' t').suffix.length_le
    rw [← hrun, h, length_cons] at hsuf
    exact absurd (step_length hst) (by omega)

theorem run_suffix (s : σ) (t : List α) : (M.run s t).2 <:+ t := (run_reach s t).suffix

theorem run_snd_eq_nil (hM : ∀ s c t, M.step s c t ≠ none) (s : σ) (t : List α) :
    (M.run s t).2 = [] := by
  cases h : (M.run s t).2 with
  | nil => rfl
  | cons c u => exact absurd (run_stuck h) (hM _ _ _)

theorem run_induction
    (hstep : ∀ {s c t s' t'}, P s (c :: t) → M.step s c t = some (s', t') → P s' t') (h₀ : P s t) :
    P (M.run s t).1 (M.run s t).2 :=
  (run_reach s t).induction hstep h₀

/-! ### Checking a run -/

/-- A test in front of every symbol at which the loop looks, with a bound on the number of
steps. -/
def checkFrom (M : Scanner α σ) (p : σ → α → List α → Bool) : ℕ → σ → List α → Bool
  | 0, _, _ => true
  | _ + 1, _, [] => true
  | n + 1, s, c :: t =>
    p s c t &&
      match M.step s c t with
      | none => true
      | some (s', t') => checkFrom M p n s' t'

/-- A test in front of every symbol at which the loop looks. -/
def check (M : Scanner α σ) (p : σ → α → List α → Bool) (s : σ) (t : List α) : Bool :=
  M.checkFrom p t.length s t

variable {p : σ → α → List α → Bool}

theorem checkFrom_iff : ∀ {n : ℕ} {s : σ} {t : List α}, t.length ≤ n →
    (M.checkFrom p n s t = true ↔ ∀ s' c u, M.Reach s t s' (c :: u) → p s' c u = true)
  | 0, s, [], _ => by
    refine iff_of_true rfl fun s' c u h => ?_
    exact absurd h.suffix.length_le (by simp)
  | n + 1, s, [], _ => by
    refine iff_of_true rfl fun s' c u h => ?_
    exact absurd h.suffix.length_le (by simp)
  | n + 1, s, d :: t, hn => by
    rw [checkFrom, Bool.and_eq_true]
    have hhead : (∀ s' c u, M.Reach s (d :: t) s' (c :: u) → p s' c u = true) ↔
        p s d t = true ∧ ∀ s₁ t₁, M.step s d t = some (s₁, t₁) →
          ∀ s' c u, M.Reach s₁ t₁ s' (c :: u) → p s' c u = true := by
      constructor
      · exact fun h => ⟨h _ _ _ .refl, fun _ _ hst _ _ _ hr => h _ _ _ (.head hst hr)⟩
      · rintro ⟨h₀, h₁⟩ s' c u hr
        rcases hr.cases_head with ⟨rfl, hu⟩ | ⟨_, _, s₁, t₁, hd, hst, hr⟩
        · cases hu
          exact h₀
        · cases hd
          exact h₁ s₁ t₁ hst _ _ _ hr
    rw [hhead]
    refine and_congr_right fun _ => ?_
    cases hst : M.step s d t with
    | none => simp
    | some q =>
      obtain ⟨s₁, t₁⟩ := q
      have hlen := step_length hst
      rw [length_cons] at hn
      rw [checkFrom_iff (show t₁.length ≤ n by omega)]
      constructor
      · rintro h _ _ hq
        cases hq
        exact h
      · exact fun h => h _ _ rfl

/-- The test says what every pair satisfies that a run passes through. -/
theorem check_iff :
    M.check p s t = true ↔ ∀ s' c u, M.Reach s t s' (c :: u) → p s' c u = true :=
  checkFrom_iff le_rfl

/-- Every position of the list that the run has passed lies in some step. -/
theorem exists_step_over {u : List α} (hu : u <:+ t) (hrest : (M.run s t).2.length < u.length) :
    ∃ s₁ c t₁ s₂ t₂, M.Reach s t s₁ (c :: t₁) ∧ M.step s₁ c t₁ = some (s₂, t₂) ∧
      u.length ≤ (c :: t₁).length ∧ t₂.length < u.length := by
  induction hn : t.length using Nat.strong_induction_on generalizing s t with
  | _ n ih =>
    cases t with
    | nil =>
      have hle := hu.length_le
      rw [run_nil] at hrest
      exact absurd hrest (by simpa using hle)
    | cons c t =>
      cases hst : M.step s c t with
      | none =>
        rw [run_stop hst] at hrest
        exact absurd hu.length_le (Nat.not_le.mpr hrest)
      | some p =>
        obtain ⟨s', t'⟩ := p
        rcases Nat.lt_or_ge t'.length u.length with hlt | hge
        · exact ⟨s, c, t, s', t', .refl, hst, hu.length_le, hlt⟩
        · have hsuf : t' <:+ c :: t := (M.step_suffix hst).trans (suffix_cons _ _)
          have hu' : u <:+ t' := suffix_of_suffix_length_le hu hsuf hge
          have hlen := step_length hst
          rw [run_step hst] at hrest
          obtain ⟨s₁, d, t₁, s₂, t₂, hreach, hstep, hle, hlt⟩ :=
            ih t'.length (by simp at hn; omega) hu' hrest rfl
          exact ⟨s₁, d, t₁, s₂, t₂, .head hst hreach, hstep, hle, hlt⟩

/-- A run that stops inside a list stops there in a longer list, if its steps and the stop do
not look at the end of the list. -/
theorem run_append {r : List α}
    (hstep : ∀ {s c t s' t'}, M.step s c t = some (s', t') → t' ≠ [] →
      M.step s c (t ++ r) = some (s', t' ++ r))
    (hne : (M.run s t).2 ≠ [])
    (hstop : ∀ c u, (M.run s t).2 = c :: u → M.step (M.run s t).1 c (u ++ r) = none) :
    M.run s (t ++ r) = ((M.run s t).1, (M.run s t).2 ++ r) := by
  have hreach : M.Reach s (t ++ r) (M.run s t).1 ((M.run s t).2 ++ r) := by
    have hrun := run_reach (M := M) s t
    revert hne hrun
    generalize (M.run s t).1 = s', (M.run s t).2 = t'
    intro hne hrun
    induction hrun with
    | refl => exact .refl
    | tail hr hst ih => exact .tail (ih (by simp)) (hstep hst hne)
  rw [hreach.run_eq]
  cases hrest : (M.run s t).2 with
  | nil => exact absurd hrest hne
  | cons c u => exact run_stop (hstop c u hrest)

/-! ### Simulation -/

section Simulation

variable {τ : Type w} {N : Scanner α τ} {R : σ → τ → List α → Prop}

/-- If every step of one scanner is answered by a step of another one over the same part of
the list, then so is every run. -/
theorem Reach.simulate
    (hstep : ∀ {s r c t s' t'}, R s r (c :: t) → M.step s c t = some (s', t') →
      ∃ r', N.step r c t = some (r', t') ∧ R s' r' t')
    {s₀ s₁ : σ} {r₀ : τ} {t₀ t₁ : List α} (h : M.Reach s₀ t₀ s₁ t₁) (h₀ : R s₀ r₀ t₀) :
    ∃ r₁, N.Reach r₀ t₀ r₁ t₁ ∧ R s₁ r₁ t₁ := by
  induction h with
  | refl => exact ⟨r₀, .refl, h₀⟩
  | tail _ hst ih =>
    obtain ⟨r, hr, hR⟩ := ih
    obtain ⟨r', hr', hR'⟩ := hstep hR hst
    exact ⟨r', .tail hr hr', hR'⟩

/-- Two scanners that start related, step to related states over the same part of the
list and stop together have related runs. -/
theorem run_simulation
    (hstep : ∀ {s r c t s' t'}, R s r (c :: t) → M.step s c t = some (s', t') →
      ∃ r', N.step r c t = some (r', t') ∧ R s' r' t')
    (hstop : ∀ {s r c t}, R s r (c :: t) → M.step s c t = none → N.step r c t = none) {r : τ}
    (h : R s r t) :
    (N.run r t).2 = (M.run s t).2 ∧ R (M.run s t).1 (N.run r t).1 (M.run s t).2 := by
  obtain ⟨r', hreach, hR⟩ := (run_reach s t).simulate hstep h
  have hrun : N.run r t = (r', (M.run s t).2) := by
    rw [hreach.run_eq]
    cases hrest : (M.run s t).2 with
    | nil => rfl
    | cons c u => exact run_stop (hstop (hrest ▸ hR) (run_stuck hrest))
  rw [hrun]
  exact ⟨rfl, hR⟩

/-- Where the steps of a scanner are the images of those of another one, so are its runs. -/
theorem run_image (ι : σ → τ)
    (hstep : ∀ s c t, N.step (ι s) c t = (M.step s c t).map fun p => (ι p.1, p.2)) (s : σ)
    (t : List α) : N.run (ι s) t = (ι (M.run s t).1, (M.run s t).2) := by
  have hsim := run_simulation (M := M) (N := N) (R := fun s r _ => r = ι s) (s := s) (t := t)
    ?_ ?_ rfl
  · exact Prod.ext hsim.2 hsim.1
  · rintro s _ c t s' t' rfl h
    exact ⟨ι s', by rw [hstep, h]; rfl, rfl⟩
  · rintro s _ c t rfl h
    rw [hstep, h]
    rfl

theorem reach_image (ι : σ → τ)
    (hstep : ∀ s c t, N.step (ι s) c t = (M.step s c t).map fun p => (ι p.1, p.2)) {s : σ}
    {r : τ} {t u : List α} (h : N.Reach (ι s) t r u) : ∃ s', r = ι s' ∧ M.Reach s t s' u := by
  have hsim := h.simulate (N := M) (R := fun r s _ => r = ι s) ?_ rfl
  · obtain ⟨s', hreach, hr⟩ := hsim
    exact ⟨s', hr, hreach⟩
  · rintro _ s c t r' t' rfl h'
    rw [hstep] at h'
    obtain ⟨p, hp, h'⟩ := Option.map_eq_some_iff.mp h'
    cases h'
    exact ⟨p.1, hp, rfl⟩

end Simulation

/-! ### Stopping early -/

/-- The scanner that also stops where `stop` holds. -/
def stopAt (M : Scanner α σ) (stop : σ → α → List α → Bool) : Scanner α σ where
  step s c t := if stop s c t then none else M.step s c t
  step_suffix := by
    intro s c t s' t' h
    split_ifs at h
    exact M.step_suffix h

variable {stop : σ → α → List α → Bool}

theorem stopAt_step (h : (M.stopAt stop).step s c t = some (s', t')) :
    stop s c t = false ∧ M.step s c t = some (s', t') := by
  simp only [stopAt] at h
  split_ifs at h with hstop
  exact ⟨by simpa using hstop, h⟩

/-- Up to the place where it stops early, the scanner runs as before. -/
theorem reach_of_stopAt {s₀ s₁ : σ} {t₀ t₁ : List α} (h : (M.stopAt stop).Reach s₀ t₀ s₁ t₁) :
    M.Reach s₀ t₀ s₁ t₁ := by
  induction h with
  | refl => exact .refl
  | tail _ hst ih => exact .tail ih (stopAt_step hst).2

end Scanner

end Scan
