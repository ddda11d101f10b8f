import Mathlib.Data.List.Basic

/-! # Machines

A machine performs actions one after the other; an action that is refused leaves the state as
it is.  `run` performs a list of actions.  What one step preserves, a run preserves
(`run_induction`), also when the steps meet a condition on the state in front of them
(`Along`).  `Throughout` says of a relation that it holds across every step of a run. -/

namespace Machine

universe u v

variable {σ : Type u} {α : Type v}

/-- The state after a list of actions. -/
def run (step : σ → α → σ) : σ → List α → σ
  | s, [] => s
  | s, a :: as => run step (step s a) as

/-- The condition holds in front of every action of the run. -/
def Along (step : σ → α → σ) (C : σ → α → Prop) : σ → List α → Prop
  | _, [] => True
  | s, a :: as => C s a ∧ Along step C (step s a) as

/-- The relation holds across every step of the run. -/
def Throughout (step : σ → α → σ) (R : σ → α → σ → Prop) : σ → List α → Prop
  | _, [] => True
  | s, a :: as => R s a (step s a) ∧ Throughout step R (step s a) as

instance Along.decidable (step : σ → α → σ) (C : σ → α → Prop) [∀ s a, Decidable (C s a)] :
    ∀ (s : σ) (as : List α), Decidable (Along step C s as)
  | _, [] => .isTrue trivial
  | s, a :: as =>
    have := Along.decidable step C (step s a) as
    inferInstanceAs (Decidable (_ ∧ _))

variable {step : σ → α → σ} {C : σ → α → Prop} {P : σ → Prop}

@[simp] theorem run_nil (s : σ) : run step s [] = s := rfl

@[simp] theorem run_cons (s : σ) (a : α) (as : List α) :
    run step s (a :: as) = run step (step s a) as := rfl

theorem run_append : ∀ (s : σ) (as bs : List α),
    run step s (as ++ bs) = run step (run step s as) bs
  | _, [], _ => rfl
  | s, a :: as, bs => run_append (step s a) as bs

@[simp] theorem along_nil (s : σ) : Along step C s [] := trivial

/-- **The invariant rule**: what every step in the condition preserves, a run preserves. -/
theorem run_induction (hstep : ∀ s a, C s a → P s → P (step s a)) :
    ∀ {s : σ} {as : List α}, Along step C s as → P s → P (run step s as)
  | _, [], _, h => h
  | s, a :: _, ⟨hc, hcs⟩, h => run_induction (s := step s a) hstep hcs (hstep s a hc h)

theorem run_preserves (hstep : ∀ s a, P s → P (step s a)) {s : σ} :
    ∀ {as : List α}, P s → P (run step s as)
  | [], h => h
  | a :: _, h => run_preserves hstep (s := step s a) (hstep s a h)

variable {R : σ → α → σ → Prop}

/-- A relation that every step in the condition has, under an invariant, holds throughout. -/
theorem throughout_of_step (hstep : ∀ s a, C s a → P s → P (step s a))
    (hR : ∀ s a, C s a → P s → R s a (step s a)) :
    ∀ {s : σ} {as : List α}, Along step C s as → P s → Throughout step R s as
  | _, [], _, _ => trivial
  | s, a :: _, ⟨hc, hcs⟩, h =>
    ⟨hR s a hc h, throughout_of_step hstep hR hcs (hstep s a hc h)⟩

theorem throughout_append : ∀ {s : σ} {as bs : List α},
    Throughout step R s (as ++ bs) ↔
      Throughout step R s as ∧ Throughout step R (run step s as) bs
  | _, [], _ => by simp [Throughout]
  | s, a :: as, bs => by
    rw [List.cons_append, Throughout, Throughout, throughout_append (s := step s a), run_cons,
      and_assoc]

/-- Where the steps of an invariant have a relation exactly in a condition, a run has it
throughout exactly along that condition. -/
theorem throughout_iff_along (hstep : ∀ s a, P s → P (step s a))
    (hR : ∀ s a, P s → (R s a (step s a) ↔ C s a)) : ∀ {s : σ} {as : List α}, P s →
      (Throughout step R s as ↔ Along step C s as)
  | _, [], _ => Iff.rfl
  | s, a :: _, h => and_congr (hR s a h) (throughout_iff_along hstep hR (hstep s a h))

/-- Where, under an invariant, a step keeps a property exactly in a condition, the property holds
after every step of a run exactly along that condition. -/
theorem throughout_kept_iff {Q : σ → Prop} (hstep : ∀ s a, P s → P (step s a))
    (hQ : ∀ s a, P s → Q s → (Q (step s a) ↔ C s a)) : ∀ {s : σ} {as : List α}, P s → Q s →
      (Throughout step (fun _ _ s' => Q s') s as ↔ Along step C s as)
  | _, [], _, _ => Iff.rfl
  | s, a :: as, hp, hq => by
    constructor
    · rintro ⟨hkept, hrest⟩
      exact ⟨(hQ s a hp hq).mp hkept,
        (throughout_kept_iff hstep hQ (hstep s a hp) hkept).mp hrest⟩
    · rintro ⟨hc, hrest⟩
      have hkept : Q (step s a) := (hQ s a hp hq).mpr hc
      exact ⟨hkept, (throughout_kept_iff hstep hQ (hstep s a hp) hkept).mpr hrest⟩

/-- How many actions of a run hit. -/
def count (step : σ → α → σ) (hit : σ → α → Bool) : σ → List α → ℕ
  | _, [] => 0
  | s, a :: as => (if hit s a then 1 else 0) + count step hit (step s a) as

variable {hit : σ → α → Bool}

/-- In a state that stays closed to an action, no later action hits. -/
theorem count_eq_zero (hP : ∀ s a, P s → P (step s a)) (hmiss : ∀ s a, P s → hit s a = false) :
    ∀ {s : σ} {as : List α}, P s → count step hit s as = 0
  | _, [], _ => rfl
  | s, a :: _, h => by
    rw [count, hmiss s a h, count_eq_zero hP hmiss (hP s a h)]
    rfl

/-- **At most once**: an action that hits closes the state to every later one. -/
theorem count_le_one (hP : ∀ s a, P s → P (step s a)) (hmiss : ∀ s a, P s → hit s a = false)
    (hset : ∀ s a, hit s a = true → P (step s a)) :
    ∀ {s : σ} {as : List α}, count step hit s as ≤ 1
  | _, [] => Nat.zero_le 1
  | s, a :: as => by
    rw [count]
    split
    · rename_i h
      have hzero : count step hit (step s a) as = 0 := count_eq_zero hP hmiss (hset s a h)
      omega
    · rw [Nat.zero_add]
      exact count_le_one hP hmiss hset

theorem count_append : ∀ (s : σ) (as bs : List α),
    count step hit s (as ++ bs) = count step hit s as + count step hit (run step s as) bs
  | _, [], _ => (Nat.zero_add _).symm
  | s, a :: as, bs => by
    rw [List.cons_append, count, count, run_cons, count_append (step s a), Nat.add_assoc]

variable {adds takes : σ → α → Bool} {f : σ → ℕ}

/-- What every step takes was there or is added by the step: the same holds of a run. -/
theorem count_le {P : σ → Prop}
    (hP : ∀ s a, P s → P (step s a))
    (hlevel : ∀ s a, P s → f (step s a) + (if takes s a then 1 else 0) ≤
      f s + (if adds s a then 1 else 0)) :
    ∀ {s : σ} {as : List α}, P s →
      f (run step s as) + count step takes s as ≤ f s + count step adds s as
  | _, [], _ => Nat.le_refl _
  | s, a :: as, h => by
    have hrest : f (run step (step s a) as) + count step takes (step s a) as ≤
        f (step s a) + count step adds (step s a) as := count_le hP hlevel (hP s a h)
    have hstep := hlevel s a h
    rw [run_cons, count, count]
    omega

/-- **Conservation**: what every step adds and takes is what a run has added and taken. -/
theorem count_balance {P : σ → Prop}
    (hP : ∀ s a, P s → P (step s a))
    (hlevel : ∀ s a, P s → f (step s a) + (if takes s a then 1 else 0) =
      f s + (if adds s a then 1 else 0)) :
    ∀ {s : σ} {as : List α}, P s →
      f (run step s as) + count step takes s as = f s + count step adds s as
  | _, [], _ => rfl
  | s, a :: as, h => by
    have hrest : f (run step (step s a) as) + count step takes (step s a) as =
        f (step s a) + count step adds (step s a) as := count_balance hP hlevel (hP s a h)
    have hstep := hlevel s a h
    rw [run_cons, count, count]
    omega

/-- What every step in the condition raises, a run has raised. -/
theorem le_of_count (hstep : ∀ s a, C s a → f s + (if hit s a then 1 else 0) ≤ f (step s a)) :
    ∀ {s : σ} {as : List α}, Along step C s as → f s + count step hit s as ≤ f (run step s as)
  | _, [], _ => Nat.le_refl _
  | s, a :: as, ⟨hc, hcs⟩ => by
    have hrest : f (step s a) + count step hit (step s a) as ≤ f (run step (step s a) as) :=
      le_of_count hstep hcs
    have hfirst := hstep s a hc
    rw [run_cons, count]
    omega

theorem along_of_forall {D : α → Prop} : ∀ {s : σ} {as : List α}, (∀ a ∈ as, D a) →
    Along step (fun _ a => D a) s as
  | _, [], _ => trivial
  | _, a :: _, h => ⟨h a List.mem_cons_self, along_of_forall fun b hb =>
      h b (List.mem_cons_of_mem _ hb)⟩

end Machine
