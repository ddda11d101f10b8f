/-! # Fallible computations

What the success of a sequence of computations in `Except` says about its parts. -/

namespace Fallible

universe u v w

variable {ε ε' : Type u} {α : Type v} {β : Type v}

theorem bind_eq_ok {x : Except ε α} {f : α → Except ε β} {b : β} :
    x >>= f = .ok b ↔ ∃ a, x = .ok a ∧ f a = .ok b := by
  cases x with
  | error e => simp [bind, Except.bind]
  | ok a => simp [bind, Except.bind]

theorem ok_bind (a : α) (f : α → Except ε β) : (Except.ok a >>= f) = f a := rfl

@[simp] theorem pure_eq_ok {a b : α} : (pure a : Except ε α) = .ok b ↔ a = b := by
  simp [pure, Except.pure]

@[simp] theorem throw_ne_ok {e : ε} {b : α} : (throw e : Except ε α) ≠ .ok b :=
  nofun

theorem mapError_eq_ok {x : Except ε α} {f : ε → ε'} {a : α} :
    x.mapError f = .ok a ↔ x = .ok a := by
  cases x with
  | error err =>
    constructor
    · intro h
      cases h
    · intro h
      cases h
  | ok b =>
    constructor
    · intro h
      cases h
      rfl
    · intro h
      cases h
      rfl

/-- Stop with an error in a bad case. -/
def refuseIf (bad : Prop) [Decidable bad] (err : ε) : Except ε Unit :=
  if bad then throw err else pure ()

theorem refuseIf_eq_ok {bad : Prop} [Decidable bad] {err : ε} {done : Unit} :
    refuseIf bad err = .ok done ↔ ¬ bad := by
  unfold refuseIf
  split <;> simp_all

/-- A change of a state that is made as a whole or, when it fails or is made to fail, not at
all. -/
def attempt {σ : Type w} (fails : Option ε) (operation : σ → Except ε (α × σ)) (s : σ) :
    Except ε α × σ :=
  match fails with
  | some err => (.error err, s)
  | none =>
    match operation s with
    | .ok (result, s') => (.ok result, s')
    | .error err => (.error err, s)

theorem attempt_ok {σ : Type w} {fails : Option ε} {operation : σ → Except ε (α × σ)} {s : σ}
    {result : α} (h : (attempt fails operation s).1 = .ok result) :
    operation s = .ok (result, (attempt fails operation s).2) := by
  unfold attempt at h ⊢
  split at h
  · cases h
  · split at h
    · cases h
      assumption
    · cases h

/-- An attempt leaves the state as it is, or makes the change. -/
theorem attempt_cases {σ : Type w} (fails : Option ε) (operation : σ → Except ε (α × σ)) (s : σ) :
    (attempt fails operation s).2 = s ∨
      ∃ result, (attempt fails operation s).1 = .ok result ∧
        operation s = .ok (result, (attempt fails operation s).2) := by
  cases h : (attempt fails operation s).1 with
  | ok result => exact .inr ⟨result, rfl, attempt_ok h⟩
  | error err =>
    left
    unfold attempt at h ⊢
    split at h
    · rfl
    · split at h
      · cases h
      · rfl

end Fallible
