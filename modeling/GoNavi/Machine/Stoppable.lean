import Mathlib.Data.List.Basic

/-! # Computations that stop early

A computation changes a state and goes on or stops early with a reason.  `andThen` goes on with
the next part unless the first has stopped, `forEach` does the same over a list.  The rules say
what holds of the state at the end when it went on (`Q`) and when it stopped (`E`). -/

namespace Stoppable

universe u v w

variable {σ : Type u} {ε : Type v} {α : Type w}

/-- Go on with the next part unless the first has stopped. -/
def andThen (r : σ × Option ε) (next : σ → σ × Option ε) : σ × Option ε :=
  match r.2 with
  | none => next r.1
  | some _ => r

/-- Do the same with each entry of a list, until one stops. -/
def forEach (body : α → σ → σ × Option ε) : List α → σ → σ × Option ε
  | [], s => (s, none)
  | a :: as, s => andThen (body a s) (forEach body as)

@[simp] theorem andThen_go (s : σ) (next : σ → σ × Option ε) :
    andThen (s, none) next = next s := rfl

@[simp] theorem andThen_stop (s : σ) (e : ε) (next : σ → σ × Option ε) :
    andThen (s, some e) next = (s, some e) := rfl

/-- What holds at the end: `Q` of a computation that went on, `E` of one that stopped. -/
def Ends (Q : σ → Prop) (E : ε → σ → Prop) (r : σ × Option ε) : Prop :=
  match r.2 with
  | none => Q r.1
  | some e => E e r.1

variable {P Q : σ → Prop} {E : ε → σ → Prop} {r : σ × Option ε}

@[simp] theorem ends_go (s : σ) : Ends Q E (s, (none : Option ε)) ↔ Q s := Iff.rfl

@[simp] theorem ends_stop (s : σ) (e : ε) : Ends Q E (s, some e) ↔ E e s := Iff.rfl

theorem Ends.andThen {next : σ → σ × Option ε} (h : Ends P E r)
    (hnext : ∀ s, P s → Ends Q E (next s)) : Ends Q E (andThen r next) := by
  obtain ⟨s, e⟩ := r
  cases e with
  | none => exact hnext s h
  | some e => exact h

/-- The rule of a loop: the invariant tells what is left of the list. -/
theorem Ends.forEach {b : α → σ → σ × Option ε} {I : List α → σ → Prop}
    (hbody : ∀ a as s, I (a :: as) s → Ends (I as) E (b a s)) :
    ∀ (as : List α) (s : σ), I as s → Ends (I []) E (forEach b as s)
  | [], _, h => h
  | a :: as, s, h => (hbody a as s h).andThen (Ends.forEach hbody as)

theorem Ends.ite {c : Prop} {_ : Decidable c} {r' : σ × Option ε} (h : c → Ends Q E r)
    (h' : ¬ c → Ends Q E r') : Ends Q E (if c then r else r') := by
  split
  · exact h ‹c›
  · exact h' ‹¬ c›

theorem Ends.mono {Q' : σ → Prop} {E' : ε → σ → Prop} (h : Ends Q E r) (hQ : ∀ s, Q s → Q' s)
    (hE : ∀ e s, E e s → E' e s) : Ends Q' E' r := by
  obtain ⟨s, e⟩ := r
  cases e with
  | none => exact hQ s h
  | some e => exact hE e s h

end Stoppable
