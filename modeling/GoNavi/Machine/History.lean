import GoNavi.Machine.Program
import Mathlib.Data.List.Induction

/-! # Histories of requests

The requests that callers have been served, in order, are a history; the shared state is what the
history makes of the first state.  A `Promise` says of a request whether it may follow a history.
A program keeps a promise when every request it asks does, however the others, who keep the
promise as well, have gone on meanwhile (`Keeps`).

**What every program keeps, the history of all callers keeps** (`kept_served`), however their
requests interleave and wherever they stop. -/

universe u v w

namespace Callers

open List

variable {σ ξ κ : Type*} {ρ : Type u} {ans : ρ → Type v} {α : Type w}

/-- A request with what came from outside. -/
abbrev Action (ρ : Type u) (ξ : Type*) := (_ : ρ) × ξ

section histories

variable (serve : σ → (r : ρ) → ξ → ans r × σ)

/-- The state behind a history. -/
def stateOf (s₀ : σ) (h : List (Action ρ ξ)) : σ :=
  Machine.run (fun s a => (serve s a.1 a.2).2) s₀ h

theorem stateOf_append (s₀ : σ) (h : List (Action ρ ξ)) (a : Action ρ ξ) :
    stateOf serve s₀ (h ++ [a]) = (serve (stateOf serve s₀ h) a.1 a.2).2 := by
  unfold stateOf
  rw [Machine.run_append, Machine.run_cons, Machine.run_nil]

/-- What may follow a history. -/
abbrev Promise (ρ : Type u) (ξ : Type*) := List (Action ρ ξ) → Action ρ ξ → Prop

/-- Every request of the history keeps the promise. -/
def Kept (G : Promise ρ ξ) (h : List (Action ρ ξ)) : Prop :=
  ∀ before a after, h = before ++ a :: after → G before a

/-- The program keeps the promise behind a history, when it goes on later. -/
def Keeps (s₀ : σ) (G : Promise ρ ξ) : Program ρ ans α → List (Action ρ ξ) → Prop
  | .ret _, _ => True
  | .ask r next, h => ∀ more x, Kept G (h ++ more) →
      G (h ++ more) ⟨r, x⟩ ∧
        Keeps s₀ G (next (serve (stateOf serve s₀ (h ++ more)) r x).1) (h ++ more ++ [⟨r, x⟩])

variable {serve} {s₀ : σ} {G : Promise ρ ξ}

theorem kept_nil : Kept G [] := by
  intro before a after hsplit
  cases before <;> cases hsplit

theorem Kept.append {h : List (Action ρ ξ)} {a : Action ρ ξ} (hkept : Kept G h) (ha : G h a) :
    Kept G (h ++ [a]) := by
  intro before b after hsplit
  cases after using List.reverseRecOn with
  | nil =>
    obtain ⟨rfl, hb⟩ := append_inj' hsplit rfl
    cases hb
    exact ha
  | append_singleton after c =>
    rw [← cons_append, ← append_assoc] at hsplit
    obtain ⟨rfl, _⟩ := append_inj' hsplit rfl
    exact hkept before b after rfl

theorem Kept.front {h more : List (Action ρ ξ)} (hkept : Kept G (h ++ more)) : Kept G h := by
  intro before a after hsplit
  refine hkept before a (after ++ more) ?_
  rw [hsplit, append_assoc, cons_append]

/-- What every request that keeps the promise preserves holds behind a history; induction on the
history from its end. -/
theorem Kept.invariant {P : σ → Prop} {h : List (Action ρ ξ)} (hkept : Kept G h) (h₀ : P s₀)
    (hstep : ∀ before a, G before a → P (stateOf serve s₀ before) →
      P (serve (stateOf serve s₀ before) a.1 a.2).2) : P (stateOf serve s₀ h) := by
  induction h using List.reverseRecOn with
  | nil => exact h₀
  | append_singleton h a ih =>
    rw [stateOf_append]
    exact hstep h a (hkept h a [] rfl) (ih hkept.front)

/-- A program that waits keeps the promise behind a longer history. -/
theorem Keeps.later {p : Program ρ ans α} {h : List (Action ρ ξ)} (hp : Keeps serve s₀ G p h)
    (more : List (Action ρ ξ)) : Keeps serve s₀ G p (h ++ more) := by
  cases p with
  | ret a => trivial
  | ask r next =>
    intro later x hkept
    rw [append_assoc] at hkept ⊢
    exact hp (more ++ later) x hkept

variable {main : κ → Program ρ ans α}

/-- **What every program keeps, the history of all callers keeps.** -/
theorem kept_served (hmain : ∀ k h, Kept G h → Keeps serve s₀ G (main k) h)
    (moves : List (Move κ ξ)) : Kept G (served serve main ⟨s₀, []⟩ moves) := by
  have hrun : ∀ (moves : List (Move κ ξ)) (c : Config σ ρ ans α) (h : List (Action ρ ξ)),
      c.state = stateOf serve s₀ h → Kept G h → (∀ p ∈ c.callers, Keeps serve s₀ G p h) →
      Kept G (h ++ served serve main c moves) := by
    intro moves
    induction moves with
    | nil =>
      intro c h _ hkept _
      rw [served, append_nil]
      exact hkept
    | cons move moves ih =>
      intro c h hstate hkept hcallers
      rw [served]
      cases move with
      | start k =>
        refine ih _ h hstate hkept ?_
        intro p hp
        cases mem_append.mp hp with
        | inl hold => exact hcallers p hold
        | inr hnew =>
          rw [mem_singleton] at hnew
          rw [hnew]
          exact hmain k h hkept
      | crash i => exact ih _ h hstate hkept fun p hp => hcallers p (mem_of_mem_eraseIdx hp)
      | serve i x =>
        unfold requestOf step
        dsimp only
        split
        · rename_i r next hi
          have hask := hcallers _ (mem_of_getElem? hi) [] x (by rwa [append_nil])
          rw [append_nil] at hask
          rw [Option.toList_some, ← append_assoc]
          refine ih _ (h ++ [⟨r, x⟩]) ?_ (hkept.append hask.1) ?_
          · rw [stateOf_append, hstate]
          · intro p hp
            cases mem_or_eq_of_mem_set hp with
            | inl hold => exact (hcallers p hold).later [⟨r, x⟩]
            | inr hnew =>
              rw [hnew, hstate]
              exact hask.2
        · exact ih c h hstate hkept hcallers
  exact hrun moves ⟨s₀, []⟩ [] rfl kept_nil (List.forall_mem_nil _)

end histories

end Callers
