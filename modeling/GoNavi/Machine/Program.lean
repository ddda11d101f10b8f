import GoNavi.Machine.Machine

/-! # Programs that ask

A program asks a shared state for one thing after the other and goes on with the answers.  Any
number of callers run such programs side by side: a move starts a program, serves the next
request of a caller, or lets a caller crash.

**What every request keeps, all callers together keep** (`state_of_served`), however their
requests interleave and wherever they stop. -/

universe u v w

/-- A program over requests `ρ` with answers `ans`. -/
inductive Program (ρ : Type u) (ans : ρ → Type v) (α : Type w) : Type max u v w where
  | ret (a : α)
  | ask (r : ρ) (next : ans r → Program ρ ans α)

namespace Program

variable {ρ : Type u} {ans : ρ → Type v} {α β : Type w}

def bind : Program ρ ans α → (α → Program ρ ans β) → Program ρ ans β
  | .ret a, f => f a
  | .ask r next, f => .ask r fun a => (next a).bind f

instance : Monad (Program ρ ans) where
  pure := .ret
  bind := bind

/-- The program of one request. -/
def request (r : ρ) : Program ρ ans (ans r) := .ask r .ret

end Program

namespace Callers

variable {σ ξ κ : Type*} {ρ : Type u} {ans : ρ → Type v} {α : Type w}

/-- A shared state with the programs of the callers. -/
structure Config (σ : Type*) (ρ : Type u) (ans : ρ → Type v) (α : Type w) where
  state : σ
  callers : List (Program ρ ans α)

inductive Move (κ ξ : Type*) where
  /-- A caller starts a program. -/
  | start (k : κ)
  /-- The next request of a caller is served, with what comes from outside. -/
  | serve (i : ℕ) (x : ξ)
  /-- A caller goes no further. -/
  | crash (i : ℕ)

/-- A move, for the programs that callers start and what serves their requests. -/
def step (serve : σ → (r : ρ) → ξ → ans r × σ) (main : κ → Program ρ ans α)
    (c : Config σ ρ ans α) : Move κ ξ → Config σ ρ ans α
  | .start k => { c with callers := c.callers ++ [main k] }
  | .serve i x =>
    match c.callers[i]? with
    | some (.ask r next) =>
      let served := serve c.state r x
      ⟨served.2, c.callers.set i (next served.1)⟩
    | _ => c
  | .crash i => { c with callers := c.callers.eraseIdx i }

variable (serve : σ → (r : ρ) → ξ → ans r × σ) (main : κ → Program ρ ans α) {P : σ → Prop}

theorem step_state (c : Config σ ρ ans α) (move : Move κ ξ) :
    (step serve main c move).state = c.state ∨
      ∃ r x, (step serve main c move).state = (serve c.state r x).2 := by
  cases move with
  | start k => exact .inl rfl
  | serve i x =>
    unfold step
    dsimp only
    split
    · exact .inr ⟨_, x, rfl⟩
    · exact .inl rfl
  | crash i => exact .inl rfl

/-- **What every request keeps, all callers together keep.** -/
theorem state_of_served (hserve : ∀ s r x, P s → P (serve s r x).2) {c : Config σ ρ ans α}
    (h : P c.state) (moves : List (Move κ ξ)) :
    P (Machine.run (step serve main) c moves).state := by
  refine Machine.run_preserves (P := fun c : Config σ ρ ans α => P c.state) ?_ h
  intro c move hc
  cases step_state serve main c move with
  | inl hsame =>
    rw [hsame]
    exact hc
  | inr hserved =>
    obtain ⟨r, x, hserved⟩ := hserved
    rw [hserved]
    exact hserve c.state r x hc

/-- The request that a move serves, if it serves one. -/
def requestOf (c : Config σ ρ ans α) : Move κ ξ → Option ((_ : ρ) × ξ)
  | .serve i x =>
    match c.callers[i]? with
    | some (.ask r _) => some ⟨r, x⟩
    | _ => none
  | _ => none

/-- The request that a move serves, if it serves one, is in the condition. -/
def Serves (C : σ → (r : ρ) → ξ → Prop) (c : Config σ ρ ans α) (move : Move κ ξ) : Prop :=
  ∀ a ∈ requestOf c move, C c.state a.1 a.2

instance (C : σ → (r : ρ) → ξ → Prop) [∀ s r x, Decidable (C s r x)] (c : Config σ ρ ans α)
    (move : Move κ ξ) : Decidable (Serves C c move) :=
  inferInstanceAs (Decidable (∀ a ∈ requestOf c move, C c.state a.1 a.2))

/-- What every request in the condition keeps, callers whose requests are in it keep. -/
theorem state_of_serves {C : σ → (r : ρ) → ξ → Prop}
    (hserve : ∀ s r x, C s r x → P s → P (serve s r x).2) {c : Config σ ρ ans α} (h : P c.state)
    {moves : List (Move κ ξ)} (hmoves : Machine.Along (step serve main) (Serves C) c moves) :
    P (Machine.run (step serve main) c moves).state := by
  refine Machine.run_induction (P := fun c : Config σ ρ ans α => P c.state) ?_ hmoves h
  intro c move hmove hc
  cases move with
  | start k => exact hc
  | crash i => exact hc
  | serve i x =>
    unfold Serves requestOf at hmove
    unfold step
    dsimp only at hmove ⊢
    split
    · rename_i r next hi
      rw [hi] at hmove
      exact hserve c.state r x (hmove ⟨r, x⟩ rfl) hc
    · exact hc

/-- The requests that a run of the callers serves. -/
def served : Config σ ρ ans α → List (Move κ ξ) → List ((_ : ρ) × ξ)
  | _, [] => []
  | c, move :: moves => (requestOf c move).toList ++ served (step serve main c move) moves

/-- **A run of the callers is a run of the requests that are served.** -/
theorem state_run : ∀ (c : Config σ ρ ans α) (moves : List (Move κ ξ)),
    (Machine.run (step serve main) c moves).state =
      Machine.run (fun s a => (serve s a.1 a.2).2) c.state (served serve main c moves)
  | _, [] => rfl
  | c, move :: moves => by
    rw [Machine.run_cons, state_run (step serve main c move) moves, served, Machine.run_append]
    congr 1
    cases move with
    | start k => rfl
    | crash i => rfl
    | serve i x =>
      unfold step requestOf
      dsimp only
      split <;> rfl

end Callers
