import GoNavi.Machine.Program

/-! # Debts of callers

A request may leave the shared state in need of another request: it incurs a debt, which the
caller pays with its next request.  What is open in the state is then owed by a caller that has
not returned (`open_owed`), **so nothing is open once all callers have returned**
(`nothing_open`), as long as no payment fails or is cut off. -/

universe u v w

namespace Callers

open List

variable {σ ξ κ ι : Type*} {ρ : Type u} {ans : ρ → Type v} {α : Type w}

/-- What requests may be asked, what their answers tell, and the debts of kind `ι` that they
incur and pay. -/
structure Ledger (ι : Type*) (ρ : Type u) (ans : ρ → Type v) where
  allowed : ρ → Prop
  tells : (r : ρ) → ans r → Prop
  incurs : (r : ρ) → ans r → ι → Prop
  pays : ρ → Option ι

/-- The next request of the program pays the debt. -/
def Owes (L : Ledger ι ρ ans) (i : ι) : Program ρ ans α → Prop
  | .ret _ => False
  | .ask r _ => L.pays r = some i

/-- The program asks what is allowed, and pays what it incurs with its next request. -/
def Diligent (L : Ledger ι ρ ans) : Program ρ ans α → Prop
  | .ret _ => True
  | .ask r next => L.allowed r ∧ ∀ answer, L.tells r answer →
      (∀ i, L.incurs r answer i → Owes L i (next answer)) ∧ Diligent L (next answer)

/-- The program has returned. -/
def Returned : Program ρ ans α → Prop
  | .ret _ => True
  | .ask .. => False

/-- What a program owes, it still owes when it goes on further. -/
theorem Owes.bind {β : Type w} {L : Ledger ι ρ ans} {i : ι} {p : Program ρ ans α}
    (h : Owes L i p) (f : α → Program ρ ans β) : Owes L i (p.bind f) := by
  cases p with
  | ret a => exact absurd h not_false
  | ask r next => exact h

/-- Diligent programs one behind the other are diligent; induction on the first one. -/
theorem Diligent.bind {β : Type w} {L : Ledger ι ρ ans} {p : Program ρ ans α}
    {f : α → Program ρ ans β} (h : Diligent L p) (hf : ∀ a, Diligent L (f a)) :
    Diligent L (p.bind f) := by
  induction p with
  | ret a => exact hf a
  | ask r next ih =>
    refine ⟨h.1, ?_⟩
    intro answer htells
    obtain ⟨hincurs, hnext⟩ := h.2 answer htells
    exact ⟨fun i hi => (hincurs i hi).bind f, ih answer hnext⟩

instance (p : Program ρ ans α) : Decidable (Returned p) :=
  match p with
  | .ret _ => .isTrue trivial
  | .ask .. => .isFalse id

/-- A move serves a request in the condition, and cuts off no payment. -/
def Orderly (L : Ledger ι ρ ans) (C : σ → (r : ρ) → ξ → Prop) (c : Config σ ρ ans α) :
    Move κ ξ → Prop
  | .start _ => True
  | .serve i x =>
    match c.callers[i]? with
    | some (.ask r _) => C c.state r x
    | _ => True
  | .crash i =>
    match c.callers[i]? with
    | some (.ask r _) => L.pays r = none
    | _ => True

instance Orderly.decidable [DecidableEq ι] (L : Ledger ι ρ ans) (C : σ → (r : ρ) → ξ → Prop)
    [∀ s r x, Decidable (C s r x)] (c : Config σ ρ ans α) (move : Move κ ξ) :
    Decidable (Orderly L C c move) :=
  match move with
  | .start _ => inferInstanceAs (Decidable True)
  | .serve i x =>
    match h : c.callers[i]? with
    | some (.ask r _) => decidable_of_iff (C c.state r x) (by rw [Orderly, h])
    | some (.ret _) => .isTrue (by rw [Orderly, h]; trivial)
    | none => .isTrue (by rw [Orderly, h]; trivial)
  | .crash i =>
    match h : c.callers[i]? with
    | some (.ask r _) => decidable_of_iff (L.pays r = none) (by rw [Orderly, h])
    | some (.ret _) => .isTrue (by rw [Orderly, h]; trivial)
    | none => .isTrue (by rw [Orderly, h]; trivial)

variable {serve : σ → (r : ρ) → ξ → ans r × σ} {main : κ → Program ρ ans α}
  {L : Ledger ι ρ ans} {P : σ → Prop} {Open : σ → ι → Prop} {C : σ → (r : ρ) → ξ → Prop}

/-- What is open is owed by a caller, and the callers are diligent. -/
structure Covered (L : Ledger ι ρ ans) (P : σ → Prop) (Open : σ → ι → Prop)
    (c : Config σ ρ ans α) : Prop where
  state : P c.state
  diligent : ∀ p ∈ c.callers, Diligent L p
  owed : ∀ debt, Open c.state debt → ∃ p ∈ c.callers, Owes L debt p

theorem covered_step (hmain : ∀ k, Diligent L (main k))
    (hserve : ∀ s r x, P s → L.allowed r → C s r x →
      P (serve s r x).2 ∧ L.tells r (serve s r x).1 ∧
        ∀ debt, Open (serve s r x).2 debt →
          L.incurs r (serve s r x).1 debt ∨ (Open s debt ∧ L.pays r ≠ some debt))
    {c : Config σ ρ ans α} (h : Covered L P Open c) {move : Move κ ξ}
    (hmove : Orderly L C c move) : Covered L P Open (step serve main c move) := by
  cases move with
  | start k =>
    refine ⟨h.state, ?_, ?_⟩
    · intro p hp
      cases mem_append.mp hp with
      | inl hold => exact h.diligent p hold
      | inr hnew =>
        rw [mem_singleton] at hnew
        rw [hnew]
        exact hmain k
    · intro debt hopen
      obtain ⟨p, hp, howes⟩ := h.owed debt hopen
      exact ⟨p, mem_append_left _ hp, howes⟩
  | crash i =>
    refine ⟨h.state, fun p hp => h.diligent p (mem_of_mem_eraseIdx hp), ?_⟩
    intro debt hopen
    obtain ⟨p, hp, howes⟩ := h.owed debt hopen
    obtain ⟨j, hj⟩ := mem_iff_getElem?.mp hp
    have hne : j ≠ i := by
      intro hsame
      rw [hsame] at hj
      unfold Orderly at hmove
      dsimp only at hmove
      rw [hj] at hmove
      cases p with
      | ret a => exact howes
      | ask r next =>
        have hpays : some debt = none := howes.symm.trans hmove
        cases hpays
    exact ⟨p, mem_eraseIdx_iff_getElem?.mpr ⟨j, hne, hj⟩, howes⟩
  | serve i x =>
    unfold step
    dsimp only
    split
    · rename_i r next hi
      obtain ⟨hallowed, hnext⟩ := h.diligent _ (mem_of_getElem? hi)
      have hcondition : C c.state r x := by
        unfold Orderly at hmove
        dsimp only at hmove
        rwa [hi] at hmove
      obtain ⟨hstate, htells, hopen⟩ := hserve c.state r x h.state hallowed hcondition
      obtain ⟨hincurs, hdiligent⟩ := hnext _ htells
      have hlt : i < c.callers.length := (List.getElem?_eq_some_iff.mp hi).1
      refine ⟨hstate, ?_, ?_⟩
      · intro p hp
        cases mem_or_eq_of_mem_set hp with
        | inl hold => exact h.diligent p hold
        | inr hnew =>
          rw [hnew]
          exact hdiligent
      · intro debt hdebt
        cases hopen debt hdebt with
        | inl hnew => exact ⟨_, mem_set hlt _, hincurs debt hnew⟩
        | inr hold =>
          obtain ⟨p, hp, howes⟩ := h.owed debt hold.1
          obtain ⟨j, hj⟩ := mem_iff_getElem?.mp hp
          -- the caller that is served does not owe the debt, since its request does not pay it
          have hne : i ≠ j := by
            intro hsame
            rw [← hsame, hi] at hj
            cases hj
            exact hold.2 howes
          refine ⟨p, mem_iff_getElem?.mpr ⟨j, ?_⟩, howes⟩
          rw [getElem?_set_ne hne]
          exact hj
    · exact h

/-- What is open is owed by a caller; induction on the run. -/
theorem open_owed (hmain : ∀ k, Diligent L (main k))
    (hserve : ∀ s r x, P s → L.allowed r → C s r x →
      P (serve s r x).2 ∧ L.tells r (serve s r x).1 ∧
        ∀ debt, Open (serve s r x).2 debt →
          L.incurs r (serve s r x).1 debt ∨ (Open s debt ∧ L.pays r ≠ some debt))
    {s₀ : σ} (h₀ : P s₀) (hclosed : ∀ debt, ¬ Open s₀ debt) {moves : List (Move κ ξ)}
    (hmoves : Machine.Along (step serve main) (Orderly L C) ⟨s₀, []⟩ moves) :
    Covered L P Open (Machine.run (step serve main) ⟨s₀, []⟩ moves) :=
  Machine.run_induction (P := Covered L P Open)
    (fun _ _ hmove h => covered_step hmain hserve h hmove) hmoves
    ⟨h₀, nofun, fun debt hopen => absurd hopen (hclosed debt)⟩

/-- **Once all callers have returned, nothing is open.** -/
theorem Covered.nothing_open {c : Config σ ρ ans α} (h : Covered L P Open c)
    (hreturned : ∀ p ∈ c.callers, Returned p) (debt : ι) : ¬ Open c.state debt := by
  intro hopen
  obtain ⟨p, hp, howes⟩ := h.owed debt hopen
  have hdone := hreturned p hp
  cases p with
  | ret a => exact howes
  | ask r next => exact hdone

end Callers
