import Mathlib.Data.List.Perm.Subperm

/-! # Chasing links

A search follows the link of a node to the next one until a node settles it, a link leads nowhere,
or a node shows up that has been visited.

**It ends within as many turns as there are nodes, and settles as the nodes do that it reaches**
(`chase_spec`), also where the links run in a circle. -/

namespace Chase

open List

variable {α κ β : Type*}

/-- The name of a node, what it settles, and the node that its link leads to or the answer when it
leads nowhere. -/
structure Search (α κ β : Type*) where
  name : α → κ
  settles : α → Option β
  follow : α → Except β α
  repeated : β

namespace Search

/-- The search from a node, for so many turns. -/
def chase [DecidableEq κ] (search : Search α κ β) : ℕ → List κ → α → Option β
  | 0, _, _ => none
  | turns + 1, visited, a =>
    if search.name a ∈ visited then some search.repeated
    else
      match search.settles a with
      | some answer => some answer
      | none =>
        match search.follow a with
        | .error answer => some answer
        | .ok b => chase search turns (search.name a :: visited) b

/-- The search gets from one node to another. -/
inductive Reaches (search : Search α κ β) : α → α → Prop where
  | here (a : α) : Reaches search a a
  | next {a b c : α} (hgoes : search.settles a = none) (hfollow : search.follow a = .ok b)
      (hreaches : Reaches search b c) : Reaches search a c

/-- The links stay within these nodes, which have different names. -/
structure Within (search : Search α κ β) (nodes : List α) : Prop where
  closed : ∀ a ∈ nodes, ∀ b, search.follow a = .ok b → b ∈ nodes
  named : ∀ a ∈ nodes, ∀ b ∈ nodes, search.name a = search.name b → a = b

/-- The search has come along the nodes that it has seen. -/
structure Trail (search : Search α κ β) (nodes seen : List α) (a : α) : Prop where
  here : a ∈ nodes
  inside : seen ⊆ nodes
  distinct : seen.Nodup
  passed : ∀ v ∈ seen, search.settles v = none ∧ ∃ w ∈ a :: seen, search.follow v = .ok w

variable {search : Search α κ β} {nodes seen : List α} {a b c : α}

/-- A search does not leave a circle; induction on the links. -/
theorem Trail.circle (h : search.Trail nodes seen a) (ha : a ∈ seen) (hreaches : search.Reaches b c)
    (hb : b ∈ seen) : c ∈ seen := by
  induction hreaches with
  | here b => exact hb
  | next _ hfollow _ ih =>
    obtain ⟨w, hw, hfollow'⟩ := (h.passed _ hb).2
    rw [hfollow] at hfollow'
    cases hfollow'
    apply ih
    cases mem_cons.mp hw with
    | inl heq => exact heq ▸ ha
    | inr hseen => exact hseen

theorem Trail.step (h : search.Trail nodes seen a) (hwithin : search.Within nodes) (ha : a ∉ seen)
    (hgoes : search.settles a = none) (hfollow : search.follow a = .ok b) :
    search.Trail nodes (a :: seen) b where
  here := hwithin.closed a h.here b hfollow
  inside := cons_subset.mpr ⟨h.here, h.inside⟩
  distinct := nodup_cons.mpr ⟨ha, h.distinct⟩
  passed := by
    intro v hv
    cases mem_cons.mp hv with
    | inl heq =>
      rw [heq]
      exact ⟨hgoes, b, mem_cons_self, hfollow⟩
    | inr hv =>
      obtain ⟨hnone, w, hw, hvw⟩ := h.passed v hv
      exact ⟨hnone, w, mem_cons_of_mem _ hw, hvw⟩

variable [DecidableEq κ]

/-- **A search ends, and settles as a node that it reaches does**; induction on the turns. -/
theorem chase_spec (hwithin : search.Within nodes) {turns : ℕ} (h : search.Trail nodes seen a)
    (hturns : nodes.length < turns + seen.length) :
    ∃ answer, search.chase turns (seen.map search.name) a = some answer ∧
      ∀ good, good ≠ search.repeated → (∀ v, search.follow v ≠ .error good) →
        (answer = good ↔ ∃ v, search.Reaches a v ∧ search.settles v = some good) := by
  induction turns generalizing seen a with
  | zero =>
    have := (subperm_of_subset h.distinct h.inside).length_le
    omega
  | succ turns ih =>
    unfold chase
    by_cases hrepeated : search.name a ∈ seen.map search.name
    · rw [if_pos hrepeated]
      refine ⟨_, rfl, fun good hgood _ => ⟨fun heq => absurd heq.symm hgood, ?_⟩⟩
      rintro ⟨v, hreaches, hsettles⟩
      obtain ⟨w, hw, hname⟩ := mem_map.mp hrepeated
      have hseen : a ∈ seen := hwithin.named w (h.inside hw) a h.here hname ▸ hw
      rw [(h.passed v (h.circle hseen hreaches hseen)).1] at hsettles
      cases hsettles
    · rw [if_neg hrepeated]
      have hnew : a ∉ seen := fun ha => hrepeated (mem_map_of_mem ha)
      cases hsettles : search.settles a with
      | some answer =>
        refine ⟨answer, rfl, fun good _ _ => ⟨?_, ?_⟩⟩
        · rintro rfl
          exact ⟨a, .here a, hsettles⟩
        · rintro ⟨v, hreaches, hgood⟩
          cases hreaches with
          | here =>
            rw [hsettles] at hgood
            exact Option.some.inj hgood
          | next hgoes =>
            rw [hsettles] at hgoes
            cases hgoes
      | none =>
        cases hfollow : search.follow a with
        | error answer =>
          refine ⟨answer, rfl, fun good _ hfollows => ⟨?_, ?_⟩⟩
          · rintro rfl
            exact absurd hfollow (hfollows a)
          · rintro ⟨v, hreaches, hgood⟩
            cases hreaches with
            | here =>
              rw [hsettles] at hgood
              cases hgood
            | next _ hfollow' =>
              rw [hfollow] at hfollow'
              cases hfollow'
        | ok b =>
          have htrail := h.step hwithin hnew hsettles hfollow
          obtain ⟨answer, hanswer, hiff⟩ := ih htrail (by rw [length_cons]; omega)
          refine ⟨answer, hanswer, fun good hgood hfollows => ?_⟩
          rw [hiff good hgood hfollows]
          constructor
          · rintro ⟨v, hreaches, hv⟩
            exact ⟨v, .next hsettles hfollow hreaches, hv⟩
          · rintro ⟨v, hreaches, hv⟩
            cases hreaches with
            | here =>
              rw [hsettles] at hv
              cases hv
            | next _ hfollow' hreaches =>
              rw [hfollow] at hfollow'
              cases hfollow'
              exact ⟨v, hreaches, hv⟩

/-- Turns that a search does not need change nothing; induction on the turns. -/
theorem chase_mono {turns : ℕ} {visited : List κ} {answer : β}
    (h : search.chase turns visited a = some answer) :
    ∀ {turns'}, turns ≤ turns' → search.chase turns' visited a = some answer := by
  induction turns generalizing visited a with
  | zero => cases h
  | succ turns ih =>
    intro turns' hle
    obtain ⟨rest, rfl⟩ := Nat.exists_eq_add_of_le' hle
    unfold chase at h
    rw [← Nat.add_assoc]
    unfold chase
    split
    · rwa [if_pos ‹_›] at h
    · rw [if_neg ‹_›] at h
      cases hsettles : search.settles a with
      | some answer => rwa [hsettles] at h
      | none =>
        rw [hsettles] at h
        cases hfollow : search.follow a with
        | error answer => rwa [hfollow] at h
        | ok b =>
          rw [hfollow] at h
          exact ih h (Nat.le_add_left _ _)

end Search

end Chase
