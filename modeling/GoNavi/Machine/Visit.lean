import Mathlib.Data.List.Perm.Basic

/-! # Loops over a map

A loop over a map sees its entries in an order that may differ from loop to loop.  A `Visit`
gives the order in which one loop sees the entries of each map.

`exists_visit_last` and `exists_visit_first` are the two visits that a loop keeping the last
match, or stopping at the first one, can be misled by. -/

namespace Machine

/-- The order in which a loop sees the entries of a map. -/
structure Visit (α : Type) where
  order : List α → List α
  perm : ∀ m, (order m).Perm m

namespace Visit

variable {α : Type}

/-- Every map in the order in which its entries are listed. -/
def listed : Visit α := ⟨id, List.Perm.refl⟩

open Classical in
/-- The map `m` in the order `l`, the other maps as they are listed. -/
noncomputable def along (m l : List α) (h : l.Perm m) : Visit α where
  order m' := if m' = m then l else m'
  perm m' := by
    split_ifs with heq
    · rw [heq]
      exact h
    · exact List.Perm.refl m'

theorem along_order {m l : List α} (h : l.Perm m) : (along m l h).order m = l := if_pos rfl

theorem mem_order (v : Visit α) {m : List α} {a : α} : a ∈ v.order m ↔ a ∈ m :=
  (v.perm m).mem_iff

theorem any_order (v : Visit α) (m : List α) (p : α → Bool) : (v.order m).any p = m.any p := by
  rw [Bool.eq_iff_iff, List.any_eq_true, List.any_eq_true]
  constructor
  · rintro ⟨a, ha, hp⟩
    exact ⟨a, v.mem_order.mp ha, hp⟩
  · rintro ⟨a, ha, hp⟩
    exact ⟨a, v.mem_order.mpr ha, hp⟩

theorem exists_visit_last {m : List α} {a : α} (h : a ∈ m) :
    ∃ (v : Visit α) (l : List α), v.order m = l ++ [a] := by
  obtain ⟨before, after, rfl⟩ := List.append_of_mem h
  have hperm : (before ++ after ++ [a]).Perm (before ++ a :: after) := by
    rw [List.append_assoc]
    exact List.Perm.append_left before List.perm_append_comm
  exact ⟨along _ _ hperm, before ++ after, along_order hperm⟩

theorem exists_visit_first {m : List α} {a : α} (h : a ∈ m) :
    ∃ (v : Visit α) (l : List α), v.order m = a :: l := by
  obtain ⟨before, after, rfl⟩ := List.append_of_mem h
  have hperm : (a :: (before ++ after)).Perm (before ++ a :: after) := List.perm_middle.symm
  exact ⟨along _ _ hperm, before ++ after, along_order hperm⟩

end Visit

end Machine
