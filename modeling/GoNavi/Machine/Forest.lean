import Mathlib.Data.List.Range
import Mathlib.Logic.Function.Iterate
import Mathlib.Data.Nat.Find

/-! # Chains of parents

Each node has a parent, and `root` stands for having none.  `climb` follows the parents of a
node up to a number of nodes and answers the cycle that it runs into.  When the nodes of that
cycle lose their parents, the chain of the node ends (`ends_cut_of_climb`); chains that ended
still do (`Ends.cut`); and where all chains end there is nothing to cut (`climb_of_ends`). -/

namespace Forest

universe u

variable {α : Type u}

/-- The chain of parents of a node has at most `n` nodes. -/
def Ends (parent : α → α) (root : α) (n : ℕ) (x : α) : Prop := ∃ m ≤ n, parent^[m] x = root

variable [DecidableEq α] {parent : α → α} {root x : α} {n : ℕ}

/-- Follow the parents of a node.  The answer is the cycle at the end of the path, or that there
is none; it fails when the path is too long. -/
def climb (parent : α → α) (root : α) (budget : ℕ) (path : List α) (current : α) :
    Option (List α) :=
  if current = root then some []
  else if current ∈ path then some (path.drop (path.idxOf current))
  else
    match budget with
    | 0 => none
    | budget + 1 => climb parent root budget (path ++ [current]) (parent current)

/-- The parents when some nodes have lost theirs. -/
def cut (nodes : List α) (root : α) (parent : α → α) : α → α :=
  fun x => if x ∈ nodes then root else parent x

/-! ### Cutting -/

/-- A chain that reaches a node without a parent ends behind it. -/
theorem iterate_cut_of_mem (root : α) {nodes : List α} : ∀ {k : ℕ} {x : α}, parent^[k] x ∈ nodes →
    ∃ m ≤ k + 1, (cut nodes root parent)^[m] x = root
  | 0, x, h => ⟨1, le_rfl, if_pos h⟩
  | k + 1, x, h => by
    by_cases hx : x ∈ nodes
    · exact ⟨1, by omega, if_pos hx⟩
    · obtain ⟨m, hm, hroot⟩ := iterate_cut_of_mem root (k := k) (x := parent x) h
      refine ⟨m + 1, by omega, ?_⟩
      rw [Function.iterate_succ_apply, cut, if_neg hx]
      exact hroot

theorem iterate_cut (nodes : List α) : ∀ {k : ℕ} {x : α}, parent^[k] x = root →
    ∃ m ≤ k, (cut nodes root parent)^[m] x = root
  | 0, x, h => ⟨0, le_rfl, h⟩
  | k + 1, x, h => by
    by_cases hx : x ∈ nodes
    · exact ⟨1, by omega, if_pos hx⟩
    · obtain ⟨m, hm, hroot⟩ := iterate_cut nodes (k := k) (x := parent x) h
      refine ⟨m + 1, by omega, ?_⟩
      rw [Function.iterate_succ_apply, cut, if_neg hx]
      exact hroot

theorem Ends.cut (h : Ends parent root n x) (nodes : List α) :
    Ends (cut nodes root parent) root n x := by
  obtain ⟨m, hm, hroot⟩ := h
  obtain ⟨m', hm', hroot'⟩ := iterate_cut nodes hroot
  exact ⟨m', hm'.trans hm, hroot'⟩

/-! ### Climbing -/

/-- The first nodes of a chain. -/
def trail (parent : α → α) (x : α) (m : ℕ) : List α := (List.range m).map fun i => parent^[i] x

omit [DecidableEq α] in
theorem trail_succ (parent : α → α) (x : α) (m : ℕ) :
    trail parent x (m + 1) = trail parent x m ++ [parent^[m] x] := by
  rw [trail, List.range_succ, List.map_append]
  rfl

omit [DecidableEq α] in
theorem mem_trail {m : ℕ} {y : α} : y ∈ trail parent x m ↔ ∃ i < m, parent^[i] x = y := by
  simp only [trail, List.mem_map, List.mem_range]

/-- Where climbing gets to: the root, or a node it has met before. -/
theorem climb_eq_some : ∀ {budget m : ℕ} {cycle : List α},
    climb parent root budget (trail parent x m) (parent^[m] x) = some cycle →
      ∃ k ≤ m + budget, (parent^[k] x = root ∧ cycle = []) ∨
        (parent^[k] x ∈ trail parent x k ∧ parent^[k] x ∈ cycle)
  | budget, m, cycle, h => by
    rw [climb.eq_def] at h
    split at h
    · next hroot =>
      cases h
      exact ⟨m, by omega, .inl ⟨hroot, rfl⟩⟩
    · split at h
      · next hmem =>
        cases h
        refine ⟨m, by omega, .inr ⟨hmem, ?_⟩⟩
        rw [List.mem_iff_getElem?]
        refine ⟨0, ?_⟩
        rw [List.getElem?_drop, Nat.add_zero, List.getElem?_idxOf hmem]
      · cases budget with
        | zero => cases h
        | succ budget =>
          rw [← trail_succ, ← Function.iterate_succ_apply' parent m x] at h
          obtain ⟨k, hk, hend⟩ := climb_eq_some h
          exact ⟨k, by omega, hend⟩

/-- **After a climb and a cut the chain ends.** -/
theorem ends_cut_of_climb {cycle : List α} (h : climb parent root n [] x = some cycle) :
    Ends (Forest.cut cycle root parent) root n x := by
  obtain ⟨k, hk, ⟨hroot, -⟩ | ⟨htrail, hcycle⟩⟩ := climb_eq_some (m := 0) h
  · exact Ends.cut ⟨k, by omega, hroot⟩ cycle
  · -- The cycle is met for the first time before the climb comes back to it.
    obtain ⟨i, hi, hsame⟩ := mem_trail.mp htrail
    obtain ⟨m, hm, hend⟩ := iterate_cut_of_mem root (hsame ▸ hcycle : parent^[i] x ∈ cycle)
    exact ⟨m, by omega, hend⟩

/-- **Where the chain of a node ends, climbing finds no cycle.** -/
theorem climb_of_ends (h : Ends parent root n x) : climb parent root n [] x = some [] := by
  have hex : ∃ m, parent^[m] x = root := ⟨h.choose, h.choose_spec.2⟩
  obtain ⟨k, hk, hkroot⟩ := h
  have hfirst := Nat.find_min' hex hkroot
  have hroot := Nat.find_spec hex
  have hbefore : ∀ i < Nat.find hex, parent^[i] x ≠ root := fun i hi => Nat.find_min hex hi
  generalize Nat.find hex = last at hfirst hroot hbefore
  -- Downwards from the last node: no node of the chain occurs twice.
  have hgo : ∀ d m, m + d = last →
      climb parent root (n - m) (trail parent x m) (parent^[m] x) = some [] := by
    intro d
    induction d with
    | zero =>
      intro m hm
      obtain rfl : m = last := by omega
      rw [climb.eq_def, if_pos hroot]
    | succ d ih =>
      intro m hm
      have hnew : parent^[m] x ∉ trail parent x m := by
        intro hmem
        obtain ⟨i, hi, hsame⟩ := mem_trail.mp hmem
        refine hbefore (i + (d + 1)) (by omega) ?_
        rw [Nat.add_comm, Function.iterate_add_apply, hsame, ← Function.iterate_add_apply,
          Nat.add_comm, hm]
        exact hroot
      obtain ⟨budget, hbudget⟩ : ∃ budget, n - m = budget + 1 := ⟨n - m - 1, by omega⟩
      rw [climb.eq_def, if_neg (hbefore m (by omega)), if_neg hnew, hbudget]
      have hnext := ih (m + 1) (by omega)
      rw [trail_succ, Function.iterate_succ_apply', show n - (m + 1) = budget by omega] at hnext
      exact hnext
  exact hgo last 0 (by omega)

end Forest
