import Mathlib.Algebra.BigOperators.Group.List.Basic
import Mathlib.Algebra.Order.BigOperators.Group.List
import Mathlib.Algebra.Order.Group.Nat
import Mathlib.Data.List.Nodup
import Mathlib.Algebra.Ring.Int.Defs
import Mathlib.Algebra.Ring.Nat

/-! # Tables

A table is a list of rows with a key.  A row is looked up by its key, a new row is appended
under a key that is not taken, and an update changes the rows of one key.  The lemmas say what
lookups, keys and sums are after an update. -/

namespace Table

open List

universe u v w

variable {ρ : Type u} {κ : Type v} [DecidableEq κ] {key : ρ → κ} {rows : List ρ} {k k' : κ}
  {f : ρ → ρ} {r : ρ}

/-- Change the rows with a key. -/
def update (key : ρ → κ) (k : κ) (f : ρ → ρ) (rows : List ρ) : List ρ :=
  rows.map fun r => if key r = k then f r else r

/-- The first row with a key. -/
def lookup (key : ρ → κ) (k : κ) (rows : List ρ) : Option ρ := rows.find? fun r => key r = k

theorem lookup_key (h : lookup key k rows = some r) : key r = k := by
  simpa using find?_some h

theorem mem_of_lookup (h : lookup key k rows = some r) : r ∈ rows := mem_of_find?_eq_some h

theorem lookup_eq_none : lookup key k rows = none ↔ ∀ r ∈ rows, key r ≠ k := by
  simp [lookup, find?_eq_none]

theorem lookup_append_of_some (h : lookup key k rows = some r) (rows' : List ρ) :
    lookup key k (rows ++ rows') = some r := by
  rw [lookup] at h ⊢
  rw [find?_append, h, Option.some_or]

theorem lookup_append_of_none (h : lookup key k rows = none) (rows' : List ρ) :
    lookup key k (rows ++ rows') = lookup key k rows' := by
  rw [lookup] at h
  rw [lookup, find?_append, h, Option.none_or, lookup]

theorem lookup_map (hf : ∀ r, key (f r) = key r) :
    ∀ rows : List ρ, lookup key k (rows.map f) = (lookup key k rows).map f
  | [] => rfl
  | r :: rows => by
    have ih := lookup_map hf rows
    simp only [lookup, map_cons, find?_cons, hf] at ih ⊢
    by_cases hr : key r = k
    · simp [hr]
    · simpa [hr] using ih

theorem key_update (hf : ∀ r, key (f r) = key r) (r : ρ) :
    key (if key r = k then f r else r) = key r := by
  split
  · exact hf r
  · rfl

theorem map_key_update (hf : ∀ r, key (f r) = key r) (rows : List ρ) :
    (update key k f rows).map key = rows.map key := by
  rw [update, map_map]
  exact map_congr_left fun r _ => key_update hf r

theorem lookup_update_of_ne (hf : ∀ r, key (f r) = key r) (hk : k' ≠ k) :
    ∀ rows : List ρ, lookup key k' (update key k f rows) = lookup key k' rows
  | [] => rfl
  | r :: rows => by
    have ih := lookup_update_of_ne hf hk rows
    simp only [lookup, update, map_cons, find?_cons, key_update hf] at ih ⊢
    by_cases hr : key r = k'
    · simp [hr, hk]
    · simpa [hr] using ih

theorem lookup_update_self (hf : ∀ r, key (f r) = key r) :
    ∀ rows : List ρ, lookup key k (update key k f rows) = (lookup key k rows).map f
  | [] => rfl
  | r :: rows => by
    have ih := lookup_update_self hf rows
    simp only [lookup, update, map_cons, find?_cons, key_update hf] at ih ⊢
    by_cases hr : key r = k
    · simp [hr]
    · simpa [hr] using ih

/-- With a unique key, an update changes a sum by what it changes in one row. -/
theorem sum_update {weight : ρ → ℤ} (h : lookup key k rows = some r)
    (hnodup : (rows.map key).Nodup) :
    ((update key k f rows).map weight).sum =
      (rows.map weight).sum - weight r + weight (f r) := by
  induction rows with
  | nil => cases h
  | cons a rows ih =>
    rw [map_cons, nodup_cons] at hnodup
    simp only [update, map_cons, sum_cons]
    by_cases ha : key a = k
    · obtain rfl : a = r := by simpa [lookup, ha] using h
      have hrest : rows.map (fun r => if key r = k then f r else r) = rows := by
        refine (map_congr_left fun r hr => ?_).trans (map_id rows)
        have hne : key r ≠ k := fun hk =>
          hnodup.1 (mem_map.mpr ⟨r, hr, hk.trans ha.symm⟩)
        exact if_neg hne
      rw [hrest, if_pos ha]
      omega
    · have hlookup : lookup key k rows = some r := by simpa [lookup, ha] using h
      have := ih hlookup hnodup.2
      rw [update] at this
      rw [this, if_neg ha]
      omega

theorem sum_update_nat {weight : ρ → ℕ} (h : lookup key k rows = some r)
    (hnodup : (rows.map key).Nodup) :
    ((update key k f rows).map weight).sum + weight r = (rows.map weight).sum + weight (f r) := by
  have hsum : ((update key k f rows).map fun r => (weight r : ℤ)).sum =
      (rows.map fun r => (weight r : ℤ)).sum - weight r + weight (f r) := sum_update h hnodup
  have hcast : ∀ rows : List ρ, (rows.map fun r => (weight r : ℤ)).sum =
      ((rows.map weight).sum : ℕ) := fun rows => by
    induction rows with
    | nil => rfl
    | cons a rows ih => simp [ih]
  rw [hcast, hcast] at hsum
  omega

theorem sum_map_add_le {weight weight' : ρ → ℕ} {n : ℕ} (hle : ∀ a, weight' a ≤ weight a)
    (hr : weight' r + n ≤ weight r) : ∀ {rows : List ρ}, r ∈ rows →
      (rows.map weight').sum + n ≤ (rows.map weight).sum
  | a :: rows, h => by
    simp only [map_cons, sum_cons]
    cases mem_cons.mp h with
    | inl h =>
      have hrest : (rows.map weight').sum ≤ (rows.map weight).sum :=
        sum_le_sum fun a _ => hle a
      subst h
      omega
    | inr h =>
      have hrest := sum_map_add_le hle hr h
      have := hle a
      omega

/-- What holds of all rows and of the changed ones holds after an update. -/
theorem forall_update {P : ρ → Prop} (h : ∀ r ∈ rows, P r) (hf : ∀ r ∈ rows, key r = k → P (f r)) :
    ∀ r ∈ update key k f rows, P r := by
  intro r hr
  obtain ⟨a, ha, rfl⟩ := mem_map.mp hr
  split
  · rename_i hk
    exact hf a ha hk
  · exact h a ha

/-- With a unique key, the row that is found is the only one of its key. -/
theorem eq_of_lookup {a : ρ} (hnodup : (rows.map key).Nodup) (h : lookup key k rows = some r)
    (ha : a ∈ rows) (hk : key a = k) : a = r :=
  inj_on_of_nodup_map hnodup ha (mem_of_lookup h) (hk.trans (lookup_key h).symm)

theorem nodup_append_of_lookup (hnodup : (rows.map key).Nodup)
    (h : lookup key (key r) rows = none) : ((rows ++ [r]).map key).Nodup := by
  rw [map_append, map_singleton]
  refine nodup_append.mpr ⟨hnodup, nodup_singleton _, ?_⟩
  rintro k hk _ hk' rfl
  obtain ⟨a, ha, hak⟩ := mem_map.mp hk
  exact lookup_eq_none.mp h a ha (hak.trans (mem_singleton.mp hk'))

end Table
