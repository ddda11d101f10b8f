import Mathlib.Data.List.Nodup

/-! # Distinct elements

`distinctBy` goes through a list and keeps the first element of each key, except for keys that
were seen before. -/

namespace Distinct

open List

universe u v

variable {α : Type u} {κ : Type v} [DecidableEq κ] {key : α → κ} {seen : List κ} {l : List α}

/-- Keep the first element of each key that is not seen yet. -/
def distinctBy (key : α → κ) : List κ → List α → List α
  | _, [] => []
  | seen, a :: l =>
    if key a ∈ seen then distinctBy key seen l else a :: distinctBy key (key a :: seen) l

theorem distinctBy_sublist : ∀ (seen : List κ) (l : List α), (distinctBy key seen l).Sublist l
  | _, [] => .slnil
  | seen, a :: l => by
    rw [distinctBy]
    split
    · exact (distinctBy_sublist seen l).cons a
    · exact (distinctBy_sublist (key a :: seen) l).cons_cons a

theorem mem_map_distinctBy {k : κ} : ∀ {seen : List κ} {l : List α},
    k ∈ (distinctBy key seen l).map key ↔ k ∈ l.map key ∧ k ∉ seen
  | seen, [] => by simp [distinctBy]
  | seen, a :: l => by
    rw [distinctBy]
    split
    · next ha =>
      rw [mem_map_distinctBy, map_cons, mem_cons]
      constructor
      · exact fun h => ⟨.inr h.1, h.2⟩
      · rintro ⟨rfl | h, hk⟩
        · exact absurd ha hk
        · exact ⟨h, hk⟩
    · next ha =>
      rw [map_cons, mem_cons, mem_map_distinctBy, map_cons, mem_cons,
        mem_cons]
      by_cases hk : k = key a
      · simp [hk, ha]
      · simp [hk]

theorem nodup_map_distinctBy : ∀ {seen : List κ} {l : List α},
    ((distinctBy key seen l).map key).Nodup
  | _, [] => nodup_nil
  | seen, a :: l => by
    rw [distinctBy]
    split
    · exact nodup_map_distinctBy
    · rw [map_cons, nodup_cons]
      refine ⟨fun h => ?_, nodup_map_distinctBy⟩
      exact (mem_map_distinctBy.mp h).2 mem_cons_self

theorem distinctBy_eq_self : ∀ {seen : List κ} {l : List α}, (l.map key).Nodup →
    (∀ a ∈ l, key a ∉ seen) → distinctBy key seen l = l
  | _, [], _, _ => rfl
  | seen, a :: l, hnodup, hnew => by
    rw [map_cons, nodup_cons] at hnodup
    rw [distinctBy, if_neg (hnew a mem_cons_self)]
    refine congrArg (a :: ·) (distinctBy_eq_self hnodup.2 fun b hb hkey => ?_)
    cases mem_cons.mp hkey with
    | inl he => exact hnodup.1 (he ▸ mem_map_of_mem hb)
    | inr h => exact hnew b (mem_cons_of_mem a hb) h

variable [DecidableEq α]

/-- The distinct elements of a list that are not seen yet, in the order of their first
occurrence. -/
def distinct (seen l : List α) : List α := distinctBy id seen l

variable {s t : List α} {a : α}

@[simp] theorem mem_distinct : a ∈ distinct s t ↔ a ∈ t ∧ a ∉ s := by
  have h : a ∈ (distinctBy id s t).map id ↔ a ∈ t.map id ∧ a ∉ s := mem_map_distinctBy
  rwa [map_id, map_id] at h

theorem nodup_distinct : (distinct s t).Nodup := by
  have h : ((distinctBy id s t).map id).Nodup := nodup_map_distinctBy
  rwa [map_id] at h

theorem distinct_eq_self (hnodup : t.Nodup) (hnew : ∀ a ∈ t, a ∉ s) : distinct s t = t :=
  distinctBy_eq_self (by rwa [map_id]) hnew

theorem distinct_eq_nil (hseen : ∀ a ∈ t, a ∈ s) : distinct s t = [] := by
  rw [eq_nil_iff_forall_not_mem]
  intro a ha
  exact (mem_distinct.mp ha).2 (hseen a (mem_distinct.mp ha).1)

end Distinct
