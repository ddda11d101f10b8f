import Mathlib.Data.List.Sort
import Mathlib.Order.Defs.LinearOrder

/-! # Reading in pages

Rows whose keys differ have one order by their keys (`sortBy`).  A page is the beginning of what
is left: behind an offset, or behind the key of the last row that has been read. -/

namespace Paging

open List

universe u v

variable {ρ : Type u} {κ : Type v} [LinearOrder κ] {key : ρ → κ}

/-- `ORDER BY key ASC`. -/
def sortBy (key : ρ → κ) (rows : List ρ) : List ρ := rows.insertionSort fun r s => key r ≤ key s

/-- Rows in the order of their keys, which differ. -/
def Ascending (key : ρ → κ) (rows : List ρ) : Prop := rows.Pairwise fun r s => key r < key s

theorem sortBy_perm (rows : List ρ) : (sortBy key rows).Perm rows :=
  perm_insertionSort _ rows

variable {rows : List ρ}

@[simp] theorem mem_sortBy {r : ρ} : r ∈ sortBy key rows ↔ r ∈ rows :=
  (sortBy_perm rows).mem_iff

theorem ascending_sortBy (h : (rows.map key).Nodup) :
    Ascending key (sortBy key rows) := by
  have : Std.Total fun r s : ρ => key r ≤ key s := ⟨fun r s => le_total (key r) (key s)⟩
  have : IsTrans ρ fun r s : ρ => key r ≤ key s := ⟨fun _ _ _ => le_trans⟩
  have hsorted := pairwise_insertionSort (fun r s : ρ => key r ≤ key s) rows
  have hnodup : ((sortBy key rows).map key).Nodup := ((sortBy_perm rows).map key).nodup_iff.mpr h
  rw [List.Nodup, pairwise_map] at hnodup
  exact hsorted.imp₂ (fun r s hle hne => lt_of_le_of_ne hle hne) hnodup

theorem Ascending.eq_of_perm {rows' : List ρ} (h : Ascending key rows) (h' : Ascending key rows')
    (hperm : rows.Perm rows') : rows = rows' :=
  hperm.eq_of_pairwise (fun _ _ _ _ hlt hgt => absurd hgt hlt.asymm) h h'

theorem Ascending.filter (h : Ascending key rows) (p : ρ → Bool) :
    Ascending key (rows.filter p) :=
  List.Pairwise.filter p h

theorem sortBy_filter (h : (rows.map key).Nodup) (p : ρ → Bool) :
    sortBy key (rows.filter p) = (sortBy key rows).filter p := by
  have hfiltered : ((rows.filter p).map key).Nodup :=
    h.sublist (filter_sublist.map key)
  exact (ascending_sortBy hfiltered).eq_of_perm ((ascending_sortBy h).filter p)
    ((sortBy_perm _).trans ((sortBy_perm rows).filter p).symm)

/-- **Behind the key of a row are the rows behind it.** -/
theorem Ascending.filter_lt {before after : List ρ} {r : ρ}
    (h : Ascending key (before ++ r :: after)) :
    (before ++ r :: after).filter (fun s => key r < key s) = after := by
  obtain ⟨_, hafter, hbetween⟩ := pairwise_append.mp h
  have hafter := (pairwise_cons.mp hafter).1
  rw [filter_append, filter_cons, if_neg (by simp)]
  have hnone : before.filter (fun s => decide (key r < key s)) = [] := by
    rw [filter_eq_nil_iff]
    intro s hs
    simp [(hbetween s hs r mem_cons_self).le]
  have hall : after.filter (fun s => decide (key r < key s)) = after := by
    rw [filter_eq_self]
    intro s hs
    simpa using hafter s hs
  rw [hnone, hall, nil_append]

theorem take_eq_append_getLast {n : ℕ} (h : rows.take n ≠ []) :
    rows.take n = (rows.take n).dropLast ++ [(rows.take n).getLast h] :=
  (dropLast_append_getLast h).symm

/-- **Behind the last row of a page is what the page left.** -/
theorem Ascending.filter_last (h : Ascending key rows) {n : ℕ} (hpage : rows.take n ≠ []) :
    rows.filter (fun s => key ((rows.take n).getLast hpage) < key s) = rows.drop n := by
  have hsplit : rows = (rows.take n).dropLast ++ (rows.take n).getLast hpage :: rows.drop n := by
    conv_lhs => rw [← take_append_drop n rows, take_eq_append_getLast hpage]
    simp
  have hfilter := h
  rw [hsplit] at hfilter
  have hfilter := hfilter.filter_lt
  rw [← hsplit] at hfilter
  exact hfilter

/-- The rows behind a row, or all of them. -/
def behind (key : ρ → κ) (last : Option ρ) (rows : List ρ) : List ρ :=
  rows.filter fun s => ∀ r ∈ last, key r < key s

@[simp] theorem behind_none (rows : List ρ) : behind key none rows = rows := by
  simp [behind]

theorem Ascending.behind (h : Ascending key rows) (last : Option ρ) :
    Ascending key (behind key last rows) :=
  h.filter _

/-- **Behind the last row of a page is what the page left**, on every page. -/
theorem Ascending.behind_last (h : Ascending key rows) {last : Option ρ} {n : ℕ}
    (hpage : (Paging.behind key last rows).take n ≠ []) :
    Paging.behind key (some (((Paging.behind key last rows).take n).getLast hpage)) rows =
      (Paging.behind key last rows).drop n := by
  set r := ((Paging.behind key last rows).take n).getLast hpage with hr
  have hmem : r ∈ Paging.behind key last rows := mem_of_mem_take (getLast_mem hpage)
  have hlast : ∀ r₀ ∈ last, key r₀ < key r := by
    simpa using (mem_filter.mp hmem).2
  rw [← (h.behind last).filter_last hpage, ← hr]
  unfold Paging.behind
  rw [filter_filter]
  apply filter_congr
  intro s _
  rw [Bool.eq_iff_iff]
  simp only [Option.mem_some_iff, forall_eq', decide_eq_true_eq, Bool.and_eq_true]
  constructor
  · intro hlt
    exact ⟨hlt, fun r₀ hr₀ => (hlast r₀ hr₀).trans hlt⟩
  · intro hboth
    exact hboth.1

end Paging
