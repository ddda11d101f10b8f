import Mathlib.Data.List.Forall2

/-! # Logs that match a record

A log matches a record (`Matched`) if, under every key, its entries are those of the record, one
for one and in order.  Where neither what a log had nor what it gets is longer than the record
(`Short`), an entry that is missing is missing for good: **the log matches after both have grown
if and only if it matched before and what was added matches** (`matched_append_iff`). -/

namespace Ledger

open List

universe u v w

variable {κ : Type u} {ε : Type v} {ι : Type w} [DecidableEq κ] {R : ε → ι → Prop}
  {key : ε → κ} {key' : ι → κ}

def Matched (R : ε → ι → Prop) (key : ε → κ) (key' : ι → κ) (log : List ε) (record : List ι) :
    Prop :=
  ∀ k, List.Forall₂ R (log.filter fun e => key e = k) (record.filter fun i => key' i = k)

/-- Under no key the log has more entries than the record. -/
def Short (key : ε → κ) (key' : ι → κ) (log : List ε) (record : List ι) : Prop :=
  ∀ k, (log.filter fun e => key e = k).length ≤ (record.filter fun i => key' i = k).length

theorem matched_nil : Matched R key key' [] [] := fun _ => .nil

theorem short_nil (record : List ι) : Short key key' [] record := fun _ => Nat.zero_le _

variable {log more : List ε} {record extra : List ι}

theorem Short.append (h : Short key key' log record) (h' : Short key key' more extra) :
    Short key key' (log ++ more) (record ++ extra) := by
  intro k
  have hk := h k
  have hk' := h' k
  simp only [filter_append, length_append]
  omega

/-- Two pairs of lists whose first parts cannot make up for each other. -/
theorem forall₂_append_iff {l l' : List ε} {r r' : List ι} (h : l.length ≤ r.length)
    (h' : l'.length ≤ r'.length) :
    List.Forall₂ R (l ++ l') (r ++ r') ↔ List.Forall₂ R l r ∧ List.Forall₂ R l' r' := by
  constructor
  · intro hboth
    have hlength : l.length = r.length := by
      have htotal := hboth.length_eq
      simp only [length_append] at htotal
      omega
    have hfront := forall₂_take_append _ _ _ hboth
    have hback := forall₂_drop_append _ _ _ hboth
    rw [← hlength] at hfront hback
    exact ⟨by simpa using hfront, by simpa using hback⟩
  · rintro ⟨hfront, hback⟩
    exact rel_append hfront hback

/-- **What is missing stays missing.** -/
theorem matched_append_iff (h : Short key key' log record) (h' : Short key key' more extra) :
    Matched R key key' (log ++ more) (record ++ extra) ↔
      Matched R key key' log record ∧ Matched R key key' more extra := by
  unfold Matched
  simp only [filter_append]
  rw [← forall_and]
  exact forall_congr' fun k => forall₂_append_iff (h k) (h' k)

theorem filter_key_eq {f : ε → κ} {l : List ε} {k : κ} (h : ∀ a ∈ l, f a = k) :
    l.filter (fun a => f a = k) = l :=
  filter_eq_self.mpr fun a ha => decide_eq_true (h a ha)

theorem filter_key_ne {f : ε → κ} {l : List ε} {k k' : κ} (hne : k' ≠ k)
    (h : ∀ a ∈ l, f a = k) : l.filter (fun a => f a = k') = [] := by
  rw [filter_eq_nil_iff]
  intro a ha
  rw [decide_eq_true_eq, h a ha]
  exact hne.symm

theorem matched_iff_of_one {k : κ} (hlog : ∀ e ∈ log, key e = k)
    (hrecord : ∀ i ∈ record, key' i = k) :
    Matched R key key' log record ↔ List.Forall₂ R log record := by
  constructor
  · intro h
    have hk := h k
    rwa [filter_key_eq hlog, filter_key_eq hrecord] at hk
  · intro h k'
    by_cases hk : k' = k
    · subst hk
      rwa [filter_key_eq hlog, filter_key_eq hrecord]
    · rw [filter_key_ne hk hlog, filter_key_ne hk hrecord]
      exact .nil

theorem short_of_one {k : κ} (hlog : ∀ e ∈ log, key e = k) (hrecord : ∀ i ∈ record, key' i = k)
    (hlength : log.length ≤ record.length) : Short key key' log record := by
  intro k'
  by_cases hk : k' = k
  · subst hk
    rwa [filter_key_eq hlog, filter_key_eq hrecord]
  · rw [filter_key_ne hk hlog]
    exact Nat.zero_le _

/-- Pairs that are related if and only if the second is as it should be. -/
theorem forall₂_iff_forall {Q : ι → Prop} {l : List ε} {r : List ι}
    (h : List.Forall₂ (fun e i => R e i ↔ Q i) l r) : List.Forall₂ R l r ↔ ∀ i ∈ r, Q i := by
  induction h with
  | nil => simp
  | cons hpair hrest ih => rw [forall₂_cons, hpair, ih, forall_mem_cons]

end Ledger
