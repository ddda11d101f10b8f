import Mathlib.Data.List.AList

/-! # Maps that are swept

Entries are put into a map under a key, replaced, deleted, and swept: `keepWhere` deletes all
entries that fail a test.

`useOnce` accepts a key once in a time: an accepted key is marked up to a time, and marks whose
time is over are swept when there are too many.  **A mark refuses its key up to its end, whatever
is used and swept in between** (`Marked.refused`, `Marked.useOnce`). -/

namespace Swept

open Option

universe u v

variable {κ : Type u} {β : Type v} [DecidableEq κ]

/-- Delete the entries that fail a test. -/
def keepWhere (p : κ → β → Bool) (m : AList fun _ : κ => β) : AList fun _ : κ => β :=
  ⟨m.entries.filter fun e => p e.1 e.2, m.nodupKeys.sublist List.filter_sublist⟩

theorem lookup_keepWhere (p : κ → β → Bool) (m : AList fun _ : κ => β) (k : κ) :
    (keepWhere p m).lookup k = (m.lookup k).filter (p k) := by
  ext b
  rw [AList.lookup, ← mem_def, List.mem_dlookup_iff (keepWhere p m).nodupKeys, keepWhere,
    List.mem_filter, filter_eq_some_iff, ← mem_def, AList.mem_lookup_iff]

theorem lookup_insert (m : AList fun _ : κ => β) (k k' : κ) (b : β) :
    (m.insert k' b).lookup k = if k = k' then some b else m.lookup k := by
  split
  · next h => rw [h, AList.lookup_insert]
  · next h => exact AList.lookup_insert_ne h

/-! ### Marks -/

/-- Accept a key that has no mark, and mark it; marks that are over are swept if there are more
than `cap`. -/
def useOnce (ttl : ℤ) (cap : ℕ) (k : κ) (now : ℤ) (m : AList fun _ : κ => ℤ) :
    Bool × AList fun _ : κ => ℤ :=
  if (m.lookup k).any (now < ·) then (false, m)
  else
    let marked := m.insert k (now + ttl)
    (true, if cap < marked.entries.length then keepWhere (fun _ t => now < t) marked else marked)

/-- The key is marked up to `t` at least. -/
def Marked (m : AList fun _ : κ => ℤ) (k : κ) (t : ℤ) : Prop := ∃ e, m.lookup k = some e ∧ t ≤ e

variable {m : AList fun _ : κ => ℤ} {k k' : κ} {t now ttl : ℤ} {cap : ℕ}

theorem useOnce_refused (h : (useOnce ttl cap k now m).1 = false) :
    useOnce ttl cap k now m = (false, m) := by
  unfold useOnce at h ⊢
  split at h
  · next hmarked => exact if_pos hmarked
  · cases h

theorem Marked.refused (h : Marked m k t) (hnow : now < t) :
    useOnce ttl cap k now m = (false, m) := by
  obtain ⟨e, he, hte⟩ := h
  unfold useOnce
  rw [he, any_some, if_pos (by simpa using Int.lt_of_lt_of_le hnow hte)]

theorem Marked.swept (h : Marked m k t) (hnow : now < t) :
    Marked (keepWhere (fun _ t => now < t) m) k t := by
  obtain ⟨e, he, hte⟩ := h
  refine ⟨e, ?_, hte⟩
  rw [lookup_keepWhere, he, filter_some, if_pos (by simpa using Int.lt_of_lt_of_le hnow hte)]

theorem marked_useOnce (httl : 0 < ttl) (h : (useOnce ttl cap k now m).1 = true) :
    Marked (useOnce ttl cap k now m).2 k (now + ttl) := by
  unfold useOnce at h ⊢
  split at h
  · cases h
  · next hfree =>
    rw [if_neg hfree]
    have hmark : Marked (m.insert k (now + ttl)) k (now + ttl) :=
      ⟨now + ttl, AList.lookup_insert m, Int.le_refl _⟩
    dsimp only
    split
    · exact hmark.swept (by omega)
    · exact hmark

theorem Marked.useOnce (h : Marked m k t) (hnow : now < t) :
    Marked (Swept.useOnce ttl cap k' now m).2 k t := by
  by_cases hk : k = k'
  · subst hk
    rw [h.refused hnow]
    exact h
  · unfold Swept.useOnce
    split
    · exact h
    · have hmark : Marked (m.insert k' (now + ttl)) k t := by
        obtain ⟨e, he, hte⟩ := h
        exact ⟨e, by rw [lookup_insert, if_neg hk, he], hte⟩
      dsimp only
      split
      · exact hmark.swept hnow
      · exact hmark

end Swept
