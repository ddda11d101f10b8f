import Mathlib.Data.List.Range

/-! # Journals

A journal is a list of entries that only grows at its end.  Its entries carry numbers, which
count them from one (`Numbered`), and stamps, which never decrease and stay below a clock
(`Stamped`). -/

namespace Journal

open List

universe u

variable {ε : Type u} {number stamp : ε → ℕ} {es fs : List ε} {clock clock' : ℕ}

/-- The entries are numbered from one, without gaps. -/
def Numbered (number : ε → ℕ) (es : List ε) : Prop := es.map number = List.range' 1 es.length

/-- The stamps never decrease, and none is past the clock. -/
def Stamped (stamp : ε → ℕ) (clock : ℕ) (es : List ε) : Prop :=
  (es.map stamp).Pairwise (· ≤ ·) ∧ ∀ e ∈ es, stamp e ≤ clock

theorem stamped_nil : Stamped stamp clock [] := ⟨List.Pairwise.nil, by simp⟩

theorem Numbered.append (h : Numbered number es)
    (hfs : fs.map number = List.range' (es.length + 1) fs.length) :
    Numbered number (es ++ fs) := by
  rw [Numbered, map_append, h, hfs, length_append, Nat.add_comm es.length 1]
  exact range'_append_1

/-- Entries that are numbered from `m` on. -/
theorem filter_lt_of_range' : ∀ {es : List ε} {m : ℕ}, es.map number = List.range' m es.length →
    ∀ n, m ≤ n + 1 → (es.filter fun e => n < number e) = es.drop (n + 1 - m)
  | [], _, _, _, _ => by simp
  | e :: es, m, h, n, hm => by
    rw [map_cons, length_cons, range'_succ, List.cons.injEq] at h
    by_cases hn : n < m
    · obtain rfl : m = n + 1 := by omega
      rw [filter_cons_of_pos (by simp [h.1]), Nat.sub_self, drop_zero,
        filter_eq_self.mpr]
      intro e' he'
      have hmem : number e' ∈ List.range' (n + 1 + 1) es.length :=
        h.2 ▸ mem_map_of_mem he'
      have hle := left_le_of_mem_range' hmem
      exact decide_eq_true (by omega)
    · rw [filter_cons_of_neg (by simpa [h.1] using hn),
        filter_lt_of_range' h.2 n (by omega), show n + 1 - m = (n + 1 - (m + 1)) + 1 by omega,
        drop_succ_cons]

theorem Numbered.filter_lt (h : Numbered number es) (n : ℕ) :
    (es.filter fun e => n < number e) = es.drop n :=
  filter_lt_of_range' h n (by omega)
theorem Stamped.mono (h : Stamped stamp clock es) (hclock : clock ≤ clock') :
    Stamped stamp clock' es :=
  ⟨h.1, fun e he => (h.2 e he).trans hclock⟩

theorem Stamped.append (h : Stamped stamp clock es) (hclock : clock ≤ clock')
    (hfs : ∀ f ∈ fs, stamp f = clock') : Stamped stamp clock' (es ++ fs) := by
  constructor
  · rw [map_append, pairwise_append]
    refine ⟨h.1, ?_, ?_⟩
    · rw [pairwise_map]
      exact pairwise_of_forall_mem_list fun f hf g hg => (hfs f hf).trans_le (hfs g hg).ge
    · intro m hm n hn
      obtain ⟨e, he, rfl⟩ := mem_map.mp hm
      obtain ⟨f, hf, rfl⟩ := mem_map.mp hn
      exact ((h.2 e he).trans hclock).trans (hfs f hf).ge
  · intro e he
    rcases mem_append.mp he with he | he
    · exact (h.2 e he).trans hclock
    · exact (hfs e he).le

end Journal
