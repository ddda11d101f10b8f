import Mathlib.Data.List.Chain

/-! # Sealed chains

A chain is a list of records with increasing numbers, each of which names the seal of the record
in front of it and carries the seal of its own content.  A part of a valid chain is valid, also
when the record in front of its first one is gone.  Changed content under an old seal, a record
missing in the middle and swapped records are seen (`not_valid_set`, `not_valid_eraseIdx`,
`not_valid_swap`). -/

namespace Chain

open List

universe u v

variable {ρ : Type u} {η : Type v}

/-- What a chain reads of a record: its number, the seal of the record in front of it, its own
seal, and the seal that belongs to its content. -/
structure Sealing (ρ : Type u) (η : Type v) where
  number : ρ → ℤ
  prev : ρ → η
  mark : ρ → η
  digest : ρ → η

/-- The record `s` fits behind `r`. -/
def Follows (K : Sealing ρ η) (r s : ρ) : Prop :=
  K.number r < K.number s ∧ K.prev s = K.mark r

structure Valid (K : Sealing ρ η) (rs : List ρ) : Prop where
  positive : ∀ r ∈ rs, 0 < K.number r
  marked : ∀ r ∈ rs, K.mark r = K.digest r
  linked : rs.IsChain (Follows K)

variable {K : Sealing ρ η} {rs us : List ρ} {r : ρ}

theorem valid_nil : Valid K [] := ⟨by simp, by simp, .nil⟩

theorem Valid.infix (h : Valid K rs) (hus : us <:+: rs) : Valid K us :=
  ⟨fun r hr => h.positive r (hus.subset hr), fun r hr => h.marked r (hus.subset hr),
    h.linked.infix hus⟩

theorem Valid.suffix (h : Valid K rs) (hus : us <:+ rs) : Valid K us := h.infix hus.isInfix

/-- A chain is valid when its first record is sound and the rest is a chain behind it. -/
theorem valid_cons : Valid K (r :: rs) ↔ 0 < K.number r ∧ K.mark r = K.digest r ∧
    (∀ s ∈ rs.head?, Follows K r s) ∧ Valid K rs := by
  constructor
  · intro h
    obtain ⟨hhead, -⟩ := isChain_cons.mp h.linked
    exact ⟨h.positive r mem_cons_self, h.marked r mem_cons_self, hhead,
      h.suffix (suffix_cons r rs)⟩
  · rintro ⟨hpositive, hmarked, hhead, h⟩
    exact ⟨forall_mem_cons.mpr ⟨hpositive, h.positive⟩,
      forall_mem_cons.mpr ⟨hmarked, h.marked⟩, isChain_cons.mpr ⟨hhead, h.linked⟩⟩

theorem Valid.append (h : Valid K rs) (hpositive : 0 < K.number r)
    (hmarked : K.mark r = K.digest r) (hlast : ∀ l ∈ rs.getLast?, Follows K l r) :
    Valid K (rs ++ [r]) := by
  refine ⟨?_, ?_, ?_⟩
  · exact forall_mem_append.mpr ⟨h.positive, forall_mem_singleton.mpr hpositive⟩
  · exact forall_mem_append.mpr ⟨h.marked, forall_mem_singleton.mpr hmarked⟩
  · refine h.linked.append (.singleton r) ?_
    intro l hl s hs
    obtain rfl : r = s := by simpa using hs
    exact hlast l hl

theorem Valid.pairwise (h : Valid K rs) : rs.Pairwise fun r s => K.number r < K.number s := by
  have hnumbers : (rs.map K.number).IsChain (· < ·) := by
    rw [isChain_map]
    exact h.linked.imp fun _ _ hrs => hrs.1
  have := hnumbers.pairwise
  rwa [pairwise_map] at this

theorem Valid.number_lt (h : Valid K rs) {i j : ℕ} (hi : i < rs.length) (hj : j < rs.length)
    (hij : i < j) : K.number rs[i] < K.number rs[j] :=
  pairwise_iff_getElem.mp h.pairwise i j hi hj hij

theorem Valid.follows (h : Valid K rs) {i : ℕ} (hi : i < rs.length) (hi' : i + 1 < rs.length) :
    Follows K rs[i] rs[i + 1] :=
  isChain_iff_getElem.mp h.linked i hi'

theorem Valid.filter_suffix (h : Valid K rs) (n : ℤ) :
    (rs.filter fun r => n ≤ K.number r) <:+ rs := by
  induction rs with
  | nil => exact suffix_refl _
  | cons r rs ih =>
    have hrest := h.suffix (suffix_cons r rs)
    by_cases hr : n ≤ K.number r
    · have hall : ∀ s ∈ r :: rs, n ≤ K.number s := by
        intro s hs
        cases hs with
        | head => exact hr
        | tail _ hs =>
          have := (pairwise_cons.mp h.pairwise).1 s hs
          omega
      exact ⟨[], (nil_append _).trans
        (filter_eq_self.mpr fun s hs => decide_eq_true (hall s hs))⟩
    · rw [filter_cons_of_neg (by simpa using hr)]
      exact (ih hrest).trans (suffix_cons r rs)

/-! ### Tampering -/

theorem not_valid_set {i : ℕ} (hi : i < rs.length) (hmark : K.mark r ≠ K.digest r) :
    ¬ Valid K (rs.set i r) := fun h =>
  hmark (h.marked r (mem_set hi r))

/-- A record between others is missing.  Records with one seal have one number. -/
theorem not_valid_eraseIdx (hrs : Valid K rs)
    (hnumber : ∀ r ∈ rs, ∀ s ∈ rs, K.digest r = K.digest s → K.number r = K.number s) {i : ℕ}
    (hfirst : 0 < i) (hlast : i + 1 < rs.length) : ¬ Valid K (rs.eraseIdx i) := by
  intro h
  obtain ⟨k, rfl⟩ : ∃ k, i = k + 1 := ⟨i - 1, by omega⟩
  have hk : k < rs.length := by omega
  have hk' : k + 1 < rs.length := by omega
  have hlength : (rs.eraseIdx (k + 1)).length = rs.length - 1 := length_eraseIdx_of_lt hk'
  have hnow := (h.follows (i := k) (by omega) (by omega)).2
  rw [getElem_eraseIdx_of_ge _ (by omega), getElem_eraseIdx_of_lt _ (by omega)] at hnow
  have hthen := (hrs.follows hk' hlast).2
  -- The record behind the gap names both the missing seal and the one in front of it.
  have hdigest : K.digest rs[k] = K.digest rs[k + 1] := by
    rw [← hrs.marked _ (getElem_mem _), ← hrs.marked _ (getElem_mem _), ← hnow, hthen]
  have hlt := hrs.number_lt hk hk' (by omega)
  exact absurd (hnumber _ (getElem_mem _) _ (getElem_mem _) hdigest) (by omega)

/-- Two records change places. -/
def swap (rs : List ρ) (i j : ℕ) : List ρ :=
  match rs[i]?, rs[j]? with
  | some r, some s => (rs.set i s).set j r
  | _, _ => rs

theorem swap_eq {i j : ℕ} (hi : i < rs.length) (hj : j < rs.length) :
    swap rs i j = (rs.set i rs[j]).set j rs[i] := by
  rw [swap, getElem?_eq_getElem hi, getElem?_eq_getElem hj]

theorem not_valid_swap (hrs : Valid K rs) {i j : ℕ} (hi : i < rs.length) (hj : j < rs.length)
    (hij : i ≠ j) : ¬ Valid K (swap rs i j) := by
  intro h
  have hlength : (swap rs i j).length = rs.length := by
    rw [swap_eq hi hj, length_set, length_set]
  have hi' : i < (swap rs i j).length := by omega
  have hj' : j < (swap rs i j).length := by omega
  have hati : (swap rs i j)[i] = rs[j] := by
    simp only [swap_eq hi hj, getElem_set, if_neg hij.symm, if_true]
  have hatj : (swap rs i j)[j] = rs[i] := by
    simp only [swap_eq hi hj, getElem_set, if_true]
  cases Nat.lt_or_gt_of_ne hij with
  | inl hlt =>
    have hnow := h.number_lt hi' hj' hlt
    rw [hati, hatj] at hnow
    exact absurd (hrs.number_lt hi hj hlt) (by omega)
  | inr hlt =>
    have hnow := h.number_lt hj' hi' hlt
    rw [hati, hatj] at hnow
    exact absurd (hrs.number_lt hj hi hlt) (by omega)

end Chain
