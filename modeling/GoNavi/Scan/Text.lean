import GoNavi.Scan.Scanner

/-! # Byte texts

Strings are lists of bytes (`Text`), and a position in a string is the suffix that starts
there.  This file has the string operations the scanners of the development are written
with: prefix tests (`List.isPrefixOf`), the search for a delimiter (`afterFirst`), ASCII
lower case (`toLower`) and the removal of Unicode white space at both ends (`trimSpace`).

`trimSpace_spec` is the characterisation of `trimSpace` by concatenation: what it removes
on either side is a sequence of white-space runes (`Blank`). -/

namespace Scan

open List

/-- A string, as its bytes. -/
abbrev Text := List UInt8

/-- Texts are compared byte by byte. -/
instance : LawfulBEq Text := inferInstanceAs (LawfulBEq (List UInt8))

/-- The UTF-8 bytes of a literal. -/
def bytes (s : String) : Text := s.toUTF8.data.toList

/-- The text behind the first occurrence of `needle`. -/
def afterFirst (needle : Text) : Text → Option Text
  | [] => none
  | c :: t =>
    if needle.isPrefixOf (c :: t) then some ((c :: t).drop needle.length)
    else afterFirst needle t

theorem afterFirst_suffix {needle : Text} :
    ∀ {t u : Text}, afterFirst needle t = some u → u <:+ t
  | [], _, h => by simp [afterFirst] at h
  | c :: t, u, h => by
    rw [afterFirst] at h
    split at h
    · cases h
      exact List.drop_suffix _ _
    · exact (afterFirst_suffix h).trans (suffix_cons _ _)

/-- Lower case of an ASCII byte. -/
def lowerByte (c : UInt8) : UInt8 := if 'A'.toUInt8 ≤ c ∧ c ≤ 'Z'.toUInt8 then c + 32 else c

/-- Lower case of an ASCII text. -/
def toLower (t : Text) : Text := t.map lowerByte

/-! ### White space -/

/-- The UTF-8 encodings of the runes with the Unicode property White_Space. -/
def spaceRunes : List Text :=
  [[0x20], [0x09], [0x0A], [0x0B], [0x0C], [0x0D], [0xC2, 0x85], [0xC2, 0xA0],
    [0xE1, 0x9A, 0x80], [0xE2, 0x80, 0x80], [0xE2, 0x80, 0x81], [0xE2, 0x80, 0x82],
    [0xE2, 0x80, 0x83], [0xE2, 0x80, 0x84], [0xE2, 0x80, 0x85], [0xE2, 0x80, 0x86],
    [0xE2, 0x80, 0x87], [0xE2, 0x80, 0x88], [0xE2, 0x80, 0x89], [0xE2, 0x80, 0x8A],
    [0xE2, 0x80, 0xA8], [0xE2, 0x80, 0xA9], [0xE2, 0x80, 0xAF], [0xE2, 0x81, 0x9F],
    [0xE3, 0x80, 0x80]]

/-- `Blank t`: the text is a sequence of white-space runes. -/
def Blank (t : Text) : Prop := ∃ rs : List Text, (∀ r ∈ rs, r ∈ spaceRunes) ∧ t = rs.flatten

theorem Blank.nil : Blank [] := ⟨[], by simp, rfl⟩

variable {t u : Text}

theorem Blank.append (ht : Blank t) (hu : Blank u) : Blank (t ++ u) := by
  obtain ⟨rs, hrs, rfl⟩ := ht
  obtain ⟨qs, hqs, rfl⟩ := hu
  refine ⟨rs ++ qs, fun r hr => ?_, by simp⟩
  rcases mem_append.mp hr with hr | hr
  · exact hrs r hr
  · exact hqs r hr

theorem Blank.rune {r : Text} (hr : r ∈ spaceRunes) : Blank r := ⟨[r], by simpa using hr, by simp⟩

/-- Remove one of the given texts from the front. -/
def stripOne (rs : List Text) (t : Text) : Option Text :=
  rs.findSome? fun r => if r.isPrefixOf t then some (t.drop r.length) else none

variable {rs : List Text}

theorem stripOne_eq_some (h : stripOne rs t = some u) :
    ∃ r ∈ rs, t = r ++ u := by
  obtain ⟨r, hr, hru⟩ := exists_of_findSome?_eq_some h
  split at hru
  · next hp =>
    obtain ⟨v, rfl⟩ := List.isPrefixOf_iff_prefix.mp hp
    cases hru
    exact ⟨r, hr, by simp⟩
  · cases hru

theorem stripOne_suffix (hrs : [] ∉ rs) {c : UInt8} (h : stripOne rs (c :: t) = some u) :
    u <:+ t := by
  obtain ⟨r, hr, hc⟩ := stripOne_eq_some h
  cases r with
  | nil => exact absurd hr hrs
  | cons a r =>
    obtain ⟨-, rfl⟩ := List.cons.inj hc
    exact suffix_append _ _

/-- The scanner that removes given non-empty texts from the front as long as it can. -/
def stripper (rs : List Text) (hrs : [] ∉ rs) : Scanner UInt8 Unit where
  step _ c t := (stripOne rs (c :: t)).map fun u => ((), u)
  step_suffix := by
    intro s c t s' t' h
    obtain ⟨u, hu, hp⟩ := Option.map_eq_some_iff.mp h
    cases hp
    exact stripOne_suffix hrs hu

/-- Remove white space at the front. -/
def trimLeft (t : Text) : Text := ((stripper spaceRunes (by decide)).run () t).2

/-- Remove white space at the end. -/
def trimRight (t : Text) : Text :=
  ((stripper (spaceRunes.map List.reverse) (by decide)).run () t.reverse).2.reverse

/-- Remove white space at both ends. -/
def trimSpace (t : Text) : Text := trimRight (trimLeft t)

/-- What a stripper has removed is a sequence of the given texts. -/
theorem stripper_run_spec (rs : List Text) (hrs : [] ∉ rs) (t : Text) :
    ∃ qs : List Text, (∀ q ∈ qs, q ∈ rs) ∧ t = qs.flatten ++ ((stripper rs hrs).run () t).2 := by
  refine Scanner.run_induction (M := stripper rs hrs)
    (P := fun _ u => ∃ qs : List Text, (∀ q ∈ qs, q ∈ rs) ∧ t = qs.flatten ++ u)
    ?_ ⟨[], by simp, by simp⟩
  rintro _ c u _ u' ⟨qs, hqs, ht⟩ hst
  obtain ⟨v, hv, hp⟩ := Option.map_eq_some_iff.mp hst
  cases hp
  obtain ⟨r, hr, hc⟩ := stripOne_eq_some hv
  refine ⟨qs ++ [r], fun q hq => ?_, by simp [ht, hc]⟩
  rcases mem_append.mp hq with hq | hq
  · exact hqs q hq
  · simpa using (mem_singleton.mp hq ▸ hr)

theorem trimLeft_spec (t : Text) : ∃ w, Blank w ∧ t = w ++ trimLeft t := by
  obtain ⟨qs, hqs, ht⟩ := stripper_run_spec spaceRunes (by decide) t
  exact ⟨qs.flatten, ⟨qs, hqs, rfl⟩, ht⟩

theorem trimRight_spec (t : Text) : ∃ w, Blank w ∧ t = trimRight t ++ w := by
  obtain ⟨qs, hqs, ht⟩ :=
    stripper_run_spec (spaceRunes.map List.reverse) (by decide) t.reverse
  refine ⟨(qs.flatten).reverse, ⟨(qs.map List.reverse).reverse, fun r hr => ?_, ?_⟩, ?_⟩
  · obtain ⟨q, hq, rfl⟩ := mem_map.mp (mem_reverse.mp hr)
    obtain ⟨r, hr', rfl⟩ := mem_map.mp (hqs q hq)
    simpa using hr'
  · rw [reverse_flatten]
  · rw [trimRight, ← reverse_append, ← ht, reverse_reverse]

/-- **Trimming removes white space only**, on both sides. -/
theorem trimSpace_spec (t : Text) :
    ∃ v w, Blank v ∧ Blank w ∧ t = v ++ trimSpace t ++ w := by
  obtain ⟨v, hv, ht⟩ := trimLeft_spec t
  obtain ⟨w, hw, ht'⟩ := trimRight_spec (trimLeft t)
  exact ⟨v, w, hv, hw, by rw [append_assoc, trimSpace, ← ht', ← ht]⟩

/-- A text with a byte that stands in no white space is not blank. -/
theorem trimSpace_ne_nil {c : UInt8} (hc : c ∉ spaceRunes.flatten) (h : c ∈ t) :
    trimSpace t ≠ [] := by
  intro hblank
  obtain ⟨v, w, ⟨rs, hrs, rfl⟩, ⟨qs, hqs, rfl⟩, ht⟩ := trimSpace_spec t
  rw [hblank, append_nil] at ht
  rw [ht, mem_append] at h
  rcases h with h | h
  · obtain ⟨r, hr, hcr⟩ := mem_flatten.mp h
    exact hc (mem_flatten.mpr ⟨r, hrs r hr, hcr⟩)
  · obtain ⟨r, hr, hcr⟩ := mem_flatten.mp h
    exact hc (mem_flatten.mpr ⟨r, hqs r hr, hcr⟩)

theorem trimSpace_of_plain (h : ∀ c ∈ t, c ∉ spaceRunes.flatten) : trimSpace t = t := by
  have hnone : ∀ {w : Text}, Blank w → w ⊆ t → w = [] := by
    intro w hw hsub
    obtain ⟨rs, hrs, rfl⟩ := hw
    rw [eq_nil_iff_forall_not_mem]
    intro c hc
    refine h c (hsub hc) ?_
    obtain ⟨r, hr, hcr⟩ := mem_flatten.mp hc
    exact mem_flatten.mpr ⟨r, hrs r hr, hcr⟩
  obtain ⟨w, hw, ht⟩ := trimLeft_spec t
  obtain ⟨v, hv, htrim⟩ := trimRight_spec (trimLeft t)
  have hwnil : w = [] := hnone hw (by rw [ht]; exact subset_append_left _ _)
  have hvnil : v = [] := hnone hv (by
    rw [ht, htrim]
    exact List.Subset.trans (subset_append_right _ _) (subset_append_right _ _))
  rw [hwnil, nil_append] at ht
  rw [hvnil, append_nil] at htrim
  unfold trimSpace
  rw [← htrim]
  exact ht.symm

@[simp] theorem trimSpace_nil : trimSpace [] = [] := rfl

theorem stripper_run_stuck (hrs : [] ∉ rs) (t : Text) :
    stripOne rs ((stripper rs hrs).run () t).2 = none := by
  cases h : ((stripper rs hrs).run () t).2 with
  | nil =>
    refine findSome?_eq_none_iff.mpr fun r hr => if_neg fun hp => hrs ?_
    have : r = [] := by simpa using hp
    exact this ▸ hr
  | cons c u =>
    have := Scanner.run_stuck h
    simpa [stripper] using this

theorem stripper_run_of_stuck (hrs : [] ∉ rs) (h : stripOne rs t = none) :
    ((stripper rs hrs).run () t).2 = t := by
  cases t with
  | nil => rfl
  | cons c u => rw [Scanner.run_stop]; simp [stripper, h]

theorem stripOne_prefix_none (h : stripOne rs (t ++ u) = none) :
    stripOne rs t = none := by
  refine findSome?_eq_none_iff.mpr fun r hr => if_neg fun hp => ?_
  have hne := findSome?_eq_none_iff.mp h r hr
  rw [if_pos] at hne
  · cases hne
  · exact List.isPrefixOf_iff_prefix.mpr
      ((List.isPrefixOf_iff_prefix.mp hp).trans (List.prefix_append _ _))

@[simp] theorem trimSpace_trimSpace (t : Text) : trimSpace (trimSpace t) = trimSpace t := by
  obtain ⟨w, -, ht⟩ := trimRight_spec (trimLeft t)
  have hleft : trimLeft (trimSpace t) = trimSpace t := by
    refine stripper_run_of_stuck _ (stripOne_prefix_none (u := w) ?_)
    rw [trimSpace, ← ht]
    exact stripper_run_stuck _ t
  have hright : trimRight (trimSpace t) = trimSpace t := by
    have hstuck : stripOne (spaceRunes.map List.reverse) (trimSpace t).reverse = none := by
      rw [trimSpace, trimRight, reverse_reverse]
      exact stripper_run_stuck _ _
    rw [trimRight, stripper_run_of_stuck _ hstuck, reverse_reverse]
  rw [trimSpace, hleft, hright]

example : trimSpace (bytes " \t\u00A0select 1\u3000\n") = bytes "select 1" := by decide

end Scan
