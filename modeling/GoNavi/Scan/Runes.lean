import GoNavi.Scan.Rune

/-! # Texts rune by rune

How `runes` cuts a text: what is cut is put together again (`flatten_runes`), and every piece is
one byte or has as many bytes as its first one asks for (`IsRune.cases`).  The operations of Go
on the runes of a text follow; they write the replacement character for a stray byte. -/

namespace Scan

open List

/-! ### Cutting a text -/

/-- What holds of the empty text and goes from what is behind a rune to the text from it on. -/
theorem runes_induction {P : Text → Prop} (nil : P [])
    (cons : ∀ c t, P (t.drop (runeTail c t)) → P (c :: t)) (t : Text) : P t := by
  induction hn : t.length using Nat.strongRecOn generalizing t with
  | ind n ih =>
    cases t with
    | nil => exact nil
    | cons c t =>
      apply cons
      refine ih (t.drop (runeTail c t)).length ?_ _ rfl
      rw [← hn, length_drop, length_cons]
      omega

theorem runeScanner_run (seen : List Text) (t : Text) :
    (runeScanner.run seen t).1 = seen ++ (runeScanner.run [] t).1 := by
  induction t using runes_induction generalizing seen with
  | nil => simp
  | cons c t ih =>
    have hstep : ∀ seen : List Text, runeScanner.run seen (c :: t) =
        runeScanner.run (seen ++ [runeAt c t]) (t.drop (runeTail c t)) :=
      fun seen => Scanner.run_step rfl
    rw [hstep, hstep, ih (seen ++ [runeAt c t]), ih ([] ++ [runeAt c t])]
    simp

@[simp] theorem runes_nil : runes [] = [] := rfl

theorem runes_cons (c : UInt8) (t : Text) :
    runes (c :: t) = runeAt c t :: runes (t.drop (runeTail c t)) := by
  have hstep : runeScanner.run [] (c :: t) =
      runeScanner.run ([] ++ [runeAt c t]) (t.drop (runeTail c t)) := Scanner.run_step rfl
  rw [runes, hstep, runeScanner_run]
  rfl

theorem flatten_runes (t : Text) : (runes t).flatten = t := by
  induction t using runes_induction with
  | nil => rfl
  | cons c t ih =>
    rw [runes_cons, flatten_cons, ih, runeAt, cons_append, take_append_drop]

/-- A rune as it stands in a text. -/
def IsRune (r : Text) : Prop := ∃ c t, r = runeAt c t

theorem isRune_of_mem (t : Text) : ∀ r ∈ runes t, IsRune r := by
  induction t using runes_induction with
  | nil => simp
  | cons c t ih =>
    intro r hr
    rw [runes_cons] at hr
    rcases mem_cons.mp hr with rfl | hr
    · exact ⟨c, t, rfl⟩
    · exact ih r hr

theorem runeTail_cases (c : UInt8) (t : Text) : runeTail c t = 0 ∨
    runeTail c t = continuationCount c ∧
      (t.take (continuationCount c)).length = continuationCount c := by
  unfold runeTail
  dsimp only
  split_ifs with hfits
  · exact .inr ⟨rfl, hfits.1⟩
  · exact .inl rfl

theorem runeTail_le (c : UInt8) (t : Text) : runeTail c t ≤ t.length := by
  cases runeTail_cases c t with
  | inl hzero => omega
  | inr hcount =>
    have hlength := hcount.2
    rw [length_take] at hlength
    omega

/-- A rune is one byte, or has as many bytes as its first one asks for. -/
theorem IsRune.cases {r : Text} (h : IsRune r) :
    (∃ c, r = [c]) ∨
      ∃ c u, r = c :: u ∧ u ≠ [] ∧ u.length = continuationCount c := by
  obtain ⟨c, t, rfl⟩ := h
  by_cases hzero : runeTail c t = 0
  · exact .inl ⟨c, by simp [runeAt, hzero]⟩
  · obtain ⟨hcount, hlength⟩ := (runeTail_cases c t).resolve_left hzero
    rw [← hcount] at hlength
    refine .inr ⟨c, t.take (runeTail c t), rfl, ?_, hlength.trans hcount⟩
    intro hnil
    rw [hnil] at hlength
    exact hzero hlength.symm

theorem IsRune.le_of_mem {c d : UInt8} {u : Text} (h : IsRune (c :: d :: u)) :
    ∀ e ∈ c :: d :: u, 0x80 ≤ e := by
  obtain ⟨c', t, hr⟩ := h
  obtain ⟨rfl, htail⟩ := List.cons.inj hr
  unfold runeTail at htail
  dsimp only at htail
  split_ifs at htail with hfits
  · have hlead : 0xC2 ≤ c := by
      by_contra hlow
      have hnone : continuationCount c = 0 := by
        unfold continuationCount
        have hc : c.toNat < 0xC2 := by simpa [UInt8.le_iff_toNat_le] using hlow
        simp only [UInt8.le_iff_toNat_le]
        rw [if_neg, if_neg, if_neg] <;> intro hle <;> have := hle.1 <;> simp at this <;> omega
      rw [hnone] at htail
      cases htail
    intro e he
    rcases mem_cons.mp he with rfl | he
    · have hlow : (0x80 : UInt8) ≤ 0xC2 := by decide
      exact UInt8.le_trans hlow hlead
    · rw [htail] at he
      have hcont := all_eq_true.mp hfits.2.1 e he
      simp only [isContinuation, Bool.and_eq_true, decide_eq_true_eq] at hcont
      exact hcont.1
  · simp at htail

/-- A rune that is no stray byte. -/
def proper (r : Text) : Bool :=
  match r with
  | [c] => c < 0x80
  | _ => true

/-- `utf8.ValidString`: every byte belongs to a rune. -/
def validString (t : Text) : Bool := (runes t).all proper

/-! ### Texts rune by rune -/

/-- `unicode.IsControl`. -/
def isControl : Text → Bool
  | [c] => c < 0x20 || c = 0x7F
  | [c, d] => c = 0xC2 && 0x80 ≤ d && d ≤ 0x9F
  | _ => false

def replacementRune : Text := [0xEF, 0xBF, 0xBD]

/-- `strings.Map`: stray bytes become the replacement character. -/
def mapRunes (mapping : Text → Text) (t : Text) : Text :=
  (runes t).flatMap fun r => if proper r then mapping r else replacementRune

/-- `strings.ToLower`. -/
def lower (unicode : UnicodeTables) (t : Text) : Text := mapRunes (lowerRune unicode) t

def truncateRunes (value : Text) (max : ℕ) : Text :=
  if max = 0 ∨ (runes value).length ≤ max then value
  else ((runes value).take max).flatMap fun r => if proper r then r else replacementRune

end Scan
