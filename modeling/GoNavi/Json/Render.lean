import GoNavi.Scan.Runes
import Mathlib.Data.Nat.Digits.Defs
import Mathlib.Data.Nat.Digits.Lemmas
import Mathlib.Data.Int.Order.Basic

/-! # Rendering JSON

What `encoding/json` writes for strings, integers, booleans and objects with fields in a fixed
order.  A string is escaped rune by rune; the bytes at which no rune starts are all written as
the escape of the replacement character, so distinct strings can look the same unless one of
them is well formed.

**Rendering is injective** on objects of well-formed strings (`object_injective`), and on no other
strings (`string_injective_iff`). -/

namespace Json

open Scan List

/-! ### Strings -/

def hexDigit (n : UInt8) : UInt8 := if n < 10 then 0x30 + n else 0x57 + n

/-- What is written for an ASCII byte: quotes, backslashes, control characters and the
characters with a meaning in HTML are escaped. -/
def escapeByte (c : UInt8) : Text :=
  if c = 0x5C ∨ c = 0x22 then [0x5C, c]
  else if c = 0x08 then bytes "\\b"
  else if c = 0x0C then bytes "\\f"
  else if c = 0x0A then bytes "\\n"
  else if c = 0x0D then bytes "\\r"
  else if c = 0x09 then bytes "\\t"
  else if c < 0x20 ∨ c = 0x3C ∨ c = 0x3E ∨ c = 0x26 then
    bytes "\\u00" ++ [hexDigit (c >>> 4), hexDigit (c &&& 0x0F)]
  else [c]

/-- What is written for a rune. -/
def escapeRune : Text → Text
  | [c] => if c < 0x80 then escapeByte c else bytes "\\ufffd"
  | r =>
    if r = [0xE2, 0x80, 0xA8] then bytes "\\u2028"
    else if r = [0xE2, 0x80, 0xA9] then bytes "\\u2029"
    else r

def string (t : Text) : Text := 0x22 :: ((runes t).flatMap escapeRune ++ [0x22])

/-- The number of bytes of what is written for the rune at the front. -/
def tokenLength : Text → ℕ
  | [] => 0
  | c :: t => if c = 0x5C then (if t.head? = some 0x75 then 6 else 2) else continuationCount c + 1

/-- The ASCII byte that an escape stands for. -/
def unescapeByte : Text → UInt8
  | [c] => c
  | [_, e] =>
    if e = 0x62 then 0x08
    else if e = 0x66 then 0x0C
    else if e = 0x6E then 0x0A
    else if e = 0x72 then 0x0D
    else if e = 0x74 then 0x09
    else e
  | [_, _, _, _, h, l] =>
    (if h < 0x3A then h - 0x30 else h - 0x57) * 16 + (if l < 0x3A then l - 0x30 else l - 0x57)
  | _ => 0

variable {c : UInt8}

theorem ascii_cases {p : UInt8 → Bool} (h : ∀ n : Fin 128, p (UInt8.ofNat n) = true)
    (hc : c < 0x80) : p c = true := by
  have hlt : c.toNat < 128 := UInt8.lt_iff_toNat_lt.mp hc
  have := h ⟨c.toNat, hlt⟩
  simpa using this

theorem le_of_continuationCount (h : continuationCount c ≠ 0) : 0xC2 ≤ c := by
  by_contra hlt
  rw [UInt8.le_iff_toNat_le] at hlt
  refine h ?_
  unfold continuationCount
  rw [if_neg, if_neg, if_neg] <;>
    · rintro ⟨hle, -⟩
      have := UInt8.le_iff_toNat_le.mp hle
      simp only [UInt8.reduceToNat] at this hlt
      omega

theorem continuationCount_ascii (hc : c < 0x80) : continuationCount c = 0 := by
  by_contra h
  exact absurd (le_of_continuationCount h) (by
    rw [UInt8.le_iff_toNat_le]
    rw [UInt8.lt_iff_toNat_lt] at hc
    simp only [UInt8.reduceToNat] at hc ⊢
    omega)

/-- An ASCII byte stays, or becomes an escape of two or six bytes. -/
theorem escapeByte_cases (c : UInt8) :
    (escapeByte c = [c] ∧ c ≠ 0x5C ∧ c ≠ 0x22) ∨ (∃ d, escapeByte c = [0x5C, d] ∧ d ≠ 0x75) ∨
      ∃ h l, escapeByte c = [0x5C, 0x75, 0x30, 0x30, h, l] := by
  unfold escapeByte
  split_ifs with h
  · refine .inr (.inl ⟨c, rfl, ?_⟩)
    rcases h with rfl | rfl <;> decide
  · exact .inr (.inl ⟨0x62, rfl, by decide⟩)
  · exact .inr (.inl ⟨0x66, rfl, by decide⟩)
  · exact .inr (.inl ⟨0x6E, rfl, by decide⟩)
  · exact .inr (.inl ⟨0x72, rfl, by decide⟩)
  · exact .inr (.inl ⟨0x74, rfl, by decide⟩)
  · exact .inr (.inr ⟨_, _, rfl⟩)
  · rw [not_or] at h
    exact .inl ⟨rfl, h⟩

variable {r : Text}

theorem tokenLength_escapeRune (h : IsRune r) (u : Text) :
    tokenLength (escapeRune r ++ u) = (escapeRune r).length ∧ escapeRune r ≠ [] ∧
      (escapeRune r).head? ≠ some 0x22 := by
  rcases h.cases with ⟨c, rfl⟩ | ⟨c, v, rfl, hne, hlength⟩
  · by_cases hc : c < 0x80
    · have hescape : escapeRune [c] = escapeByte c := if_pos hc
      rw [hescape]
      rcases escapeByte_cases c with ⟨heq, hslash, hquote⟩ | ⟨d, heq, hd⟩ | ⟨h, l, heq⟩
      · simp [heq, tokenLength, hslash, hquote, continuationCount_ascii hc]
      · simp [heq, tokenLength, hd]
      · simp [heq, tokenLength]
    · have hescape : escapeRune [c] = bytes "\\ufffd" := if_neg hc
      rw [hescape]
      exact ⟨rfl, by decide, by decide⟩
  · have hle := le_of_continuationCount
      (by rw [← hlength]; exact fun hzero => hne (eq_nil_of_length_eq_zero hzero))
    have hne' : c ≠ 0x5C ∧ c ≠ 0x22 := by
      constructor <;> rintro rfl <;> exact absurd hle (by decide)
    unfold escapeRune
    split
    · rename_i heq
      cases heq
      exact absurd rfl hne
    · split
      · exact ⟨rfl, by decide, by decide⟩
      · split
        · exact ⟨rfl, by decide, by decide⟩
        · simp [tokenLength, hne', hlength]

/-- The rune that an escape stands for; none for the escape of a stray byte. -/
def unescape (w : Text) : Option Text :=
  if w = bytes "\\ufffd" then none
  else if w = bytes "\\u2028" then some [0xE2, 0x80, 0xA8]
  else if w = bytes "\\u2029" then some [0xE2, 0x80, 0xA9]
  else if w.head?.any (0x80 ≤ ·) then some w
  else some [unescapeByte w]

set_option maxRecDepth 4000 in
theorem unescape_escapeByte (hc : c < 0x80) : unescape (escapeByte c) = some [c] := by
  have h : (unescape (escapeByte c) == some [c]) = true :=
    ascii_cases (p := fun c => unescape (escapeByte c) == some [c]) (by decide) hc
  simpa using h

theorem unescape_escapeRune (h : IsRune r) :
    unescape (escapeRune r) = if proper r then some r else none := by
  rcases h.cases with ⟨c, rfl⟩ | ⟨c, v, rfl, hne, hlength⟩
  · by_cases hc : c < 0x80
    · have hescape : escapeRune [c] = escapeByte c := if_pos hc
      rw [hescape, unescape_escapeByte hc, proper, if_pos (by simpa using hc)]
    · have hescape : escapeRune [c] = bytes "\\ufffd" := if_neg hc
      rw [hescape, proper, if_neg (by simpa using hc)]
      rfl
  · have hle := le_of_continuationCount
      (by rw [← hlength]; exact fun hzero => hne (eq_nil_of_length_eq_zero hzero))
    have hhead : (0x80 : UInt8) ≤ c := by
      rw [UInt8.le_iff_toNat_le] at hle ⊢
      simp only [UInt8.reduceToNat] at hle ⊢
      omega
    have hslash : c ≠ 0x5C := by
      rintro rfl
      exact absurd hle (by decide)
    have hproper : proper (c :: v) = true := by
      unfold proper
      split
      · rename_i heq
        cases heq
        exact absurd rfl hne
      · rfl
    have hraw : ∀ w : Text, w.head? = some 0x5C → c :: v ≠ w := by
      rintro w hw rfl
      exact hslash (Option.some.inj hw)
    rw [if_pos hproper]
    unfold escapeRune
    split
    · rename_i heq
      cases heq
      exact absurd rfl hne
    · split
      · rename_i heq
        rw [heq]
        decide
      · split
        · rename_i heq
          rw [heq]
          decide
        · rw [unescape, if_neg (hraw _ rfl), if_neg (hraw _ rfl), if_neg (hraw _ rfl), if_pos]
          simpa using hhead

variable {u u' : Text}

/-- What is written for a rune can be told from what stands behind it. -/
theorem escapeRune_cancel {r' : Text} (h : IsRune r) (h' : IsRune r')
    (heq : escapeRune r ++ u = escapeRune r' ++ u') :
    escapeRune r = escapeRune r' ∧ u = u' := by
  refine append_inj heq ?_
  rw [← (tokenLength_escapeRune h u).1, heq, (tokenLength_escapeRune h' u').1]

theorem escapeRune_injective {r' : Text} (h : IsRune r) (h' : IsRune r') (hproper : proper r = true)
    (heq : escapeRune r = escapeRune r') : r = r' := by
  have hunescape := congrArg unescape heq
  rw [unescape_escapeRune h, unescape_escapeRune h', if_pos hproper] at hunescape
  split at hunescape
  · exact Option.some.inj hunescape
  · cases hunescape

/-- Escaped runes in front of a closing quote show where they end. -/
theorem flatMap_escapeRune_cancel : ∀ {rs rs' : List Text},
    (∀ r ∈ rs, IsRune r) → (∀ r ∈ rs', IsRune r) →
    rs.flatMap escapeRune ++ 0x22 :: u = rs'.flatMap escapeRune ++ 0x22 :: u' →
    rs.map escapeRune = rs'.map escapeRune ∧ u = u' := by
  -- The closing quote is no escaped rune.
  have hclosed : ∀ {r v w : Text}, IsRune r → escapeRune r ++ v ≠ 0x22 :: w := by
    intro r v w h heq
    obtain ⟨-, hne, hhead⟩ := tokenLength_escapeRune h []
    cases hr : escapeRune r with
    | nil => exact hne hr
    | cons c t =>
      rw [hr] at heq hhead
      exact hhead (congrArg some (List.cons.inj heq).1)
  intro rs
  induction rs with
  | nil =>
    intro rs' _ h' heq
    cases rs' with
    | nil => exact ⟨rfl, (List.cons.inj heq).2⟩
    | cons r' rs' =>
      rw [flatMap_cons, append_assoc] at heq
      exact absurd heq.symm (hclosed (h' r' mem_cons_self))
  | cons r rs ih =>
    intro rs' h h' heq
    cases rs' with
    | nil =>
      rw [flatMap_cons, append_assoc] at heq
      exact absurd heq (hclosed (h r mem_cons_self))
    | cons r' rs' =>
      simp only [flatMap_cons, append_assoc] at heq
      obtain ⟨hr, hrest⟩ :=
        escapeRune_cancel (h r mem_cons_self) (h' r' mem_cons_self) heq
      obtain ⟨hrs, hu⟩ := ih (fun q hq => h q (mem_cons_of_mem _ hq))
        (fun q hq => h' q (mem_cons_of_mem _ hq)) hrest
      exact ⟨by rw [map_cons, map_cons, hr, hrs], hu⟩

variable {t t' : Text}

theorem string_cancel_runes (heq : string t ++ u = string t' ++ u') :
    (runes t).map escapeRune = (runes t').map escapeRune ∧ u = u' := by
  simp only [string, cons_append, append_assoc, nil_append] at heq
  exact flatMap_escapeRune_cancel (isRune_of_mem t) (isRune_of_mem t') (List.cons.inj heq).2

/-- **A string can be told from what stands behind it.** -/
theorem string_cancel (heq : string t ++ u = string t' ++ u') :
    string t = string t' ∧ u = u' := by
  obtain ⟨hrunes, hu⟩ := string_cancel_runes heq
  refine ⟨?_, hu⟩
  rw [string, string, flatMap_def, flatMap_def, hrunes]

/-- Lists with the same images are equal where the map is injective. -/
theorem eq_of_map_eq {α β : Type} {f : α → β} : ∀ {l l' : List α},
    (∀ a ∈ l, ∀ b ∈ l', f a = f b → a = b) → l.map f = l'.map f → l = l'
  | [], _, _, h => (map_eq_nil_iff.mp h.symm).symm
  | a :: l, [], _, h => by cases h
  | a :: l, b :: l', hf, h => by
    obtain ⟨hhead, htail⟩ := List.cons.inj h
    rw [hf a mem_cons_self b mem_cons_self hhead,
      eq_of_map_eq (fun a ha b hb => hf a (mem_cons_of_mem _ ha) b (mem_cons_of_mem _ hb)) htail]

/-- **A well-formed string can be read back.** -/
theorem string_injective (h : validString t = true) (heq : string t = string t') :
    t = t' := by
  have happend : string t ++ [] = string t' ++ [] := congrArg (· ++ []) heq
  have hmap := (string_cancel_runes happend).1
  have hrunes : runes t = runes t' := by
    refine eq_of_map_eq (fun r hr r' hr' heq => ?_) hmap
    exact escapeRune_injective (isRune_of_mem t r hr) (isRune_of_mem t' r' hr')
      (all_eq_true.mp h r hr) heq
  rw [← flatten_runes t, hrunes, flatten_runes]

section

variable {c : UInt8}

/-- A rune that is no stray byte stays a rune in front of any text. -/
theorem runes_runeAt_append (hproper : proper (runeAt c t) = true) (u : Text) :
    runes (runeAt c t ++ u) = runeAt c t :: runes u := by
  have htail : runeTail c (t.take (runeTail c t) ++ u) = runeTail c t := by
    cases runeTail_cases c t with
    | inl hzero =>
      have hascii : c < 0x80 := by simpa [proper, runeAt, hzero] using hproper
      simp [runeTail, continuationCount_ascii hascii]
    | inr hcount =>
      have hsame : (t.take (runeTail c t) ++ u).take (continuationCount c) =
          t.take (continuationCount c) := by rw [hcount.1, take_left' hcount.2]
      unfold runeTail at hsame ⊢
      rw [hsame]
  have hlength : (t.take (runeTail c t)).length = runeTail c t := by
    rw [length_take, min_eq_left (runeTail_le c t)]
  unfold runeAt
  rw [cons_append, runes_cons, runeAt, htail, take_left' hlength, drop_left' hlength]

theorem stray_of_not_proper (h : proper (runeAt c t) = false) : runeTail c t = 0 ∧ ¬ c < 0x80 := by
  cases runeTail_cases c t with
  | inl hzero => exact ⟨hzero, by simpa [proper, runeAt, hzero] using h⟩
  | inr hcount =>
    cases htake : t.take (runeTail c t) with
    | nil =>
      rw [runeAt, htake] at h
      rw [← hcount.1, htake] at hcount
      exact ⟨hcount.2.symm, by simpa [proper] using h⟩
    | cons => simp [proper, runeAt, htake] at h

/-- A text with a stray byte is written as another one. -/
theorem exists_string_eq (t : Text) : validString t = false →
    ∃ t', t' ≠ t ∧ (runes t').map escapeRune = (runes t).map escapeRune := by
  induction t using runes_induction with
  | nil => intro h; cases h
  | cons c t ih =>
    intro h
    by_cases hproper : proper (runeAt c t) = true
    · have hrest : validString (t.drop (runeTail c t)) = false := by
        simpa [validString, runes_cons, hproper] using h
      obtain ⟨u, hne, halike⟩ := ih hrest
      refine ⟨runeAt c t ++ u, ?_, by rw [runes_runeAt_append hproper, runes_cons, map_cons,
        map_cons, halike]⟩
      intro heq
      rw [runeAt, cons_append] at heq
      have hsplit := (List.cons.inj heq).2
      nth_rewrite 3 [← take_append_drop (runeTail c t) t] at hsplit
      exact hne (append_cancel_left hsplit)
    · obtain ⟨hzero, hbyte⟩ := stray_of_not_proper (by simpa using hproper)
      -- The byte gives way to another one at which no rune starts.
      obtain ⟨d, hne, hd⟩ : ∃ d : UInt8, d ≠ c ∧ continuationCount d = 0 ∧ ¬ d < 0x80 := by
        by_cases hc : c = 0xFF
        · exact ⟨0xFE, by rw [hc]; decide, by decide⟩
        · exact ⟨0xFF, fun h => hc h.symm, by decide⟩
      have hnone : runeTail d t = 0 := by simp [runeTail, hd.1]
      refine ⟨d :: t, fun heq => hne (List.cons.inj heq).1, ?_⟩
      rw [runes_cons, runes_cons, runeAt, runeAt, hnone, hzero, take_zero, map_cons, map_cons]
      simp [escapeRune, hbyte, hd.2]

/-- **Only a well-formed string can be told from all others.** -/
theorem string_injective_iff (t : Text) :
    (∀ t', string t = string t' → t = t') ↔ validString t = true := by
  constructor
  · intro h
    by_contra hstray
    obtain ⟨t', hne, halike⟩ := exists_string_eq t (by simpa using hstray)
    refine hne (h t' ?_).symm
    rw [string, string, flatMap_def, flatMap_def, halike]
  · exact fun h _ => string_injective h

end

/-- Stray bytes all look the same. -/
example : string [0xFF] = string [0xFE] := by decide

/-- The elements of an array can be told apart. -/
theorem array_cancel : ∀ {ts ts' : List Text}, ts ≠ [] → ts' ≠ [] →
    intercalate [0x2C] (ts.map string) ++ [0x5D] = intercalate [0x2C] (ts'.map string) ++ [0x5D] →
    ts.map string = ts'.map string := by
  intro ts
  induction ts with
  | nil => exact fun h => absurd rfl h
  | cons t ts ih =>
    intro ts' _ hne' heq
    cases ts' with
    | nil => exact absurd rfl hne'
    | cons t' ts' =>
      cases ts with
      | nil =>
        cases ts' with
        | nil => simpa using heq
        | cons u' ts' =>
          simp only [map_cons, map_nil, intercalate_singleton, intercalate_cons_cons,
            append_assoc] at heq
          cases (string_cancel heq).2
      | cons u ts =>
        cases ts' with
        | nil =>
          simp only [map_cons, map_nil, intercalate_singleton, intercalate_cons_cons,
            append_assoc] at heq
          cases (string_cancel heq).2
        | cons u' ts' =>
          rw [map_cons, map_cons, map_cons, map_cons, intercalate_cons_cons,
            intercalate_cons_cons, append_assoc, append_assoc, append_assoc, append_assoc] at heq
          obtain ⟨hhead, hrest⟩ := string_cancel heq
          have htail := ih (cons_ne_nil u ts) (cons_ne_nil u' ts') (List.cons.inj hrest).2
          rw [map_cons, hhead, htail, ← map_cons]

/-! ### Integers and booleans -/

/-- `strconv.AppendUint` in base ten. -/
def natural (n : ℕ) : Text :=
  if n = 0 then [0x30] else ((Nat.digits 10 n).map fun d => UInt8.ofNat (0x30 + d)).reverse

/-- `strconv.AppendInt` in base ten. -/
def integer (n : ℤ) : Text := if n < 0 then 0x2D :: natural n.natAbs else natural n.natAbs

/-- A byte of an integer or a boolean. -/
def isToken (c : UInt8) : Bool := c = 0x2D || (0x30 ≤ c && c ≤ 0x39) || (0x61 ≤ c && c ≤ 0x7A)

theorem digit_toNat {d : ℕ} (h : d < 10) : (UInt8.ofNat (0x30 + d)).toNat = 0x30 + d := by
  rw [UInt8.toNat_ofNat']
  omega

theorem map_digit_injective : ∀ {ds es : List ℕ}, (∀ d ∈ ds, d < 10) → (∀ e ∈ es, e < 10) →
    (ds.map fun d => UInt8.ofNat (0x30 + d)) = (es.map fun d => UInt8.ofNat (0x30 + d)) → ds = es
  | [], [], _, _, _ => rfl
  | [], _ :: _, _, _, h => nomatch h
  | _ :: _, [], _, _, h => nomatch h
  | d :: ds, e :: es, hds, hes, h => by
    obtain ⟨hde, hrest⟩ := List.cons.inj h
    have hnat := congrArg UInt8.toNat hde
    rw [digit_toNat (hds d mem_cons_self), digit_toNat (hes e mem_cons_self)] at hnat
    rw [map_digit_injective (fun d hd => hds d (mem_cons_of_mem _ hd))
      (fun e he => hes e (mem_cons_of_mem _ he)) hrest]
    exact congrArg (· :: es) (by omega)

theorem natural_injective : Function.Injective natural := by
  intro m n h
  have hdigit : ∀ k : ℕ, ∀ d ∈ Nat.digits 10 k, d < 10 := fun k d hd =>
    Nat.digits_lt_base (by decide) hd
  -- No number but zero is written as a zero.
  have hzero : ∀ k, k ≠ 0 → natural k ≠ [0x30] := by
    intro k hk heq
    rw [natural, if_neg hk] at heq
    have hmap := congrArg List.reverse heq
    rw [reverse_reverse, reverse_singleton] at hmap
    obtain ⟨d, hd, hd0⟩ := map_eq_singleton_iff.mp hmap
    have hlt := hdigit k d (by rw [hd]; exact mem_singleton_self d)
    have hnat := congrArg UInt8.toNat hd0
    rw [digit_toNat hlt] at hnat
    simp only [UInt8.reduceToNat] at hnat
    have hk0 := Nat.ofDigits_digits 10 k
    rw [hd, Nat.ofDigits_singleton] at hk0
    omega
  by_cases hm : m = 0
  · by_cases hn : n = 0
    · rw [hm, hn]
    · rw [hm] at h
      exact absurd h.symm (hzero n hn)
  · by_cases hn : n = 0
    · rw [hn] at h
      exact absurd h (hzero m hm)
    · rw [natural, natural, if_neg hm, if_neg hn, reverse_inj] at h
      refine Nat.digits.injective 10 ?_
      exact map_digit_injective (hdigit m) (hdigit n) h

theorem isDigit_natural (n : ℕ) : ∀ c ∈ natural n, 0x30 ≤ c ∧ c ≤ 0x39 := by
  intro c hc
  unfold natural at hc
  split at hc
  · rw [mem_singleton.mp hc]
    decide
  · obtain ⟨d, hd, rfl⟩ := mem_map.mp (mem_reverse.mp hc)
    have hlt : d < 10 := Nat.digits_lt_base (by decide) hd
    rw [UInt8.le_iff_toNat_le, UInt8.le_iff_toNat_le, digit_toNat hlt]
    simp only [UInt8.reduceToNat]
    omega

theorem natural_ne_nil (n : ℕ) : natural n ≠ [] := by
  unfold natural
  split
  · simp
  · rename_i hn
    simpa [Nat.digits_ne_nil_iff_ne_zero] using hn

theorem minus_notMem_natural (n : ℕ) : 0x2D ∉ natural n := by
  intro h
  exact absurd (isDigit_natural n _ h).1 (by decide)

theorem integer_injective : Function.Injective integer := by
  have hminus : ∀ m n : ℕ, 0x2D :: natural m ≠ natural n := by
    intro m n h
    exact minus_notMem_natural n (h ▸ mem_cons_self)
  intro m n h
  unfold integer at h
  split at h <;> split at h
  · have := natural_injective (List.cons.inj h).2
    omega
  · exact absurd h (hminus _ _)
  · exact absurd h.symm (hminus _ _)
  · have := natural_injective h
    omega

/-! ### Objects -/

/-- The values of an object's fields. -/
inductive Value where
  | str (t : Text)
  | int (n : ℤ)
  | bool (b : Bool)
  deriving DecidableEq

def Value.render : Value → Text
  | .str t => string t
  | .int n => integer n
  | .bool b => if b then bytes "true" else bytes "false"

/-- A value that can be read back. -/
def Value.valid : Value → Bool
  | .str t => validString t
  | _ => true

theorem Value.render_cases (v : Value) :
    (∃ t, v = .str t) ∨ (v.render ≠ [] ∧ ∀ c ∈ v.render, isToken c = true) := by
  cases v with
  | str t => exact .inl ⟨t, rfl⟩
  | int n =>
    refine .inr ?_
    have hdigit : ∀ m : ℕ, ∀ c ∈ natural m, isToken c = true := by
      intro m c hc
      obtain ⟨h, h'⟩ := isDigit_natural m c hc
      simp [isToken, h, h']
    unfold Value.render integer
    dsimp only
    split
    · refine ⟨by simp, ?_⟩
      intro c hc
      cases hc with
      | head => rfl
      | tail _ hc => exact hdigit _ c hc
    · exact ⟨natural_ne_nil _, hdigit _⟩
  | bool b =>
    refine .inr ?_
    cases b with
    | true => exact ⟨by decide, all_eq_true.mp (by decide)⟩
    | false => exact ⟨by decide, all_eq_true.mp (by decide)⟩

theorem token_cancel {d d' : UInt8} (hd : isToken d = false) (hd' : isToken d' = false) :
    ∀ {w w' : Text}, (∀ c ∈ w, isToken c = true) →
    (∀ c ∈ w', isToken c = true) → w ++ d :: u = w' ++ d' :: u' → w = w' ∧ d :: u = d' :: u'
  | [], [], _, _, h => ⟨rfl, h⟩
  | [], c' :: w', _, hw', h => by
    have := hw' c' mem_cons_self
    rw [← (List.cons.inj h).1, hd] at this
    cases this
  | c :: w, [], hw, _, h => by
    have := hw c mem_cons_self
    rw [(List.cons.inj h).1, hd'] at this
    cases this
  | c :: w, c' :: w', hw, hw', h => by
    obtain ⟨rfl, hrest⟩ := List.cons.inj h
    obtain ⟨rfl, hu⟩ := token_cancel hd hd' (fun b hb => hw b (mem_cons_of_mem _ hb))
      (fun b hb => hw' b (mem_cons_of_mem _ hb)) hrest
    exact ⟨rfl, hu⟩

variable {v v' : Value}

/-- **A value can be told from what stands behind it.** -/
theorem Value.render_cancel {d d' : UInt8} (hd : isToken d = false) (hd' : isToken d' = false)
    (heq : v.render ++ d :: u = v'.render ++ d' :: u') :
    v.render = v'.render ∧ d :: u = d' :: u' := by
  -- A string starts with a quote, which is no token byte.
  have hquote : ∀ {t w x y : Text}, w ≠ [] → (∀ c ∈ w, isToken c = true) →
      string t ++ x ≠ w ++ y := by
    intro t w x y hne hw h
    cases w with
    | nil => exact hne rfl
    | cons c w =>
      have := hw c mem_cons_self
      rw [← (List.cons.inj h).1] at this
      exact absurd this (by decide)
  rcases v.render_cases with ⟨t, rfl⟩ | ⟨hne, htoken⟩
  · rcases v'.render_cases with ⟨t', rfl⟩ | ⟨hne', htoken'⟩
    · exact string_cancel heq
    · exact absurd heq (hquote hne' htoken')
  · rcases v'.render_cases with ⟨t', rfl⟩ | ⟨hne', htoken'⟩
    · exact absurd heq.symm (hquote hne htoken)
    · exact token_cancel hd hd' htoken htoken' heq

/-- **A value that is no broken string can be read back.** -/
theorem Value.render_injective (h : v.valid = true) (heq : v.render = v'.render) :
    v = v' := by
  have hstring : ∀ {t : Text} {w : Value}, (∀ t', w ≠ .str t') → string t ≠ w.render := by
    intro t w hw h
    rcases w.render_cases with ⟨t', rfl⟩ | ⟨hne, htoken⟩
    · exact hw t' rfl
    · have := htoken 0x22 (h ▸ mem_cons_self)
      exact absurd this (by decide)
  -- The words start with a letter, and no integer does.
  have hword : ∀ (n : ℤ) (b : Bool), integer n ≠ Value.render (.bool b) := by
    intro n b h
    have hletter : ∃ c ∈ integer n, 0x61 ≤ c := by
      cases b with
      | true => exact ⟨0x74, by rw [h]; decide, by decide⟩
      | false => exact ⟨0x66, by rw [h]; decide, by decide⟩
    obtain ⟨c, hc, hle⟩ := hletter
    have hdigit : ∀ m : ℕ, c ∉ natural m := by
      intro m hm
      have := (isDigit_natural m c hm).2
      rw [UInt8.le_iff_toNat_le] at this hle
      simp only [UInt8.reduceToNat] at this hle
      omega
    unfold integer at hc
    split at hc
    · cases hc with
      | head => exact absurd hle (by decide)
      | tail _ hc => exact hdigit _ hc
    · exact hdigit _ hc
  cases v with
  | str t =>
    cases v' with
    | str t' => rw [string_injective h heq]
    | int n => exact absurd heq (hstring (by simp))
    | bool b => exact absurd heq (hstring (by simp))
  | int n =>
    cases v' with
    | str t' => exact absurd heq.symm (hstring (by simp))
    | int n' => rw [integer_injective heq]
    | bool b => exact absurd heq (hword n b)
  | bool b =>
    cases v' with
    | str t' => exact absurd heq.symm (hstring (by simp))
    | int n => exact absurd heq.symm (hword n b)
    | bool b' => revert heq; cases b <;> cases b' <;> decide

/-- What is written behind the first field: the others, and the closing brace. -/
def fields : List (Text × Value) → Text
  | [] => [0x7D]
  | (k, v) :: ms => 0x2C :: (string k ++ 0x3A :: (v.render ++ fields ms))

def object : List (Text × Value) → Text
  | [] => [0x7B, 0x7D]
  | (k, v) :: ms => 0x7B :: (string k ++ 0x3A :: (v.render ++ fields ms))

/-- Two lists of fields that look the same, field by field. -/
def Alike (ms ms' : List (Text × Value)) : Prop :=
  List.Forall₂ (fun m m' => string m.1 = string m'.1 ∧ m.2.render = m'.2.render) ms ms'

theorem fields_cons (ms : List (Text × Value)) :
    ∃ d u, fields ms = d :: u ∧ isToken d = false := by
  cases ms with
  | nil => exact ⟨0x7D, [], rfl, by decide⟩
  | cons m ms => exact ⟨0x2C, _, rfl, by decide⟩

variable {ms ms' : List (Text × Value)}

theorem member_cancel {k k' : Text}
    (heq : string k ++ 0x3A :: (v.render ++ fields ms) =
      string k' ++ 0x3A :: (v'.render ++ fields ms')) :
    (string k = string k' ∧ v.render = v'.render) ∧ fields ms = fields ms' := by
  obtain ⟨hkey, hrest⟩ := string_cancel heq
  obtain ⟨d, u, hd, htoken⟩ := fields_cons ms
  obtain ⟨d', u', hd', htoken'⟩ := fields_cons ms'
  have hvalue := (List.cons.inj hrest).2
  rw [hd, hd'] at hvalue
  obtain ⟨hrender, hfields⟩ := Value.render_cancel htoken htoken' hvalue
  exact ⟨⟨hkey, hrender⟩, by rw [hd, hd', hfields]⟩

theorem fields_alike : ∀ {ms ms' : List (Text × Value)}, fields ms = fields ms' → Alike ms ms'
  | [], [], _ => .nil
  | [], (k', v') :: ms', h => by
    have := (List.cons.inj h).1
    exact absurd this (by decide)
  | (k, v) :: ms, [], h => by
    have := (List.cons.inj h).1
    exact absurd this (by decide)
  | (k, v) :: ms, (k', v') :: ms', h => by
    obtain ⟨hmember, hrest⟩ := member_cancel (List.cons.inj h).2
    exact .cons hmember (fields_alike hrest)

/-- **Objects that look the same have fields that look the same.** -/
theorem object_alike (h : object ms = object ms') :
    Alike ms ms' := by
  cases ms with
  | nil =>
    cases ms' with
    | nil => exact .nil
    | cons m' ms' => exact nomatch (List.cons.inj h).2
  | cons m ms =>
    cases ms' with
    | nil => exact nomatch (List.cons.inj h).2
    | cons m' ms' =>
      obtain ⟨hmember, hrest⟩ := member_cancel (List.cons.inj h).2
      exact .cons hmember (fields_alike hrest)

/-- **Rendering is injective** on objects whose strings are well formed. -/
theorem object_injective (hvalid : ∀ m ∈ ms, validString m.1 = true ∧ m.2.valid = true)
    (h : object ms = object ms') :
    ms = ms' := by
  have halike : Alike ms ms' := object_alike h
  unfold Alike at halike
  clear h
  induction halike with
  | nil => rfl
  | cons hmember _ ih =>
    obtain ⟨hkey, hvalue⟩ := hvalid _ mem_cons_self
    rw [ih fun m hm => hvalid m (mem_cons_of_mem _ hm)]
    exact congrArg (· :: _) (Prod.ext (string_injective hkey hmember.1)
      (Value.render_injective hvalue hmember.2))

example : object [(bytes "id", .str (bytes "a\"b")), (bytes "n", .int (-12)),
    (bytes "ok", .bool true)] = bytes "\x7b\"id\":\"a\\\"b\",\"n\":-12,\"ok\":true\x7d" := by
  decide

end Json
