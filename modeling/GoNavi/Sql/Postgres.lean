import GoNavi.Sql.Lex

/-! # Lexing of PostgreSQL

Which bytes of a text PostgreSQL takes as data: the bytes of comments, of string literals and of
dollar-quoted bodies.  `PgMode.next` reads one byte; block comments nest, a string behind a lone
`e` has backslash escapes (also where it goes on behind a line break), `$` may stand inside a
word, and a dollar tag does not begin with a digit.

A byte that opens data is one of four (`PgMode.opens`), and one that closes data is one of five
(`PgMode.closes`). -/

namespace GoNavi.Sql

open Scan

/-- The bytes with which an identifier begins, and those of a dollar tag. -/
def isPgWordStart (c : UInt8) : Bool := isSQLIdentifierStart c || 0x80 ≤ c

def isPgWordByte (c : UInt8) : Bool := isPgWordStart c || isDigit c || c == dollar

def isPgTagByte (read : Text) (c : UInt8) : Bool :=
  isPgWordStart c || (!read.isEmpty && isDigit c)

/-- Where PostgreSQL stands in a text. -/
inductive PgMode where
  | code
  /-- In a word, or behind an `e` that begins one. -/
  | word
  | escapeWord
  /-- Behind the first byte of what may open a comment, or behind a `$` and the bytes of a tag. -/
  | dash
  | slash
  | tag (read : Text)
  /-- In a quoted name, or behind a quote in it. -/
  | name
  | nameQuote
  | line
  /-- In a block comment with `depth` more around it, or behind a `*` or `/` in it. -/
  | block (depth : ℕ)
  | blockStar (depth : ℕ)
  | blockSlash (depth : ℕ)
  | string
  | stringQuote
  /-- In a string with backslash escapes, and behind it where it may go on. -/
  | escape
  | escapeBackslash
  | escapeQuote
  | escapeGap (broken : Bool)
  | escapeDash
  | escapeLine
  /-- In a dollar-quoted body, or behind a `$` in it and the bytes of a tag. -/
  | body (opened : Text)
  | bodyTag (opened read : Text)
deriving DecidableEq

namespace PgMode

/-- A byte outside of all tokens. -/
def ofCode (c : UInt8) : PgMode :=
  if c = GoNavi.Sql.dash then dash
  else if c = GoNavi.Sql.slash then slash
  else if c = singleQuote then string
  else if c = doubleQuote then name
  else if c = dollar then tag []
  else if c = 'e'.toUInt8 ∨ c = 'E'.toUInt8 then escapeWord
  else if isPgWordStart c then word
  else code

/-- A byte behind a string with escapes: behind a line break, such a string goes on. -/
def ofGap (broken : Bool) (c : UInt8) : PgMode :=
  if c = newline ∨ c = 0x0D then escapeGap true
  else if c = 0x20 ∨ c = 0x09 ∨ c = 0x0B ∨ c = 0x0C then escapeGap broken
  else if c = GoNavi.Sql.dash then escapeDash
  else if c = singleQuote ∧ broken then escape
  else ofCode c

/-- PostgreSQL reads one byte. -/
def next : PgMode → UInt8 → PgMode
  | code, c => ofCode c
  | word, c => if isPgWordByte c then word else ofCode c
  | escapeWord, c =>
    if c = singleQuote then escape else if isPgWordByte c then word else ofCode c
  | dash, c => if c = GoNavi.Sql.dash then line else ofCode c
  | slash, c => if c = star then block 0 else ofCode c
  | tag read, c =>
    if c = dollar then body read
    else if isPgTagByte read c then tag (read ++ [c])
    else if c = singleQuote ∧ toLower read = bytes "e" then escape
    else ofCode c
  | name, c => if c = doubleQuote then nameQuote else name
  | nameQuote, c => if c = doubleQuote then name else ofCode c
  | line, c => if c = newline ∨ c = 0x0D then code else line
  | block depth, c =>
    if c = star then blockStar depth
    else if c = GoNavi.Sql.slash then blockSlash depth
    else block depth
  | blockStar depth, c =>
    if c = star then blockStar depth
    else if c = GoNavi.Sql.slash then
      match depth with
      | 0 => code
      | depth + 1 => block depth
    else block depth
  | blockSlash depth, c =>
    if c = star then block (depth + 1)
    else if c = GoNavi.Sql.slash then blockSlash depth
    else block depth
  | string, c => if c = singleQuote then stringQuote else string
  | stringQuote, c => if c = singleQuote then string else ofCode c
  | escape, c =>
    if c = singleQuote then escapeQuote else if c = backslash then escapeBackslash else escape
  | escapeBackslash, _ => escape
  | escapeQuote, c => if c = singleQuote then escape else ofGap false c
  | escapeGap broken, c => ofGap broken c
  | escapeDash, c => if c = GoNavi.Sql.dash then escapeLine else ofCode c
  | escapeLine, c => if c = newline ∨ c = 0x0D then escapeGap true else escapeLine
  | body opened, c => if c = dollar then bodyTag opened [] else body opened
  | bodyTag opened read, c =>
    if c = dollar then if read = opened then code else bodyTag opened []
    else if isPgTagByte read c then bodyTag opened (read ++ [c])
    else body opened

/-- Inside a comment, a string or a dollar-quoted body. -/
def inData : PgMode → Bool
  | line | block _ | blockStar _ | blockSlash _ | string | escape | escapeBackslash
  | escapeLine | body _ | bodyTag _ _ => true
  | _ => false

theorem inData_ofCode {c : UInt8} (h : (ofCode c).inData = true) : c = singleQuote := by
  by_contra hne
  unfold ofCode at h
  rw [if_neg hne] at h
  split_ifs at h <;> cases h

theorem inData_ofGap {broken : Bool} {c : UInt8} (h : (ofGap broken c).inData = true) :
    c = singleQuote := by
  unfold ofGap at h
  split_ifs at h with h₁ h₂ h₃ h₄
  · cases h
  · cases h
  · cases h
  · exact h₄.1
  · exact inData_ofCode h

theorem opens {s : PgMode} {c : UInt8} (hout : s.inData = false) (hin : (s.next c).inData = true) :
    c = GoNavi.Sql.dash ∨ c = star ∨ c = singleQuote ∨ c = dollar := by
  have hquote : c = singleQuote →
      c = GoNavi.Sql.dash ∨ c = star ∨ c = singleQuote ∨ c = dollar := fun h => .inr (.inr (.inl h))
  cases s with
  | code => exact hquote (inData_ofCode hin)
  | escapeGap broken => exact hquote (inData_ofGap hin)
  | line | block | blockStar | blockSlash | string | escape | escapeBackslash | escapeLine | body
  | bodyTag => cases hout
  | word | escapeWord | dash | slash | tag | name | nameQuote | stringQuote | escapeQuote
  | escapeDash =>
    simp only [next] at hin
    split_ifs at hin <;> first
      | exact hquote (inData_ofCode hin)
      | exact hquote (inData_ofGap hin)
      | tauto

theorem closes {s : PgMode} {c : UInt8} (hin : s.inData = true) (hout : (s.next c).inData = false) :
    c = newline ∨ c = 0x0D ∨ c = GoNavi.Sql.slash ∨ c = singleQuote ∨ c = dollar := by
  cases s with
  | escapeBackslash => cases hout
  | line | block | blockStar | blockSlash | string | escape | escapeLine | body | bodyTag =>
    simp only [next] at hout
    split_ifs at hout <;> tauto
  | code | word | escapeWord | dash | slash | tag | name | nameQuote | stringQuote | escapeQuote
  | escapeGap | escapeDash => cases hin

end PgMode

/-! ### The data of a text -/

/-- For every byte of a text, whether it lies in data: data goes on or begins with it. -/
def dataBytes : PgMode → Text → List Bool
  | _, [] => []
  | s, c :: t => (s.inData || (s.next c).inData) :: dataBytes (s.next c) t

variable {s : PgMode} {t u : Text}

@[simp] theorem length_dataBytes (s : PgMode) (t : Text) : (dataBytes s t).length = t.length := by
  induction t generalizing s with
  | nil => rfl
  | cons c t ih => simp [dataBytes, ih]

theorem dataBytes_append (s : PgMode) (t u : Text) :
    dataBytes s (t ++ u) = dataBytes s t ++ dataBytes (t.foldl PgMode.next s) u := by
  induction t generalizing s with
  | nil => rfl
  | cons c t ih => simp [dataBytes, ih]

theorem dataBytes_outside (hs : s.inData = false)
    (ht : ∀ c ∈ t, c ≠ dash ∧ c ≠ star ∧ c ≠ singleQuote ∧ c ≠ dollar) :
    (t.foldl PgMode.next s).inData = false ∧ ∀ b ∈ dataBytes s t, b = false := by
  induction t generalizing s with
  | nil => exact ⟨hs, by simp [dataBytes]⟩
  | cons c t ih =>
    have hc := ht c List.mem_cons_self
    have hnext : (s.next c).inData = false := by
      rw [← Bool.not_eq_true]
      intro hin
      rcases PgMode.opens hs hin with h | h | h | h
      · exact hc.1 h
      · exact hc.2.1 h
      · exact hc.2.2.1 h
      · exact hc.2.2.2 h
    obtain ⟨hlast, hbytes⟩ := ih hnext fun d hd => ht d (List.mem_cons_of_mem c hd)
    refine ⟨hlast, fun b hb => ?_⟩
    rcases List.mem_cons.mp hb with rfl | hb
    · rw [hs, hnext]
      rfl
    · exact hbytes b hb

theorem inData_foldl (hs : s.inData = true)
    (ht : ∀ c ∈ t, c ≠ newline ∧ c ≠ 0x0D ∧ c ≠ slash ∧ c ≠ singleQuote ∧ c ≠ dollar) :
    (t.foldl PgMode.next s).inData = true := by
  induction t generalizing s with
  | nil => exact hs
  | cons c t ih =>
    have hc := ht c List.mem_cons_self
    have hnext : (s.next c).inData = true := by
      by_contra hout
      rcases PgMode.closes hs (by simpa using hout) with h | h | h | h | h
      · exact hc.1 h
      · exact hc.2.1 h
      · exact hc.2.2.1 h
      · exact hc.2.2.2.1 h
      · exact hc.2.2.2.2 h
    exact ih hnext fun d hd => ht d (List.mem_cons_of_mem c hd)

end GoNavi.Sql
