import GoNavi.Sql.Dialect

/-! # Lexical helpers of the SQL splitters

The functions of `sql_split.go` and `sql_sanitize.go` that look ahead from a position:
byte classes, comments, white space, the next token, dollar tags, standalone slash lines
and the tests on the header of a statement.  A position is the suffix that starts there;
functions that return a position return a suffix, and `*_suffix` says so.  What lies before
a position, where it is needed, is passed last byte first (`before`). -/

namespace GoNavi.Sql

open Scan List

/-! ### Bytes -/

abbrev newline : UInt8 := 0x0A
abbrev doubleQuote : UInt8 := 0x22
abbrev hash : UInt8 := 0x23
abbrev dollar : UInt8 := 0x24
abbrev singleQuote : UInt8 := 0x27
abbrev star : UInt8 := 0x2A
abbrev dash : UInt8 := 0x2D
abbrev slash : UInt8 := 0x2F
abbrev semicolon : UInt8 := 0x3B
abbrev leftBracket : UInt8 := 0x5B
abbrev backslash : UInt8 := 0x5C
abbrev rightBracket : UInt8 := 0x5D
abbrev backtick : UInt8 := 0x60

/-- The full-width semicolon, a delimiter like `;`. -/
abbrev fullWidthSemicolon : Text := [0xEF, 0xBC, 0x9B]

theorem fullWidthSemicolon_isPrefixOf_of_ne {c : UInt8} {t : Text} (h : c ≠ 0xEF) :
    fullWidthSemicolon.isPrefixOf (c :: t) = false := by
  simp only [List.isPrefixOf, Bool.and_eq_false_iff]
  exact .inl (by simpa using h.symm)

def isSQLIdentifierStart (c : UInt8) : Bool :=
  ('a'.toUInt8 ≤ c && c ≤ 'z'.toUInt8) || ('A'.toUInt8 ≤ c && c ≤ 'Z'.toUInt8) ||
    c == '_'.toUInt8

def isDigit (c : UInt8) : Bool := '0'.toUInt8 ≤ c && c ≤ '9'.toUInt8

def isSQLIdentifierPart (c : UInt8) : Bool :=
  isSQLIdentifierStart c || isDigit c || c == dollar || c == hash

/-- The bytes of a word for `sql_sanitize.go`: no `$` and no `#`, and a digit may come first. -/
def isSQLKeywordByte (c : UInt8) : Bool := isSQLIdentifierStart c || isDigit c

def isSQLHorizontalWhitespace (c : UInt8) : Bool :=
  c == 0x20 || c == 0x09 || c == 0x0D || c == 0x0C

/-- The bytes every look-ahead skips as white space. -/
def isSQLBlankByte (c : UInt8) : Bool := isSQLHorizontalWhitespace c || c == newline

theorem isSQLIdentifierPart_of_start {c : UInt8} (h : isSQLIdentifierStart c = true) :
    isSQLIdentifierPart c = true := by
  simp [isSQLIdentifierPart, h]

theorem isSQLKeywordByte_of_start {c : UInt8} (h : isSQLIdentifierStart c = true) :
    isSQLKeywordByte c = true := by
  simp [isSQLKeywordByte, h]

/-! ### Comments -/

/-- The rest of the text from the next newline on. -/
def scanSQLLineCommentEnd (t : Text) : Text := t.dropWhile (· != newline)

/-- The rest of the text behind the next newline. -/
def afterLine (t : Text) : Text := (scanSQLLineCommentEnd t).tail

/-- The rest of the text behind the `*/` of a block comment; empty if there is none. -/
def afterBlock (t : Text) : Text := (afterFirst [star, slash] t).getD []

theorem scanSQLLineCommentEnd_suffix (t : Text) : scanSQLLineCommentEnd t <:+ t :=
  List.dropWhile_suffix _

theorem afterLine_suffix (t : Text) : afterLine t <:+ t :=
  (List.tail_suffix _).trans (scanSQLLineCommentEnd_suffix t)

theorem afterBlock_suffix (t : Text) : afterBlock t <:+ t := by
  cases h : afterFirst [star, slash] t with
  | none => simp [afterBlock, h]
  | some u => simpa [afterBlock, h] using afterFirst_suffix h

/-- MySQL takes `--` as a comment only before white space or a control byte. -/
def isMySQLDashCommentStart : Text → Bool
  | [] => true
  | c :: _ => c ≤ 0x20

/-- Whether `--` with `t` behind it starts a line comment. -/
def isSQLDashLineCommentStart (dbType : Text) (t : Text) : Bool :=
  if isMySQLDashDialect dbType then isMySQLDashCommentStart t else true

/-- Version comments, whose content the server runs. -/
def supportsSQLExecutableBlockComment (dbType : Text) (remaining : Text) : Bool :=
  let mysql := (bytes "/*!").isPrefixOf remaining
  let mariadb := (bytes "/*m!").isPrefixOf (toLower (remaining.take 4))
  let normalized := normalizeExplainLexicalDBType dbType
  if !mysql && !mariadb then false
  else if normalized = [] then true
  else if mariadb then normalized = bytes "mariadb"
  else isMySQLDashDialect dbType

/-- The comments and blanks `hasExecutableSQLStatementContent` passes over. -/
def idleContent (dbType : Text) : Scanner UInt8 Unit where
  step _ c t :=
    if isSQLBlankByte c then some ((), t)
    else if c = dash ∧ t.head? = some dash ∧ isSQLDashLineCommentStart dbType t.tail then
      some ((), scanSQLLineCommentEnd t.tail)
    else if c = hash ∧ supportsSQLHashLineComment dbType then some ((), scanSQLLineCommentEnd t)
    else if c = slash ∧ t.head? = some star ∧
        supportsSQLExecutableBlockComment dbType (c :: t) = false then
      some ((), afterBlock t.tail)
    else none
  step_suffix := by
    intro s c t s' t' h
    split_ifs at h <;> cases h
    · exact suffix_refl _
    · exact (scanSQLLineCommentEnd_suffix _).trans (List.tail_suffix _)
    · exact scanSQLLineCommentEnd_suffix _
    · exact (afterBlock_suffix _).trans (List.tail_suffix _)

/-- Whether a piece of text has anything but comments and blanks. -/
def hasExecutableSQLStatementContent (dbType : Text) (statement : Text) : Bool :=
  !((idleContent dbType).run () statement).2.isEmpty

/-! ### The next token -/

/-- The end of a block comment for `skipSQLWhitespaceAndComments`, which stops in front of
the last byte of an unterminated one. -/
def skipBlockComment : Text → Text
  | [] => []
  | [c] => [c]
  | c :: d :: t => if c = star ∧ d = slash then t else skipBlockComment (d :: t)

theorem skipBlockComment_suffix : ∀ t : Text, skipBlockComment t <:+ t
  | [] => suffix_refl _
  | [_] => suffix_refl _
  | c :: d :: t => by
    rw [skipBlockComment]
    split
    · exact (suffix_cons _ _).trans (suffix_cons _ _)
    · exact (skipBlockComment_suffix (d :: t)).trans (suffix_cons _ _)

/-- `skipSQLWhitespaceAndComments` of `sql_split.go`: `--` and `/* */` comments. -/
def whitespaceAndComments : Scanner UInt8 Unit where
  step _ c t :=
    if isSQLBlankByte c then some ((), t)
    else if c = dash ∧ t.head? = some dash then some ((), scanSQLLineCommentEnd t.tail)
    else if c = slash ∧ t.head? = some star then some ((), skipBlockComment t.tail)
    else none
  step_suffix := by
    intro s c t s' t' h
    split_ifs at h <;> cases h
    · exact suffix_refl _
    · exact (scanSQLLineCommentEnd_suffix _).trans (List.tail_suffix _)
    · exact (skipBlockComment_suffix _).trans (List.tail_suffix _)

def skipSQLWhitespaceAndComments (t : Text) : Text := (whitespaceAndComments.run () t).2

/-- `skipSQLTrivia` of `sql_sanitize.go`: `--`, `#` and `/* */` comments, in every dialect. -/
def trivia : Scanner UInt8 Unit where
  step _ c t :=
    if isSQLBlankByte c then some ((), t)
    else if c = dash ∧ t.head? = some dash then some ((), afterLine t.tail)
    else if c = hash then some ((), afterLine t)
    else if c = slash ∧ t.head? = some star then some ((), afterBlock t.tail)
    else none
  step_suffix := by
    intro s c t s' t' h
    split_ifs at h <;> cases h
    · exact suffix_refl _
    · exact (afterLine_suffix _).trans (List.tail_suffix _)
    · exact afterLine_suffix _
    · exact (afterBlock_suffix _).trans (List.tail_suffix _)

def skipSQLTrivia (t : Text) : Text := (trivia.run () t).2

theorem skipSQLTrivia_suffix (t : Text) : skipSQLTrivia t <:+ t := Scanner.run_suffix _ _

/-- A token that starts with a byte in `start` and goes on with bytes in `part`: its lower
case and the text behind it; empty, with the whole text, if there is none. -/
def tokenSpan (start part : UInt8 → Bool) : Text → Text × Text
  | [] => ([], [])
  | c :: t =>
    if start c then (toLower (c :: t.takeWhile part), t.dropWhile part) else ([], c :: t)

theorem tokenSpan_suffix (start part : UInt8 → Bool) (t : Text) :
    (tokenSpan start part t).2 <:+ t := by
  cases t with
  | nil => exact suffix_refl _
  | cons c t =>
    rw [tokenSpan]
    split
    · exact (List.dropWhile_suffix _).trans (suffix_cons _ _)
    · exact suffix_refl _

def nextSQLSignificantTokenSpan (t : Text) : Text × Text :=
  tokenSpan isSQLIdentifierStart isSQLIdentifierPart (skipSQLWhitespaceAndComments t)

def nextSQLSignificantToken (t : Text) : Text := (nextSQLSignificantTokenSpan t).1

/-- The byte the next token starts with, `0` at the end of the text. -/
def nextSQLSignificantByte (t : Text) : UInt8 := (skipSQLWhitespaceAndComments t).headD 0

def nextSQLKeyword (t : Text) : Text × Text :=
  tokenSpan isSQLKeywordByte isSQLKeywordByte (skipSQLTrivia t)

theorem tokenSpan_length {start part : UInt8 → Bool} {t : Text}
    (h : (tokenSpan start part t).1 ≠ []) : (tokenSpan start part t).2.length < t.length := by
  cases t with
  | nil => exact absurd rfl h
  | cons c t =>
    rw [tokenSpan] at h ⊢
    split at h
    · next hc =>
      rw [if_pos hc, length_cons]
      exact Nat.lt_succ_of_le (List.dropWhile_suffix _).length_le
    · exact absurd rfl h

theorem nextSQLKeyword_suffix (t : Text) : (nextSQLKeyword t).2 <:+ t :=
  (tokenSpan_suffix _ _ _).trans (skipSQLTrivia_suffix t)

theorem nextSQLKeyword_length {t : Text} (h : (nextSQLKeyword t).1 ≠ []) :
    (nextSQLKeyword t).2.length < t.length :=
  (tokenSpan_length h).trans_le (skipSQLTrivia_suffix t).length_le

end GoNavi.Sql
