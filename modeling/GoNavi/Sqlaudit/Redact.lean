import GoNavi.Sql.Lex
import GoNavi.Sqlaudit.Sanitize

/-! # Redacting SQL

`RedactSQL` reads a statement once: comments are dropped, what it takes for a literal becomes a
question mark, and so does a number; the rest is copied rune by rune.  Its loop is a scanner
(`redactor`).  A function that skips returns what it leaves; `redactRegion` has the branches for
comments and literals, in their order.  What four regular expressions replace in the result enters
as `RedactionPatterns`. -/

namespace GoNavi.Sqlaudit

open Scan GoNavi.Sql List

/-! ### Skipping -/

abbrev carriageReturn : UInt8 := 0x0D
abbrev questionMark : UInt8 := 0x3F

def isLineEnd (c : UInt8) : Bool := c = carriageReturn || c = newline

def isASCIILetterOrDigit (c : UInt8) : Bool :=
  ('a'.toUInt8 ≤ c && c ≤ 'z'.toUInt8) || ('A'.toUInt8 ≤ c && c ≤ 'Z'.toUInt8) || isDigit c

def isASCIIHex (c : UInt8) : Bool :=
  isDigit c || ('a'.toUInt8 ≤ c && c ≤ 'f'.toUInt8) || ('A'.toUInt8 ≤ c && c ≤ 'F'.toUInt8)

def skipLineComment (t : Text) : Text := t.dropWhile fun c => !isLineEnd c

/-- Behind the opening, inside `depth` other comments. -/
def skipBlockComment : ℕ → Text → Text
  | depth, c :: d :: t =>
    if c = slash ∧ d = star then skipBlockComment (depth + 1) t
    else if c = star ∧ d = slash then
      match depth with
      | 0 => t
      | depth + 1 => skipBlockComment depth t
    else skipBlockComment depth (d :: t)
  | _, _ => []

/-- Behind the opening quote. -/
def skipQuoted (quote : UInt8) : Text → Text
  | [] => []
  | c :: t =>
    if c = backslash then
      match t with
      | [] => []
      | _ :: t => skipQuoted quote t
    else if c ≠ quote then skipQuoted quote t
    else
      match t with
      | [] => []
      | d :: t => if d = quote then skipQuoted quote t else d :: t

def isTagByte (c : UInt8) : Bool := c = '_'.toUInt8 || isASCIILetterOrDigit c

/-- Behind the first dollar. -/
def skipDollarQuotedLiteral (t : Text) : Option Text :=
  let tag := t.takeWhile isTagByte
  match t.dropWhile isTagByte with
  | [] => none
  | c :: content =>
    if c = dollar then some ((afterFirst (dollar :: (tag ++ [dollar])) content).getD [])
    else none

/-- The delimiter that ends a text that starts with another one. -/
def closingDelimiter (opening : UInt8) : UInt8 :=
  if opening = '['.toUInt8 then ']'.toUInt8
  else if opening = 0x7B then 0x7D
  else if opening = '('.toUInt8 then ')'.toUInt8
  else if opening = '<'.toUInt8 then '>'.toUInt8
  else opening

/-- Behind the closing delimiter and a quote. -/
def skipDelimited (closing : UInt8) : Text → Text
  | c :: d :: t => if c = closing ∧ d = singleQuote then t else skipDelimited closing (d :: t)
  | _ => []

def skipOracleQuotedLiteral : Text → Option Text
  | q :: quote :: opening :: d :: t =>
    if (q = 'q'.toUInt8 ∨ q = 'Q'.toUInt8) ∧ quote = singleQuote then
      some (skipDelimited (closingDelimiter opening) (d :: t))
    else none
  | _ => none

def isNumberStart (previous : Option UInt8) (c : UInt8) : Bool :=
  isDigit c && previous.all fun p => !(p = '_'.toUInt8 || p = dollar || isASCIILetterOrDigit p)

def skipFraction : Text → Text
  | c :: t => if c = '.'.toUInt8 then t.dropWhile isDigit else c :: t
  | [] => []

def skipSign : Text → Text
  | c :: t => if c = '+'.toUInt8 ∨ c = dash then t else c :: t
  | [] => []

def skipExponent : Text → Text
  | c :: t =>
    if c = 'e'.toUInt8 ∨ c = 'E'.toUInt8 then (skipSign t).dropWhile isDigit else c :: t
  | [] => []

def skipNumber (t : Text) : Text :=
  if t.head? = some '0'.toUInt8 ∧
      (t.tail.head? = some 'x'.toUInt8 ∨ t.tail.head? = some 'X'.toUInt8) then
    (t.drop 2).dropWhile isASCIIHex
  else skipExponent (skipFraction (t.dropWhile isDigit))

/-! ### The loop -/

/-- Comments and literals at `c`, with `t` behind it: what is written, and what is left. -/
def redactRegion (c : UInt8) (t : Text) : Option (Text × Text) :=
  if (c = dash ∧ t.head? = some dash) ∨ c = hash then
    let rest := skipLineComment (c :: t)
    some (if rest.head?.any isLineEnd then [newline] else [], rest)
  else if c = slash ∧ t.head? = some star then some ([0x20], skipBlockComment 0 t.tail)
  else
    match skipOracleQuotedLiteral (c :: t) with
    | some rest => some ([questionMark], rest)
    | none =>
      match if c = dollar then skipDollarQuotedLiteral t else none with
      | some rest => some ([questionMark], rest)
      | none =>
        if c = singleQuote ∨ c = doubleQuote then some ([c, questionMark, c], skipQuoted c t)
        else none

/-- What is written for a rune. -/
def redactRune (r : Text) : Text :=
  if !proper r then replacementRune
  else if isControl r && r ≠ [newline] && r ≠ [carriageReturn] && r ≠ [0x09] then [0x20]
  else r

/-- Other text at `c`: a number or a rune. -/
def redactCode (previous : Option UInt8) (c : UInt8) (t : Text) : Text × Text :=
  if isNumberStart previous c then ([questionMark], skipNumber (c :: t))
  else (redactRune (runeAt c t), t.drop (runeTail c t))

/-- The last byte of a text without an end of it. -/
def lastBefore (t rest : Text) : Option UInt8 := (t.take (t.length - rest.length)).getLast?

structure RedactState where
  previous : Option UInt8
  out : Text

def redactStep (s : RedactState) (c : UInt8) (t : Text) : RedactState × Text :=
  let (written, rest) := (redactRegion c t).getD (redactCode s.previous c t)
  (⟨lastBefore (c :: t) rest, s.out ++ written⟩, rest)

/-! ### What a step leaves -/

theorem skipBlockComment_suffix : ∀ (depth : ℕ) (t : Text), skipBlockComment depth t <:+ t
  | _, [] => suffix_refl _
  | _, [_] => List.nil_suffix
  | depth, c :: d :: t => by
    have hskip : t <:+ c :: d :: t := ⟨[c, d], rfl⟩
    unfold skipBlockComment
    split_ifs
    · exact (skipBlockComment_suffix _ t).trans hskip
    · cases depth with
      | zero => exact hskip
      | succ depth => exact (skipBlockComment_suffix depth t).trans hskip
    · exact (skipBlockComment_suffix depth (d :: t)).trans (suffix_cons c _)

theorem skipQuoted_suffix (quote : UInt8) : ∀ t : Text, skipQuoted quote t <:+ t
  | [] => suffix_refl _
  | [c] => by
    rw [skipQuoted]
    split_ifs
    · exact List.nil_suffix
    · exact (skipQuoted_suffix quote []).trans (suffix_cons c _)
    · exact List.nil_suffix
  | c :: d :: t => by
    have hskip : t <:+ c :: d :: t := ⟨[c, d], rfl⟩
    rw [skipQuoted]
    split_ifs
    · exact (skipQuoted_suffix quote t).trans hskip
    · exact (skipQuoted_suffix quote (d :: t)).trans (suffix_cons c _)
    · exact (skipQuoted_suffix quote t).trans hskip
    · exact suffix_cons c _

theorem skipDollarQuotedLiteral_suffix {t rest : Text}
    (h : skipDollarQuotedLiteral t = some rest) : rest <:+ t := by
  unfold skipDollarQuotedLiteral at h
  have hdrop : t.dropWhile isTagByte <:+ t := List.dropWhile_suffix _
  split at h
  · cases h
  · rename_i c content hcontent
    rw [hcontent] at hdrop
    split_ifs at h
    cases h
    refine List.IsSuffix.trans ?_ ((suffix_cons c content).trans hdrop)
    cases hafter : afterFirst (dollar :: (t.takeWhile isTagByte ++ [dollar])) content with
    | none => exact List.nil_suffix
    | some rest => exact afterFirst_suffix hafter

theorem skipDelimited_suffix (closing : UInt8) : ∀ t : Text, skipDelimited closing t <:+ t
  | [] => suffix_refl _
  | [_] => List.nil_suffix
  | c :: d :: t => by
    rw [skipDelimited]
    split_ifs
    · exact ⟨[c, d], rfl⟩
    · exact (skipDelimited_suffix closing (d :: t)).trans (suffix_cons c _)

theorem skipOracleQuotedLiteral_suffix {c : UInt8} {t rest : Text}
    (h : skipOracleQuotedLiteral (c :: t) = some rest) : rest <:+ t := by
  unfold skipOracleQuotedLiteral at h
  split at h
  · rename_i quote opening d u heq
    cases heq
    split_ifs at h
    cases h
    exact (skipDelimited_suffix _ _).trans ⟨[quote, opening], rfl⟩
  · cases h

theorem skipFraction_suffix (t : Text) : skipFraction t <:+ t := by
  cases t with
  | nil => exact suffix_refl _
  | cons c t =>
    rw [skipFraction]
    split
    · exact (List.dropWhile_suffix _).trans (suffix_cons c t)
    · exact suffix_refl _

theorem skipSign_suffix (t : Text) : skipSign t <:+ t := by
  cases t with
  | nil => exact suffix_refl _
  | cons c t =>
    rw [skipSign]
    split
    · exact suffix_cons c t
    · exact suffix_refl _

theorem skipExponent_suffix (t : Text) : skipExponent t <:+ t := by
  cases t with
  | nil => exact suffix_refl _
  | cons c t =>
    rw [skipExponent]
    split
    · exact ((List.dropWhile_suffix _).trans (skipSign_suffix t)).trans (suffix_cons c t)
    · exact suffix_refl _

theorem skipNumber_suffix {c : UInt8} (hc : isDigit c = true) (t : Text) :
    skipNumber (c :: t) <:+ t := by
  unfold skipNumber
  split
  · exact (List.dropWhile_suffix _).trans (List.drop_suffix 1 t)
  · rw [dropWhile_cons_of_pos hc]
    exact ((skipExponent_suffix _).trans (skipFraction_suffix _)).trans (List.dropWhile_suffix _)

theorem redactRegion_suffix {c : UInt8} {t written rest : Text}
    (h : redactRegion c t = some (written, rest)) : rest <:+ t := by
  unfold redactRegion at h
  split at h
  · rename_i hopens
    cases h
    have hc : isLineEnd c = false := by
      rcases hopens with ⟨rfl, _⟩ | rfl
      · decide
      · decide
    rw [skipLineComment, dropWhile_cons_of_pos (by simp [hc])]
    exact List.dropWhile_suffix _
  · split at h
    · cases h
      exact (skipBlockComment_suffix 0 _).trans (List.tail_suffix t)
    · split at h
      · rename_i horacle
        cases h
        exact skipOracleQuotedLiteral_suffix horacle
      · split at h
        · rename_i hdollar
          cases h
          split_ifs at hdollar
          exact skipDollarQuotedLiteral_suffix hdollar
        · split_ifs at h
          cases h
          exact skipQuoted_suffix c t

theorem redactCode_suffix (previous : Option UInt8) (c : UInt8) (t : Text) :
    (redactCode previous c t).2 <:+ t := by
  unfold redactCode
  split
  · rename_i hnumber
    rw [isNumberStart, Bool.and_eq_true] at hnumber
    exact skipNumber_suffix hnumber.1 t
  · exact List.drop_suffix _ t

theorem redactStep_suffix (s : RedactState) (c : UInt8) (t : Text) :
    (redactStep s c t).2 <:+ t := by
  unfold redactStep
  cases hregion : redactRegion c t with
  | none => exact redactCode_suffix s.previous c t
  | some region => exact redactRegion_suffix (hregion : _ = some (region.1, region.2))

/-- The loop of `RedactSQL`. -/
def redactor : Scanner UInt8 RedactState where
  step s c t := some (redactStep s c t)
  step_suffix := by
    intro s c t s' t' h
    have hrest := redactStep_suffix s c t
    rw [Option.some.inj h] at hrest
    exact hrest

/-! ### Queries -/

/-- What `ReplaceAllString` makes of a text, for each of the patterns. -/
structure RedactionPatterns where
  sensitiveAssignment : Text → Text
  identifiedBy : Text → Text
  uriUserInfo : Text → Text
  bearer : Text → Text

def maxSQLRunes : ℕ := 64 * 1024

def redactSQL (patterns : RedactionPatterns) (sqlText : Text) : Text :=
  if trimSpace sqlText = [] then []
  else
    let redacted := patterns.sensitiveAssignment (redactor.run ⟨none, []⟩ sqlText).1.out
    let redacted := patterns.identifiedBy redacted
    let redacted := patterns.uriUserInfo redacted
    let redacted := patterns.bearer redacted
    truncateRunes (trimSpace redacted) maxSQLRunes

def sqlQueryTypes : List Text :=
  ["mysql", "mariadb", "goldendb", "greatdb", "gdb", "oceanbase", "doris", "diros", "starrocks",
    "sphinx", "postgres", "postgresql", "sqlserver", "mssql", "sqlite", "duckdb", "oracle",
    "dameng", "dm", "kingbase", "highgo", "vastbase", "opengauss", "gaussdb", "iris", "cache",
    "tdengine", "iotdb", "clickhouse", "trino", "custom", "gonavi"].map bytes

/-- The redaction of a Redis command enters as a function. -/
def redactQuery (unicode : UnicodeTables) (patterns : RedactionPatterns)
    (redactRedisQuery : Text → Text) (dbType text : Text) : Text :=
  let normalizedType := normalizeQueryType unicode dbType
  if normalizedType = bytes "redis" then redactRedisQuery text
  else if normalizedType ∈ sqlQueryTypes then redactSQL patterns text
  else []

end GoNavi.Sqlaudit
