import GoNavi.Sql.Split
import Mathlib.Algebra.Ring.Nat

/-! # The stream splitter

`sqlStreamSplitter` of `sql_split_stream.go`.  `Feed` runs the loop of the batch splitter on
what was pending and the new chunk; where the bytes at hand do not decide what comes next,
it leaves them pending (`Verdict.wait`, and a step that stops).  It also knows what only a
client knows: the `DELIMITER` directive of MySQL, other delimiters than `;`, and the `GO`
lines of SQL Server, which repeat a batch.  `flushStatements` completes what is left at the
end of the input.

There is no limit on the size of a statement here, and with it none of the counters that only
serve to report one. -/

namespace GoNavi.Sql

open Scan

/-! ### Modes -/

/-- The outcome of the branches for comments and quoted text. -/
inductive Verdict where
  /-- The bytes at hand do not decide; they stay pending. -/
  | wait
  /-- The byte is taken, with the given number of bytes behind it. -/
  | take (mode : Mode) (extra : ℕ)
  /-- The byte is not in a comment or quoted text. -/
  | pass
deriving DecidableEq

/-- The branches of `Feed` for comments, bracketed identifiers and dollar quotes. -/
def Mode.feedComment (dbType : Text) (m : Mode) (c : UInt8) (t : Text) : Verdict :=
  let next := t.head?
  if m.inLineComment then
    .take (if c = newline then { m with inLineComment := false } else m) 0
  else if m.inBlockComment then
    if c = star ∧ t = [] then .wait
    else if c = star ∧ next = some slash then .take { m with inBlockComment := false } 1
    else .take m 0
  else if supportsSQLBracketIdentifier dbType ∧ m.inBracket then
    if c = rightBracket then
      if supportsSQLEscapedBracketIdentifier dbType ∧ next = some rightBracket then .take m 1
      else if supportsSQLEscapedBracketIdentifier dbType ∧ t = [] then .wait
      else .take { m with inBracket := false } 0
    else .take m 0
  else if m.dollarTag ≠ [] then
    if m.dollarTag.isPrefixOf (c :: t) then
      .take { m with dollarTag := [] } (m.dollarTag.length - 1)
    else if c = dollar ∧ (c :: t).length < m.dollarTag.length ∧
        (c :: t).isPrefixOf m.dollarTag then .wait
    else .take m 0
  else .pass

/-- The branches of `Feed` for escapes and quotes. -/
def Mode.feedLiteral (dbType : Text) (m : Mode) (c : UInt8) (t : Text) : Verdict :=
  let next := t.head?
  if m.escaped then .take { m with escaped := false } 0
  else if (m.inSingle ∨ m.inDouble) ∧ c = backslash then .take { m with escaped := true } 0
  else if m.inDouble = false ∧ m.inBacktick = false ∧ c = singleQuote then
    if m.inSingle ∧ t = [] then .wait
    else if m.inSingle ∧ next = some singleQuote then .take m 1
    else .take { m with inSingle := !m.inSingle } 0
  else if m.inSingle = false ∧ m.inBacktick = false ∧ c = doubleQuote then
    .take { m with inDouble := !m.inDouble } 0
  else if supportsSQLBracketIdentifier dbType ∧ m.inQuote = false ∧ c = leftBracket then
    .take { m with inBracket := true } 0
  else if m.inSingle = false ∧ m.inDouble = false ∧ c = backtick then
    .take { m with inBacktick := !m.inBacktick } 0
  else if m.inQuote then .take m 0
  else .pass

/-- The branches of `Feed` for comments and quoted text. -/
def Mode.feedQuoted (dbType : Text) (m : Mode) (c : UInt8) (t : Text) : Verdict :=
  match m.feedComment dbType c t with
  | .pass => m.feedLiteral dbType c t
  | v => v

section Modes

variable {dbType : Text} {m m' : Mode} {c : UInt8} {t : Text} {k : ℕ}

theorem Mode.comment_of_feedComment_take (h : m.feedComment dbType c t = .take m' k) :
    m.comment dbType c t = some (m', k) := by
  simp only [feedComment] at h
  simp only [comment]
  split_ifs at h ⊢ <;> simp_all

theorem Mode.comment_of_feedComment_pass (h : m.feedComment dbType c t = .pass) :
    m.comment dbType c t = none := by
  simp only [feedComment] at h
  simp only [comment]
  split_ifs at h ⊢
  simp_all

theorem Mode.literal_of_feedLiteral_take (h : m.feedLiteral dbType c t = .take m' k) :
    m.literal dbType true c t = some (m', k) := by
  -- the two loops test for a bracket and for a backtick in different orders
  have hne : leftBracket ≠ backtick := by decide
  simp only [feedLiteral] at h
  simp only [literal]
  split_ifs at h ⊢ <;> simp_all

theorem Mode.literal_of_feedLiteral_pass (h : m.feedLiteral dbType c t = .pass) :
    m.literal dbType true c t = none := by
  simp only [feedLiteral] at h
  simp only [literal]
  split_ifs at h ⊢ <;> simp_all

/-- Where `Feed` decides inside a comment or a quote, it decides as the batch splitter. -/
theorem Mode.quoted_of_feedQuoted_take (h : m.feedQuoted dbType c t = .take m' k) :
    m.quoted dbType true c t = some (m', k) := by
  unfold feedQuoted at h
  unfold quoted
  cases hc : m.feedComment dbType c t with
  | wait => simp [hc] at h
  | take m₁ k₁ =>
    simp only [hc] at h
    rw [comment_of_feedComment_take (h ▸ hc)]
  | pass =>
    simp only [hc] at h
    rw [comment_of_feedComment_pass hc]
    exact literal_of_feedLiteral_take h

theorem Mode.quoted_of_feedQuoted_pass (h : m.feedQuoted dbType c t = .pass) :
    m.quoted dbType true c t = none := by
  unfold feedQuoted at h
  unfold quoted
  cases hc : m.feedComment dbType c t with
  | wait => simp [hc] at h
  | take m₁ k₁ => simp [hc] at h
  | pass =>
    simp only [hc] at h
    rw [comment_of_feedComment_pass hc]
    exact literal_of_feedLiteral_pass h

/-- Outside comments and quotes, every byte but a quote and a bracket is left to the branches
for code. -/
theorem Mode.InCode.feedQuoted_pass (h : m.InCode dbType)
    (hc : c ∉ ([singleQuote, doubleQuote, backtick, leftBracket] : Text)) :
    m.feedQuoted dbType c t = .pass := by
  obtain ⟨hl, hb, hbr, hd, he, hq⟩ := h
  simp only [List.mem_cons, List.not_mem_nil, or_false, not_or] at hc
  obtain ⟨h₁, h₂, h₃, h₄⟩ := hc
  have hs : m.inSingle = false ∧ m.inDouble = false := by
    simp only [Mode.inQuote, Bool.or_eq_false_iff] at hq
    exact hq.1
  have hcomment : m.feedComment dbType c t = .pass := by
    simp [feedComment, hl, hb, hbr, hd]
  rw [feedQuoted, hcomment]
  simp [feedLiteral, he, hs, hq, h₁, h₂, h₃, h₄]

end Modes

/-! ### Client directives -/

/-- The outcome of the search for a directive on the current line. -/
inductive Directive (α : Type) where
  | no
  | incomplete
  | matched (value : α) (lineEnd : Text)
deriving DecidableEq

/-- `scanSQLStreamDelimiterDirective`, with the text behind the line. -/
def scanSQLStreamDelimiterDirective (eof : Bool) (t : Text) : Directive Text :=
  let keyword := bytes "delimiter"
  let line := t.takeWhile (· != newline)
  if (toLower (t.take keyword.length)).isPrefixOf keyword = false then .no
  else if t.length ≤ keyword.length then if eof then .no else .incomplete
  else if (t.drop keyword.length).head?.any isSQLHorizontalWhitespace = false then .no
  else if line.length = t.length ∧ eof = false then .incomplete
  else
    let value := trimSpace (line.drop keyword.length)
    if value = [] ∨ value.any (· ∈ ([0x20, 0x09, 0x0D, 0x0A] : Text)) then .no
    else .matched value (afterLine t)

/-- `strconv.Atoi`, for a positive result. -/
def positiveAtoi (t : Text) : Option ℕ :=
  let digits := if t.head? = some '+'.toUInt8 then t.tail else t
  if digits = [] ∨ digits.any (fun c => !isDigit c) then none
  else
    let n := digits.foldl (fun n c => 10 * n + (c.toNat - '0'.toNat)) 0
    if 0 < n ∧ n < 2 ^ 63 then some n else none

/-- The text in front of a `--`. -/
def beforeDashes : Text → Text
  | [] => []
  | c :: t => if c = dash ∧ t.head? = some dash then [] else c :: beforeDashes t

/-- `scanSQLStreamGoDirective`, with the text behind the line. -/
def scanSQLStreamGoDirective (eof : Bool) (t : Text) : Directive ℕ :=
  let keyword := bytes "go"
  let line := t.takeWhile (· != newline)
  if (toLower (t.take keyword.length)).isPrefixOf keyword = false then .no
  else if t.length < keyword.length then if eof then .no else .incomplete
  else if (t.drop keyword.length).head?.any (fun c => !isSQLBlankByte c) then .no
  else if line.length = t.length ∧ eof = false then .incomplete
  else
    let remainder := trimSpace (beforeDashes (trimSpace (line.drop keyword.length)))
    if remainder = [] then .matched 1 (afterLine t)
    else
      match positiveAtoi remainder with
      | some n => .matched n (afterLine t)
      | none => .no

/-- The delimiter in force starts here, or may start here. -/
def delimiterStartsAt (delimiter : Text) (t : Text) : Bool :=
  if delimiter = [semicolon] ∨ t = [] then false
  else delimiter.isPrefixOf t || (t.length < delimiter.length && t.isPrefixOf delimiter)

/-- The rest of a word, which ends in front of a delimiter. -/
def wordTail (delimiter : Text) : Text → Text
  | [] => []
  | c :: t =>
    if isSQLIdentifierPart c ∧ delimiterStartsAt delimiter (c :: t) = false then
      c :: wordTail delimiter t
    else []

/-! ### Keywords at the end of a chunk -/

/-- The keywords that open, close or head a block. -/
def blockKeywords : List Text :=
  [bytes "begin", bytes "declare", bytes "end", bytes "create", bytes "or", bytes "replace",
    bytes "editionable", bytes "noneditionable", bytes "procedure", bytes "function",
    bytes "package", bytes "body", bytes "is", bytes "as"]

/-- `shouldDeferPLSQLKeywordInStream`: the word `token`, with `t` behind it, has a meaning
that depends on tokens which are not complete yet. -/
def shouldDeferPLSQLKeywordInStream (token t : Text) : Bool :=
  if token ∉ blockKeywords then false
  else if t = [] then true
  else
    match skipSQLTrivia t with
    | [] => true
    | c :: u =>
      if isSQLIdentifierStart c then
        let nextEnd := u.dropWhile isSQLIdentifierPart
        if nextEnd = [] then true
        else if token = bytes "begin" ∧
            toLower (c :: u.takeWhile isSQLIdentifierPart) ∈ [bytes "not", bytes "distributed"] then
          match skipSQLTrivia nextEnd with
          | [] => true
          | d :: v => isSQLIdentifierStart d && (v.dropWhile isSQLIdentifierPart).isEmpty
        else false
      else false

/-- `shouldDeferPLSQLKeywordPrefixInStream`: the word `token` ends the text and may grow to a
keyword. -/
def shouldDeferPLSQLKeywordPrefixInStream (before token t : Text) : Bool :=
  if t ≠ [] then false
  else if blockKeywords.any fun keyword => token.isPrefixOf keyword && token ≠ keyword then
    !before.head?.any isSQLIdentifierPart
  else false

/-- `isIncompleteSQLDollarTagAt`, at a `$` with `t` behind it. -/
def isIncompleteSQLDollarTagAt (before t : Text) : Bool :=
  !before.head?.any isSQLIdentifierPart && t.all isSQLKeywordByte

/-! ### The splitter -/

structure StreamSplitter where
  delimiter : Text
  cur : Text
  pending : Text
  mode : Mode
  block : Block
  sqlServerBatch : List Text
  preserveSQLServerBatch : Bool
  sqlServerGoSeen : Bool
deriving DecidableEq

/-- What happens to the bytes that a step of `Feed` takes. -/
inductive StreamEffect where
  | keep
  | push
  | keepPush
  /-- A `DELIMITER` line. -/
  | setDelimiter (delimiter : Text)
  /-- A `GO` line, which runs the batch the given number of times. -/
  | go (times : ℕ)

structure StreamAction where
  effect : StreamEffect
  mode : Mode
  block : Block
  extra : ℕ

namespace StreamSplitter

/-- A new splitter. -/
def initial (preserveSQLServerBatch : Bool) : StreamSplitter :=
  ⟨[], [], [], .code, .initial, [], preserveSQLServerBatch, false⟩

def activeDelimiter (s : StreamSplitter) : Text :=
  if s.delimiter = [] then [semicolon] else s.delimiter

/-- `sqlStreamCurrentLineWhitespaceOnly`. -/
def currentLineBlank (s : StreamSplitter) : Bool := lineBlank s.cur.reverse

def canConsumeClientDirective (dbType : Text) (s : StreamSplitter) : Bool :=
  s.currentLineBlank && !hasExecutableSQLStatementContent dbType s.cur

/-- A `DELIMITER` line that may start at `t`. -/
def delimiterDirective (dbType : Text) (s : StreamSplitter) (t : Text) : Directive Text :=
  if isSQLStreamMySQLClientDialect dbType ∧ s.canConsumeClientDirective dbType then
    scanSQLStreamDelimiterDirective false t
  else .no

/-- A `GO` line that may start at `t`. -/
def goDirective (dbType : Text) (s : StreamSplitter) (t : Text) : Directive ℕ :=
  if isSQLServerLexical dbType ∧ s.currentLineBlank then scanSQLStreamGoDirective false t
  else .no

/-- A delimiter other than `;` that starts at `t`: `some true` if it is there, `some false` if
the text ends inside it. -/
def customDelimiter (s : StreamSplitter) (t : Text) : Option Bool :=
  if s.activeDelimiter = [semicolon] then none
  else if s.activeDelimiter.isPrefixOf t then some true
  else if t.length < s.activeDelimiter.length ∧ t.isPrefixOf s.activeDelimiter then some false
  else none

/-- The step on a word that starts with `c`. -/
def word (dbType : Text) (s : StreamSplitter) (before : Text) (c : UInt8) (t : Text) :
    Option StreamAction :=
  let tail := wordTail s.activeDelimiter t
  let rest := t.drop tail.length
  let token := toLower (c :: tail)
  if shouldDeferPLSQLKeywordPrefixInStream before token rest then none
  else if shouldDeferPLSQLKeywordInStream token rest then none
  else some ⟨.keep, s.mode, s.block.word dbType s.cur token rest, tail.length⟩

/-- The step on a `;` or a full-width one. -/
def semicolonAction (s : StreamSplitter) (extra : ℕ) : StreamAction :=
  if s.preserveSQLServerBatch then ⟨.keep, s.mode, s.block, extra⟩
  else if 0 < s.block.plsqlDepth then ⟨.keep, s.mode, s.block, extra⟩
  else if s.block.justClosedPLSQLBlock then
    ⟨.keepPush, s.mode, { s.block with justClosedPLSQLBlock := false }, extra⟩
  else ⟨.push, s.mode, s.block, extra⟩

/-- The slash line that starts here, if there is one. -/
def slashLine (s : StreamSplitter) (c : UInt8) (t : Text) : Option (Text × Bool) :=
  if c = slash ∧ (s.block.justClosedPLSQLBlock ∨ trimSpace s.cur = []) ∧ s.currentLineBlank then
    scanSQLStandaloneSlashLineSuffix t
  else none

/-- The step on a byte of code that starts no word, no line comment and no slash line. -/
def punctuation (dbType : Text) (s : StreamSplitter) (before : Text) (c : UInt8) (t : Text) :
    Option StreamAction :=
  if c = slash ∧ t = [] then none
  else if c = slash ∧ t.head? = some star then
    some ⟨.keep, { s.mode with inBlockComment := true }, s.block, 1⟩
  else if c = dollar ∧ supportsSQLDollarQuote dbType ∧ parseSQLDollarTagAt before t ≠ [] then
    let tag := parseSQLDollarTagAt before t
    some ⟨.keep, { s.mode with dollarTag := tag }, s.block, tag.length - 1⟩
  else if c = dollar ∧ supportsSQLDollarQuote dbType ∧ isIncompleteSQLDollarTagAt before t then
    none
  else if c = semicolon then some (s.semicolonAction 0)
  else if c = 0xEF ∧ t.length < 2 then none
  else if fullWidthSemicolon.isPrefixOf (c :: t) then some (s.semicolonAction 2)
  else some ⟨.keep, s.mode, s.block, 0⟩

/-- The step on a byte of code that starts no word. -/
def code (dbType : Text) (s : StreamSplitter) (before : Text) (c : UInt8) (t : Text) :
    Option StreamAction :=
  let next := t.head?
  if c = dash ∧ t = [] then none
  else if c = dash ∧ next = some dash ∧ isMySQLDashDialect dbType ∧ t.tail = [] then none
  else if c = dash ∧ next = some dash ∧ isSQLDashLineCommentStart dbType t.tail then
    some ⟨.keep, { s.mode with inLineComment := true }, s.block, 0⟩
  else if c = hash ∧ supportsSQLHashLineComment dbType then
    some ⟨.keep, { s.mode with inLineComment := true }, s.block, 0⟩
  else
    match s.slashLine c t with
    | some (_, false) => none
    | some (lineEnd, true) =>
      some ⟨.push, s.mode, { s.block with justClosedPLSQLBlock := false },
        t.length - lineEnd.tail.length⟩
    | none => s.punctuation dbType before c t

/-- The step on a word or another byte of code. -/
def wordOrCode (dbType : Text) (s : StreamSplitter) (before : Text) (c : UInt8) (t : Text) :
    Option StreamAction :=
  if isSQLIdentifierStart c then s.word dbType before c t else s.code dbType before c t

/-- The step on a byte outside comments and quotes: directives and delimiters first. -/
def plain (dbType : Text) (s : StreamSplitter) (before : Text) (c : UInt8) (t : Text) :
    Option StreamAction :=
  match s.delimiterDirective dbType (c :: t) with
  | .incomplete => none
  | .matched delimiter lineEnd =>
    some ⟨.setDelimiter delimiter, s.mode, s.block, t.length - lineEnd.length⟩
  | .no =>
    match s.goDirective dbType (c :: t) with
    | .incomplete => none
    | .matched times lineEnd =>
      some ⟨.go times, s.mode, { s.block with justClosedPLSQLBlock := false },
        t.length - lineEnd.length⟩
    | .no =>
      match s.customDelimiter (c :: t) with
      | some true =>
        some ⟨.push, s.mode, { s.block with justClosedPLSQLBlock := false },
          s.activeDelimiter.length - 1⟩
      | some false => none
      | none => s.wordOrCode dbType before c t

/-- The body of the loop of `Feed`; `none` leaves the rest pending. -/
def action (dbType : Text) (s : StreamSplitter) (before : Text) (c : UInt8) (t : Text) :
    Option StreamAction :=
  match s.mode.feedQuoted dbType c t with
  | .wait => none
  | .take m extra => some ⟨.keep, m, s.block, extra⟩
  | .pass => s.plain dbType before c t

/-- The batch of SQL Server after statements are completed. -/
def batchAfter (dbType : Text) (s : StreamSplitter) (completed : List Text) : List Text :=
  if isSQLServerLexical dbType then s.sqlServerBatch ++ completed else s.sqlServerBatch

/-- Carry out an action that takes the bytes `taken`: the new state, and the statements it
completes. -/
def apply (dbType : Text) (s : StreamSplitter) (a : StreamAction) (taken : Text) :
    StreamSplitter × List Text :=
  match a.effect with
  | .keep => ({ s with cur := s.cur ++ taken, mode := a.mode, block := a.block }, [])
  | .push =>
    let completed := Splitter.piece dbType s.cur
    ({ s with
      cur := [], mode := a.mode, block := a.block
      sqlServerBatch := s.batchAfter dbType completed }, completed)
  | .keepPush =>
    let completed := Splitter.piece dbType (s.cur ++ taken)
    ({ s with
      cur := [], mode := a.mode, block := a.block
      sqlServerBatch := s.batchAfter dbType completed }, completed)
  | .setDelimiter delimiter =>
    ({ s with cur := [], delimiter := delimiter, mode := a.mode, block := a.block }, [])
  | .go times =>
    let completed := Splitter.piece dbType s.cur
    ({ s with
      cur := [], mode := a.mode, block := a.block, sqlServerBatch := []
      sqlServerGoSeen := true },
      completed ++ (List.replicate (times - 1) (s.batchAfter dbType completed)).flatten)

end StreamSplitter

/-- State of the loop of `Feed`: the splitter, the text of this call already read, last byte
first, and the statements completed. -/
structure FeedState where
  core : StreamSplitter
  before : Text
  statements : List Text
deriving DecidableEq

/-- The loop of `Feed`. -/
def feeder (dbType : Text) : Scanner UInt8 FeedState where
  step s c t :=
    (s.core.action dbType s.before c t).map fun a =>
      let taken := c :: t.take a.extra
      let next := s.core.apply dbType a taken
      (⟨next.1, taken.reverse ++ s.before, s.statements ++ next.2⟩, t.drop a.extra)
  step_suffix := by
    intro s c t s' t' h
    obtain ⟨a, -, ha⟩ := Option.map_eq_some_iff.mp h
    cases ha
    exact List.drop_suffix _ _

namespace StreamSplitter

/-- `Feed`: the splitter after a chunk, and the statements completed in it. -/
def feed (dbType : Text) (s : StreamSplitter) (chunk : Text) : StreamSplitter × List Text :=
  let p := (feeder dbType).run ⟨{ s with pending := [] }, [], []⟩ (s.pending ++ chunk)
  ({ p.1.core with pending := p.2 }, p.1.statements)

/-- The end of `flushStatements`, when nothing is pending. -/
def flushCur (dbType : Text) (s : StreamSplitter) : List Text :=
  if s.preserveSQLServerBatch ∧ isSQLServerLexical dbType ∧ s.sqlServerGoSeen = false then
    splitSQLStatementsForDialect dbType (trimSpace s.cur)
  else (Splitter.piece dbType s.cur).filter (· ≠ [slash])

/-- The slash line that pending bytes are at the end of the input. -/
def flushSlashLine (s : StreamSplitter) : Bool :=
  match s.pending with
  | [] => false
  | c :: t => (s.slashLine c t).isSome

/-- `flushStatements`: the statements completed by the end of the input. -/
def flushStatements (dbType : Text) (s : StreamSplitter) : List Text :=
  if s.pending = [] then s.flushCur dbType
  else
    let go : Directive ℕ :=
      if isSQLServerLexical dbType ∧ s.currentLineBlank then scanSQLStreamGoDirective true s.pending
      else .no
    match go with
    | .matched times _ =>
      let completed := Splitter.piece dbType s.cur
      completed ++ (List.replicate (times - 1) (s.batchAfter dbType completed)).flatten
    | _ =>
      let delimiter : Directive Text :=
        if isSQLStreamMySQLClientDialect dbType ∧ s.canConsumeClientDirective dbType then
          scanSQLStreamDelimiterDirective true s.pending
        else .no
      match delimiter with
      | .matched _ _ => []
      | _ =>
        if s.flushSlashLine then Splitter.piece dbType s.cur
        else flushCur dbType { s with cur := s.cur ++ s.pending, pending := [] }

/-- Feed chunks one after the other. -/
def feedAll (dbType : Text) : StreamSplitter → List Text → StreamSplitter × List Text
  | s, [] => (s, [])
  | s, chunk :: chunks =>
    let p := s.feed dbType chunk
    let q := feedAll dbType p.1 chunks
    (q.1, p.2 ++ q.2)

end StreamSplitter

/-- The statements of an input that comes in chunks: those of every `Feed`, then those of
`flushStatements`. -/
def streamStatements (dbType : Text) (preserveSQLServerBatch : Bool) (chunks : List Text) :
    List Text :=
  let p := StreamSplitter.feedAll dbType (.initial preserveSQLServerBatch) chunks
  p.2 ++ p.1.flushStatements dbType

example : streamStatements (bytes "mysql") false
    [bytes "select 1;\nDELIM", bytes "ITER $$\nselect ';'$", bytes "$ select 2"] =
    [bytes "select 1", bytes "select ';'", bytes "select 2"] := by decide

end GoNavi.Sql
