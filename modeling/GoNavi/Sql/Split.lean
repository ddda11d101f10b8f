import GoNavi.Sql.Block

/-! # The batch splitter

`splitSQLStatementsForDialectMode` of `sql_split.go`, as a scanner over the normalised
text.  In front of a byte the loop decides on an `Action`: how many bytes it takes, what
the lexical mode and the block nesting become, and whether the bytes go to the statement
under construction (`cur`) or complete it.  The loop (`splitter`) carries the action out.

* `Mode.quoted` has the branches for comments (`Mode.comment`) and quoted text
  (`Mode.literal`), which only append.
* `Splitter.word` and `Splitter.code` have the branches for a word and for the other bytes
  of code.
* `Splitter.action_cases` lists what an action can be. -/

namespace GoNavi.Sql

open Scan

/-- The lexical mode: inside which quote or comment the next byte stands. -/
structure Mode where
  inSingle : Bool
  inDouble : Bool
  inBacktick : Bool
  inBracket : Bool
  escaped : Bool
  inLineComment : Bool
  inBlockComment : Bool
  dollarTag : Text
deriving DecidableEq

/-- Outside quotes and comments. -/
def Mode.code : Mode := ⟨false, false, false, false, false, false, false, []⟩

/-- Inside a quote that no comment or word is looked for in. -/
def Mode.inQuote (m : Mode) : Bool := m.inSingle || m.inDouble || m.inBacktick

/-- The branches of the loop for comments, bracketed identifiers and dollar quotes: the new
mode and how many bytes behind `c` are taken with it. -/
def Mode.comment (dbType : Text) (m : Mode) (c : UInt8) (t : Text) : Option (Mode × ℕ) :=
  let next := t.head?
  if m.inLineComment then
    some (if c = newline then { m with inLineComment := false } else m, 0)
  else if m.inBlockComment then
    if c = star ∧ next = some slash then some ({ m with inBlockComment := false }, 1)
    else some (m, 0)
  else if supportsSQLBracketIdentifier dbType ∧ m.inBracket then
    if c = rightBracket then
      if supportsSQLEscapedBracketIdentifier dbType ∧ next = some rightBracket then some (m, 1)
      else some ({ m with inBracket := false }, 0)
    else some (m, 0)
  else if m.dollarTag ≠ [] then
    if m.dollarTag.isPrefixOf (c :: t) then
      some ({ m with dollarTag := [] }, m.dollarTag.length - 1)
    else some (m, 0)
  else none

/-- The branches of the loop for escapes and quotes. -/
def Mode.literal (dbType : Text) (backslashEscapes : Bool) (m : Mode) (c : UInt8) (t : Text) :
    Option (Mode × ℕ) :=
  let next := t.head?
  if m.escaped then some ({ m with escaped := false }, 0)
  else if backslashEscapes ∧ (m.inSingle ∨ m.inDouble) ∧ c = backslash then
    some ({ m with escaped := true }, 0)
  else if m.inDouble = false ∧ m.inBacktick = false ∧ c = singleQuote then
    if m.inSingle ∧ next = some singleQuote then some (m, 1)
    else some ({ m with inSingle := !m.inSingle }, 0)
  else if m.inSingle = false ∧ m.inBacktick = false ∧ c = doubleQuote then
    some ({ m with inDouble := !m.inDouble }, 0)
  else if m.inSingle = false ∧ m.inDouble = false ∧ c = backtick then
    some ({ m with inBacktick := !m.inBacktick }, 0)
  else if supportsSQLBracketIdentifier dbType ∧ m.inQuote = false ∧ c = leftBracket then
    some ({ m with inBracket := true }, 0)
  else if m.inQuote then some (m, 0)
  else none

/-- The branches of the loop that only append: comments and quoted text.  `none` in front of
code. -/
def Mode.quoted (dbType : Text) (backslashEscapes : Bool) (m : Mode) (c : UInt8) (t : Text) :
    Option (Mode × ℕ) :=
  match m.comment dbType c t with
  | some p => some p
  | none => m.literal dbType backslashEscapes c t

variable {c : UInt8} {dbType t : Text} {m : Mode}

theorem Mode.comment_none (h : m.comment dbType c t = none) :
    m.inLineComment = false ∧ m.inBlockComment = false ∧
      ¬ (supportsSQLBracketIdentifier dbType = true ∧ m.inBracket = true) ∧ m.dollarTag = [] := by
  simp only [comment] at h
  split_ifs at h
  simp_all

/-- The mode stands outside comments and quotes. -/
structure Mode.InCode (dbType : Text) (m : Mode) : Prop where
  inLineComment : m.inLineComment = false
  inBlockComment : m.inBlockComment = false
  inBracket : ¬ (supportsSQLBracketIdentifier dbType = true ∧ m.inBracket = true)
  dollarTag : m.dollarTag = []
  escaped : m.escaped = false
  inQuote : m.inQuote = false

variable {esc : Bool}

theorem Mode.inCode_of_quoted_none (h : m.quoted dbType esc c t = none) :
    m.InCode dbType := by
  unfold quoted at h
  cases hc : m.comment dbType c t with
  | some p => simp [hc] at h
  | none =>
    obtain ⟨hl, hb, hbr, hd⟩ := comment_none hc
    simp only [hc, literal] at h
    split_ifs at h with he _ _ _ _ _ _ hq
    exact ⟨hl, hb, hbr, hd, by simpa using he, by simpa using hq⟩

theorem Mode.InCode.quoted_none (h : m.InCode dbType)
    (hc : c ∉ ([singleQuote, doubleQuote, backtick, leftBracket] : Text)) :
    m.quoted dbType esc c t = none := by
  obtain ⟨hl, hb, hbr, hd, he, hq⟩ := h
  simp only [List.mem_cons, List.not_mem_nil, or_false, not_or] at hc
  obtain ⟨h₁, h₂, h₃, h₄⟩ := hc
  have hs : m.inSingle = false ∧ m.inDouble = false := by
    simp only [Mode.inQuote, Bool.or_eq_false_iff] at hq
    exact hq.1
  have hcomment : m.comment dbType c t = none := by
    simp [comment, hl, hb, hbr, hd]
  rw [quoted, hcomment]
  simp [literal, he, hs, hq, h₁, h₂, h₃, h₄]

/-- What happens to the bytes an action takes. -/
inductive Effect where
  /-- They are appended to the statement. -/
  | keep
  /-- They are dropped, and the statement is complete. -/
  | push
  /-- They are appended, and the statement is complete. -/
  | keepPush
deriving DecidableEq

/-- A decision of the loop in front of a byte: the effect, the new mode and nesting, and how
many bytes behind the byte are taken with it. -/
structure Action where
  effect : Effect
  mode : Mode
  block : Block
  extra : ℕ

/-- State of the loop.  `before` is the text already read, last byte first. -/
structure Splitter where
  before : Text
  cur : Text
  statements : List Text
  mode : Mode
  block : Block
deriving DecidableEq

namespace Splitter

/-- The state in front of the text. -/
def initial : Splitter := ⟨[], [], [], .code, .initial⟩

/-- The action on a word that starts with `c`. -/
def word (dbType : Text) (s : Splitter) (c : UInt8) (t : Text) : Action :=
  let token := toLower (c :: t.takeWhile isSQLIdentifierPart)
  ⟨.keep, s.mode, s.block.word dbType s.cur token (t.dropWhile isSQLIdentifierPart),
    (t.takeWhile isSQLIdentifierPart).length⟩

/-- The action on a delimiter with `extra` bytes behind its first. -/
def delimiter (s : Splitter) (extra : ℕ) : Action :=
  if 0 < s.block.plsqlDepth then ⟨.keep, s.mode, s.block, extra⟩
  else if s.block.justClosedPLSQLBlock then
    ⟨.keepPush, s.mode, { s.block with justClosedPLSQLBlock := false }, extra⟩
  else ⟨.push, s.mode, s.block, extra⟩

/-- The end of the slash line that starts here, if there is one. -/
def slashLine (s : Splitter) (c : UInt8) (t : Text) : Option Text :=
  if c = slash ∧ (s.block.justClosedPLSQLBlock ∨ trimSpace s.cur = []) then
    standaloneSQLSlashLineEnd s.before t
  else none

/-- The action on a byte of code that starts no word, no line comment and no slash line. -/
def punctuation (dbType : Text) (s : Splitter) (c : UInt8) (t : Text) : Action :=
  if c = slash ∧ t.head? = some star then
    ⟨.keep, { s.mode with inBlockComment := true }, s.block, 1⟩
  else if c = dollar ∧ supportsSQLDollarQuote dbType ∧ parseSQLDollarTagAt s.before t ≠ [] then
    let tag := parseSQLDollarTagAt s.before t
    ⟨.keep, { s.mode with dollarTag := tag }, s.block, tag.length - 1⟩
  else if c = semicolon then s.delimiter 0
  else if fullWidthSemicolon.isPrefixOf (c :: t) then s.delimiter 2
  else ⟨.keep, s.mode, s.block, 0⟩

/-- The action on a byte of code that starts no word. -/
def code (dbType : Text) (s : Splitter) (c : UInt8) (t : Text) : Action :=
  let next := t.head?
  if c = dash ∧ next = some dash ∧ isSQLDashLineCommentStart dbType t.tail then
    ⟨.keep, { s.mode with inLineComment := true }, s.block, 0⟩
  else if c = hash ∧ supportsSQLHashLineComment dbType then
    ⟨.keep, { s.mode with inLineComment := true }, s.block, 0⟩
  else
    match s.slashLine c t with
    | some lineEnd =>
      ⟨.push, s.mode, { s.block with justClosedPLSQLBlock := false },
        t.length - lineEnd.tail.length⟩
    | none => s.punctuation dbType c t

/-- The body of the loop. -/
def action (dbType : Text) (backslashEscapes : Bool) (s : Splitter) (c : UInt8) (t : Text) :
    Action :=
  match s.mode.quoted dbType backslashEscapes c t with
  | some (m, extra) => ⟨.keep, m, s.block, extra⟩
  | none => if isSQLIdentifierStart c then s.word dbType c t else s.code dbType c t

/-- The slash line that `slashLine` finds stands alone on its line. -/
theorem slashLine_eq_some {s : Splitter} {lineEnd : Text} (h : s.slashLine c t = some lineEnd) :
    c = slash ∧ standaloneSQLSlashLineEnd s.before t = some lineEnd := by
  unfold slashLine at h
  split at h
  · next hc => exact ⟨hc.1, h⟩
  · cases h

/-- What an action can be: it keeps the bytes, or it is the action on a delimiter or on a
slash line. -/
theorem action_cases {s : Splitter}
    {P : Action → Prop} (keep : ∀ m b extra, P ⟨.keep, m, b, extra⟩)
    (semi : c = semicolon → P (s.delimiter 0))
    (fullWidth : fullWidthSemicolon <+: c :: t → P (s.delimiter 2))
    (line : ∀ lineEnd, c = slash → standaloneSQLSlashLineEnd s.before t = some lineEnd →
      P ⟨.push, s.mode, { s.block with justClosedPLSQLBlock := false },
        t.length - lineEnd.tail.length⟩) :
    P (s.action dbType esc c t) := by
  unfold action
  split
  · exact keep _ _ _
  · split
    · exact keep _ _ _
    · unfold code
      cases hl : s.slashLine c t with
      | some lineEnd =>
        obtain ⟨hc, hline⟩ := slashLine_eq_some hl
        dsimp only
        split_ifs
        · exact keep _ _ _
        · exact keep _ _ _
        · exact line lineEnd hc hline
      | none =>
        dsimp only
        unfold punctuation
        split_ifs with _ _ _ _ hsemi hfull
        · exact keep _ _ _
        · exact keep _ _ _
        · exact keep _ _ _
        · exact keep _ _ _
        · exact semi hsemi
        · exact fullWidth (List.isPrefixOf_iff_prefix.mp hfull)
        · exact keep _ _ _

/-- What `push` appends to the statements: the trimmed text, if it has executable content. -/
def piece (dbType cur : Text) : List Text :=
  let s := trimSpace cur
  if s ≠ [] ∧ hasExecutableSQLStatementContent dbType s then [s] else []

/-- Carry out an action in front of `c` and `t`. -/
def apply (dbType : Text) (s : Splitter) (a : Action) (c : UInt8) (t : Text) : Splitter :=
  let taken := c :: t.take a.extra
  let before := taken.reverse ++ s.before
  match a.effect with
  | .keep => ⟨before, s.cur ++ taken, s.statements, a.mode, a.block⟩
  | .push => ⟨before, [], s.statements ++ piece dbType s.cur, a.mode, a.block⟩
  | .keepPush => ⟨before, [], s.statements ++ piece dbType (s.cur ++ taken), a.mode, a.block⟩

end Splitter

/-- The loop of the batch splitter. -/
def splitter (dbType : Text) (backslashEscapes : Bool) : Scanner UInt8 Splitter where
  step s c t :=
    let a := s.action dbType backslashEscapes c t
    some (s.apply dbType a c t, t.drop a.extra)
  step_suffix := by
    intro s c t s' t' h
    cases h
    exact List.drop_suffix _ _

/-- `strings.ReplaceAll(sql, "\r\n", "\n")`. -/
def normalizeLineEnds : Text → Text
  | [] => []
  | [c] => [c]
  | c :: d :: t =>
    if c = 0x0D ∧ d = newline then newline :: normalizeLineEnds t
    else c :: normalizeLineEnds (d :: t)

/-- The state of the loop at the end of a text. -/
def splitText (dbType : Text) (backslashEscapes : Bool) (text : Text) : Splitter :=
  ((splitter dbType backslashEscapes).run Splitter.initial text).1

/-- The last `push`, at the end of the text. -/
def Splitter.finish (dbType : Text) (s : Splitter) : List Text :=
  s.statements ++ Splitter.piece dbType s.cur

def splitSQLStatementsForDialectMode (dbType sql : Text) (backslashEscapes : Bool) : List Text :=
  let text := normalizeLineEnds sql
  if isElasticsearch dbType then
    let source := trimSpace text
    if source ≠ [] then [source] else []
  else (splitText dbType backslashEscapes text).finish dbType

def splitSQLStatementsForDialect (dbType sql : Text) : List Text :=
  splitSQLStatementsForDialectMode dbType sql true

/-- What every step preserves about the statements holds of all statements, if it holds of
every piece. -/
theorem forall_mem_split {P : Text → Prop} {sql : Text}
    (hsource : ∀ t, trimSpace t ≠ [] → P (trimSpace t)) :
    ∀ s ∈ splitSQLStatementsForDialectMode dbType sql esc, P s := by
  have hpiece : ∀ cur, ∀ s ∈ Splitter.piece dbType cur, P s := by
    intro cur s hs
    unfold Splitter.piece at hs
    dsimp only at hs
    split_ifs at hs with h
    · exact List.mem_singleton.mp hs ▸ hsource cur h.1
    · cases hs
  have hrun : ∀ s ∈ (splitText dbType esc (normalizeLineEnds sql)).statements, P s := by
    refine Scanner.run_induction (M := splitter dbType esc)
      (P := fun s _ => ∀ x ∈ s.statements, P x) ?_ (fun x hx => nomatch hx)
    intro s c t s' t' h hstep
    cases hstep
    unfold Splitter.apply
    cases (s.action dbType esc c t).effect with
    | keep => exact h
    | push => exact fun x hx => (List.mem_append.mp hx).elim (h x) (hpiece _ x)
    | keepPush => exact fun x hx => (List.mem_append.mp hx).elim (h x) (hpiece _ x)
  intro s hs
  unfold splitSQLStatementsForDialectMode at hs
  dsimp only at hs
  split_ifs at hs with hes hne
  · exact List.mem_singleton.mp hs ▸ hsource _ hne
  · cases hs
  · exact (List.mem_append.mp hs).elim (hrun s) (hpiece _ s)

theorem trimSpace_of_mem_split {sql s : Text}
    (hs : s ∈ splitSQLStatementsForDialectMode dbType sql esc) : trimSpace s = s ∧ s ≠ [] :=
  forall_mem_split (P := fun s => trimSpace s = s ∧ s ≠ [])
    (fun t ht => ⟨trimSpace_trimSpace t, ht⟩) s hs

example : splitSQLStatementsForDialect (bytes "oracle")
    (bytes "select 1;\nbegin null; end;\n/\nselect ';' -- ;\n; -- end") =
    [bytes "select 1", bytes "begin null; end;", bytes "select ';' -- ;"] := by decide

end GoNavi.Sql
