import GoNavi.Sql.Lex

/-! # Dollar tags, slash lines and PL/SQL blocks

The look-ahead tests of `sql_split.go` that decide what a `$`, a `/` or a word means for
the splitters, and the bookkeeping of block nesting (`Block`) that a word causes.  The
batch splitter and the stream splitter run the same bookkeeping (`Block.word`) on a word. -/

namespace GoNavi.Sql

open Scan

/-! ### Dollar tags and slash lines -/

def isDollarNameByte (c : UInt8) : Bool :=
  isSQLIdentifierPart c && c != dollar && c != hash

/-- `parseSQLDollarTagAt`: the dollar tag that starts at a `$` with `t` behind it, where
`before` is the text in front of the `$`, last byte first; empty if there is none. -/
def parseSQLDollarTagAt (before t : Text) : Text :=
  if before.head?.any isSQLIdentifierPart then []
  else
    match t with
    | [] => []
    | c :: t =>
      if c = dollar then [dollar, dollar]
      else if isSQLIdentifierStart c then
        if (t.dropWhile isDollarNameByte).head? = some dollar then
          dollar :: c :: t.takeWhile isDollarNameByte ++ [dollar]
        else []
      else []

/-- `scanSQLStandaloneSlashLineSuffix`: whether what follows a `/` leaves it alone on its
line, up to one `;` (`seen` once it is passed) and a `--` comment.  The result is the rest
of the text from the end of the line on, and whether that end is in the text. -/
def slashLineSuffix : Bool → Text → Option (Text × Bool)
  | _, [] => some ([], false)
  | seen, c :: t =>
    if c = newline then some (c :: t, true)
    else if c = semicolon ∧ seen = false then slashLineSuffix true t
    else if c = dash ∧ t = [] then some ([], false)
    else if c = dash ∧ t.head? = some dash then
      some (scanSQLLineCommentEnd t.tail, !(scanSQLLineCommentEnd t.tail).isEmpty)
    else if isSQLHorizontalWhitespace c then slashLineSuffix seen t
    else none

def scanSQLStandaloneSlashLineSuffix (t : Text) : Option (Text × Bool) := slashLineSuffix false t

/-- The last line of a text, given last byte first, is horizontal white space. -/
def lineBlank (before : Text) : Bool :=
  (before.takeWhile (· != newline)).all isSQLHorizontalWhitespace

/-- `standaloneSQLSlashLineEnd`: the end of the line of a `/` that stands alone on it. -/
def standaloneSQLSlashLineEnd (before t : Text) : Option Text :=
  if lineBlank before then (scanSQLStandaloneSlashLineSuffix t).map Prod.fst else none

theorem slashLineSuffix_suffix : ∀ {seen : Bool} {t : Text} {p : Text × Bool},
    slashLineSuffix seen t = some p → p.1 <:+ t
  | _, [], p, h => by
    cases h
    exact List.suffix_refl _
  | seen, c :: t, p, h => by
    rw [slashLineSuffix] at h
    split_ifs at h with _ _ _ hd
    · cases h
      exact List.suffix_refl _
    · exact (slashLineSuffix_suffix h).trans (List.suffix_cons _ _)
    · cases h
      exact List.nil_suffix
    · cases h
      exact ((scanSQLLineCommentEnd_suffix _).trans (List.tail_suffix _)).trans
        (List.suffix_cons _ _)
    · exact (slashLineSuffix_suffix h).trans (List.suffix_cons _ _)

theorem standaloneSQLSlashLineEnd_suffix {before t u : Text}
    (h : standaloneSQLSlashLineEnd before t = some u) : u <:+ t := by
  unfold standaloneSQLSlashLineEnd at h
  split at h
  · obtain ⟨p, hp, rfl⟩ := Option.map_eq_some_iff.mp h
    exact slashLineSuffix_suffix hp
  · cases h

theorem scanSQLLineCommentEnd_head {c : UInt8} {t u : Text}
    (h : scanSQLLineCommentEnd t = c :: u) : c = newline := by
  unfold scanSQLLineCommentEnd at h
  have hne : t.dropWhile (· != newline) ≠ [] := by simp [h]
  have hhead := List.head_dropWhile_not (· != newline) hne
  simpa [h] using hhead

theorem slashLineSuffix_head {c : UInt8} {u : Text} : ∀ {seen : Bool} {t : Text}
    {p : Text × Bool}, slashLineSuffix seen t = some p → p.1 = c :: u → c = newline
  | _, [], p, h, hp => by
    cases h
    cases hp
  | seen, d :: t, p, h, hp => by
    rw [slashLineSuffix] at h
    split_ifs at h with hn
    · cases h
      cases hp
      exact hn
    · exact slashLineSuffix_head h hp
    · cases h
      cases hp
    · cases h
      exact scanSQLLineCommentEnd_head hp
    · exact slashLineSuffix_head h hp

/-- A slash line whose end is not in the text reaches to the end of the text. -/
theorem slashLineSuffix_incomplete {e : Text} : ∀ {seen : Bool} {t : Text},
    slashLineSuffix seen t = some (e, false) → e = []
  | _, [], h => by
    cases h
    rfl
  | seen, d :: t, h => by
    rw [slashLineSuffix] at h
    split_ifs at h
    · cases h
    · exact slashLineSuffix_incomplete h
    · cases h
      rfl
    · obtain ⟨rfl, hend⟩ := Prod.mk.inj (Option.some.inj h)
      simpa using hend
    · exact slashLineSuffix_incomplete h

theorem standaloneSQLSlashLineEnd_head {before t : Text} {c : UInt8} {u : Text}
    (h : standaloneSQLSlashLineEnd before t = some (c :: u)) : c = newline := by
  unfold standaloneSQLSlashLineEnd at h
  split at h
  · obtain ⟨p, hp, hu⟩ := Option.map_eq_some_iff.mp h
    exact slashLineSuffix_head hp hu
  · cases h

/-! ### Headers of statements -/

/-- Pass over `EDITIONABLE` and `NONEDITIONABLE`; the bound is never reached
(`skipEditionable_token`). -/
def skipEditionable : ℕ → Text × Text → Text × Text
  | 0, p => p
  | n + 1, p =>
    if p.1 = bytes "editionable" ∨ p.1 = bytes "noneditionable" then
      skipEditionable n (nextSQLSignificantTokenSpan p.2)
    else p

/-- The kind of object that the header `CREATE [OR REPLACE] [[NON]EDITIONABLE] kind` of a
statement creates, with the text behind it. -/
def createHeaderKind (text : Text) : Option (Text × Text) :=
  let create := nextSQLSignificantTokenSpan text
  if create.1 ≠ bytes "create" then none
  else
    let next := nextSQLSignificantTokenSpan create.2
    if next.1 = bytes "or" then
      let replace := nextSQLSignificantTokenSpan next.2
      if replace.1 ≠ bytes "replace" then none
      else some (skipEditionable text.length (nextSQLSignificantTokenSpan replace.2))
    else some (skipEditionable text.length next)

def isCreateRoutineHeaderPrefix (text : Text) : Bool :=
  match createHeaderKind text with
  | none => false
  | some (kind, rest) =>
    if kind = bytes "procedure" ∨ kind = bytes "function" then true
    else if kind ≠ bytes "package" then false
    else
      let token := nextSQLSignificantToken rest
      token = [] || token = bytes "body" || token.head?.any isSQLIdentifierStart

def isCreatePackageHeaderPrefix (text : Text) : Bool :=
  match createHeaderKind text with
  | none => false
  | some (kind, _) => kind = bytes "package"

/-! ### Blocks -/

/-- Whether a `BEGIN` with `t` behind it starts a transaction in the dialect. -/
def sqlBeginStartsTransactionForDialect (dbType t : Text) : Bool :=
  let second := nextSQLKeyword t
  let third := nextSQLKeyword second.2
  let normalized := normalizeSQLClassifierDBType dbType
  if normalized = bytes "sqlserver" then
    if second.1 ∈ [bytes "transaction", bytes "tran"] then true
    else if second.1 = bytes "distributed" then
      third.1 ∈ [bytes "transaction", bytes "tran"]
    else false
  else if normalized ∈ [bytes "oracle", bytes "dameng"] then false
  else if normalized = bytes "sqlite" then
    second.1 ∈ [[], bytes "transaction", bytes "deferred", bytes "immediate", bytes "exclusive"]
  else if normalized ∈ [bytes "mysql", bytes "mariadb", bytes "diros", bytes "starrocks",
      bytes "sphinx", bytes "oceanbase"] then
    second.1 ∈ [[], bytes "work"]
  else if normalized ∈ [bytes "postgres", bytes "kingbase", bytes "highgo", bytes "vastbase",
      bytes "opengauss", bytes "gaussdb"] then
    if second.1 ∈ [[], bytes "work", bytes "transaction", bytes "isolation", bytes "read",
        bytes "write", bytes "deferrable"] then true
    else if second.1 = bytes "not" then third.1 = bytes "deferrable"
    else false
  else if normalized ∈ [bytes "duckdb", bytes "iris", bytes "cache"] then
    second.1 ∈ [[], bytes "work", bytes "transaction"]
  else false

/-- Whether a `BEGIN` with `t` behind it opens a block. -/
def shouldEnterPLSQLBlockForDialect (dbType t : Text) : Bool :=
  let next := skipSQLTrivia t
  if next = [] ∨ next.head? = some semicolon then false
  else if sqlBeginStartsTransactionForDialect dbType t then false
  else
    let token := (nextSQLKeyword t).1
    let normalized := normalizeSQLClassifierDBType dbType
    if normalized = bytes "sqlserver" ∧ token ∈ [bytes "dialog", bytes "conversation"] then false
    else if normalized = [] ∧ token ∈ [bytes "transaction", bytes "work", bytes "isolation",
        bytes "read", bytes "write"] then false
    else true

def shouldEnterPLSQLDeclareBlock (t : Text) : Bool := nextSQLSignificantToken t ≠ []

/-- Whether an `END` with `t` behind it closes a control statement and not a block. -/
def isPLSQLControlEnd (t : Text) : Bool :=
  nextSQLSignificantToken t ∈ [bytes "if", bytes "loop", bytes "case"]

/-- Whether the word `token`, with `t` behind it, is the `IS` or `AS` of a routine whose
header stands in `statementPrefix`. -/
def shouldEnterPLSQLCreateRoutineBlock (statementPrefix token t : Text) : Bool :=
  if token ≠ bytes "is" ∧ token ≠ bytes "as" then false
  else
    let nextChar := nextSQLSignificantByte t
    if nextChar = 0 then false
    else if token = bytes "as" ∧ nextChar ∈ [dollar, singleQuote, doubleQuote] then false
    else isCreateRoutineHeaderPrefix statementPrefix

/-- The nesting of PL/SQL blocks, as the splitters count it. -/
structure Block where
  plsqlDepth : ℕ
  plsqlDeclareBeginSkips : ℕ
  plsqlCaseDepth : ℕ
  skipNextPLSQLCaseEndToken : Bool
  justClosedPLSQLBlock : Bool
deriving DecidableEq

namespace Block

/-- No block is open. -/
def initial : Block := ⟨0, 0, 0, false, false⟩

/-- What a word does as a `CASE`, or as a word that is not one. -/
def caseWord (b : Block) (token : Text) : Block :=
  if token = bytes "case" ∧ 0 < b.plsqlDepth then
    if b.skipNextPLSQLCaseEndToken then { b with skipNextPLSQLCaseEndToken := false }
    else { b with plsqlCaseDepth := b.plsqlCaseDepth + 1, justClosedPLSQLBlock := false }
  else if token ≠ bytes "case" then { b with skipNextPLSQLCaseEndToken := false }
  else b

/-- What a word, in lower case, does to the nesting, with `cur` the statement in front of it
and `t` the text behind it. -/
def word (dbType : Text) (b : Block) (cur token t : Text) : Block :=
  let b := b.caseWord token
  if token = bytes "begin" ∧ 0 < b.plsqlDeclareBeginSkips then
    { b with
      plsqlDeclareBeginSkips := b.plsqlDeclareBeginSkips - 1, justClosedPLSQLBlock := false }
  else if token = bytes "begin" ∧ shouldEnterPLSQLBlockForDialect dbType t then
    { b with plsqlDepth := b.plsqlDepth + 1, justClosedPLSQLBlock := false }
  else if token = bytes "declare" ∧ shouldEnterPLSQLDeclareBlock t then
    { b with
      plsqlDepth := b.plsqlDepth + 1
      plsqlDeclareBeginSkips := b.plsqlDeclareBeginSkips + 1
      justClosedPLSQLBlock := false }
  else if b.plsqlDepth = 0 ∧ shouldEnterPLSQLCreateRoutineBlock cur token t then
    { b with
      plsqlDepth := b.plsqlDepth + 1
      plsqlDeclareBeginSkips :=
        if isCreatePackageHeaderPrefix cur then b.plsqlDeclareBeginSkips
        else b.plsqlDeclareBeginSkips + 1
      justClosedPLSQLBlock := false }
  else if token = bytes "end" ∧ 0 < b.plsqlDepth ∧ 0 < b.plsqlCaseDepth then
    { b with
      plsqlCaseDepth := b.plsqlCaseDepth - 1
      skipNextPLSQLCaseEndToken :=
        if nextSQLSignificantToken t = bytes "case" then true else b.skipNextPLSQLCaseEndToken
      justClosedPLSQLBlock := false }
  else if token = bytes "end" ∧ 0 < b.plsqlDepth ∧ isPLSQLControlEnd t = false then
    { b with
      plsqlDepth := b.plsqlDepth - 1
      plsqlDeclareBeginSkips := min b.plsqlDeclareBeginSkips (b.plsqlDepth - 1)
      plsqlCaseDepth := min b.plsqlCaseDepth (b.plsqlDepth - 1)
      justClosedPLSQLBlock := b.plsqlDepth - 1 = 0 }
  else b

end Block

end GoNavi.Sql
