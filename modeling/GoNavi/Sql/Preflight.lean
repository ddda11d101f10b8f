import GoNavi.Sql.Split

/-! # The preflight of an import

`sql_import_preflight.go` refuses statements that a client would carry out instead of the server:
`COPY FROM STDIN`, and the commands of `psql`, `sqlcmd`, `mysql`, SQL*Plus and `sqlite3`.  It reads
a statement line by line (`findSQLImportClientCommand`) with a lexer of its own
(`LexicalState.step`), and takes every line that begins in code for a command.

* `ImportRegion` is what the lexer can stand in, and `step_state` its step on the regions: the flags
  of the lexer are never set in another way.
* `ServerText` says of a statement that the reading of its lines meets no command.

**Main result**: a statement that begins with a keyword of the server is safe just if no line that
begins in code is a command and no backslash in code is one (`preflightSQLStatement_safe_iff`).
A query that goes on with `START WITH` on a line of its own is refused
(`preflightSQLStatement_hierarchical`). -/

namespace GoNavi.Sql

open Scan List

inductive SQLImportPreflightReasonCode where
  | postgresCopyFromStdin
  | psqlMetaCommand
  | sqlCmdCommand
  | mysqlClientCommand
  | sqlPlusCommand
  | sqliteClientCommand
deriving DecidableEq

structure SQLImportPreflightReason where
  code : SQLImportPreflightReasonCode
  dbType : Text
  statementIndex : ℤ
  directive : Text

structure SQLImportPreflightResult where
  safe : Bool
  reason : Option SQLImportPreflightReason := none

/-! ### `COPY FROM STDIN` -/

def isSQLImportPostgresDialect (dbType : Text) : Bool :=
  normalizeExplainLexicalDBType dbType ∈ [bytes "postgres", bytes "kingbase", bytes "highgo",
    bytes "vastbase", bytes "opengauss", bytes "gaussdb"]

/-- `isSQLImportMySQLClientDialect`, with the names of the MySQL rule for `--`. -/
def isSQLImportMySQLClientDialect (dbType : Text) : Bool := isMySQLDashDialect dbType

/-- The text behind the quote that closes a quoted value. -/
def skipSQLImportQuotedValue (quote : UInt8) : Text → Text
  | [] => []
  | [_] => []
  | c :: d :: t =>
    if c = backslash then skipSQLImportQuotedValue quote t
    else if c ≠ quote then skipSQLImportQuotedValue quote (d :: t)
    else if d = quote then skipSQLImportQuotedValue quote t
    else d :: t

theorem skipSQLImportQuotedValue_suffix (quote : UInt8) : ∀ t : Text,
    skipSQLImportQuotedValue quote t <:+ t
  | [] => suffix_refl _
  | [_] => List.nil_suffix
  | c :: d :: t => by
    have hskip : skipSQLImportQuotedValue quote t <:+ c :: d :: t :=
      ((skipSQLImportQuotedValue_suffix quote t).trans (suffix_cons _ _)).trans
        (suffix_cons _ _)
    rw [skipSQLImportQuotedValue]
    split_ifs
    · exact hskip
    · exact (skipSQLImportQuotedValue_suffix quote (d :: t)).trans (suffix_cons _ _)
    · exact hskip
    · exact suffix_cons _ _

/-- One turn of the loop of `isPostgresCopyFromStdinStatement` behind the white space, with the
depth of the parentheses: what it returns, if it does, and what is left to read. -/
def copyTurn (stmt : Text) (depth : ℕ) (c : UInt8) (t : Text) : (ℕ × Option Bool) × Text :=
  let before := (stmt.take (stmt.length - (t.length + 1))).reverse
  let tag := parseSQLDollarTagAt before t
  let word := c :: t.takeWhile isSQLIdentifierPart
  let behind := t.dropWhile isSQLIdentifierPart
  if c ∈ ([singleQuote, doubleQuote, backtick] : Text) then
    ((depth, none), skipSQLImportQuotedValue c t)
  else if c = '('.toUInt8 then ((depth + 1, none), t)
  else if c = ')'.toUInt8 then ((depth - 1, none), t)
  else if c = dollar ∧ tag ≠ [] then
    match afterFirst tag (t.drop (tag.length - 1)) with
    | some u => ((depth, none), u)
    | none => ((depth, some false), t)
  else if isSQLIdentifierStart c = false then ((depth, none), t)
  else if depth = 0 ∧ toLower word = bytes "from" then
    ((depth, some ((nextSQLKeyword (skipSQLTrivia behind)).1 = bytes "stdin")), behind)
  else ((depth, none), behind)

theorem copyTurn_suffix (stmt : Text) (depth : ℕ) (c : UInt8) (t : Text) :
    (copyTurn stmt depth c t).2 <:+ t := by
  unfold copyTurn
  dsimp only
  split_ifs
  · exact skipSQLImportQuotedValue_suffix _ _
  · exact suffix_refl _
  · exact suffix_refl _
  · split
    · next h => exact (afterFirst_suffix h).trans (List.drop_suffix _ _)
    · exact suffix_refl _
  · exact suffix_refl _
  · exact List.dropWhile_suffix _
  · exact List.dropWhile_suffix _

theorem suffix_of_cons {c d : UInt8} {t u : Text} (h : d :: u <:+ c :: t) : u <:+ t := by
  rcases suffix_cons_iff.mp h with h | h
  · obtain ⟨-, rfl⟩ := List.cons.inj h
    exact suffix_refl _
  · exact (suffix_cons _ _).trans h

/-- The loop of `isPostgresCopyFromStdinStatement`, which stops at its `return`. -/
def copyLoop (stmt : Text) : Scanner UInt8 (ℕ × Option Bool) where
  step s c t :=
    match s.2, skipSQLTrivia (c :: t) with
    | none, d :: u => some (copyTurn stmt s.1 d u)
    | _, _ => none
  step_suffix := by
    intro s c t s' t' h
    split at h
    · next d u _ hskip =>
      have hturn := congrArg Prod.snd (Option.some.inj h)
      have hu : d :: u <:+ c :: t := hskip ▸ skipSQLTrivia_suffix _
      rw [← show (copyTurn stmt s.1 d u).2 = t' from hturn]
      exact (copyTurn_suffix _ _ _ _).trans (suffix_of_cons hu)
    · cases h

def isPostgresCopyFromStdinStatement (stmt : Text) : Bool :=
  let start := nextSQLKeyword stmt
  if start.1 ≠ bytes "copy" then false
  else (((copyLoop stmt).run (0, none) start.2).1.2).getD false

/-! ### Commands of a client -/

def firstSQLImportDirectiveToken (line : Text) : Text :=
  line.takeWhile (· ∉ ([0x20, 0x09, 0x0D, newline, semicolon] : Text))

/-- `strings.EqualFold(token, "source")`: besides ASCII only the long s folds to a letter of it. -/
def isSourceToken (token : Text) : Bool :=
  toLower token = bytes "source" ∨
    (token.take 2 = [0xC5, 0xBF] ∧ toLower (token.drop 2) = bytes "ource")

def sqlPlusDirectives : List Text := [bytes "accept", bytes "btitle", bytes "break",
  bytes "column", bytes "compute", bytes "connect", bytes "define", bytes "disconnect",
  bytes "exit", bytes "host", bytes "print", bytes "prompt", bytes "quit", bytes "remark",
  bytes "spool", bytes "start", bytes "ttitle", bytes "undefine", bytes "variable",
  bytes "whenever"]

def isSQLPlusClientDirective (token : Text) : Bool :=
  (bytes "@").isPrefixOf token ||
    lowerName (if token.getLast? = some semicolon then token.dropLast else token) ∈
      sqlPlusDirectives

/-- The command of a client that a line is, by the `switch` of `findSQLImportClientCommand`. -/
def clientCommandLine (dbType line : Text) : Option (SQLImportPreflightReasonCode × Text) :=
  let trimmed := trimSpace line
  let token := firstSQLImportDirectiveToken trimmed
  let normalized := normalizeExplainLexicalDBType dbType
  if isSQLImportPostgresDialect dbType then
    if [backslash].isPrefixOf trimmed then some (.psqlMetaCommand, token) else none
  else if normalized = bytes "sqlserver" then
    if (bytes ":").isPrefixOf trimmed ∨ (bytes "!!").isPrefixOf trimmed then
      some (.sqlCmdCommand, token)
    else none
  else if isSQLImportMySQLClientDialect dbType then
    if isSourceToken token ∨ (bytes "\\.").isPrefixOf token ∨ (bytes "\\!").isPrefixOf token then
      some (.mysqlClientCommand, token)
    else none
  else if normalized ∈ [bytes "oracle", bytes "dameng"] then
    if isSQLPlusClientDirective token then
      some (.sqlPlusCommand, if (bytes "@@").isPrefixOf token then bytes "@@"
        else if (bytes "@").isPrefixOf token then bytes "@" else token)
    else none
  else if normalized = bytes "sqlite" then
    if (bytes ".").isPrefixOf token then some (.sqliteClientCommand, token) else none
  else none

/-- The code of a backslash outside quotes and comments, in the dialects where it is a command. -/
def backslashCommand (dbType : Text) : Option SQLImportPreflightReasonCode :=
  if isSQLImportPostgresDialect dbType then some .psqlMetaCommand
  else if isSQLImportMySQLClientDialect dbType then some .mysqlClientCommand
  else none

/-! ### The lexer -/

/-- `sqlImportPreflightLexicalState`. -/
structure LexicalState where
  inSingle : Bool := false
  inDouble : Bool := false
  inBacktick : Bool := false
  inLineComment : Bool := false
  inBlockComment : Bool := false
  escaped : Bool := false
  dollarTag : Text := []
  clientCommand : Option (SQLImportPreflightReasonCode × Text) := none

namespace LexicalState

def acceptsClientCommandLine (s : LexicalState) : Bool :=
  !s.inSingle && !s.inDouble && !s.inBacktick && !s.inBlockComment && s.dollarTag = []

/-- The body of the loop of `consume` in front of a byte: the new state, and how many bytes behind
the byte are taken with it. -/
def step (dbType before : Text) (s : LexicalState) (c : UInt8) (t : Text) : LexicalState × ℕ :=
  let next := t.head?
  let tag := parseSQLDollarTagAt before t
  if s.inLineComment then (if c = newline then { s with inLineComment := false } else s, 0)
  else if s.inBlockComment then
    if c = star ∧ next = some slash then ({ s with inBlockComment := false }, 1) else (s, 0)
  else if s.dollarTag ≠ [] then
    if s.dollarTag.isPrefixOf (c :: t) then
      ({ s with dollarTag := [] }, s.dollarTag.length - 1)
    else (s, 0)
  else if s.escaped then ({ s with escaped := false }, 0)
  else if (s.inSingle ∨ s.inDouble) ∧ c = backslash then ({ s with escaped := true }, 0)
  else if s.inDouble = false ∧ s.inBacktick = false ∧ c = singleQuote then
    if s.inSingle ∧ next = some singleQuote then (s, 1)
    else ({ s with inSingle := !s.inSingle }, 0)
  else if s.inSingle = false ∧ s.inBacktick = false ∧ c = doubleQuote then
    ({ s with inDouble := !s.inDouble }, 0)
  else if s.inSingle = false ∧ s.inDouble = false ∧ c = backtick then
    ({ s with inBacktick := !s.inBacktick }, 0)
  else if s.inSingle ∨ s.inDouble ∨ s.inBacktick then (s, 0)
  else if c = backslash then
    let token := firstSQLImportDirectiveToken (c :: t)
    ({ s with clientCommand := (backslashCommand dbType).map (·, token) }, 0)
  else if c = dash ∧ next = some dash ∧ isSQLDashLineCommentStart dbType t.tail then
    ({ s with inLineComment := true }, 1)
  else if c = hash ∧ supportsSQLHashLineComment dbType then ({ s with inLineComment := true }, 0)
  else if c = slash ∧ next = some star then ({ s with inBlockComment := true }, 1)
  else if c = dollar ∧ supportsSQLDollarQuote dbType then
    if tag ≠ [] then ({ s with dollarTag := tag }, tag.length - 1) else (s, 0)
  else (s, 0)

/-- The loop of `consume`, which returns once a command is found.  The bytes that are read stand
in the state, last one first. -/
def reader (dbType : Text) : Scanner UInt8 (Text × LexicalState) where
  step s c t :=
    if s.2.clientCommand.isSome then none
    else
      let p := s.2.step dbType s.1 c t
      some ((((c :: t).take (p.2 + 1)).reverse ++ s.1, p.1), t.drop p.2)
  step_suffix := by
    intro s c t s' t' h
    split_ifs at h
    cases h
    exact List.drop_suffix _ _

def consume (dbType : Text) (s : LexicalState) (text : Text) : LexicalState :=
  ((reader dbType).run ([], s) text).1.2

end LexicalState

/-- The loop of `findSQLImportClientCommand` over the lines. -/
def findClientCommand (dbType : Text) (s : LexicalState) :
    List Text → Option (SQLImportPreflightReasonCode × Text)
  | [] => none
  | line :: below =>
    match if s.acceptsClientCommandLine then clientCommandLine dbType line else none with
    | some command => some command
    | none =>
      let s := s.consume dbType line
      match s.clientCommand with
      | some command => some command
      | none =>
        if below = [] then none
        else findClientCommand dbType (s.consume dbType [newline]) below

def findSQLImportClientCommand (statement dbType : Text) :
    Option (SQLImportPreflightReasonCode × Text) :=
  findClientCommand dbType {} (statement.splitOn newline)

def preflightSQLStatement (stmt dbType : Text) (statementIndex : ℤ) : SQLImportPreflightResult :=
  let normalized := normalizeExplainLexicalDBType dbType
  if isSQLImportPostgresDialect normalized ∧ isPostgresCopyFromStdinStatement stmt then
    ⟨false, some ⟨.postgresCopyFromStdin, normalized, statementIndex, bytes "COPY FROM STDIN"⟩⟩
  else
    match findSQLImportClientCommand stmt normalized with
    | some (code, directive) => ⟨false, some ⟨code, normalized, statementIndex, directive⟩⟩
    | none => ⟨true, none⟩

/-! ### The regions of a statement -/

inductive ImportQuote where
  | single
  | double
  | backtick
deriving DecidableEq

def ImportQuote.byte : ImportQuote → UInt8
  | .single => singleQuote
  | .double => doubleQuote
  | .backtick => Sql.backtick

/-- What the next byte of a statement stands in. -/
inductive ImportRegion where
  | code
  | quoted (quote : ImportQuote) (escaped : Bool)
  | lineComment
  | blockComment
  | dollarQuoted (tag : { tag : Text // tag ≠ [] })

namespace ImportRegion

/-- A command may begin: the region is no quote and no block comment. -/
def OpensLine : ImportRegion → Prop
  | .code | .lineComment => True
  | _ => False

/-- The region behind a byte, and how many bytes behind the byte are read with it. -/
def next (dbType before : Text) : ImportRegion → UInt8 → Text → ImportRegion × ℕ
  | .lineComment, c, _ => (if c = newline then .code else .lineComment, 0)
  | .blockComment, c, t =>
    if c = star ∧ t.head? = some slash then (.code, 1) else (.blockComment, 0)
  | .dollarQuoted tag, c, t =>
    if tag.1.isPrefixOf (c :: t) then (.code, tag.1.length - 1) else (.dollarQuoted tag, 0)
  | .quoted quote true, _, _ => (.quoted quote false, 0)
  | .quoted quote false, c, t =>
    if quote ≠ .backtick ∧ c = backslash then (.quoted quote true, 0)
    else if c ≠ quote.byte then (.quoted quote false, 0)
    else if quote = .single ∧ t.head? = some singleQuote then (.quoted quote false, 1)
    else (.code, 0)
  | .code, c, t =>
    if c = singleQuote then (.quoted .single false, 0)
    else if c = doubleQuote then (.quoted .double false, 0)
    else if c = Sql.backtick then (.quoted .backtick false, 0)
    else if c = dash ∧ t.head? = some dash ∧ isSQLDashLineCommentStart dbType t.tail then
      (.lineComment, 1)
    else if c = hash ∧ supportsSQLHashLineComment dbType then (.lineComment, 0)
    else if c = slash ∧ t.head? = some star then (.blockComment, 1)
    else if c = dollar ∧ supportsSQLDollarQuote dbType then
      if h : parseSQLDollarTagAt before t ≠ [] then
        (.dollarQuoted ⟨_, h⟩, (parseSQLDollarTagAt before t).length - 1)
      else (.code, 0)
    else (.code, 0)

/-- The flags of the lexer in a region. -/
def state : ImportRegion → LexicalState
  | .code => {}
  | .quoted .single escaped => { inSingle := true, escaped }
  | .quoted .double escaped => { inDouble := true, escaped }
  | .quoted .backtick escaped => { inBacktick := true, escaped }
  | .lineComment => { inLineComment := true }
  | .blockComment => { inBlockComment := true }
  | .dollarQuoted tag => { dollarTag := tag.1 }

@[simp] theorem state_clientCommand (r : ImportRegion) : r.state.clientCommand = none := by
  cases r with
  | quoted quote escaped => cases quote <;> rfl
  | _ => rfl

theorem state_accepts (r : ImportRegion) :
    r.state.acceptsClientCommandLine = true ↔ r.OpensLine := by
  cases r with
  | quoted quote escaped =>
    cases quote <;> simp [LexicalState.acceptsClientCommandLine, state, OpensLine]
  | dollarQuoted tag => simp [LexicalState.acceptsClientCommandLine, state, OpensLine, tag.2]
  | _ => simp [LexicalState.acceptsClientCommandLine, state, OpensLine]

variable {dbType before : Text} {r : ImportRegion} {c : UInt8} {t : Text}

/-- **The lexer goes from region to region**, unless it finds a command. -/
theorem step_state (h : r = .code → c = backslash → backslashCommand dbType = none) :
    r.state.step dbType before c t =
      ((r.next dbType before c t).1.state, (r.next dbType before c t).2) := by
  cases r with
  | code =>
    by_cases hsingle : c = singleQuote
    · simp [LexicalState.step, next, state, hsingle]
    by_cases hdouble : c = doubleQuote
    · subst hdouble
      rfl
    by_cases hback : c = Sql.backtick
    · subst hback
      rfl
    by_cases hcommand : c = backslash
    · subst hcommand
      unfold LexicalState.step
      rw [h rfl rfl]
      rfl
    simp only [LexicalState.step, next, state, hsingle, hdouble, hback, hcommand]
    simp only [Bool.false_eq_true, and_false, false_and, if_false, or_self, not_true_eq_false,
      ne_eq]
    split_ifs <;> rfl
  | quoted quote escaped =>
    cases escaped <;> cases quote <;> simp [LexicalState.step, next, state, ImportQuote.byte] <;>
      split_ifs <;> simp_all
  | lineComment => by_cases hc : c = newline <;> simp [LexicalState.step, next, state, hc]
  | blockComment =>
    by_cases hc : c = star ∧ t.head? = some slash <;> simp [LexicalState.step, next, state, hc]
  | dollarQuoted tag =>
    by_cases hc : tag.1.isPrefixOf (c :: t) <;>
      simp [LexicalState.step, next, state, hc, tag.2]

end ImportRegion

/-! ### Reading a statement -/

/-- The reading of a line: the bytes that are read, last one first, and the region. -/
def importReading (dbType : Text) : Scanner UInt8 (Text × ImportRegion) where
  step s c t :=
    let p := s.2.next dbType s.1 c t
    some ((((c :: t).take (p.2 + 1)).reverse ++ s.1, p.1), t.drop p.2)
  step_suffix := by
    intro s c t s' t' h
    cases h
    exact List.drop_suffix _ _

/-- The region at the end of a line that begins in `r`. -/
def ImportRegion.endOf (dbType : Text) (r : ImportRegion) (line : Text) : ImportRegion :=
  ((importReading dbType).run ([], r) line).1.2

/-- The region below lines of which the first one begins in `r`. -/
def ImportRegion.below (dbType : Text) (r : ImportRegion) (lines : List Text) : ImportRegion :=
  lines.foldl (fun r line => (r.endOf dbType line).endOf dbType [newline]) r

/-- The line that begins in `r` has no backslash in code, where that is a command. -/
def NoBackslash (dbType before : Text) (r : ImportRegion) (line : Text) : Prop :=
  ∀ before' t, (importReading dbType).Reach (before, r) line (before', .code) (backslash :: t) →
    backslashCommand dbType = none

/-- The lines have no command of a client: no line is one that begins outside quotes and block
comments, and no backslash outside quotes and comments is. -/
def ServerLines (dbType : Text) (r : ImportRegion) (lines : List Text) : Prop :=
  ∀ above line below, lines = above ++ line :: below →
    ((r.below dbType above).OpensLine → clientCommandLine dbType line = none) ∧
      NoBackslash dbType [] (r.below dbType above) line

/-- **A statement without a command of a client.** -/
def ServerText (dbType stmt : Text) : Prop := ServerLines dbType .code (stmt.splitOn newline)

section Reading

variable {dbType before line : Text} {r : ImportRegion} {c : UInt8} {t : Text}

theorem LexicalState.run_found {s : Text × LexicalState} (h : s.2.clientCommand.isSome = true) :
    (reader dbType).run s t = (s, t) := by
  cases t with
  | nil => rfl
  | cons c t => exact Scanner.run_stop (if_pos h)

/-- **The lexer on a line** finds a command, or comes to stand where the reading does.  Induction
on the line. -/
theorem consume_line (dbType before : Text) (r : ImportRegion) (line : Text) :
    (¬ NoBackslash dbType before r line ∧
      ((LexicalState.reader dbType).run (before, r.state) line).1.2.clientCommand ≠ none) ∨
    (NoBackslash dbType before r line ∧
      ((LexicalState.reader dbType).run (before, r.state) line).1.2 =
        ((importReading dbType).run (before, r) line).1.2.state) := by
  induction hn : line.length using Nat.strong_induction_on generalizing line before r with
  | _ n ih =>
    cases line with
    | nil =>
      refine .inr ⟨fun before' t h => ?_, rfl⟩
      rcases h.cases_head with ⟨_, h⟩ | ⟨_, _, _, _, h, _⟩ <;> cases h
    | cons c t =>
      have hread : (LexicalState.reader dbType).step (before, r.state) c t =
          some ((((c :: t).take ((r.state.step dbType before c t).2 + 1)).reverse ++ before,
            (r.state.step dbType before c t).1), t.drop (r.state.step dbType before c t).2) :=
        if_neg (by simp)
      rw [Scanner.run_step hread]
      by_cases hcommand : r = .code ∧ c = backslash ∧ backslashCommand dbType ≠ none
      · obtain ⟨rfl, rfl, hcode⟩ := hcommand
        refine .inl ⟨fun h => hcode (h _ _ .refl), ?_⟩
        obtain ⟨code, hcode⟩ := Option.ne_none_iff_exists'.mp hcode
        have hfound : ImportRegion.code.state.step dbType before backslash t = ({
            clientCommand := some (code, firstSQLImportDirectiveToken (backslash :: t)) }, 0) := by
          unfold LexicalState.step
          rw [hcode]
          rfl
        rw [hfound, LexicalState.run_found rfl]
        exact nofun
      · have hserver : r = .code → c = backslash → backslashCommand dbType = none := by
          intro hr hc
          exact not_not.mp fun hne => hcommand ⟨hr, hc, hne⟩
        have hstep : (importReading dbType).step (before, r) c t = some _ := rfl
        have hline : NoBackslash dbType before r (c :: t) ↔ NoBackslash dbType
            (((c :: t).take ((r.next dbType before c t).2 + 1)).reverse ++ before)
            (r.next dbType before c t).1 (t.drop (r.next dbType before c t).2) := by
          refine ⟨fun h _ _ hr => h _ _ (.head hstep hr), fun h before' u hr => ?_⟩
          rcases hr.cases_head with ⟨hs, hu⟩ | ⟨_, _, _, _, hd, hst, hr⟩
          · cases hs
            cases hu
            exact hserver rfl rfl
          · cases hd
            cases hst
            exact h _ _ hr
        rw [ImportRegion.step_state hserver, hline, Scanner.run_step hstep]
        refine ih _ ?_ _ _ _ rfl
        rw [length_drop, ← hn, length_cons]
        omega

theorem consume_state (h : NoBackslash dbType [] r line) :
    r.state.consume dbType line = (r.endOf dbType line).state := by
  rcases consume_line dbType [] r line with ⟨hnot, _⟩ | ⟨_, hstate⟩
  · exact absurd h hnot
  · exact hstate

theorem noBackslash_newline : NoBackslash dbType [] r [newline] := by
  intro before t h
  have hmem : backslash ∈ ([newline] : Text) := h.suffix.subset mem_cons_self
  exact absurd hmem (by decide)

theorem serverLines_cons {lines : List Text} : ServerLines dbType r (line :: lines) ↔
    ((r.OpensLine → clientCommandLine dbType line = none) ∧ NoBackslash dbType [] r line) ∧
      ServerLines dbType ((r.endOf dbType line).endOf dbType [newline]) lines := by
  constructor
  · refine fun h => ⟨h [] line lines rfl, fun above other below hlines => ?_⟩
    exact h (line :: above) other below (congrArg (line :: ·) hlines)
  · rintro ⟨hfirst, hlines⟩ above other below h
    cases above with
    | nil =>
      cases h
      exact hfirst
    | cons _ above =>
      cases h
      exact hlines above other below rfl

/-- **The loop over the lines finds no command just if the reading finds none.**  Induction on the
lines. -/
theorem findClientCommand_eq_none {lines : List Text} :
    findClientCommand dbType r.state lines = none ↔ ServerLines dbType r lines := by
  induction lines generalizing r with
  | nil => exact iff_of_true rfl fun above _ _ h => by simp at h
  | cons line lines ih =>
    rw [findClientCommand, serverLines_cons]
    by_cases hcommand : r.OpensLine ∧ clientCommandLine dbType line ≠ none
    · obtain ⟨command, hfound⟩ := Option.ne_none_iff_exists'.mp hcommand.2
      rw [if_pos (r.state_accepts.mpr hcommand.1), hfound]
      exact iff_of_false nofun fun h => nomatch h.1.1 hcommand.1
    · have hopens : r.OpensLine → clientCommandLine dbType line = none :=
        fun hopens => not_not.mp fun hne => hcommand ⟨hopens, hne⟩
      have hnone : (if r.state.acceptsClientCommandLine then clientCommandLine dbType line
          else none) = none := by
        split_ifs with haccepts
        · exact hopens (r.state_accepts.mp haccepts)
        · rfl
      rw [hnone]
      dsimp only
      rcases consume_line dbType [] r line with ⟨hnot, hfound⟩ | ⟨hline, _⟩
      · obtain ⟨command, hfound⟩ := Option.ne_none_iff_exists'.mp hfound
        rw [LexicalState.consume, hfound]
        exact iff_of_false nofun fun h => hnot h.1.2
      · rw [consume_state hline, ImportRegion.state_clientCommand,
          and_iff_right (And.intro hopens hline)]
        cases lines with
        | nil => exact iff_of_true rfl fun above _ _ h => by simp at h
        | cons other lines =>
          rw [if_neg (cons_ne_nil _ _), consume_state noBackslash_newline]
          exact ih

end Reading

/-! ### Statements of the server -/

/-- The keywords that begin a statement of the server. -/
def serverKeywords : List Text := [bytes "select", bytes "with", bytes "create", bytes "alter",
  bytes "insert", bytes "update", bytes "delete", bytes "merge", bytes "begin", bytes "declare"]

/-- **A statement that begins with a keyword of the server is safe just if it has no command of a
client in it**, in the reading of the preflight: a backslash escapes in single and double quotes of
every dialect, and brackets quote nothing. -/
theorem preflightSQLStatement_safe_iff {dbType stmt : Text}
    (hkeyword : (nextSQLKeyword stmt).1 ∈ serverKeywords) (statementIndex : ℤ) :
    (preflightSQLStatement stmt dbType statementIndex).safe = true ↔
      ServerText (normalizeExplainLexicalDBType dbType) stmt := by
  have hcopy : isPostgresCopyFromStdinStatement stmt = false := by
    refine if_pos fun h => ?_
    rw [h] at hkeyword
    exact absurd hkeyword (by decide)
  rw [ServerText, ← findClientCommand_eq_none, preflightSQLStatement, hcopy]
  simp only [Bool.false_eq_true, and_false, if_false]
  show _ ↔ findSQLImportClientCommand stmt (normalizeExplainLexicalDBType dbType) = none
  cases findSQLImportClientCommand stmt (normalizeExplainLexicalDBType dbType) with
  | none => exact iff_of_true rfl rfl
  | some command => exact iff_of_false nofun nofun

/-- The same words on one line are no command. -/
theorem serverText_oneLine : ServerText (normalizeExplainLexicalDBType (bytes "oracle"))
    (bytes "SELECT id FROM t START WITH id = 1") :=
  (preflightSQLStatement_safe_iff (by decide) 0).mp (by decide)

/-- A query of Oracle whose lines go on with `START WITH` and `CONNECT BY`. -/
def hierarchicalQuery : Text :=
  bytes "SELECT id FROM t\nSTART WITH id = 1\nCONNECT BY PRIOR id = parent"

/-- **A hierarchical query is refused**: the splitter gives it as one statement, it begins with
`SELECT`, has no backslash, and none of its lines begins with a mark of a client. -/
theorem preflightSQLStatement_hierarchical :
    splitSQLStatementsForDialect (bytes "oracle") hierarchicalQuery = [hierarchicalQuery] ∧
      (nextSQLKeyword hierarchicalQuery).1 ∈ serverKeywords ∧ backslash ∉ hierarchicalQuery ∧
      (∀ line ∈ hierarchicalQuery.splitOn newline,
        ∀ mark ∈ [bytes ":", bytes "!!", bytes ".", bytes "@"],
          mark.isPrefixOf (trimSpace line) = false) ∧
      (preflightSQLStatement hierarchicalQuery (bytes "oracle") 0).safe = false := by
  decide

end GoNavi.Sql
