import GoNavi.Scan.Splice
import GoNavi.Sql.Block

/-! # Named parameters of a query

`Scan` of `sqlparam/scan.go`: the loop over a query text that finds `:name`, `${name}` and
the quoted forms `'{name}'` and `'text {name} text'`, outside comments and quotes.  The loop
is a scanner (`paramScanner`); its state has the flags of the loop and the spans found so far.

The byte classes and `parseDollarTagAt` are those of the statement splitter.
`scan_spaced` says that the spans stand in the text in order and do not overlap. -/

namespace GoNavi.Sqlparam

open Scan GoNavi.Sql List

/-! ### Lexical rules -/

structure ScanOptions where
  backslashEscapes : Bool
  hashComments : Bool
  dashCommentNeedsSpace : Bool
  bracketIdentifiers : Bool
  escapedBracketIdentifiers : Bool
  dollarQuotes : Bool
deriving DecidableEq

/-- The table of aliases is that of `normalizeExplainLexicalDBType`. -/
def normalizeDBType (dbType : Text) : Text := normalizeExplainLexicalDBType dbType

def mysqlTypes : List Text :=
  [bytes "mysql", bytes "mariadb", bytes "oceanbase", bytes "diros", bytes "starrocks",
    bytes "goldendb", bytes "sphinx", bytes "tidb"]

def postgresTypes : List Text :=
  [bytes "postgres", bytes "opengauss", bytes "gaussdb", bytes "kingbase", bytes "highgo",
    bytes "vastbase"]

def optionsForDBType (dbType : Text) : ScanOptions :=
  let normalized := normalizeDBType dbType
  let opts : ScanOptions := ⟨normalized ∈ mysqlTypes, false, false, false, false, false⟩
  if normalized = [] then { opts with hashComments := true, dollarQuotes := true }
  else if normalized ∈ mysqlTypes then
    { opts with hashComments := true, dashCommentNeedsSpace := true }
  else if normalized = bytes "clickhouse" then { opts with hashComments := true }
  else if normalized = bytes "sqlserver" then
    { opts with bracketIdentifiers := true, escapedBracketIdentifiers := true }
  else if normalized = bytes "sqlite" then { opts with bracketIdentifiers := true }
  else if normalized ∈ postgresTypes then { opts with dollarQuotes := true }
  else opts

/-! ### Names -/

abbrev colon : UInt8 := 0x3A
abbrev leftBrace : UInt8 := 0x7B
abbrev rightBrace : UInt8 := 0x7D

def isIdentifierStart (c : UInt8) : Bool := isSQLIdentifierStart c

def isIdentifierPart (c : UInt8) : Bool := isSQLIdentifierPart c

def parseDollarTagAt (before t : Text) : Text := parseSQLDollarTagAt before t

def isHorizontalWhitespaceByte (c : UInt8) : Bool :=
  c == 0x20 || c == 0x09 || c == 0x0A || c == 0x0D

/-- Whether `--` with `t` behind it starts a comment. -/
def dashCommentStartsAt (needsSpace : Bool) (t : Text) : Bool :=
  if needsSpace then isMySQLDashCommentStart t else true

def isQuotedParamName : Text → Bool
  | [] => false
  | c :: t => isIdentifierStart c && t.all fun d => isIdentifierPart d && d != dollar && d != hash

/-- The parameter `{name}` in front of a text: its name and the text behind it. -/
def templateParamAt : Text → Option (Text × Text)
  | [] => none
  | c :: t =>
    let name := t.takeWhile (· != rightBrace)
    let rest := t.dropWhile (· != rightBrace)
    if c = leftBrace ∧ rest ≠ [] ∧ isQuotedParamName name then some (name, rest.tail) else none

variable {c : UInt8} {t : Text}

theorem templateParamAt_suffix {p : Text × Text} (h : templateParamAt (c :: t) = some p) :
    p.2 <:+ t := by
  rw [templateParamAt] at h
  split_ifs at h
  cases h
  exact (List.tail_suffix _).trans (List.dropWhile_suffix _)

/-- The loop of `extractTemplateNames`, with the names found so far. -/
def templateNames : Scanner UInt8 (List Text) where
  step names c t :=
    match templateParamAt (c :: t) with
    | none => some (names, t)
    | some (name, rest) => some (if name ∈ names then names else names ++ [name], rest)
  step_suffix := by
    intro names c t s' t' h
    split at h
    · cases h
      exact suffix_refl _
    · next hp =>
      cases h
      exact templateParamAt_suffix hp

def extractTemplateNames (content : Text) : List Text := (templateNames.run [] content).1

/-- The name of `${name}` in front of `{` and the text behind the `$`, and what follows it. -/
def bracedName (t : Text) : Option (Text × Text) :=
  let inName : UInt8 → Bool := fun d => d != rightBrace && !isHorizontalWhitespaceByte d
  let name := t.tail.takeWhile inName
  let rest := t.tail.dropWhile inName
  if t.head? = some leftBrace ∧ rest.head? = some rightBrace ∧ name ≠ [] then
    some (name, rest.tail)
  else none

/-- The name of `:name` with `t` behind the colon and `before` in front of it, last byte
first, and what follows it. -/
def colonName (before t : Text) : Option (Text × Text) :=
  if t.head?.any isIdentifierStart ∧ before.head? ≠ some colon ∧
      before.head?.any isIdentifierPart = false then
    some (t.head?.toList ++ t.tail.takeWhile isIdentifierPart, t.tail.dropWhile isIdentifierPart)
  else none

/-- The unquoted parameter that starts at `c`: its name and what follows it. -/
def unquotedParam (before : Text) (c : UInt8) (t : Text) : Option (Text × Text) :=
  if c = dollar then bracedName t
  else if c = colon then colonName before t
  else none

/-! ### The loop -/

structure Span where
  name : Text
  start : ℕ
  stop : ℕ
  /-- The content of the string literal of a template, empty for the other parameters. -/
  template : Text
deriving DecidableEq

def Span.bounds (s : Span) : ℕ × ℕ := (s.start, s.stop)

structure ScanState where
  spans : List Span
  inSingle : Bool
  inDouble : Bool
  inBacktick : Bool
  inBracket : Bool
  singleStart : ℕ
  inLineComment : Bool
  inBlockComment : Bool
  escaped : Bool
  dollarTag : Text
deriving DecidableEq

def ScanState.init : ScanState := ⟨[], false, false, false, false, 0, false, false, false, []⟩

/-- The spans that the string literal with the given content adds. -/
def quotedSpans (content : Text) (start stop : ℕ) : List Span :=
  let name := content.tail.dropLast
  if content.length > 1 ∧ content.head? = some leftBrace ∧ content.getLast? = some rightBrace ∧
      isQuotedParamName name then [⟨name, start, stop, []⟩]
  else
    match extractTemplateNames content with
    | [] => []
    | first :: _ => [⟨first, start, stop, content⟩]

/-- The branches inside comments, bracketed identifiers and dollar quotes. -/
def ScanState.comment (opts : ScanOptions) (s : ScanState) (c : UInt8) (t : Text) :
    Option (ScanState × Text) :=
  let next := t.head?
  if s.inLineComment then
    some (if c = newline then { s with inLineComment := false } else s, t)
  else if s.inBlockComment then
    if c = star ∧ next = some slash then some ({ s with inBlockComment := false }, t.tail)
    else some (s, t)
  else if s.inBracket then
    if c = rightBracket then
      if opts.escapedBracketIdentifiers ∧ next = some rightBracket then some (s, t.tail)
      else some ({ s with inBracket := false }, t)
    else some (s, t)
  else if s.dollarTag ≠ [] then
    if s.dollarTag.isPrefixOf (c :: t) then
      some ({ s with dollarTag := [] }, t.drop (s.dollarTag.length - 1))
    else some (s, t)
  else none

/-- The branches for escapes and quotes; `i` is the position of `c` in `sql`. -/
def ScanState.quote (sql : Text) (opts : ScanOptions) (s : ScanState) (i : ℕ) (c : UInt8)
    (t : Text) : Option (ScanState × Text) :=
  let next := t.head?
  if s.escaped then some ({ s with escaped := false }, t)
  else if opts.backslashEscapes ∧ (s.inSingle ∨ s.inDouble) ∧ c = backslash then
    some ({ s with escaped := true }, t)
  else if s.inDouble = false ∧ s.inBacktick = false ∧ c = singleQuote then
    if s.inSingle ∧ next = some singleQuote then some (s, t.tail)
    else if s.inSingle then
      let content := (sql.take i).drop (s.singleStart + 1)
      some ({ s with inSingle := false,
                     spans := s.spans ++ quotedSpans content s.singleStart (i + 1) }, t)
    else some ({ s with inSingle := true, singleStart := i }, t)
  else if s.inSingle = false ∧ s.inBacktick = false ∧ c = doubleQuote then
    some ({ s with inDouble := !s.inDouble }, t)
  else if s.inSingle = false ∧ s.inDouble = false ∧ c = backtick then
    some ({ s with inBacktick := !s.inBacktick }, t)
  else if opts.bracketIdentifiers ∧ s.inSingle = false ∧ s.inDouble = false ∧
      s.inBacktick = false ∧ c = leftBracket then
    some ({ s with inBracket := true }, t)
  else if s.inSingle ∨ s.inDouble ∨ s.inBacktick then some (s, t)
  else none

/-- The branches in code: comment starts, dollar quotes and the unquoted parameters. -/
def ScanState.code (sql : Text) (opts : ScanOptions) (s : ScanState) (i : ℕ) (c : UInt8)
    (t : Text) : ScanState × Text :=
  let next := t.head?
  let before := (sql.take i).reverse
  let tag := parseDollarTagAt before t
  if c = dash ∧ next = some dash ∧ dashCommentStartsAt opts.dashCommentNeedsSpace t.tail then
    ({ s with inLineComment := true }, t)
  else if opts.hashComments ∧ c = hash then ({ s with inLineComment := true }, t)
  else if c = slash ∧ next = some star then ({ s with inBlockComment := true }, t.tail)
  else if opts.dollarQuotes ∧ c = dollar ∧ tag ≠ [] then
    ({ s with dollarTag := tag }, t.drop (tag.length - 1))
  else
    match unquotedParam before c t with
    | some (name, rest) =>
      ({ s with spans := s.spans ++ [⟨name, i, sql.length - rest.length, []⟩] }, rest)
    | none => (s, t)

/-- One turn of the loop in front of `c` with `t` behind it. -/
def ScanState.step (sql : Text) (opts : ScanOptions) (s : ScanState) (c : UInt8) (t : Text) :
    ScanState × Text :=
  let i := sql.length - (t.length + 1)
  match s.comment opts c t with
  | some r => r
  | none =>
    match s.quote sql opts i c t with
    | some r => r
    | none => s.code sql opts i c t

theorem bracedName_suffix {p : Text × Text} (h : bracedName t = some p) :
    p.2 <:+ t := by
  simp only [bracedName] at h
  split_ifs at h
  cases h
  exact ((List.tail_suffix _).trans (List.dropWhile_suffix _)).trans (List.tail_suffix _)

variable {opts : ScanOptions} {p : ScanState × Text} {s : ScanState}

theorem ScanState.comment_suffix (h : s.comment opts c t = some p) : p.2 <:+ t := by
  simp only [ScanState.comment] at h
  split_ifs at h <;> cases h <;>
    first | exact suffix_refl _ | exact List.tail_suffix _ | exact List.drop_suffix _ _

variable {i : ℕ} {sql : Text}

theorem ScanState.quote_suffix (h : s.quote sql opts i c t = some p) :
    p.2 <:+ t := by
  simp only [ScanState.quote] at h
  split_ifs at h <;> cases h <;> first | exact suffix_refl _ | exact List.tail_suffix _

theorem unquotedParam_suffix {before : Text} {p : Text × Text}
    (h : unquotedParam before c t = some p) : p.2 <:+ t := by
  simp only [unquotedParam, colonName] at h
  split_ifs at h
  · exact bracedName_suffix h
  · cases h
    exact (List.dropWhile_suffix _).trans (List.tail_suffix _)

theorem ScanState.code_suffix (sql : Text) (opts : ScanOptions) (s : ScanState) (i : ℕ)
    (c : UInt8) (t : Text) : (s.code sql opts i c t).2 <:+ t := by
  simp only [ScanState.code]
  split_ifs
  iterate 2 exact suffix_refl _
  · exact List.tail_suffix _
  · exact List.drop_suffix _ _
  · split
    · next hp => exact unquotedParam_suffix hp
    · exact suffix_refl _

theorem ScanState.step_suffix (sql : Text) (opts : ScanOptions) (s : ScanState) (c : UInt8)
    (t : Text) : (s.step sql opts c t).2 <:+ t := by
  simp only [ScanState.step]
  split
  · next h => exact comment_suffix h
  · split
    · next h => exact quote_suffix h
    · exact code_suffix _ _ _ _ _ _

def paramScanner (sql : Text) (opts : ScanOptions) : Scanner UInt8 ScanState where
  step s c t := some (s.step sql opts c t)
  step_suffix := by
    intro s c t s' t' h
    have hsuf := ScanState.step_suffix sql opts s c t
    rw [Option.some.inj h] at hsuf
    exact hsuf

def scan (sql : Text) (opts : ScanOptions) : List Span :=
  ((paramScanner sql opts).run ScanState.init sql).1.spans

/-! ### Where the spans stand -/

theorem quotedSpans_cases (content : Text) (start stop : ℕ) :
    quotedSpans content start stop = [] ∨
      ∃ sp : Span, quotedSpans content start stop = [sp] ∧ sp.bounds = (start, stop) := by
  simp only [quotedSpans]
  split
  · exact .inr ⟨_, rfl, rfl⟩
  · cases extractTemplateNames content with
    | nil => exact .inl rfl
    | cons first _ => exact .inr ⟨_, rfl, rfl⟩

/-- What a turn of the loop does to the spans: nothing, or it adds one that ends at the next
unread byte and starts at the byte looked at or at the quote that opened the literal. -/
structure SpanStep (sql : Text) (i : ℕ) (s s' : ScanState) (t' : Text) : Prop where
  spans : s'.spans = s.spans ∨ ∃ sp : Span, s'.spans = s.spans ++ [sp] ∧
    sp.stop = sql.length - t'.length ∧ s'.inSingle = false ∧
    (sp.start = i ∨ s.inSingle = true ∧ sp.start = s.singleStart)
  single : s'.inSingle = true →
    s'.singleStart = i ∨ s.inSingle = true ∧ s'.singleStart = s.singleStart

theorem SpanStep.same {s' : ScanState} {t' : Text} (h₁ : s'.spans = s.spans)
    (h₂ : s'.inSingle = s.inSingle) (h₃ : s'.singleStart = s.singleStart) :
    SpanStep sql i s s' t' :=
  ⟨.inl h₁, fun h => .inr ⟨h₂ ▸ h, h₃⟩⟩

theorem ScanState.comment_spanStep (h : s.comment opts c t = some p) :
    SpanStep sql i s p.1 p.2 := by
  simp only [ScanState.comment] at h
  split_ifs at h <;> cases h <;> exact .same rfl rfl rfl

/-- The closing quote of a literal adds the spans of the literal. -/
theorem ScanState.close_spanStep {content : Text} (hi : i + 1 = sql.length - t.length)
    (hs : s.inSingle = true) :
    SpanStep sql i s
      { s with inSingle := false
               spans := s.spans ++ quotedSpans content s.singleStart (i + 1) } t := by
  refine ⟨?_, fun h => by simp at h⟩
  rcases quotedSpans_cases content s.singleStart (i + 1) with hq | ⟨sp, hq, hb⟩
  · exact .inl (by simp [hq])
  · have hstart : sp.start = s.singleStart := congrArg Prod.fst hb
    have hstop : sp.stop = i + 1 := congrArg Prod.snd hb
    exact .inr ⟨sp, by simp [hq], by rw [hstop, hi], rfl, .inr ⟨hs, hstart⟩⟩

theorem ScanState.quote_spanStep (hi : i + 1 = sql.length - t.length)
    (h : s.quote sql opts i c t = some p) :
    SpanStep sql i s p.1 p.2 := by
  simp only [ScanState.quote] at h
  split_ifs at h with _ _ _ _ hs <;> cases h
  all_goals
    first
      | exact .same rfl rfl rfl
      | exact close_spanStep hi hs
      | exact ⟨.inl rfl, fun _ => .inl rfl⟩

theorem ScanState.inSingle_of_quote_eq_none (h : s.quote sql opts i c t = none) :
    s.inSingle = false := by
  simp only [ScanState.quote] at h
  split_ifs at h with _ _ _ _ _ _ _ _ hq
  exact Bool.eq_false_iff.mpr fun hs => hq (.inl hs)

theorem ScanState.code_spanStep (hs : s.inSingle = false) :
    SpanStep sql i s (s.code sql opts i c t).1 (s.code sql opts i c t).2 := by
  simp only [ScanState.code]
  split_ifs
  iterate 4 exact .same rfl rfl rfl
  split
  · exact ⟨.inr ⟨_, rfl, rfl, hs, .inl rfl⟩, fun h => absurd h (by simp [hs])⟩
  · exact .same rfl rfl rfl

theorem ScanState.step_spanStep (opts : ScanOptions) (ht : t.length < sql.length) :
    SpanStep sql (sql.length - (t.length + 1)) s (s.step sql opts c t).1
      (s.step sql opts c t).2 := by
  simp only [ScanState.step]
  split
  · next h => exact comment_spanStep h
  · split
    · next h => exact quote_spanStep (by omega) h
    · next h => exact code_spanStep (inSingle_of_quote_eq_none h)

/-- The invariant of the loop in front of `u`: the spans found so far stand in order in what
is read, and in front of the quote of a literal that is still open. -/
structure ScanInv (sql : Text) (s : ScanState) (u : Text) : Prop where
  suffix : u <:+ sql
  spaced : Spaced (sql.length - u.length) 0 (s.spans.map Span.bounds)
  single : s.inSingle = true → Spaced s.singleStart 0 (s.spans.map Span.bounds) ∧
    s.singleStart < sql.length - u.length

theorem ScanInv.step (opts : ScanOptions) (h : ScanInv sql s (c :: t)) :
    ScanInv sql (s.step sql opts c t).1 (s.step sql opts c t).2 := by
  have hlen : t.length < sql.length := h.suffix.length_le
  have hsuf := ScanState.step_suffix sql opts s c t
  have hle := hsuf.length_le
  have hstep := ScanState.step_spanStep opts (s := s) (c := c) hlen
  have hspaced := h.spaced
  have hsingle := h.single
  rw [length_cons] at hspaced hsingle
  refine ⟨(hsuf.trans (suffix_cons _ _)).trans h.suffix, ?_, fun hs' => ?_⟩
  · rcases hstep.spans with hsame | ⟨sp, hadd, hstop, -, hstart⟩
    · rw [hsame]
      exact hspaced.mono (by omega)
    · have hfront : Spaced sp.start 0 (s.spans.map Span.bounds) ∧
          sp.start < sql.length - t.length := by
        rcases hstart with hi | ⟨hs, hi⟩
        · rw [hi]
          exact ⟨hspaced, by omega⟩
        · rw [hi]
          exact ⟨(hsingle hs).1, by have := (hsingle hs).2; omega⟩
      rw [hadd, map_append, map_singleton]
      exact hfront.1.append_singleton (show sp.start < sp.stop by omega)
        (show sp.stop ≤ _ by omega)
  · rcases hstep.spans with hsame | ⟨_, _, _, hoff, _⟩
    · rw [hsame]
      rcases hstep.single hs' with hi | ⟨hs, hi⟩
      · rw [hi]
        exact ⟨hspaced, by omega⟩
      · rw [hi]
        exact ⟨(hsingle hs).1, by have := (hsingle hs).2; omega⟩
    · rw [hs'] at hoff
      cases hoff

/-- **The spans of a scan stand in the text in order and do not overlap.** -/
theorem scan_spaced (sql : Text) (opts : ScanOptions) :
    Spaced sql.length 0 ((scan sql opts).map Span.bounds) := by
  have h : ScanInv sql ((paramScanner sql opts).run ScanState.init sql).1
      ((paramScanner sql opts).run ScanState.init sql).2 := by
    refine Scanner.run_induction (P := ScanInv sql) ?_ ⟨suffix_refl _, ?_, ?_⟩
    · intro s c t s' t' h hst
      have := h.step opts
      rwa [Option.some.inj hst] at this
    · simp [ScanState.init, Spaced]
    · simp [ScanState.init]
  exact h.spaced.mono (Nat.sub_le _ _)

example : scan (bytes "SELECT a::int, :dup + '{x} 1'") (optionsForDBType (bytes "postgres")) =
    [⟨bytes "dup", 15, 19, []⟩, ⟨bytes "x", 22, 29, bytes "{x} 1"⟩] := by decide

end GoNavi.Sqlparam
