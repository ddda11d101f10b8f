import GoNavi.Sql.Keyword

/-! # The read-only test of a statement

`isReadOnlySQLQuery` of `sql_sanitize.go` and what it asks: version comments
(`methods_explain.go`), `EXPLAIN ANALYZE`, pragmas, and the scan for a write keyword in the
body of a statement (`sql_embedded_write.go`).  For the document stores the test is a
classifier of JSON commands, which enters as a parameter (`DocumentGates`). -/

namespace GoNavi.Sql

open Scan List

/-! ### Version comments -/

/-- `skipMySQLQuotedText`: the text behind an open quote, with backslash escapes. -/
def skipMySQLQuotedText (quote : UInt8) : Text → Text
  | [] => []
  | [_] => []
  | c :: d :: t =>
    if c = backslash then skipMySQLQuotedText quote t
    else if c ≠ quote then skipMySQLQuotedText quote (d :: t)
    else if d = quote then skipMySQLQuotedText quote t
    else d :: t

def skipMySQLLineComment (t : Text) : Text := t.dropWhile fun c => c != newline && c != 0x0D

theorem skipMySQLQuotedText_suffix (quote : UInt8) :
    ∀ t : Text, skipMySQLQuotedText quote t <:+ t
  | [] => suffix_refl _
  | [_] => List.nil_suffix
  | c :: d :: t => by
    have htail : t <:+ c :: d :: t := (suffix_cons _ _).trans (suffix_cons _ _)
    rw [skipMySQLQuotedText]
    split_ifs
    · exact (skipMySQLQuotedText_suffix quote t).trans htail
    · exact (skipMySQLQuotedText_suffix quote (d :: t)).trans (suffix_cons _ _)
    · exact (skipMySQLQuotedText_suffix quote t).trans htail
    · exact suffix_cons _ _

def isVersionComment (t : Text) : Bool :=
  (bytes "/*!").isPrefixOf t || (bytes "/*m!").isPrefixOf (toLower (t.take 4))

/-- The loop of `hasExecutableSQLComment`, which stops at a version comment. -/
def versionCommentScanner : Scanner UInt8 Unit where
  step _ c t :=
    if isVersionComment (c :: t) then none
    else if c = singleQuote ∨ c = doubleQuote ∨ c = backtick then
      some ((), skipMySQLQuotedText c t)
    else if c = hash then some ((), skipMySQLLineComment t)
    else if c = dash ∧ t.head? = some dash ∧ isMySQLDashCommentStart t.tail then
      some ((), skipMySQLLineComment t.tail)
    else if c = slash ∧ t.head? = some star then some ((), afterBlock t.tail)
    else some ((), t)
  step_suffix := by
    intro s c t s' t' h
    split_ifs at h <;> cases h
    · exact skipMySQLQuotedText_suffix _ _
    · exact List.dropWhile_suffix _
    · exact (List.dropWhile_suffix _).trans (List.tail_suffix _)
    · exact (afterBlock_suffix _).trans (List.tail_suffix _)
    · exact suffix_refl _

def hasExecutableSQLComment (dbType query : Text) : Bool :=
  if normalizedName dbType ∈ [bytes "mysql", bytes "mariadb", bytes "oceanbase", bytes "diros",
      bytes "starrocks"] then
    !(versionCommentScanner.run () query).2.isEmpty
  else false

/-! ### `EXPLAIN ANALYZE` -/

/-- The words behind `EXPLAIN`: whether `ANALYZE` is among them, and the text behind them. -/
def explainOptions : ℕ → Bool → Text → Bool × Text
  | 0, analyze, pos => (analyze, pos)
  | n + 1, analyze, pos =>
    let option := nextSQLKeyword pos
    if option.1 ∈ [bytes "analyze", bytes "analyse"] then explainOptions n true option.2
    else if option.1 = bytes "verbose" then explainOptions n analyze option.2
    else (analyze, pos)

/-- Every option takes at least one byte, so the bound on their number is never what ends
the loop. -/
theorem explainOptions_eq_of_lt : ∀ {m n : ℕ} {analyze : Bool} {pos : Text}, pos.length < m →
    pos.length < n → explainOptions m analyze pos = explainOptions n analyze pos
  | 0, _, _, _, hm, _ => absurd hm (Nat.not_lt_zero _)
  | _ + 1, 0, _, _, _, hn => absurd hn (Nat.not_lt_zero _)
  | m + 1, n + 1, analyze, pos, hm, hn => by
    have hlen : (nextSQLKeyword pos).1 ≠ [] → (nextSQLKeyword pos).2.length < pos.length :=
      nextSQLKeyword_length
    simp only [explainOptions]
    split_ifs with ha hv
    · have := hlen (by rintro h; rw [h] at ha; revert ha; decide)
      exact explainOptions_eq_of_lt (by omega) (by omega)
    · have := hlen (by rw [hv]; decide)
      exact explainOptions_eq_of_lt (by omega) (by omega)
    · rfl

/-- Behind an `EXPLAIN`: whether the statement is executed, and where it starts; `none` if
the parentheses of the options do not close. -/
def explainAnalyzeBody (dbType pos : Text) : Option (Bool × Text) :=
  if pos.head? = some leftParen then
    (skipBalancedSQLParens dbType pos).map fun next =>
      let options := pos.tail.take (pos.tail.length - next.length - 1)
      (sqlContainsKeyword dbType (bytes "analyze") options ||
        sqlContainsKeyword dbType (bytes "analyse") options, next)
  else some (explainOptions (pos.length + 1) false pos)

def explainAnalyzeMayWrite (dbType query : Text) : Bool :=
  let keyword := nextSQLKeyword query
  if keyword.1 ≠ bytes "explain" then false
  else
    match explainAnalyzeBody dbType (skipSQLTrivia keyword.2) with
    | none => false
    | some (analyze, pos) =>
      if analyze = false then false
      else
        let body := skipSQLTrivia pos
        let info := sqlDataOperationInfo dbType body
        if info.2 || isSQLDataWriteKeyword info.1 then true
        else if info.1 = bytes "select" ∧ isSQLSelectIntoStatement dbType body then true
        else info.1 ∈ [bytes "create", bytes "execute", bytes "call"]

/-! ### Pragmas -/

/-- `strings.ReplaceAll` of a doubled quote by a single one. -/
def unescapeQuote (quote : UInt8) : Text → Text
  | [] => []
  | [c] => [c]
  | c :: d :: t =>
    if c = quote ∧ d = quote then quote :: unescapeQuote quote t
    else c :: unescapeQuote quote (d :: t)

/-- The name that an identifier token stands for. -/
def identifierName (token : Text) : Option Text :=
  match token with
  | [] => none
  | c :: t =>
    if c = doubleQuote ∨ c = backtick then
      if t = [] then none else some (unescapeQuote c t.dropLast)
    else if c = leftBracket then
      if t.getLast? = some rightBracket then some t.dropLast else none
    else some (c :: t)

/-- `readSQLIdentifierName`: the name of the next identifier, and the text behind it. -/
def readSQLIdentifierName (dbType t : Text) : Option (Text × Text) := do
  let pos := skipSQLTrivia t
  let next ← skipSQLIdentifierToken dbType pos
  let name ← identifierName (pos.take (pos.length - next.length))
  let name := lowerName (trimSpace name)
  if name = [] then none else some (name, next)

def isReadOnlyPragmaWithArgument (name : Text) : Bool :=
  name ∈ [bytes "foreign_key_check", bytes "foreign_key_list", bytes "index_info",
    bytes "index_xinfo", bytes "index_list", bytes "integrity_check", bytes "quick_check",
    bytes "table_info", bytes "table_xinfo"]

def isReadOnlyPragmaWithoutArgument (name : Text) : Bool :=
  name ∈ [bytes "analysis_limit", bytes "application_id", bytes "auto_vacuum",
    bytes "automatic_index", bytes "busy_timeout", bytes "cache_size", bytes "cache_spill",
    bytes "case_sensitive_like", bytes "cell_size_check", bytes "checkpoint_fullfsync",
    bytes "collation_list", bytes "compile_options", bytes "data_version",
    bytes "database_list", bytes "defer_foreign_keys", bytes "encoding",
    bytes "foreign_key_check", bytes "foreign_key_list", bytes "foreign_keys",
    bytes "freelist_count", bytes "full_column_names", bytes "fullfsync",
    bytes "function_list", bytes "hard_heap_limit", bytes "ignore_check_constraints",
    bytes "index_info", bytes "index_list", bytes "index_xinfo", bytes "integrity_check",
    bytes "journal_mode", bytes "journal_size_limit", bytes "legacy_alter_table",
    bytes "legacy_file_format", bytes "locking_mode", bytes "max_page_count",
    bytes "mmap_size", bytes "module_list", bytes "page_count", bytes "page_size",
    bytes "pragma_list", bytes "query_only", bytes "quick_check", bytes "read_uncommitted",
    bytes "recursive_triggers", bytes "reverse_unordered_selects", bytes "schema_version",
    bytes "secure_delete", bytes "short_column_names", bytes "soft_heap_limit",
    bytes "stats", bytes "synchronous", bytes "table_info", bytes "table_list",
    bytes "table_xinfo", bytes "temp_store", bytes "threads", bytes "trusted_schema",
    bytes "user_version", bytes "wal_autocheckpoint", bytes "writable_schema"]

/-- The white space, comments and semicolons that may end a pragma. -/
def pragmaTail : Scanner UInt8 Unit where
  step _ c t :=
    match trivia.step () c t with
    | some p => some p
    | none => if c = semicolon then some ((), t) else none
  step_suffix := by
    intro s c t s' t' h
    split at h
    · next p hp =>
      obtain rfl := Option.some.inj h
      exact trivia.step_suffix hp
    · split_ifs at h
      cases h
      exact suffix_refl _

/-- The pragma `name` with `pos` behind its name. -/
def pragmaValueMayWrite (name pos : Text) : Bool :=
  if pos.head? = some '='.toUInt8 then true
  else if pos.head? = some leftParen then !isReadOnlyPragmaWithArgument name
  else if (pragmaTail.run () pos).2 ≠ [] then true
  else !isReadOnlyPragmaWithoutArgument name

def pragmaMayWrite (dbType query : Text) : Bool :=
  let keyword := nextSQLKeyword query
  if keyword.1 ≠ bytes "pragma" then false
  else
    match readSQLIdentifierName dbType keyword.2 with
    | none => true
    | some (name, next) =>
      let pos := skipSQLTrivia next
      if pos.head? = some '.'.toUInt8 then
        match readSQLIdentifierName dbType pos.tail with
        | none => true
        | some (name, next) => pragmaValueMayWrite name (skipSQLTrivia next)
      else pragmaValueMayWrite name pos

/-! ### Embedded writes -/

/-- `embeddedWriteKeywords`. -/
def embeddedWriteKeywords : List Text :=
  [bytes "insert", bytes "delete", bytes "update", bytes "upsert", bytes "create",
    bytes "alter", bytes "drop", bytes "truncate", bytes "rename", bytes "grant",
    bytes "revoke"]

def isEmbeddedWriteKeywordToken (token : Text) : Bool := token ∈ embeddedWriteKeywords

/-- A write keyword behind one of these words does not write. -/
def isReadOnlyContextualKeyword (precedingToken : Text) : Bool :=
  precedingToken ∈ [bytes "show", bytes "explain"]

/-- State of the scan for an embedded write: the word before, whether that word is the
`UPDATE` of a `FOR UPDATE`, and the keyword found. -/
structure WriteScan where
  previousToken : Text
  updateNeedsOfCheck : Bool
  found : Text
deriving DecidableEq

namespace WriteScan

def initial : WriteScan := ⟨[], false, []⟩

/-- A word that is not the `OF` of a `FOR UPDATE OF`. -/
def plainWord (previousToken token : Text) : WriteScan :=
  if token = bytes "with" then ⟨token, false, []⟩
  else if token = bytes "update" ∧ previousToken = bytes "for" then ⟨token, true, []⟩
  else if isEmbeddedWriteKeywordToken token ∧ isReadOnlyContextualKeyword previousToken = false then
    ⟨previousToken, false, token⟩
  else ⟨token, false, []⟩

/-- What a word does to the scan. -/
def word (s : WriteScan) (token : Text) : WriteScan :=
  if s.updateNeedsOfCheck ∧ token = bytes "of" then ⟨token, false, []⟩
  else plainWord s.previousToken token

end WriteScan

/-- The word of the scan that starts with `c`, in lower case. -/
def scanWord (c : UInt8) (t : Text) : Text := toLower (c :: t.takeWhile isSQLKeywordByte)

/-- The loop of `firstEmbeddedWriteKeyword`; it ends when a keyword is found. -/
def embeddedWriteScanner (dbType : Text) : Scanner UInt8 WriteScan where
  step s c t :=
    if s.found ≠ [] then none
    else
      match skipSQLQuotedOrComment dbType c t with
      | some u => some (s, u)
      | none =>
        if isSQLKeywordByte c then
          some (s.word (scanWord c t), t.dropWhile isSQLKeywordByte)
        else some (s, t)
  step_suffix := by
    intro s c t s' t' h
    cases hskip : skipSQLQuotedOrComment dbType c t with
    | some u =>
      simp only [hskip] at h
      split_ifs at h
      cases h
      exact skipSQLQuotedOrComment_suffix hskip
    | none =>
      simp only [hskip] at h
      split_ifs at h <;> cases h
      · exact List.dropWhile_suffix _
      · exact suffix_refl _

section

variable {dbType : Text} {g : WriteScan} {c : UInt8} {t u : Text}

theorem embeddedWriteScanner_skip (hopen : g.found = [])
    (h : skipSQLQuotedOrComment dbType c t = some u) :
    (embeddedWriteScanner dbType).step g c t = some (g, u) := by
  simp [embeddedWriteScanner, hopen, h]

theorem embeddedWriteScanner_word (hopen : g.found = [])
    (h : skipSQLQuotedOrComment dbType c t = none) (hc : isSQLKeywordByte c = true) :
    (embeddedWriteScanner dbType).step g c t =
      some (g.word (scanWord c t), t.dropWhile isSQLKeywordByte) := by
  simp [embeddedWriteScanner, hopen, h, hc]

theorem embeddedWriteScanner_byte (hopen : g.found = [])
    (h : skipSQLQuotedOrComment dbType c t = none) (hc : isSQLKeywordByte c = false) :
    (embeddedWriteScanner dbType).step g c t = some (g, t) := by
  simp [embeddedWriteScanner, hopen, h, hc]

theorem embeddedWriteScanner_ne_none (hopen : g.found = []) :
    (embeddedWriteScanner dbType).step g c t ≠ none := by
  cases hskip : skipSQLQuotedOrComment dbType c t with
  | some u => simp [embeddedWriteScanner_skip hopen hskip]
  | none =>
    cases hc : isSQLKeywordByte c with
    | true => simp [embeddedWriteScanner_word hopen hskip hc]
    | false => simp [embeddedWriteScanner_byte hopen hskip hc]

end

def firstEmbeddedWriteKeyword (dbType text : Text) : Text :=
  ((embeddedWriteScanner dbType).run .initial text).1.found

def containsEmbeddedWriteStatement (dbType text : Text) : Bool :=
  firstEmbeddedWriteKeyword dbType text ≠ []

/-! ### The test -/

/-- The classifiers of the document stores: `isReadOnlyMongoCommand`,
`isReadOnlyMilvusCommand`, and the test on a parsed Elasticsearch source. -/
structure DocumentGates where
  isReadOnlyMongoCommand : Text → Bool
  isReadOnlyMilvusCommand : Text → Bool
  isReadOnlyElasticsearchSource : Text → Bool

/-- No document store. -/
def noDocuments : DocumentGates := ⟨fun _ => false, fun _ => false, fun _ => false⟩

/-- The first words with which a statement may be read-only. -/
def readKeywords : List Text :=
  [bytes "select", bytes "with", bytes "show", bytes "describe", bytes "desc", bytes "explain",
    bytes "values", bytes "consume"]

/-- The tests on the head of a SQL statement, without the scan of its body. -/
def headMayWrite (dbType query : Text) : Bool :=
  let info := sqlDataOperationInfo dbType query
  if hasExecutableSQLComment dbType query then true
  else if info.2 then true
  else if info.1 = bytes "select" ∧ isSQLSelectIntoStatement dbType query then true
  else if info.1 = bytes "explain" ∧ explainAnalyzeMayWrite dbType query then true
  else if info.1 = bytes "pragma" then pragmaMayWrite dbType query
  else info.1 ∉ readKeywords

/-- `isReadOnlySQLQuery` for the databases with SQL. -/
def isReadOnlySQLText (dbType query : Text) : Bool :=
  !headMayWrite dbType query && !containsEmbeddedWriteStatement dbType query

def isReadOnlySQLQuery (gates : DocumentGates) (dbType query : Text) : Bool :=
  let normalized := normalizeSQLClassifierDBType dbType
  if normalized = bytes "mongodb" then gates.isReadOnlyMongoCommand query
  else if normalized = bytes "milvus" then gates.isReadOnlyMilvusCommand query
  else if normalized = bytes "elasticsearch" then gates.isReadOnlyElasticsearchSource query
  else isReadOnlySQLText dbType query

example : isReadOnlySQLText (bytes "postgres")
    (bytes "WITH a AS (SELECT 1) SELECT 'drop' FROM a FOR UPDATE OF a") = true := by decide

example : isReadOnlySQLText (bytes "postgres")
    (bytes "WITH a AS (DELETE FROM t RETURNING 1) SELECT 1 FROM a") = false := by decide

end GoNavi.Sql
