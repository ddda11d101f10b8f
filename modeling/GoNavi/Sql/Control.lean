import GoNavi.Scan.Runes
import GoNavi.Sql.Safety

/-! # Transaction control

The classifiers of `methods_db_transaction.go` and `methods_file.go` for statements that control
transactions (`isSQLTransactionControlStatement`), the texts that open and close a transaction
in a dialect (`sqlFileBatchTransactionSQL`), and `sanitizeSQLForPgLike`, which repairs doubled
quotes before a text is split. -/

namespace GoNavi.Sql

open Scan

def isSQLServerDBType (dbType : Text) : Bool :=
  normalizeSQLClassifierDBType dbType = bytes "sqlserver"

def isOracleLikeDBType (dbType : Text) : Bool :=
  normalizeSQLClassifierDBType dbType ∈ [bytes "oracle", bytes "dameng"]

/-! ### Statements that control a transaction -/

/-- Whether the `BEGIN` with `t` behind it starts a transaction rather than a block. -/
def isBeginTransactionControlStatement (t : Text) : Bool :=
  let next := nextSQLSignificantByte t
  if next = 0 ∨ next = semicolon then true
  else nextSQLSignificantToken t ∈ [bytes "transaction", bytes "tran", bytes "work",
    bytes "isolation", bytes "read", bytes "write", bytes "deferred", bytes "immediate",
    bytes "exclusive", bytes "distributed"]

def isSQLTransactionControlStatement (stmt : Text) : Bool :=
  let keyword := nextSQLKeyword stmt
  if keyword.1 = bytes "begin" then isBeginTransactionControlStatement keyword.2
  else if keyword.1 ∈ [bytes "commit", bytes "rollback", bytes "savepoint", bytes "release"] then
    true
  else if keyword.1 = bytes "start" then contains (bytes "transaction") (lowerName stmt)
  else false

/-- Blocks of PL/SQL and T-SQL that write. -/
def isManagedSQLBlockWrite (dbType stmt : Text) : Bool :=
  let keyword := nextSQLKeyword stmt
  let isBlock :=
    if isOracleLikeDBType dbType then
      keyword.1 = bytes "begin" || keyword.1 = bytes "declare"
    else if isSQLServerDBType dbType then
      keyword.1 = bytes "begin" && !isBeginTransactionControlStatement keyword.2
    else false
  isBlock && [bytes "insert", bytes "update", bytes "delete", bytes "merge", bytes "replace",
    bytes "upsert"].any fun want => sqlContainsKeyword dbType want stmt

/-! ### Texts for transactions -/

/-- The statements that open, commit and roll back a transaction. -/
structure TransactionSQL where
  beginSQL : Text
  commitSQL : Text
  rollbackSQL : Text
deriving DecidableEq

def sqlFileBatchTransactionSQL (dbType : Text) : Option TransactionSQL :=
  let normalized := normalizeSQLClassifierDBType dbType
  if normalized ∈ [bytes "mysql", bytes "mariadb", bytes "diros", bytes "starrocks",
      bytes "sphinx", bytes "oceanbase"] then
    some ⟨bytes "START TRANSACTION", bytes "COMMIT", bytes "ROLLBACK"⟩
  else if normalized = bytes "sqlserver" then
    some ⟨bytes "BEGIN TRANSACTION", bytes "COMMIT TRANSACTION", bytes "ROLLBACK TRANSACTION"⟩
  else if normalized ∈ [bytes "postgres", bytes "kingbase", bytes "highgo", bytes "vastbase",
      bytes "opengauss", bytes "gaussdb", bytes "sqlite", bytes "duckdb", bytes "iris"] then
    some ⟨bytes "BEGIN", bytes "COMMIT", bytes "ROLLBACK"⟩
  else none

/-! ### Doubled quotes -/

def looksLikeIdentifierContent (unicode : UnicodeTables) (s : Text) : Bool :=
  !(trimSpace s).isEmpty && (runes s).all fun rune =>
    rune = bytes "_" || rune = bytes "$" || rune = bytes "-" || isKeywordRune unicode rune

/-- The loop of `tryFixDoubleDoubleQuotedIdent` behind the opening quotes: the name up to the
closing quotes, and the text behind them. -/
def fixedIdentifier (unicode : UnicodeTables) : Text → Text → Option (Text × Text)
  | _, [] => none
  | content, c :: t =>
    if c = doubleQuote then
      if t.head? = some doubleQuote then
        if looksLikeIdentifierContent unicode (trimSpace content) then
          some (trimSpace content, t.dropWhile (· == doubleQuote))
        else none
      else fixedIdentifier unicode (content ++ [c]) t
    else if c = newline ∨ c = 0x0D then none
    else fixedIdentifier unicode (content ++ [c]) t

/-- `tryFixDoubleDoubleQuotedIdent` at a quote with `t` behind it and `before` in front of it. -/
def tryFixDoubleDoubleQuotedIdent (unicode : UnicodeTables) (before t : Text) :
    Option (Text × Text) :=
  let quotes := t.takeWhile (· == doubleQuote)
  if before.getLast? = some doubleQuote then none
  else if quotes = [] ∨ quotes.length % 2 = 0 then none
  else fixedIdentifier unicode [] (t.dropWhile (· == doubleQuote))

theorem fixedIdentifier_suffix {unicode : UnicodeTables} {content t : Text} {p : Text × Text}
    (h : fixedIdentifier unicode content t = some p) : p.2 <:+ t := by
  induction t generalizing content with
  | nil => cases h
  | cons c t ih =>
    rw [fixedIdentifier] at h
    split_ifs at h
    · cases h
      exact (List.dropWhile_suffix _).trans (List.suffix_cons _ _)
    · exact (ih h).trans (List.suffix_cons _ _)
    · exact (ih h).trans (List.suffix_cons _ _)

theorem tryFixDoubleDoubleQuotedIdent_suffix {unicode : UnicodeTables} {before t : Text}
    {p : Text × Text} (h : tryFixDoubleDoubleQuotedIdent unicode before t = some p) :
    p.2 <:+ t := by
  unfold tryFixDoubleDoubleQuotedIdent at h
  dsimp only at h
  split_ifs at h
  exact (fixedIdentifier_suffix h).trans (List.dropWhile_suffix _)

/-- `parseDollarTag` at a `$` with `t` behind it. -/
def parseDollarTag (t : Text) : Text :=
  if (t.dropWhile isSQLKeywordByte).head? = some dollar then
    dollar :: t.takeWhile isSQLKeywordByte ++ [dollar]
  else []

/-- The text behind the dollar quote that starts at a `$` with `t` behind it. -/
def afterDollarQuote (t : Text) : Option Text :=
  let tag := parseDollarTag t
  if tag = [] then none else some ((afterFirst tag (t.drop (tag.length - 1))).getD [])

theorem afterDollarQuote_suffix {t u : Text} (h : afterDollarQuote t = some u) : u <:+ t := by
  unfold afterDollarQuote at h
  dsimp only at h
  split_ifs at h
  cases h
  cases hfirst : afterFirst (parseDollarTag t) (t.drop ((parseDollarTag t).length - 1)) with
  | none => exact List.nil_suffix
  | some v => exact (afterFirst_suffix hfirst).trans (List.drop_suffix _ _)

/-- The loop of `fixBrokenDoubleDoubleQuotedIdent`, with the text written so far.  Comments,
strings and quoted names are copied in one step. -/
def identifierFixer (unicode : UnicodeTables) : Scanner UInt8 Text where
  step out c t :=
    let copy (rest : Text) := some (out ++ (c :: t).take (t.length + 1 - rest.length), rest)
    if c = dash ∧ t.head? = some dash then copy (afterLine t.tail)
    else if c = slash ∧ t.head? = some star then copy (afterBlock t.tail)
    else if c = singleQuote then copy (skipSQLDelimited singleQuote t)
    else if c = dollar then copy ((afterDollarQuote t).getD t)
    else if c = doubleQuote then
      match tryFixDoubleDoubleQuotedIdent unicode out t with
      | some (name, rest) => some (out ++ [doubleQuote] ++ name ++ [doubleQuote], rest)
      | none => copy (skipSQLDelimited doubleQuote t)
    else copy t
  step_suffix := by
    intro s c t s' t' h
    dsimp only at h
    split_ifs at h
    · cases h
      exact (afterLine_suffix _).trans (List.tail_suffix _)
    · cases h
      exact (afterBlock_suffix _).trans (List.tail_suffix _)
    · cases h
      exact skipSQLDelimited_suffix _ _
    · cases h
      cases hquote : afterDollarQuote t with
      | none => exact List.suffix_refl _
      | some u => exact afterDollarQuote_suffix hquote
    · split at h
      · next name rest hfix =>
        cases h
        exact tryFixDoubleDoubleQuotedIdent_suffix hfix
      · cases h
        exact skipSQLDelimited_suffix _ _
    · cases h
      exact List.suffix_refl _

def fixBrokenDoubleDoubleQuotedIdent (unicode : UnicodeTables) (query : Text) : Text :=
  if contains [doubleQuote, doubleQuote] query then ((identifierFixer unicode).run [] query).1
  else query

/-- The repair is repeated three times at most, up to a fixed point. -/
def repairQuotes (unicode : UnicodeTables) : ℕ → Text → Text
  | 0, out => out
  | n + 1, out =>
    let fixed := fixBrokenDoubleDoubleQuotedIdent unicode out
    if fixed = out then out else repairQuotes unicode n fixed

def sanitizeSQLForPgLike (unicode : UnicodeTables) (dbType query : Text) : Text :=
  let normalized := normalizedName dbType
  let pgLike :=
    if normalized = bytes "postgresql" then bytes "postgres"
    else if normalized ∈ [bytes "kingbase8", bytes "kingbasees", bytes "kingbasev8"] then
      bytes "kingbase"
    else if normalized ∈ [bytes "gauss_db", bytes "gauss-db"] then bytes "gaussdb"
    else normalized
  if pgLike ∈ [bytes "postgres", bytes "kingbase", bytes "highgo", bytes "vastbase",
      bytes "opengauss", bytes "gaussdb"] then repairQuotes unicode 3 query
  else query

end GoNavi.Sql
