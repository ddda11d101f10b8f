import GoNavi.Sqlfile.Control

/-! # What a SQL file run knows of transactions

The run of a SQL file follows the transactions that the statements of the file open and close:
a depth (`updateSQLFileTransactionDepth`), for SQL Server a depth with names
(`updateSQLFileSQLServerTransactionTracker`), and for the MySQL family the autocommit mode and
table locks. -/

namespace GoNavi.Sqlfile

open Scan GoNavi.Sql

/-! ### Depth -/

def updateSQLFileTransactionDepth (dbType : Text) (depth : ℕ) (stmt : Text) : ℕ :=
  let keyword := nextSQLKeyword stmt
  let normalized := normalizeSQLClassifierDBType dbType
  if keyword.1 = bytes "begin" then
    if sqlBeginStartsTransactionForDialect dbType keyword.2 then
      if normalized = bytes "sqlserver" then depth + 1 else 1
    else depth
  else if keyword.1 = bytes "start" then
    if (nextSQLKeyword keyword.2).1 = bytes "transaction" then 1 else depth
  else if keyword.1 = bytes "commit" then
    if sqlFileTransactionCommandUsesChain keyword.2 then 1
    else if normalized = bytes "sqlserver" ∧ 0 < depth then depth - 1
    else 0
  else if keyword.1 = bytes "rollback" then
    if sqlFileRollbackTargetsSavepoint keyword.2 then depth
    else if sqlFileSQLServerRollbackHasNamedTarget dbType keyword.2 then
      if 0 < depth then depth else 1
    else if sqlFileTransactionCommandUsesChain keyword.2 then 1
    else 0
  else if keyword.1 = bytes "end" then
    if sqlFileStatementIsTransactionEndAlias dbType keyword.2 = false then depth
    else if sqlFileTransactionCommandUsesChain keyword.2 then 1
    else 0
  else if keyword.1 = bytes "abort" then
    if normalized ∈ postgresFamily ++ [bytes "duckdb"] then
      if sqlFileTransactionCommandUsesChain keyword.2 then 1 else 0
    else depth
  else depth

def updateSQLFileTransactionState (dbType : Text) (inTransaction : Bool) (stmt : Text) : Bool :=
  0 < updateSQLFileTransactionDepth dbType (if inTransaction then 1 else 0) stmt

/-! ### SQL Server -/

structure SQLServerTransactionTracker where
  depth : ℕ
  outerTransactionName : Text
  savepointNames : List Text
deriving DecidableEq

def SQLServerTransactionTracker.reset : SQLServerTransactionTracker := ⟨0, [], []⟩

/-- The name between its quotes, with doubled quotes read as one. -/
def unquotedName (name : Text) : Text :=
  let inner := (name.drop 1).dropLast
  if name.length < 2 then name
  else if name.head? = some leftBracket ∧ name.getLast? = some rightBracket then
    unescapeQuote rightBracket inner
  else if name.head? = some doubleQuote ∧ name.getLast? = some doubleQuote then
    unescapeQuote doubleQuote inner
  else if name.head? = some backtick ∧ name.getLast? = some backtick then
    unescapeQuote backtick inner
  else name

/-- `sqlFileSQLServerIdentifierAt`: the name that `t` starts with, empty if there is none. -/
def sqlFileSQLServerIdentifierAt (t : Text) : Text :=
  let t := skipSQLTrivia t
  match t with
  | [] => []
  | c :: rest =>
    if c = '@'.toUInt8 then
      let name := rest.takeWhile isSQLKeywordByte
      if name = [] then [] else c :: name
    else
      match skipSQLIdentifierToken (bytes "sqlserver") t with
      | none => []
      | some behind => unquotedName (trimSpace (t.take (t.length - behind.length)))

/-- The name behind `TRANSACTION` or `TRAN`; empty if there is none. -/
def sqlFileSQLServerTransactionNameAfterCommand (t : Text) : Text :=
  let token := nextSQLKeyword t
  if token.1 = bytes "transaction" ∨ token.1 = bytes "tran" then
    sqlFileSQLServerIdentifierAt token.2
  else []

def sqlFileSQLServerBeginTransactionName (t : Text) : Text :=
  let token := nextSQLKeyword t
  let name := sqlFileSQLServerTransactionNameAfterCommand
    (if token.1 = bytes "distributed" then token.2 else t)
  if toLower name = bytes "with" then [] else name

def updateSQLFileSQLServerTransactionTracker (tracker : SQLServerTransactionTracker)
    (stmt : Text) : SQLServerTransactionTracker :=
  let keyword := nextSQLKeyword stmt
  if keyword.1 = bytes "begin" then
    if sqlBeginStartsTransactionForDialect (bytes "sqlserver") keyword.2 = false then tracker
    else if tracker.depth = 0 then ⟨1, sqlFileSQLServerBeginTransactionName keyword.2, []⟩
    else { tracker with depth := tracker.depth + 1 }
  else if keyword.1 = bytes "save" then
    let name := sqlFileSQLServerTransactionNameAfterCommand keyword.2
    if tracker.depth = 0 ∨ name = [] then tracker
    else { tracker with savepointNames := name :: tracker.savepointNames }
  else if keyword.1 = bytes "commit" then
    if tracker.depth ≤ 1 then .reset else { tracker with depth := tracker.depth - 1 }
  else if keyword.1 = bytes "rollback" then
    let name := sqlFileSQLServerTransactionNameAfterCommand keyword.2
    if name = [] then .reset
    else if tracker.outerTransactionName ≠ [] ∧ name = tracker.outerTransactionName then .reset
    else if name ∈ tracker.savepointNames then tracker
    else if tracker.depth = 0 then { tracker with depth := 1 }
    else tracker
  else tracker

/-! ### The autocommit mode of the MySQL family -/

/-- The class `\s`. -/
def isPatternSpace (c : UInt8) : Bool :=
  c == 0x20 || c == 0x09 || c == newline || c == 0x0C || c == 0x0D

def skipPatternSpace (t : Text) : Text := t.dropWhile isPatternSpace

/-- The text behind a word, in any case; the long `s` is a case of `s`. -/
def afterWord : Text → Text → Option Text
  | [], t => some t
  | _ :: _, [] => none
  | w :: word, c :: t =>
    if lowerByte c = w then afterWord word t
    else if w = 's'.toUInt8 ∧ c = 0xC5 ∧ t.head? = some 0xBF then afterWord word t.tail
    else none

/-- Behind an optional `SESSION` or `LOCAL`. -/
def skipScope (t : Text) : Text :=
  match afterWord (bytes "session") t <|> afterWord (bytes "local") t with
  | some u => if u.head?.any isPatternSpace then skipPatternSpace u else t
  | none => t

/-- Behind an optional `@@`, with an optional `session.`. -/
def skipVariableScope (t : Text) : Text :=
  if (bytes "@@").isPrefixOf t then
    let u := skipPatternSpace (t.drop 2)
    match afterWord (bytes "session") u with
    | some v =>
      if (skipPatternSpace v).head? = some '.'.toUInt8 then
        skipPatternSpace (skipPatternSpace v).tail
      else u
    | none => u
  else t

/-- The value of an assignment to `autocommit` that `t` starts with, and the text behind it. -/
def autocommitAssignment (t : Text) : Option (Text × Text) := do
  let behind ← afterWord (bytes "autocommit")
    (skipVariableScope (skipScope (skipPatternSpace t)))
  let sign := skipPatternSpace behind
  let value ← afterWord (bytes ":=") sign <|> afterWord (bytes "=") sign
  let value := skipPatternSpace value
  let isValueByte := fun c => !(c == comma || c == semicolon || isPatternSpace c)
  if value.takeWhile isValueByte = [] then none
  else some (value.takeWhile isValueByte, value.dropWhile isValueByte)

/-- The values that a text assigns to `autocommit`, at its start or behind a comma. -/
def autocommitValues : ℕ → Bool → Text → List Text
  | 0, _, _ => []
  | n + 1, true, t =>
    match autocommitAssignment t with
    | some (value, rest) => value :: autocommitValues n false rest
    | none => autocommitValues n false t
  | _ + 1, false, [] => []
  | n + 1, false, c :: t => autocommitValues n (c == comma) t

/-- A value of the autocommit mode that a statement assigns. -/
inductive AutocommitMode where
  | disabled
  | enabled
  /-- A value that only the server knows. -/
  | unknown
deriving DecidableEq

/-- The mode that the last assignment of a `SET` statement gives. -/
def sqlFileMySQLAutocommitAssignment (dbType stmt : Text) : Option AutocommitMode :=
  let keyword := nextSQLKeyword stmt
  if isSQLFileMySQLCompatibleDialect dbType = false ∨ keyword.1 ≠ bytes "set" then none
  else
    (autocommitValues (2 * keyword.2.length + 2) true keyword.2).getLast?.map fun value =>
      if normalizedName value ∈ [bytes "0", bytes "off", bytes "false"] then .disabled
      else if normalizedName value ∈ [bytes "1", bytes "on", bytes "true"] then .enabled
      else .unknown

example : sqlFileMySQLAutocommitAssignment (bytes "mysql")
    (bytes "SET NAMES utf8, @@session.autocommit := OFF") = some .disabled := by decide

end GoNavi.Sqlfile
