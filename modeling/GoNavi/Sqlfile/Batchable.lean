import GoNavi.Sqlfile.Control

/-! # Statements for batches

Which statements of a SQL file may be sent together (`isSQLFileBatchableWriteStatement`): writes
that return no rows and are no block. -/

namespace GoNavi.Sqlfile

open Scan GoNavi.Sql

def isPostgresNoticeCapableDBType (dbType : Text) : Bool :=
  normalizeSQLClassifierDBType dbType ∈ [bytes "postgres", bytes "opengauss"]

def sqlWriteStatementReturnsRows (dbType query : Text) : Bool :=
  let info := sqlDataOperationInfo dbType query
  if info.2 ∧ info.1 = bytes "select" then true
  else if isSQLDataWriteKeyword info.1 = false then false
  else if isOracleLikeDBType dbType = false ∧
      (findTopLevelSQLKeyword dbType (bytes "returning") query).isSome then true
  else isSQLServerDBType dbType && (findTopLevelSQLKeyword dbType (bytes "output") query).isSome

section

variable (unicode : UnicodeTables)

def sqlServerControlFlowMayReturnMessages (query : Text) : Bool :=
  leadingSQLKeyword unicode query ∈ [bytes "if", bytes "begin", bytes "while", bytes "declare",
    bytes "try", bytes "catch"] &&
  [bytes "exec", bytes "execute", bytes "print", bytes "raiserror", bytes "throw", bytes "dbcc",
    bytes "set"].any fun want => sqlContainsKeyword (bytes "sqlserver") want query

/-- The rest of a name behind its first part: further parts behind dots; `none` if a dot has no
part behind it. -/
def skipNameParts : ℕ → Text → Option Text
  | 0, t => some t
  | n + 1, t =>
    if t.head? = some '.'.toUInt8 then
      match skipSQLIdentifierToken (bytes "sqlserver") (skipSQLTrivia t.tail) with
      | none => none
      | some next => skipNameParts n (skipSQLTrivia next)
    else some t

/-- The bytes that start the arguments of a procedure. -/
def startsArguments (c : UInt8) : Bool :=
  c ∈ [semicolon, comma, '@'.toUInt8, singleQuote, doubleQuote, leftBracket, leftParen,
    '+'.toUInt8, dash] || isDigit c

def looksLikeSQLServerProcedureInvocation (query : Text) : Bool :=
  if leadingSQLKeyword unicode query ∈ [bytes "select", bytes "with", bytes "insert",
      bytes "update", bytes "delete", bytes "merge", bytes "replace", bytes "upsert", bytes "if",
      bytes "begin", bytes "declare", bytes "while", bytes "create", bytes "alter", bytes "drop",
      bytes "truncate", bytes "grant", bytes "revoke", bytes "use", bytes "set", bytes "print",
      bytes "dbcc", bytes "commit", bytes "rollback", bytes "save", bytes "return",
      bytes "throw", bytes "raiserror", bytes "waitfor", bytes "open", bytes "fetch",
      bytes "close", bytes "deallocate"] then false
  else
    match skipSQLIdentifierToken (bytes "sqlserver") (skipSQLTrivia query) with
    | none => false
    | some next =>
      match skipNameParts query.length (skipSQLTrivia next) with
      | none => false
      | some [] => true
      | some (c :: t) => startsArguments c || (nextSQLKeyword (c :: t)).1 ≠ []

def shouldTryQueryResultFirst (dbType query : Text) : Bool :=
  let keyword := leadingSQLKeyword unicode query
  let isSQLServer := isSQLServerDBType dbType
  if sqlWriteStatementReturnsRows dbType query then true
  else if normalizeSQLClassifierDBType dbType = bytes "mqtt" ∧ keyword = bytes "unsubscribe" then
    true
  else if keyword ∈ [bytes "explain", bytes "pragma", bytes "exec", bytes "execute",
      bytes "call"] then true
  else if keyword ∈ [bytes "set", bytes "print", bytes "dbcc"] then isSQLServer
  else if keyword = bytes "do" then
    isPostgresNoticeCapableDBType dbType && contains (bytes "raise") (lowerName query)
  else if isSQLServer then
    (bytes "sp_").isPrefixOf keyword || (bytes "xp_").isPrefixOf keyword ||
      sqlServerControlFlowMayReturnMessages unicode query ||
      looksLikeSQLServerProcedureInvocation unicode query
  else false

def isPLSQLBlockStatementForDialect (dbType stmt : Text) : Bool :=
  let text := trimSpace stmt
  let text := if text.getLast? = some slash then trimSpace text.dropLast else text
  let token := nextSQLKeyword text
  if trimSpace stmt = [] then false
  else if token.1 = bytes "declare" then shouldEnterPLSQLDeclareBlock token.2
  else if token.1 = bytes "begin" then shouldEnterPLSQLBlockForDialect dbType token.2
  else isCreateRoutineHeaderPrefix text

def isSQLFileBatchableWriteStatement (gates : DocumentGates) (dbType stmt : Text) : Bool :=
  if isReadOnlySQLQuery gates dbType stmt then false
  else if isPLSQLBlockStatementForDialect dbType stmt then false
  else if shouldTryQueryResultFirst unicode dbType stmt then false
  else isBatchableWriteSQLStatement gates dbType stmt

end

end GoNavi.Sqlfile
