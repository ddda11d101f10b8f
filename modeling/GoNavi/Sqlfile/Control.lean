import GoNavi.Sql.Control

/-! # Transaction statements in SQL files

How `methods_file.go` reads the statements of a SQL file that touch transactions: chains,
savepoints and named targets, the aliases of `COMMIT` and `ROLLBACK`, the statements before
which the MySQL family commits, and what a file that runs as a single transaction may hold
(`validateSQLFileSingleTransactionStatement`). -/

namespace GoNavi.Sqlfile

open Scan GoNavi.Sql

/-- The dialects that share the transaction rules of PostgreSQL. -/
def postgresFamily : List Text :=
  [bytes "postgres", bytes "kingbase", bytes "highgo", bytes "vastbase", bytes "opengauss",
    bytes "gaussdb"]

def isSQLFileMySQLCompatibleDialect (dbType : Text) : Bool :=
  normalizeSQLClassifierDBType dbType ∈ [bytes "mysql", bytes "mariadb", bytes "oceanbase",
    bytes "diros", bytes "starrocks", bytes "sphinx"]

/-! ### Behind the keyword

In this section `t` is the text behind the first keyword of the statement. -/

/-- The keyword behind an optional `WORK` or `TRANSACTION`. -/
def afterWork (t : Text) : Text × Text :=
  let token := nextSQLKeyword t
  if token.1 = bytes "work" ∨ token.1 = bytes "transaction" then nextSQLKeyword token.2 else token

def sqlFileTransactionCommandUsesChain (t : Text) : Bool :=
  let token := afterWork t
  token.1 = bytes "and" && (nextSQLKeyword token.2).1 = bytes "chain"

def sqlFileRollbackTargetsSavepoint (t : Text) : Bool := (afterWork t).1 = bytes "to"

def sqlFileSQLServerRollbackHasNamedTarget (dbType t : Text) : Bool :=
  let token := nextSQLKeyword t
  normalizeSQLClassifierDBType dbType = bytes "sqlserver" &&
    (token.1 = bytes "transaction" || token.1 = bytes "tran") && !(skipSQLTrivia token.2).isEmpty

def sqlFileStatementIsTransactionEndAlias (dbType t : Text) : Bool :=
  let next := (nextSQLKeyword t).1
  let normalized := normalizeSQLClassifierDBType dbType
  if normalized = bytes "sqlite" then next = [] || next = bytes "transaction"
  else if normalized ∈ postgresFamily then
    next ∈ [[], bytes "work", bytes "transaction", bytes "and"]
  else false

def sqlFileMySQLTemporaryTableDDL (t : Text) : Bool :=
  let token := nextSQLKeyword t
  let next := nextSQLKeyword token.2
  if token.1 = bytes "or" ∧ next.1 = bytes "replace" then
    (nextSQLKeyword next.2).1 = bytes "temporary"
  else token.1 = bytes "temporary"

/-! ### Statements -/

/-- The statements before which the MySQL family commits the transaction. -/
def sqlFileMySQLImplicitCommitBeforeStatement (dbType stmt : Text) : Bool :=
  let keyword := nextSQLKeyword stmt
  let second := (nextSQLKeyword keyword.2).1
  if isSQLFileMySQLCompatibleDialect dbType = false then false
  else if keyword.1 ∈ [bytes "create", bytes "drop"] then !sqlFileMySQLTemporaryTableDDL keyword.2
  else if keyword.1 ∈ [bytes "alter", bytes "analyze", bytes "cache", bytes "check",
      bytes "flush", bytes "grant", bytes "install", bytes "optimize", bytes "rename",
      bytes "repair", bytes "revoke", bytes "truncate", bytes "uninstall"] then true
  else if keyword.1 = bytes "reset" then second ≠ bytes "persist"
  else if keyword.1 = bytes "set" then second = bytes "password"
  else if keyword.1 = bytes "begin" then sqlBeginStartsTransactionForDialect dbType keyword.2
  else if keyword.1 = bytes "start" then
    second ∈ [bytes "transaction", bytes "replica", bytes "slave"]
  else if keyword.1 = bytes "stop" then second ∈ [bytes "replica", bytes "slave"]
  else if keyword.1 = bytes "lock" then second = bytes "tables"
  else false

/-- `sqlFileMySQLTableLockCommand`: whether the statement locks, and whether it unlocks. -/
def sqlFileMySQLTableLockCommand (dbType stmt : Text) : Bool × Bool :=
  let keyword := nextSQLKeyword stmt
  if isSQLFileMySQLCompatibleDialect dbType = false then (false, false)
  else if (nextSQLKeyword keyword.2).1 ≠ bytes "tables" then (false, false)
  else (keyword.1 = bytes "lock", keyword.1 = bytes "unlock")

def sqlFileStatementFinishesTransaction (stmt : Text) : Bool :=
  let keyword := nextSQLKeyword stmt
  if keyword.1 = bytes "commit" then true
  else if keyword.1 = bytes "rollback" then !sqlFileRollbackTargetsSavepoint keyword.2
  else false

/-! ### Single transactions -/

def isSQLFileSingleTransactionDialectSupported (dbType : Text) : Bool :=
  normalizeSQLClassifierDBType dbType ∈ postgresFamily ++ [bytes "sqlite", bytes "duckdb",
    bytes "iris", bytes "cache", bytes "sqlserver", bytes "oracle", bytes "dameng"]

def sqlFileSingleTransactionRequiresDriverExecer (dbType : Text) : Bool :=
  normalizeSQLClassifierDBType dbType ∈ [bytes "oracle", bytes "dameng"]

def sqlFileSingleTransactionSQL (dbType : Text) : Option TransactionSQL :=
  let normalized := normalizeSQLClassifierDBType dbType
  if normalized = bytes "sqlserver" then
    some ⟨bytes "BEGIN TRANSACTION", bytes "COMMIT TRANSACTION", bytes "ROLLBACK TRANSACTION"⟩
  else if normalized ∈ postgresFamily ++ [bytes "sqlite", bytes "duckdb", bytes "iris",
      bytes "cache"] then
    some ⟨bytes "BEGIN", bytes "COMMIT", bytes "ROLLBACK"⟩
  else none

def isSQLFileSingleTransactionControlStatement (dbType stmt : Text) : Bool :=
  let keyword := nextSQLKeyword stmt
  if isSQLTransactionControlStatement stmt then true
  else if keyword.1 = bytes "end" then sqlFileStatementIsTransactionEndAlias dbType keyword.2
  else if keyword.1 = bytes "abort" then
    normalizeSQLClassifierDBType dbType ∈ postgresFamily ++ [bytes "duckdb"]
  else if keyword.1 = bytes "set" then
    [bytes "autocommit", bytes "transaction", bytes "isolation"].any fun want =>
      sqlContainsKeyword dbType want stmt
  else false

/-- Why a statement may not be part of a single transaction. -/
inductive SingleTransactionError where
  | unsupportedType (dbType : Text)
  | implicitCommit
  | transactionControl
  | atomicityUnproven
deriving DecidableEq

def validateSQLFileSingleTransactionStatement (gates : DocumentGates) (dbType stmt : Text) :
    Except SingleTransactionError Unit :=
  let dbType := normalizeSQLClassifierDBType dbType
  if isSQLFileSingleTransactionDialectSupported dbType = false then
    .error (.unsupportedType dbType)
  else if isSQLFileMySQLCompatibleDialect dbType ||
      sqlFileMySQLImplicitCommitBeforeStatement dbType stmt then .error .implicitCommit
  else if isSQLFileSingleTransactionControlStatement dbType stmt then .error .transactionControl
  else if isReadOnlySQLQuery gates dbType stmt || isBatchableWriteSQLStatement gates dbType stmt then
    .ok ()
  else .error .atomicityUnproven

end GoNavi.Sqlfile
