import GoNavi.Scan.Text

/-! # Database types and their lexical rules

`sql_split.go` and `sql_sanitize.go` read the database type of a connection through two
tables of aliases, `normalizeSQLClassifierDBType` and `normalizeExplainLexicalDBType`, and
derive from the two results which lexical features a statement may use: bracketed
identifiers, `#` comments, dollar quotes, the MySQL rule for `--`. -/

namespace GoNavi.Sql

open Scan

/-- Lower case of a database type.  Besides ASCII, the runes whose lower case is a letter of
some name in the tables are `É`, `İ` and the Kelvin sign; no name has another non-ASCII
letter, so the other runes are left as they are. -/
def lowerName : Text → Text
  | [] => []
  | 0xC3 :: 0x89 :: t => 0xC3 :: 0xA9 :: lowerName t
  | 0xC4 :: 0xB0 :: t => 'i'.toUInt8 :: lowerName t
  | 0xE2 :: 0x84 :: 0xAA :: t => 'k'.toUInt8 :: lowerName t
  | c :: t => lowerByte c :: lowerName t

/-- `strings.ToLower(strings.TrimSpace(dbType))`. -/
def normalizedName (dbType : Text) : Text := lowerName (trimSpace dbType)

def normalizeSQLClassifierDBType (dbType : Text) : Text :=
  let normalized := normalizedName dbType
  if normalized = bytes "postgresql" then bytes "postgres"
  else if normalized ∈ [bytes "mssql", bytes "sql_server", bytes "sql-server"] then
    bytes "sqlserver"
  else if normalized ∈ [bytes "open_gauss", bytes "open-gauss"] then bytes "opengauss"
  else if normalized ∈ [bytes "gauss_db", bytes "gauss-db"] then bytes "gaussdb"
  else if normalized ∈ [bytes "kingbase8", bytes "kingbasees", bytes "kingbasev8"] then
    bytes "kingbase"
  else if normalized ∈ [bytes "milvusdb", bytes "milvus-db"] then bytes "milvus"
  else if normalized ∈ [bytes "intersystems", bytes "intersystemsiris", bytes "inter-systems",
      bytes "inter-systems-iris"] then bytes "iris"
  else if normalized ∈ [bytes "cache", bytes "caché", bytes "intersystems cache",
      bytes "intersystems caché", bytes "intersystems-cache", bytes "intersystems-caché",
      bytes "intersystemscache", bytes "intersystemscaché", bytes "inter-systems-cache",
      bytes "inter-systems-caché", bytes "intersystems-cache-database", bytes "cache-db",
      bytes "cachedb"] then bytes "iris"
  else normalized

def normalizeExplainLexicalDBType (dbType : Text) : Text :=
  let normalized := normalizedName dbType
  if normalized ∈ [bytes "postgresql", bytes "pg", bytes "pq", bytes "pgx"] then bytes "postgres"
  else if normalized = bytes "doris" then bytes "diros"
  else if normalized ∈ [bytes "open_gauss", bytes "open-gauss"] then bytes "opengauss"
  else if normalized ∈ [bytes "gauss_db", bytes "gauss-db"] then bytes "gaussdb"
  else if normalized ∈ [bytes "kingbase8", bytes "kingbasees", bytes "kingbasev8"] then
    bytes "kingbase"
  else if normalized ∈ [bytes "greatdb", bytes "gdb"] then bytes "goldendb"
  else normalized

def supportsSQLBracketIdentifier (dbType : Text) : Bool :=
  normalizeSQLClassifierDBType dbType ∈ [bytes "sqlserver", bytes "sqlite"]

def supportsSQLEscapedBracketIdentifier (dbType : Text) : Bool :=
  normalizeSQLClassifierDBType dbType = bytes "sqlserver"

/-- The dialects with the MySQL rule for `--` comments. -/
def isMySQLDashDialect (dbType : Text) : Bool :=
  normalizeExplainLexicalDBType dbType ∈ [bytes "mysql", bytes "mariadb", bytes "oceanbase",
    bytes "diros", bytes "starrocks", bytes "goldendb", bytes "sphinx", bytes "tidb"]

def supportsSQLHashLineComment (dbType : Text) : Bool :=
  let normalized := normalizeExplainLexicalDBType dbType
  normalized = [] ∨ normalized ∈ [bytes "mysql", bytes "mariadb", bytes "oceanbase",
    bytes "diros", bytes "starrocks", bytes "goldendb", bytes "sphinx", bytes "tidb",
    bytes "clickhouse"]

def supportsSQLDollarQuote (dbType : Text) : Bool :=
  let normalized := normalizeExplainLexicalDBType dbType
  normalized = [] ∨ normalized ∈ [bytes "postgres", bytes "opengauss", bytes "gaussdb",
    bytes "kingbase", bytes "highgo", bytes "vastbase"]

def isElasticsearch (dbType : Text) : Bool :=
  normalizeSQLClassifierDBType dbType = bytes "elasticsearch"

/-- `isSQLStreamMySQLClientDialect`: the dialects with a `DELIMITER` directive. -/
def isSQLStreamMySQLClientDialect (dbType : Text) : Bool :=
  normalizeExplainLexicalDBType dbType ∈ [bytes "mysql", bytes "mariadb"]

/-- The dialect with a `GO` directive. -/
def isSQLServerLexical (dbType : Text) : Bool :=
  normalizeExplainLexicalDBType dbType = bytes "sqlserver"

example : normalizeSQLClassifierDBType (bytes " Inter-Systems-CACHÉ ") = bytes "iris" := by decide

end GoNavi.Sql
