import GoNavi.Sqlaudit.Event

/-! # Sanitizing audit records

What a record goes through before it is stored: labels lose control characters and are cut at a
number of runes, modes are one of the known ones, the SQL text and the error are redacted, the
fingerprints are digests, and negative counters become zero.  The redaction of texts and the
digest are parameters (`Sanitizer`). -/

namespace GoNavi.Sqlaudit

open Scan

/-! ### Texts -/

def sanitizeLabel (value : Text) (maxRunes : ℕ) : Text :=
  let value := mapRunes (fun r => if isControl r then [0x20] else r) (trimSpace value)
  truncateRunes value maxRunes

example : sanitizeLabel (bytes " a\tb\u0085c ") 4 = bytes "a b " := by decide

/-! ### Settings -/

def captureModeRedacted : Text := bytes "redacted"
def captureModeMetadata : Text := bytes "metadata"

structure Settings where
  enabled : Bool
  captureMode : Text
  retentionDays : ℤ
  maxRecords : ℤ
  deriving DecidableEq

/-! ### Records -/

/-- What sanitizing relies on: the Unicode tables, the redaction of queries and of error texts,
and the digest of the fingerprints. -/
structure Sanitizer where
  unicode : UnicodeTables
  redactQuery : Text → Text → Text
  redactError : Text → Text
  digest : Text → Text

def normalizeQueryType (unicode : UnicodeTables) (dbType : Text) : Text :=
  let normalized := lower unicode (trimSpace dbType)
  if normalized ∈ [bytes "redis-cluster", bytes "redis_cluster", bytes "redis-sentinel",
      bytes "redis_sentinel"] then bytes "redis"
  else if normalized ∈ [bytes "rocket-mq", bytes "rocket_mq", bytes "apache-rocketmq",
      bytes "apache_rocketmq", bytes "rmq"] then bytes "rocketmq"
  else if normalized ∈ [bytes "apache-kafka", bytes "apache_kafka"] then bytes "kafka"
  else if normalized ∈ [bytes "rabbit-mq", bytes "rabbit_mq"] then bytes "rabbitmq"
  else if normalized ∈ [bytes "elastic"] then bytes "elasticsearch"
  else if normalized ∈ [bytes "chromadb", bytes "chroma-db"] then bytes "chroma"
  else if normalized ∈ [bytes "qdrantdb", bytes "qdrant-db"] then bytes "qdrant"
  else if normalized ∈ [bytes "milvusdb", bytes "milvus-db"] then bytes "milvus"
  else if normalized ∈ [bytes "intersystems", bytes "intersystems iris",
      bytes "intersystemsiris", bytes "inter-systems", bytes "inter-systems-iris"] then
    bytes "iris"
  else if normalized ∈ [bytes "cache", bytes "caché", bytes "intersystems cache",
      bytes "intersystems caché", bytes "intersystems-cache", bytes "intersystems-caché",
      bytes "intersystemscache", bytes "intersystemscaché", bytes "inter-systems-cache",
      bytes "inter-systems-caché", bytes "intersystems-cache-database", bytes "cache-db",
      bytes "cachedb"] then bytes "cache"
  else normalized

def queryFingerprintSeed (unicode : UnicodeTables) (dbType redactedText : Text) : Text :=
  if redactedText ≠ [] then redactedText
  else bytes "metadata:" ++ normalizeQueryType unicode dbType

def normalizeBoundaryMode (unicode : UnicodeTables) (value : Text) : Text :=
  let mode := lower unicode (trimSpace value)
  if mode ∈ [bytes "driver_api", bytes "text_sql", bytes "implicit"] then mode
  else bytes "unknown"

def normalizeCommitMode (unicode : UnicodeTables) (value : Text) : Text :=
  let mode := lower unicode (trimSpace value)
  if mode ∈ [bytes "auto", bytes "manual", bytes "pending"] then mode else []

def versionedDigest (digest : Text → Text) (version value : Text) : Text :=
  digest (version ++ 0 :: value)

def sanitizeEvent (sanitizer : Sanitizer) (event : Event) (settings : Settings) : Event :=
  let unicode := sanitizer.unicode
  let label := fun value maxRunes => lower unicode (sanitizeLabel value maxRunes)
  let connectionID := sanitizeLabel event.connectionID 256
  let dbType := label event.dbType 64
  let database := sanitizeLabel event.database 512
  let redactedSQL := sanitizer.redactQuery dbType event.sqlText
  let connectionSeed := trimSpace event.connectionFingerprint
  { event with
    sequence := 0
    prevHash := []
    hash := []
    eventType := label event.eventType 64
    status := label event.status 64
    connectionID
    dbType
    database
    queryID := sanitizeLabel event.queryID 256
    transactionID := sanitizeLabel event.transactionID 256
    source := label event.source 64
    boundaryMode := normalizeBoundaryMode unicode event.boundaryMode
    commitMode := normalizeCommitMode unicode event.commitMode
    sqlFingerprint := versionedDigest sanitizer.digest (bytes "sqlaudit-sql-fingerprint-v1")
      (queryFingerprintSeed unicode dbType redactedSQL)
    sqlRedacted := true
    sqlText := if settings.captureMode = captureModeMetadata then [] else redactedSQL
    connectionFingerprint :=
      versionedDigest sanitizer.digest (bytes "sqlaudit-connection-fingerprint-v1")
        (if connectionSeed = [] then connectionID ++ 0 :: (dbType ++ 0 :: database)
        else connectionSeed)
    error := sanitizer.redactError event.error
    statementIndex := max 0 event.statementIndex
    statementCount := max 0 event.statementCount
    executedCount := max 0 event.executedCount
    failedIndex := max 0 event.failedIndex
    durationMs := max 0 event.durationMs
    rowsAffected := max 0 event.rowsAffected
    rowsReturned := max 0 event.rowsReturned }

end GoNavi.Sqlaudit
