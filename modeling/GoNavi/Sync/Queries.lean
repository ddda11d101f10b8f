import GoNavi.Scan.Runes
import GoNavi.Sync.PagedDiff

/-! # The queries of the paged scans

A scan asks a database for a page of a table or of a query, for the rows under the keys of a page,
or for a page of keys.  A builder that cannot write its query returns a blank text.  How
identifiers are quoted is left open.

**Whether the query of a page is blank does not depend on the page**
(`buildPagedSourceTableQuery_blank`), and **the keys of a page can be asked for**
(`buildPKInSelectQuery_ne_nil`). -/

namespace GoNavi.Sync

open Scan List

/-! ### Databases -/

def normalizeMigrationDBType (unicode : UnicodeTables) (dbType : Text) : Text :=
  let normalized := lower unicode (trimSpace dbType)
  if normalized = bytes "doris" then bytes "diros"
  else if normalized ∈ [bytes "goldendb", bytes "greatdb", bytes "gdb"] then bytes "mysql"
  else if normalized = bytes "postgresql" then bytes "postgres"
  else if normalized ∈ [bytes "mssql", bytes "sql_server", bytes "sql-server"] then
    bytes "sqlserver"
  else if normalized ∈ [bytes "kingbase8", bytes "kingbasees", bytes "kingbasev8"] then
    bytes "kingbase"
  else if normalized ∈ [bytes "opengauss", bytes "open_gauss", bytes "open-gauss"] then
    bytes "opengauss"
  else if normalized ∈ [bytes "gaussdb", bytes "gauss_db", bytes "gauss-db"] then bytes "gaussdb"
  else if normalized ∈ [bytes "intersystems", bytes "intersystemsiris", bytes "inter-systems",
      bytes "inter-systems-iris"] then bytes "iris"
  else if normalized ∈ [bytes "cache", bytes "caché", bytes "intersystems cache",
      bytes "intersystems caché", bytes "intersystems-cache", bytes "intersystems-caché",
      bytes "intersystemscache", bytes "intersystemscaché", bytes "inter-systems-cache",
      bytes "inter-systems-caché", bytes "intersystems-cache-database", bytes "cache-db",
      bytes "cachedb"] then bytes "iris"
  else if normalized ∈ [bytes "dm", bytes "dm8"] then bytes "dameng"
  else if normalized = bytes "sqlite3" then bytes "sqlite"
  else normalized

def supportsDirectImportPagination (unicode : UnicodeTables) (dbType : Text) : Bool :=
  normalizeMigrationDBType unicode dbType ∈ ["mysql", "mariadb", "postgres", "kingbase", "highgo",
    "vastbase", "opengauss", "gaussdb", "sqlserver", "sqlite", "duckdb", "clickhouse", "tdengine",
    "starrocks", "diros"].map bytes

/-- How names are treated: their lower case, `strings.EqualFold` by `fold`, and the quoting of
`quoteIdentByType` and `quoteQualifiedIdentByType`. -/
structure Naming where
  unicode : UnicodeTables
  fold : Text → Text
  quoteIdent : Text → Text → Text
  quoteQualifiedIdent : Text → Text → Text

section queries

variable (naming : Naming)

/-! ### Columns -/

/-- The names that are not blank, one for each lower case. -/
def namesOnce : List Text → List Text → List Text
  | _, [] => []
  | seen, name :: names =>
    let key := lower naming.unicode (trimSpace name)
    if trimSpace name = [] ∨ key ∈ seen then namesOnce seen names
    else name :: namesOnce (key :: seen) names

/-- The names of the columns that both sides have. -/
def diffReadableColumns (sourceCols allowedLower : List Text) (pkCol : Text) : List Text :=
  let readable := sourceCols.filter fun col =>
    let name := trimSpace col
    if name = [] then false
    else if naming.fold name = naming.fold pkCol then true
    else allowedLower = [] || lower naming.unicode name ∈ allowedLower
  namesOnce naming [] (readable ++ [pkCol])

def diffLookupColumns (sourceReadCols targetCols allowedLower : List Text) (pkCol : Text) :
    List Text :=
  let key := fun name : Text => lower naming.unicode name
  let targetNamed := fun name : Text => (targetCols.reverse.find? fun col =>
    trimSpace col ≠ [] && key (trimSpace col) = key name).getD name
  let wanted := sourceReadCols.filter fun col =>
    let name := trimSpace col
    name ≠ [] && (naming.fold name = naming.fold pkCol || allowedLower = [] ||
      key name ∈ allowedLower)
  let names := (namesOnce naming [] wanted).map fun col => trimSpace col
  let out := names.map targetNamed
  if trimSpace pkCol = [] ∨ key (trimSpace pkCol) ∈ names.map key then out
  else out ++ [pkCol]

def buildColumnSelectListForSync (dbType : Text) (cols : List Text) : Text :=
  List.intercalate (bytes ", ") ((namesOnce naming [] cols).map fun col =>
    naming.quoteIdent dbType (trimSpace col))

def buildSourceColumnSelectList (dbType : Text) (cols : List Text) : Text :=
  List.intercalate (bytes ", ") ((cols.filter fun col => trimSpace col ≠ []).map fun col =>
    naming.quoteIdent dbType (trimSpace col))

def buildSQLServerPageSelectList (cols : List Text) : Text :=
  List.intercalate (bytes ", ") ((cols.filter fun col => trimSpace col ≠ []).map fun col =>
    bytes "[__gonavi_page_result__]." ++ naming.quoteIdent (bytes "sqlserver") (trimSpace col))

/-! ### Pages -/

def defaultSyncReadPageSize : ℕ := 1000

def buildPaginatedSelectSQLForSync (dbType baseSQL selectList orderBySQL : Text)
    (limit offset : ℕ) : Text :=
  let safeLimit := if limit = 0 then defaultSyncReadPageSize else limit
  let base := trimSpace baseSQL
  let orderBy := trimSpace orderBySQL
  if normalizeMigrationDBType naming.unicode dbType = bytes "sqlserver" then
    let orderBy := if orderBy = [] then bytes "ORDER BY (SELECT NULL)" else orderBy
    bytes "SELECT " ++ selectList ++
      bytes " FROM (SELECT [__gonavi_page__].*, ROW_NUMBER() OVER (" ++ orderBy ++
      bytes ") AS [__gonavi_rn__] FROM (" ++ base ++
      bytes ") AS [__gonavi_page__]) AS [__gonavi_page_result__] WHERE [__gonavi_rn__] > " ++
      Json.natural offset ++ bytes " AND [__gonavi_rn__] <= " ++
      Json.natural (offset + safeLimit) ++ bytes " ORDER BY [__gonavi_rn__]"
  else
    base ++ bytes " " ++ orderBy ++ bytes " LIMIT " ++ Json.natural safeLimit ++
      bytes " OFFSET " ++ Json.natural offset

def orderByColumn (dbType orderCol : Text) : Text :=
  if trimSpace orderCol = [] then []
  else bytes " ORDER BY " ++ naming.quoteIdent dbType orderCol ++ bytes " ASC"

def buildPagedSourceTableQuery (dbType queryTable : Text) (cols : List Text) (orderCol : Text)
    (limit offset : ℕ) : Text :=
  let selectList := buildSourceColumnSelectList naming dbType cols
  if trimSpace selectList = [] then []
  else
    let pageSelectList :=
      if normalizeMigrationDBType naming.unicode dbType = bytes "sqlserver" then
        buildSQLServerPageSelectList naming cols
      else selectList
    let baseSQL := bytes "SELECT " ++ selectList ++ bytes " FROM " ++
      naming.quoteQualifiedIdent dbType queryTable
    buildPaginatedSelectSQLForSync naming dbType baseSQL pageSelectList
      (orderByColumn naming dbType orderCol) limit offset

/-- The statement that a source query consists of. -/
def normalizeSourceQueryForPaging (query : Text) : Option Text :=
  let trimmed := trimSpace query
  if trimmed = [] then none
  else
    let trimmed :=
      trimSpace (if trimmed.getLast? = some 0x3B then trimmed.dropLast else trimmed)
    let lowered := lower naming.unicode trimmed
    if !((bytes "select ").isPrefixOf lowered || (bytes "with ").isPrefixOf lowered) then none
    else if (0x3B : UInt8) ∈ trimmed then none
    else some trimmed

def buildSourceQueryPageSQL (dbType sourceQuery orderCol : Text) (limit offset : ℕ) : Text :=
  match normalizeSourceQueryForPaging naming sourceQuery with
  | none => []
  | some subquery =>
    let baseSQL := bytes "SELECT * FROM (" ++ subquery ++ bytes ") AS __gonavi_source_query__"
    buildPaginatedSelectSQLForSync naming dbType baseSQL (bytes "*")
      (orderByColumn naming dbType orderCol) limit offset

def buildKeysetPagedTableQuery (dbType queryTable : Text) (cols : List Text) (orderCol : Text)
    (lastValue : Option Cell) (limit : ℕ) : Text :=
  let selectList := buildColumnSelectListForSync naming dbType cols
  let selectList := if trimSpace selectList = [] then bytes "*" else selectList
  let safeLimit := if limit = 0 then defaultSyncReadPageSize else limit
  let column := naming.quoteIdent dbType orderCol
  let table := naming.quoteQualifiedIdent dbType queryTable
  let orderBy := bytes " ORDER BY " ++ column ++ bytes " ASC"
  let query := fun condition : Text =>
    if normalizeMigrationDBType naming.unicode dbType = bytes "sqlserver" then
      bytes "SELECT TOP (" ++ Json.natural safeLimit ++ bytes ") " ++ selectList ++
        bytes " FROM " ++ table ++ condition ++ orderBy
    else
      bytes "SELECT " ++ selectList ++ bytes " FROM " ++ table ++ condition ++ orderBy ++
        bytes " LIMIT " ++ Json.natural safeLimit
  match lastValue with
  | none => query []
  | some value =>
    match formatSyncSQLLiteral dbType value with
    | none => []
    | some literal => query (bytes " WHERE " ++ column ++ bytes " > " ++ literal)

/-! ### Rows by their keys -/

/-- What `SELECT … FROM … WHERE … IN (…)` reads from, for the keys that have a literal. -/
def selectByPK (dbType source : Text) (cols : List Text) (pkCol : Text) (pkValues : List Cell) :
    Text :=
  let selectList := buildColumnSelectListForSync naming dbType cols
  let selectList := if trimSpace selectList = [] then bytes "*" else selectList
  let literals := pkValues.filterMap (formatSyncSQLLiteral dbType)
  if literals = [] then []
  else bytes "SELECT " ++ selectList ++ bytes " FROM " ++ source ++ bytes " WHERE " ++
    naming.quoteIdent dbType pkCol ++ bytes " IN (" ++ List.intercalate (bytes ", ") literals ++
    bytes ")"

def buildPKInSelectQuery (dbType queryTable : Text) (cols : List Text) (pkCol : Text)
    (pkValues : List Cell) : Text :=
  if pkValues = [] then []
  else selectByPK naming dbType (naming.quoteQualifiedIdent dbType queryTable) cols pkCol pkValues

def buildSourceQueryPKInSelectSQL (dbType sourceQuery : Text) (cols : List Text) (pkCol : Text)
    (pkValues : List Cell) : Text :=
  match normalizeSourceQueryForPaging naming sourceQuery with
  | none => []
  | some subquery =>
    if pkValues = [] then []
    else selectByPK naming dbType (bytes "(" ++ subquery ++ bytes ") AS __gonavi_source_query__")
      cols pkCol pkValues

/-! ### Blank queries -/

theorem trimSpace_bytes_append {word : Text} {c : UInt8} (hc : c ∉ spaceRunes.flatten)
    (hmem : c ∈ word) (t : Text) : trimSpace (word ++ t) ≠ [] :=
  trimSpace_ne_nil hc (mem_append_left _ hmem)

theorem trimSpace_select (t : Text) : trimSpace (bytes "SELECT " ++ t) ≠ [] :=
  trimSpace_bytes_append (c := 0x53) (by decide) (by decide) t

theorem trimSpace_paginated (dbType baseSQL selectList orderBySQL : Text) (limit offset : ℕ) :
    trimSpace (buildPaginatedSelectSQLForSync naming dbType baseSQL selectList orderBySQL limit
      offset) ≠ [] := by
  have hlimit : (0x4C : UInt8) ∈ bytes " LIMIT " := by decide
  have hselect : (0x53 : UInt8) ∈ bytes "SELECT " := by decide
  unfold buildPaginatedSelectSQLForSync
  dsimp only
  split
  · apply trimSpace_ne_nil (c := 0x53) (by decide)
    simp only [mem_append, hselect, true_or]
  · apply trimSpace_ne_nil (c := 0x4C) (by decide)
    simp only [mem_append, hlimit, true_or, or_true]

/-- **Whether the query of a page of a table is blank does not depend on the page.** -/
theorem buildPagedSourceTableQuery_blank (dbType queryTable : Text) (cols : List Text)
    (orderCol : Text) (limit offset offset' : ℕ)
    (h : trimSpace (buildPagedSourceTableQuery naming dbType queryTable cols orderCol limit
      offset) = []) :
    trimSpace (buildPagedSourceTableQuery naming dbType queryTable cols orderCol limit
      offset') = [] := by
  unfold buildPagedSourceTableQuery at h ⊢
  dsimp only at h ⊢
  split at h
  · rename_i hblank
    rw [if_pos hblank]
    rfl
  · exact absurd h (trimSpace_paginated naming _ _ _ _ _ _)

theorem filterMap_literal_ne_nil {pkValues : List Cell} (hne : pkValues ≠ [])
    (hkept : ∀ value ∈ pkValues, (pkValueKey value).isSome) (dbType : Text) :
    pkValues.filterMap (formatSyncSQLLiteral dbType) ≠ [] := by
  obtain ⟨value, hvalue⟩ := exists_mem_of_ne_nil _ hne
  obtain ⟨literal, hliteral⟩ :=
    Option.isSome_iff_exists.mp (formatSyncSQLLiteral_isSome (hkept value hvalue) dbType)
  exact ne_nil_of_mem (mem_filterMap.mpr ⟨value, hvalue, hliteral⟩)

theorem trimSpace_selectByPK {pkValues : List Cell} (hne : pkValues ≠ [])
    (hkept : ∀ value ∈ pkValues, (pkValueKey value).isSome) (dbType source : Text)
    (cols : List Text) (pkCol : Text) :
    trimSpace (selectByPK naming dbType source cols pkCol pkValues) ≠ [] := by
  unfold selectByPK
  rw [if_neg (filterMap_literal_ne_nil hne hkept dbType)]
  simp only [append_assoc]
  exact trimSpace_select _

/-- **The rows under keys that are kept can be asked for.** -/
theorem buildPKInSelectQuery_ne_nil {pkValues : List Cell} (hne : pkValues ≠ [])
    (hkept : ∀ value ∈ pkValues, (pkValueKey value).isSome) (dbType queryTable : Text)
    (cols : List Text) (pkCol : Text) :
    trimSpace (buildPKInSelectQuery naming dbType queryTable cols pkCol pkValues) ≠ [] := by
  unfold buildPKInSelectQuery
  rw [if_neg hne]
  exact trimSpace_selectByPK naming hne hkept _ _ _ _

theorem buildSourceQueryPKInSelectSQL_ne_nil {pkValues : List Cell} (hne : pkValues ≠ [])
    (hkept : ∀ value ∈ pkValues, (pkValueKey value).isSome) {sourceQuery subquery : Text}
    (hquery : normalizeSourceQueryForPaging naming sourceQuery = some subquery) (dbType : Text)
    (cols : List Text) (pkCol : Text) :
    trimSpace (buildSourceQueryPKInSelectSQL naming dbType sourceQuery cols pkCol pkValues)
      ≠ [] := by
  unfold buildSourceQueryPKInSelectSQL
  rw [hquery]
  dsimp only
  rw [if_neg hne]
  exact trimSpace_selectByPK naming hne hkept _ _ _ _

/-- A page of keys behind a key that is kept can be asked for. -/
theorem buildKeysetPagedTableQuery_ne_nil {lastValue : Option Cell}
    (hkept : ∀ value ∈ lastValue, (pkValueKey value).isSome) (dbType queryTable : Text)
    (cols : List Text) (orderCol : Text) (limit : ℕ) :
    trimSpace (buildKeysetPagedTableQuery naming dbType queryTable cols orderCol lastValue limit)
      ≠ [] := by
  have htop : (0x53 : UInt8) ∈ bytes "SELECT TOP (" := by decide
  have hselect : (0x53 : UInt8) ∈ bytes "SELECT " := by decide
  unfold buildKeysetPagedTableQuery
  cases lastValue with
  | none =>
    dsimp only
    split <;> apply trimSpace_ne_nil (c := 0x53) (by decide) <;>
      simp only [mem_append, htop, hselect, true_or]
  | some value =>
    obtain ⟨literal, hliteral⟩ :=
      Option.isSome_iff_exists.mp (formatSyncSQLLiteral_isSome (hkept value rfl) dbType)
    dsimp only
    rw [hliteral]
    dsimp only
    split <;> apply trimSpace_ne_nil (c := 0x53) (by decide) <;>
      simp only [mem_append, htop, hselect, true_or]

end queries

end GoNavi.Sync
