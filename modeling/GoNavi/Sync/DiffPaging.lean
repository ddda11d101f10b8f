import GoNavi.Json.Render
import GoNavi.Machine.Paging

/-! # Comparing tables in pages

`diffRowsByKeyColumns` compares all rows of two tables.  `scanTableDiffInPages` reads the source
page by page, fetches the rows of the target under the keys of a page, and then reads the keys of
the target page by page for the rows that the source does not have.  A row has the columns that
the queries select.  A database answers the queries as they are written: keys are of a linear
order `V`, and a literal stands for a key. -/

namespace GoNavi.Sync

open Scan

/-! ### Rows -/

/-- A value as a driver returns it.  Of a floating-point number, a time or a value of another type
only texts are read: by `%v`, by `encoding/json` and by the format of the literal. -/
inductive Cell where
  | nil
  | bool (b : Bool)
  | integer (n : ℤ)
  | float (shown : Text) (json : Option Text)
  | text (t : Text)
  | blob (t : Text)
  | time (shown formatted : Text) (json : Option Text)
  | other (shown : Text) (json : Option Text)
  deriving DecidableEq

/-- `fmt.Sprintf("%v", value)`. -/
def sprint : Cell → Text
  | .nil => bytes "<nil>"
  | .bool b => if b then bytes "true" else bytes "false"
  | .integer n => Json.integer n
  | .text t => t
  | .blob t => 0x5B :: (List.intercalate [0x20] (t.map fun c => Json.natural c.toNat) ++ [0x5D])
  | .float shown _ | .time shown _ _ | .other shown _ => shown

/-- What `json.Marshal` writes for a value, bytes as the string of them. -/
def marshal : Cell → Option Text
  | .nil => some (bytes "null")
  | .bool b => some (if b then bytes "true" else bytes "false")
  | .integer n => some (Json.integer n)
  | .text t | .blob t => some (Json.string t)
  | .float _ json | .time _ _ json | .other _ json => json

/-- A row, as a map from the names of its columns. -/
structure TableRow where
  columns : List (Text × Cell)
  nodup : (columns.map Prod.fst).Nodup
  deriving DecidableEq

/-- The value of a column, `nil` when the row does not have it. -/
def TableRow.cell (row : TableRow) (column : Text) : Cell := (row.columns.lookup column).getD .nil

/-- What a map holds that has been filled with the rows, under a key. -/
def lastUnder (keyOf : TableRow → Option Text) (key : Text) (rows : List TableRow) :
    Option TableRow :=
  rows.reverse.find? fun row => keyOf row = some key

/-- The columns of a row whose text differs in another row. -/
def changedCells (sourceRow targetRow : TableRow) : List (Text × Cell) :=
  sourceRow.columns.filter fun entry => sprint entry.2 ≠ sprint (targetRow.cell entry.1)

structure TableUpdateRow where
  keys : List (Text × Cell)
  values : List (Text × Cell)

/-- What a comparison finds about a row of the source. -/
inductive Finding (υ : Type) where
  | skipped
  | insert (row : TableRow)
  | update (diff : υ)
  | same

def Finding.inserted {υ : Type} : Finding υ → Option TableRow
  | .insert row => some row
  | _ => none

def Finding.updated {υ : Type} : Finding υ → Option υ
  | .update diff => some diff
  | _ => none

def Finding.isSame {υ : Type} : Finding υ → Bool
  | .same => true
  | _ => false

/-! ### Comparing whole tables -/

/-- The elements of the array of the key values. -/
def marshalColumns (row : TableRow) (keyColumns : List Text) : Option (List Text) :=
  keyColumns.mapM fun column => if row.cell column = .nil then none else marshal (row.cell column)

def syncRowKey (row : TableRow) (keyColumns : List Text) : Option Text :=
  if keyColumns = [] then none
  else (marshalColumns row keyColumns).map fun values =>
    0x5B :: (List.intercalate [0x2C] values ++ [0x5D])

def syncRowKeys (row : TableRow) (keyColumns : List Text) : List (Text × Cell) :=
  keyColumns.map fun column => (column, row.cell column)

/-- What is found about a row of the source. -/
def compareRow (keyColumns : List Text) (targetRows : List TableRow) (sourceRow : TableRow) :
    Finding TableUpdateRow :=
  match syncRowKey sourceRow keyColumns with
  | none => .skipped
  | some key =>
    match lastUnder (fun row => syncRowKey row keyColumns) key targetRows with
    | none => .insert sourceRow
    | some targetRow =>
      if changedCells sourceRow targetRow = [] then .same
      else .update ⟨syncRowKeys sourceRow keyColumns, changedCells sourceRow targetRow⟩

/-- The keys of the rows that only the target has. -/
def deletedKeys (keyColumns : List Text) (sourceRows targetRows : List TableRow) :
    List (List (Text × Cell)) :=
  let keyOf := fun row : TableRow => syncRowKey row keyColumns
  ((targetRows.filterMap keyOf).dedup.filter (· ∉ sourceRows.filterMap keyOf)).filterMap fun key =>
    (lastUnder keyOf key targetRows).map fun row => syncRowKeys row keyColumns

/-- Inserts, updates, deletes and the number of rows that are the same. -/
def diffRowsByKeyColumns (keyColumns : List Text) (sourceRows targetRows : List TableRow) :
    List TableRow × List TableUpdateRow × List (List (Text × Cell)) × ℕ :=
  let findings := sourceRows.map (compareRow keyColumns targetRows)
  (findings.filterMap Finding.inserted, findings.filterMap Finding.updated,
    deletedKeys keyColumns sourceRows targetRows, findings.countP Finding.isSame)

/-! ### Keys and literals of a page -/

def pkValueKey : Cell → Option Text
  | .nil => none
  | value =>
    let key := trimSpace (sprint value)
    if key = [] ∨ key = bytes "<nil>" then none else some key

/-- The first value under each key. -/
def collectPKValues (pkCol : Text) : List Text → List TableRow → List Cell
  | _, [] => []
  | seen, row :: rows =>
    match pkValueKey (row.cell pkCol) with
    | none => collectPKValues pkCol seen rows
    | some key =>
      if key ∈ seen then collectPKValues pkCol seen rows
      else row.cell pkCol :: collectPKValues pkCol (key :: seen) rows

def buildPKSet (pkCol : Text) (rows : List TableRow) : List Text :=
  rows.filterMap fun row => pkValueKey (row.cell pkCol)

def lastValidPKValue (pkCol : Text) (rows : List TableRow) : Option Cell :=
  (rows.reverse.find? fun row => (pkValueKey (row.cell pkCol)).isSome).map fun row =>
    row.cell pkCol

/-- The normalised types of the databases whose string literals have escapes. -/
def syncDialectEscapesBackslash (dbType : Text) : Bool :=
  dbType ∈ ["mysql", "mariadb", "clickhouse", "tdengine", "starrocks", "diros",
    "oceanbase"].map bytes

/-- `strings.ReplaceAll` of a byte by two of it. -/
def double (c : UInt8) (t : Text) : Text := t.flatMap fun d => if d = c then [c, c] else [d]

def quoteSyncSQLString (dbType value : Text) : Text :=
  let value := if syncDialectEscapesBackslash dbType then double 0x5C value else value
  0x27 :: (double 0x27 value ++ [0x27])

def formatSyncSQLLiteral (dbType : Text) : Cell → Option Text
  | .nil => none
  | .time _ formatted _ => some (quoteSyncSQLString dbType formatted)
  | .blob t => some (quoteSyncSQLString dbType t)
  | .text t => if trimSpace t = [] then none else some (quoteSyncSQLString dbType t)
  | .bool b => some (if b then bytes "1" else bytes "0")
  | .integer n =>
    let text := trimSpace (sprint (.integer n))
    if text = [] ∨ text = bytes "<nil>" then none else some text
  | .float shown json =>
    let text := trimSpace (sprint (.float shown json))
    if text = [] ∨ text = bytes "<nil>" then none else some text
  | .other shown json =>
    let text := trimSpace (sprint (.other shown json))
    if text = [] ∨ text = bytes "<nil>" then none else some (quoteSyncSQLString dbType text)

/-! ### Databases -/

/-- A table with a primary key, and how its database answers.  The rows of an `IN` query come in
any order. -/
structure KeyedTable (pkCol : Text) (V : Type) [LinearOrder V] where
  dbType : Text
  rows : List TableRow
  place : TableRow → V
  denote : Text → V
  select : List Text → List TableRow
  nonnull : ∀ row ∈ rows, row.cell pkCol ≠ .nil
  unique : (rows.map place).Nodup
  literal : ∀ row ∈ rows, ∀ text, formatSyncSQLLiteral dbType (row.cell pkCol) = some text →
    denote text = place row
  select_perm : ∀ literals, (select literals).Perm
    (rows.filter fun row => literals.any fun text => denote text = place row)

section queries

variable {pkCol : Text} {V : Type} [LinearOrder V] (table : KeyedTable pkCol V)

/-- The rows of `buildPagedSourceTableQuery`. -/
def KeyedTable.page (pageSize offset : ℕ) : List TableRow :=
  ((Paging.sortBy table.place table.rows).drop offset).take pageSize

/-- The rows of `buildKeysetPagedTableQuery`. -/
def KeyedTable.keysetPage (pageSize : ℕ) (last : Option Text) : List TableRow :=
  ((Paging.sortBy table.place table.rows).filter fun row =>
    last.all fun text => table.denote text < table.place row).take pageSize

/-- The rows of `buildPKInSelectQuery`; nothing when there is no query to ask. -/
def KeyedTable.rowsByPK (pkValues : List Cell) : Option (List TableRow) :=
  if pkValues = [] then some []
  else
    let literals := pkValues.filterMap (formatSyncSQLLiteral table.dbType)
    if literals = [] then none else some (table.select literals)

end queries

/-! ### Comparing page by page -/

structure PagedDiffCounts where
  inserts : ℕ
  updates : ℕ
  deletes : ℕ
  same : ℕ
  deriving DecidableEq

structure PagedUpdateDiff where
  updateRow : TableUpdateRow
  source : TableRow
  target : TableRow
  changedColumns : List Text

structure PagedDiffPage where
  inserts : List TableRow
  updates : List PagedUpdateDiff
  deletes : List (Text × Cell)
  same : ℕ

def PagedDiffCounts.add (totals : PagedDiffCounts) (page : PagedDiffPage) : PagedDiffCounts :=
  ⟨totals.inserts + page.inserts.length, totals.updates + page.updates.length,
    totals.deletes + page.deletes.length, totals.same + page.same⟩

/-- What is found about a row of a page, in the rows of the target. -/
def comparePageRow (pkCol : Text) (targetRows : List TableRow) (sourceRow : TableRow) :
    Finding PagedUpdateDiff :=
  match pkValueKey (sourceRow.cell pkCol) with
  | none => .skipped
  | some key =>
    match lastUnder (fun row => pkValueKey (row.cell pkCol)) key targetRows with
    | none => .insert sourceRow
    | some targetRow =>
      let changes := changedCells sourceRow targetRow
      if changes = [] then .same
      else .update ⟨⟨[(pkCol, sourceRow.cell pkCol)], changes⟩, sourceRow, targetRow,
        (changes.map Prod.fst).mergeSort⟩

def diffSourcePageByPK (pkCol : Text) (sourceRows targetRows : List TableRow) : PagedDiffPage :=
  let findings := sourceRows.map (comparePageRow pkCol targetRows)
  ⟨findings.filterMap Finding.inserted, findings.filterMap Finding.updated, [],
    findings.countP Finding.isSame⟩

/-- The keys of a page of the target that the source does not have. -/
def pageDeletes (pkCol : Text) (targetRows sourcePKRows : List TableRow) : List (Text × Cell) :=
  targetRows.filterMap fun row =>
    match pkValueKey (row.cell pkCol) with
    | none => none
    | some key =>
      if key ∈ buildPKSet pkCol sourcePKRows then none else some (pkCol, row.cell pkCol)

/-- `handled`, the counts, and the pages for the consumer. -/
structure PagedDiff where
  handled : Bool
  totals : PagedDiffCounts
  pages : List PagedDiffPage

def PagedDiff.unhandled : PagedDiff := ⟨false, ⟨0, 0, 0, 0⟩, []⟩

section scan

variable {pkCol : Text} {V W : Type} [LinearOrder V] [LinearOrder W]
  (source : KeyedTable pkCol V) (target : KeyedTable pkCol W) (pageSize : ℕ)

/-- The loop over the rows of the source; nothing when the fuel runs out. -/
def scanSourcePages : ℕ → ℕ → PagedDiffCounts → List PagedDiffPage → Option PagedDiff
  | 0, _, _, _ => none
  | fuel + 1, offset, totals, pages =>
    let sourceRows := source.page pageSize offset
    if sourceRows = [] then some ⟨true, totals, pages⟩
    else
      match target.rowsByPK (collectPKValues pkCol [] sourceRows) with
      | none => some .unhandled
      | some targetRows =>
        let page := diffSourcePageByPK pkCol sourceRows targetRows
        let totals := totals.add page
        let pages := pages ++ [page]
        if sourceRows.length < pageSize then some ⟨true, totals, pages⟩
        else scanSourcePages fuel (offset + pageSize) totals pages

/-- The loop over the keys of the target; nothing when the fuel runs out. -/
def scanTargetPages : ℕ → Option Cell → PagedDiffCounts → List PagedDiffPage → Option PagedDiff
  | 0, _, _, _ => none
  | fuel + 1, lastPK, totals, pages =>
    let literal := lastPK.bind (formatSyncSQLLiteral target.dbType)
    if lastPK.isSome ∧ literal = none then some .unhandled
    else
      let targetRows := target.keysetPage pageSize literal
      match lastValidPKValue pkCol targetRows with
      | none => some ⟨true, totals, pages⟩
      | some nextLastPK =>
        match source.rowsByPK (collectPKValues pkCol [] targetRows) with
        | none => some .unhandled
        | some sourcePKRows =>
          let page : PagedDiffPage := ⟨[], [], pageDeletes pkCol targetRows sourcePKRows, 0⟩
          let totals := totals.add page
          let pages := if page.deletes = [] then pages else pages ++ [page]
          if targetRows.length < pageSize then some ⟨true, totals, pages⟩
          else scanTargetPages fuel (some nextLastPK) totals pages

def scanTableDiffInPages (includeDeletes : Bool) : Option PagedDiff :=
  match scanSourcePages source target pageSize (source.rows.length + 1) 0 ⟨0, 0, 0, 0⟩ [] with
  | none => none
  | some scan =>
    if !scan.handled || !includeDeletes then some scan
    else scanTargetPages source target pageSize (target.rows.length + 1) none scan.totals scan.pages

end scan

end GoNavi.Sync
