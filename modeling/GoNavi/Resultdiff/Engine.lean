import GoNavi.Machine.Table
import GoNavi.Scan.Runes
import Mathlib.Data.List.Sort

/-! # Comparing two result sets

`computeDiff` aligns the rows of two result sets by their key columns: rows are indexed by the
text of their key, rows without a key and rows whose key is taken stay unmatched, and the others
are removed, added, changed or the same.  A cell is nil or a value of any type that `fmt` prints
as a text; a map is the list of its entries, and `Ranging` says in which order each loop over a
map sees them. -/

namespace GoNavi.Resultdiff

open Scan

/-! ### Data -/

/-- A row, as the entries of its map; `none` is nil. -/
abbrev Row (ν : Type) := List (Text × Option ν)

inductive Side where
  | left
  | right
  deriving DecidableEq

inductive DiffKind where
  | added
  | removed
  | changed
  | same
  | unmatched
  deriving DecidableEq

structure CompareOptions where
  trimStrings : Bool
  ignoreCase : Bool
  nullEqualsEmpty : Bool
  deriving DecidableEq

structure FieldChange (ν : Type) where
  name : Text
  left : Option ν
  right : Option ν

structure DiffRow (ν : Type) where
  kind : DiffKind
  keys : Row ν
  left : Option (Row ν) := none
  right : Option (Row ν) := none
  changedFields : List (FieldChange ν) := []
  side : Option Side := none

/-- How often a column has changed, as the entries of the map. -/
abbrev Frequencies := List (Text × ℕ)

structure Summary where
  added : ℕ := 0
  removed : ℕ := 0
  changed : ℕ := 0
  same : ℕ := 0
  unmatched : ℕ := 0
  leftRowCount : ℕ
  rightRowCount : ℕ
  commonColumns : List Text
  leftOnlyColumns : List Text
  rightOnlyColumns : List Text
  changedColumnFreq : Frequencies := []
  keyColumns : List Text
  comparedColumns : List Text
  includeSameRows : Bool

/-! ### Maps -/

/-- The loops over maps: over the columns of a row, over a row whose column is looked up (while
indexing, comparing and reporting), and over the indexed rows of a side. -/
inductive Site where
  | columns (side : Side) (row : ℕ)
  | indexing (side : Side) (row : ℕ) (column : Text)
  | comparing (side : Side) (key column : Text)
  | reporting (side : Side) (key column : Text)
  | unmatched (side : Side) (row : ℕ) (column : Text)
  | indexed (side : Side)

/-- The order in which each loop over a map sees its entries. -/
structure Ranging where
  range : {β : Type} → Site → List β → List β
  perm : ∀ {β : Type} (site : Site) (entries : List β), (range site entries).Perm entries

/-- The order in which the entries are listed. -/
def Ranging.listed : Ranging := ⟨fun _ entries => entries, fun _ entries => .refl entries⟩

/-- `m[key] = value`. -/
def put {β : Type} (m : List (Text × β)) (key : Text) (value : β) : List (Text × β) :=
  if key ∈ m.map Prod.fst then Table.update Prod.fst key (fun e => (e.1, value)) m
  else m ++ [(key, value)]

/-- `m[key]`. -/
def get {β : Type} (m : List (Text × β)) (key : Text) : Option β :=
  (Table.lookup Prod.fst key m).map Prod.snd

/-- `freq[name]++`. -/
def bump (freq : Frequencies) (name : Text) : Frequencies :=
  put freq name ((get freq name).getD 0 + 1)

section engine

variable {ν : Type} (unicode : UnicodeTables) (sprint : ν → Text)

/-! ### Columns -/

def normalizeColumnList (cols : List Text) : List Text :=
  (cols.foldl (fun (out, seen) c =>
    let c := trimSpace c
    if c = [] then (out, seen)
    else
      let lowered := lower unicode c
      if lowered ∈ seen then (out, seen) else (out ++ [c], seen ++ [lowered]))
    (([], []) : List Text × List Text)).1

def toLowerSet (cols : List Text) : List Text :=
  ((cols.map trimSpace).filter fun c => c ≠ []).map (lower unicode)

/-- The display names of the columns, by their lower case: the explicit ones, then those of the
rows. -/
def columnSet (ranging : Ranging) (side : Side) (explicit : List Text) (rows : List (Row ν)) :
    List (Text × Text) :=
  let set := explicit.foldl (fun set c =>
    let c := trimSpace c
    if c = [] then set else put set (lower unicode c) c) []
  rows.zipIdx.foldl (fun set (row, index) =>
    (ranging.range (.columns side index) row).foldl (fun set (k, _) =>
      let k := trimSpace k
      if k = [] then set
      else if (get set (lower unicode k)).isSome then set
      else put set (lower unicode k) k) set) set

/-- `sort.Strings`. -/
def sortStrings (ts : List Text) : List Text := ts.insertionSort (· ≤ ·)

def splitColumns (left right : List (Text × Text)) : List Text × List Text × List Text :=
  let common := left.filter fun e => (get right e.1).isSome
  let leftOnly := left.filter fun e => (get right e.1).isNone
  let rightOnly := right.filter fun e => (get left e.1).isNone
  (sortStrings (common.map Prod.snd), sortStrings (leftOnly.map Prod.snd),
    sortStrings (rightOnly.map Prod.snd))

def resolveComparedColumns (common compareColumns ignoreSet : List Text) : List Text :=
  let wanted := normalizeColumnList unicode compareColumns
  if wanted = [] then common.filter fun c => lower unicode c ∉ ignoreSet
  else
    let commonLower := common.foldl (fun set c => put set (lower unicode c) c) []
    wanted.filterMap fun w =>
      let lowered := lower unicode w
      if lowered ∈ ignoreSet then none else get commonLower lowered

/-! ### Values -/

/-- The value of a column: under its name, or under the first one of the same lower case. -/
def lookupValue (entries : Row ν) (col : Text) : Option (Option ν) :=
  match get entries col with
  | some value => some value
  | none =>
    (entries.find? fun e => lower unicode e.1 = lower unicode col).map Prod.snd

def normalizeValue (value : Option ν) (opts : CompareOptions) : Text :=
  match value with
  | none => []
  | some x =>
    let s := trimSpace (sprint x)
    let s := if s = bytes "<nil>" then [] else s
    let s := if opts.trimStrings then trimSpace s else s
    if opts.ignoreCase then lower unicode s else s

/-- The branch for `nullEqualsEmpty` compares the same texts. -/
def valuesEqual (left right : Option ν) (opts : CompareOptions) : Bool :=
  if left.isNone && right.isNone then true
  else normalizeValue unicode sprint left opts = normalizeValue unicode sprint right opts

def keySep : Text := [0x1F]

/-- The text of a row's key, or `none` if a column of it is missing. -/
def buildKey (range : Text → Row ν → Row ν) (row : Row ν) (keyColumns : List Text)
    (opts : CompareOptions) : Option Text := do
  let parts ← keyColumns.mapM fun col =>
    match lookupValue unicode (range col row) col with
    | none | some none => if opts.nullEqualsEmpty then some [] else none
    | some value => some (normalizeValue unicode sprint value opts)
  return List.intercalate keySep parts

def formatKeyMap (keys : Row ν) (keyColumns : List Text) (opts : CompareOptions) : Text :=
  List.intercalate keySep (keyColumns.map fun col =>
    normalizeValue unicode sprint ((lookupValue unicode keys col).getD none) opts)

def pickKeys (range : Text → Row ν → Row ν) (row : Row ν) (keyColumns : List Text) : Row ν :=
  keyColumns.foldl (fun out col =>
    put out col ((lookupValue unicode (range col row) col).getD none)) []

def diffFields (rangeLeft rangeRight : Text → Row ν → Row ν) (left right : Row ν)
    (columns : List Text) (opts : CompareOptions) : List (FieldChange ν) :=
  columns.filterMap fun col =>
    let lv := (lookupValue unicode (rangeLeft col left) col).getD none
    let rv := (lookupValue unicode (rangeRight col right) col).getD none
    if valuesEqual unicode sprint lv rv opts then none else some ⟨col, lv, rv⟩

/-! ### Rows -/

/-- A row with a key that is free is indexed. -/
def indexRow (ranging : Ranging) (side : Side) (keyColumns : List Text) (opts : CompareOptions)
    (state : List (Text × Row ν) × List (Row ν)) (entry : Row ν × ℕ) :
    List (Text × Row ν) × List (Row ν) :=
  let (indexed, unmatched) := state
  let (row, index) := entry
  match buildKey unicode sprint (fun col => ranging.range (.indexing side index col)) row
      keyColumns opts with
  | none => (indexed, unmatched ++ [row])
  | some key =>
    if (get indexed key).isSome then (indexed, unmatched ++ [row])
    else (put indexed key row, unmatched)

/-- The first row of each key, and the rows without a key or with a taken one. -/
def indexByKeys (ranging : Ranging) (side : Side) (rows : List (Row ν)) (keyColumns : List Text)
    (opts : CompareOptions) : List (Text × Row ν) × List (Row ν) :=
  rows.zipIdx.foldl (indexRow unicode sprint ranging side keyColumns opts) ([], [])

def kindOrder : DiffKind → ℕ
  | .changed => 0
  | .added => 1
  | .removed => 2
  | .unmatched => 3
  | .same => 4

/-- The order of the report: the kind, then the text of the key. -/
def reportLess (keys : List Text) (opts : CompareOptions) (a b : DiffRow ν) : Bool :=
  if kindOrder a.kind ≠ kindOrder b.kind then kindOrder a.kind < kindOrder b.kind
  else formatKeyMap unicode sprint a.keys keys opts < formatKeyMap unicode sprint b.keys keys opts

/-- `sort.SliceStable`. -/
def sortReport (keys : List Text) (opts : CompareOptions) (rows : List (DiffRow ν)) :
    List (DiffRow ν) :=
  rows.insertionSort fun a b => reportLess unicode sprint keys opts b a = false

/-- The summary and the rows reported so far. -/
structure Report (ν : Type) where
  summary : Summary
  rows : List (DiffRow ν)

/-- What does not change while the rows are visited. -/
structure Setup (ν : Type) where
  ranging : Ranging
  keys : List Text
  compared : List Text
  opts : CompareOptions
  includeSameRows : Bool
  leftMap : List (Text × Row ν)
  rightMap : List (Text × Row ν)

def Setup.pick (setup : Setup ν) (site : Text → Site) (row : Row ν) : Row ν :=
  pickKeys unicode (fun col => setup.ranging.range (site col)) row setup.keys

/-- A row of the left side: removed, changed or the same. -/
def visitLeft (setup : Setup ν) (report : Report ν) (entry : Text × Row ν) : Report ν :=
  let (key, leftRow) := entry
  let summary := report.summary
  let keys := setup.pick unicode (.reporting .left key) leftRow
  match get setup.rightMap key with
  | none =>
    { summary := { summary with removed := summary.removed + 1 }
      rows := report.rows ++ [{ kind := .removed, keys, left := some leftRow }] }
  | some rightRow =>
    let changes := diffFields unicode sprint
      (fun col => setup.ranging.range (.comparing .left key col))
      (fun col => setup.ranging.range (.comparing .right key col))
      leftRow rightRow setup.compared setup.opts
    if changes = [] then
      let row : DiffRow ν := { kind := .same, keys, left := some leftRow, right := some rightRow }
      { summary := { summary with same := summary.same + 1 }
        rows := if setup.includeSameRows then report.rows ++ [row] else report.rows }
    else
      let row : DiffRow ν := {
        kind := .changed, keys, left := some leftRow, right := some rightRow
        changedFields := changes }
      { summary := { summary with
          changed := summary.changed + 1
          changedColumnFreq :=
            changes.foldl (fun freq ch => bump freq ch.name) summary.changedColumnFreq }
        rows := report.rows ++ [row] }

/-- A row of the right side: added, unless its key has been seen. -/
def visitRight (setup : Setup ν) (seen : List Text) (report : Report ν)
    (entry : Text × Row ν) : Report ν :=
  let (key, rightRow) := entry
  if key ∈ seen then report
  else
    let keys := setup.pick unicode (.reporting .right key) rightRow
    { summary := { report.summary with added := report.summary.added + 1 }
      rows := report.rows ++ [{ kind := .added, keys, right := some rightRow }] }

/-- A row that has stayed unmatched. -/
def visitUnmatched (setup : Setup ν) (side : Side) (report : Report ν)
    (entry : Row ν × ℕ) : Report ν :=
  let (row, index) := entry
  let keys := setup.pick unicode (.unmatched side index) row
  let unmatched : DiffRow ν :=
    match side with
    | .left => { kind := .unmatched, keys, left := some row, side := some .left }
    | .right => { kind := .unmatched, keys, right := some row, side := some .right }
  { summary := { report.summary with unmatched := report.summary.unmatched + 1 }
    rows := report.rows ++ [unmatched] }

/-- The four loops over the rows, from an empty report on. -/
def visitRows (setup : Setup ν) (summary : Summary) (leftUnmatched rightUnmatched : List (Row ν)) :
    Report ν :=
  let lefts := setup.ranging.range (.indexed .left) setup.leftMap
  let rights := setup.ranging.range (.indexed .right) setup.rightMap
  let seen := lefts.map Prod.fst
  let report := lefts.foldl (visitLeft unicode sprint setup) ⟨summary, []⟩
  let report := rights.foldl (visitRight unicode setup seen) report
  let report := leftUnmatched.zipIdx.foldl (visitUnmatched unicode setup .left) report
  rightUnmatched.zipIdx.foldl (visitUnmatched unicode setup .right) report

def computeDiff (ranging : Ranging) (leftRows : List (Row ν)) (leftCols : List Text)
    (rightRows : List (Row ν)) (rightCols : List Text)
    (keyColumns compareColumns ignoreColumns : List Text) (opts : CompareOptions)
    (includeSameRows : Bool) : Except String (Summary × List (DiffRow ν)) :=
  let keys := normalizeColumnList unicode keyColumns
  if keys = [] then throw "key columns required"
  else
    let leftColSet := columnSet unicode ranging .left leftCols leftRows
    let rightColSet := columnSet unicode ranging .right rightCols rightRows
    let (common, leftOnly, rightOnly) := splitColumns leftColSet rightColSet
    let ignoreSet := toLowerSet unicode ignoreColumns
    let compared := resolveComparedColumns unicode common compareColumns ignoreSet
    let (leftMap, leftUnmatched) :=
      indexByKeys unicode sprint ranging .left leftRows keys opts
    let (rightMap, rightUnmatched) :=
      indexByKeys unicode sprint ranging .right rightRows keys opts
    let setup : Setup ν :=
      { ranging, keys, compared, opts, includeSameRows, leftMap, rightMap }
    let summary : Summary := {
      leftRowCount := leftRows.length
      rightRowCount := rightRows.length
      commonColumns := common
      leftOnlyColumns := leftOnly
      rightOnlyColumns := rightOnly
      keyColumns := keys
      comparedColumns := compared
      includeSameRows }
    let report := visitRows unicode sprint setup summary leftUnmatched rightUnmatched
    return (report.summary, sortReport unicode sprint keys opts report.rows)

end engine

end GoNavi.Resultdiff
