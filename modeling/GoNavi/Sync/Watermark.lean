import GoNavi.Machine.Paging
import GoNavi.Scan.Text
import Mathlib.Data.Int.Log
import Mathlib.Data.List.Lex
import Mathlib.Data.Rat.Floor

/-! # Copying a watermark window

`runWatermarkSync` captures an upper bound, reads the rows between the cursor and the bound page
by page, applies each page to the target and makes its last position durable.  The source answers
the queries as they are written: values of a column are of a linear order `V`, and a literal of a
cursor stands for a value.  What else can happen to a page is its `PageWorld`. -/

namespace GoNavi.Sync

open Scan

/-! ### Cursors -/

/-- A value of a cursor: the number, the instant, the day, the truth value or the bytes that its
text spells. -/
inductive CursorValue where
  | number (q : ℚ)
  | timestamp (t : ℤ)
  | date (t : ℤ)
  | bool (b : Bool)
  | text (t : Text)
  deriving DecidableEq

structure WatermarkCursor where
  watermark : CursorValue
  tieBreakers : List CursorValue
  deriving DecidableEq

def watermarkPositionValues (cursor : WatermarkCursor) : List CursorValue :=
  cursor.watermark :: cursor.tieBreakers

/-- The nearest integer, the even one of two. -/
def roundToNearestEven (q : ℚ) : ℤ :=
  if q - ⌊q⌋ < 1 / 2 then ⌊q⌋
  else if 1 / 2 < q - ⌊q⌋ then ⌊q⌋ + 1
  else if 2 ∣ ⌊q⌋ then ⌊q⌋ else ⌊q⌋ + 1

/-- The greatest and the least exponent of a `big.Float`, whose mantissa is at least a half. -/
def maxExp : ℤ := 2147483647

def minExp : ℤ := -2147483648

/-- A number to 256 bits. -/
def roundToBits (q : ℚ) : ℚ :=
  let ulp : ℚ := 2 ^ (Int.log 2 |q| - 255)
  roundToNearestEven (q / ulp) * ulp

/-- `big.ParseFloat(text, 10, 256, big.ToNearestEven)`.  What is too small is zero, and
`2 ^ maxExp`, which no finite value reaches, stands for infinity. -/
def parseFloat (q : ℚ) : ℚ :=
  if q = 0 ∨ Int.log 2 |q| + 1 < minExp then 0
  else
    let rounded := roundToBits q
    if maxExp < Int.log 2 |rounded| + 1 then (if 0 < q then 2 ^ maxExp else -2 ^ maxExp)
    else rounded

/-- Nothing when the values are not comparable: the order of texts depends on the collation. -/
def compareWatermarkCursorValue : CursorValue → CursorValue → Option Ordering
  | .number left, .number right => some (compare (parseFloat left) (parseFloat right))
  | .timestamp left, .timestamp right => some (compare left right)
  | .date left, .date right => some (compare left right)
  | .bool left, .bool right => some (compare left right)
  | .text left, .text right => if left = right then some .eq else none
  | _, _ => none

def compareWatermarkValues : List CursorValue → List CursorValue → Option Ordering
  | left :: lefts, right :: rights =>
    match compareWatermarkCursorValue left right with
    | none => none
    | some .eq => compareWatermarkValues lefts rights
    | some comparison => some comparison
  | _, _ => some .eq

/-- An error when the positions do not have the same length. -/
def compareWatermarkCursorPositions (left right : WatermarkCursor) :
    Except Unit (Option Ordering) :=
  if (watermarkPositionValues left).length ≠ (watermarkPositionValues right).length then .error ()
  else .ok (compareWatermarkValues (watermarkPositionValues left) (watermarkPositionValues right))

/-- `comparable && comparison >= 0`. -/
def atOrPast : Option Ordering → Bool
  | some .lt | none => false
  | _ => true

/-! ### Queries -/

section queries

variable {V : Type} [LinearOrder V]

/-- A clause of the predicate: the columns before are equal, the column at the index compares. -/
def lexicographicClause (greater inclusive : Bool) (values columns : List V) (index : ℕ) : Bool :=
  ((List.range index).all fun i => columns[i]? = values[i]?) &&
    match columns[index]?, values[index]? with
    | some column, some literal =>
      (if greater then literal < column else column < literal) ||
        (inclusive && index + 1 = columns.length && column = literal)
    | _, _ => false

/-- `buildWatermarkLexicographicPredicate`, as the rows that it holds of. -/
def lexicographicPredicate (greater inclusive : Bool) (values columns : List V) : Bool :=
  (List.range columns.length).any (lexicographicClause greater inclusive values columns)

/-- The source of a run.  The position of a row is missing when one of its columns is NULL. -/
structure WatermarkSource (ρ V : Type) [LinearOrder V] where
  rows : List ρ
  position : ρ → Option (List V)
  denote : CursorValue → V
  cursorFromRow : ρ → WatermarkCursor
  tieColumns : ℕ
  unique : (rows.filterMap position).Nodup
  width : ∀ row ∈ rows, ∀ p, position row = some p → p.length = tieColumns + 1
  literal : ∀ row ∈ rows, ∀ p, position row = some p →
    (watermarkPositionValues (cursorFromRow row)).map denote = p

variable {ρ : Type} (source : WatermarkSource ρ V)

/-- The columns that queries order by. -/
def WatermarkSource.key (row : ρ) : List V := (source.position row).getD []

/-- The position that a cursor stands for. -/
def WatermarkSource.place (cursor : WatermarkCursor) : List V :=
  (watermarkPositionValues cursor).map source.denote

/-- The row of `buildWatermarkUpperBoundQuery`. -/
def WatermarkSource.upperBound : Option ρ :=
  (Paging.sortBy (fun row => OrderDual.toDual (source.key row))
    (source.rows.filter fun row => (source.position row).isSome)).head?

/-- The rows of `buildWatermarkPageQuery`. -/
def WatermarkSource.page (lower : Option WatermarkCursor) (upper : WatermarkCursor)
    (batchSize : ℕ) : List ρ :=
  (Paging.sortBy source.key (source.rows.filter fun row =>
    match source.position row with
    | none => false
    | some columns =>
      (lower.all fun cursor =>
        lexicographicPredicate true false (source.place cursor) columns) &&
        lexicographicPredicate false true (source.place upper) columns)).take batchSize

end queries

/-! ### Runs -/

inductive WatermarkEvent (ρ : Type) where
  | applied (rows : List ρ)
  | checkpoint (cursor : WatermarkCursor)

structure WatermarkResult (ρ : Type) where
  success : Bool
  cursor : Option WatermarkCursor
  upperBound : Option WatermarkCursor
  trace : List (WatermarkEvent ρ)

/-- What happens to a page besides the answer of the source. -/
structure PageWorld where
  cancelled : Bool
  queryFails : Bool
  cursorFails : Bool
  projectionFails : Bool
  changeSetFails : Bool
  applyFails : Bool
  cancelledAfter : Bool
  checkpointFails : Bool

structure RunWorld where
  startFails : Bool
  upperQueryFails : Bool
  upperCursorFails : Bool
  hasCheckpoint : Bool
  page : ℕ → PageWorld

section runs

variable {ρ V : Type} [LinearOrder V] (source : WatermarkSource ρ V) (batchSize : ℕ)
  (world : RunWorld) (upper : WatermarkCursor)

/-- The loop over the pages; nothing when the fuel runs out. -/
def scanPages : ℕ → ℕ → Option WatermarkCursor → List (WatermarkEvent ρ) →
    Option (WatermarkResult ρ)
  | 0, _, _, _ => none
  | fuel + 1, page, durableCursor, trace =>
    let event := world.page page
    let rows := source.page durableCursor upper batchSize
    if event.cancelled ∨ event.queryFails then some ⟨false, durableCursor, some upper, trace⟩
    else
      match rows.getLast? with
      | none => some ⟨true, durableCursor, some upper, trace⟩
      | some row =>
        let candidate := source.cursorFromRow row
        if event.cursorFails ∨ event.projectionFails ∨ event.changeSetFails ∨ event.applyFails then
          some ⟨false, durableCursor, some upper, trace⟩
        else
          let trace := trace ++ [.applied rows]
          if event.cancelledAfter then some ⟨false, durableCursor, some upper, trace⟩
          else
            let trace := if world.hasCheckpoint then trace ++ [.checkpoint candidate] else trace
            if world.hasCheckpoint ∧ event.checkpointFails then
              some ⟨false, durableCursor, some upper, trace⟩
            else
              match compareWatermarkCursorPositions candidate upper with
              | .error _ => some ⟨false, some candidate, some upper, trace⟩
              | .ok comparison =>
                if atOrPast comparison then some ⟨true, some candidate, some upper, trace⟩
                else if rows.length < batchSize then
                  some ⟨true, some candidate, some upper, trace⟩
                else scanPages fuel (page + 1) (some candidate) trace

def runWatermarkSync (cursor : Option WatermarkCursor) : Option (WatermarkResult ρ) :=
  if world.startFails ∨ world.upperQueryFails then some ⟨false, cursor, none, []⟩
  else
    match source.upperBound with
    | none => some ⟨true, cursor, none, []⟩
    | some row =>
      if world.upperCursorFails then some ⟨false, cursor, none, []⟩
      else
        let upper := source.cursorFromRow row
        let scan := scanPages source batchSize world upper (source.rows.length + 1) 0 cursor []
        match cursor with
        | none => scan
        | some stored =>
          match compareWatermarkCursorPositions stored upper with
          | .error _ => some ⟨false, cursor, some upper, []⟩
          | .ok comparison =>
            if atOrPast comparison then some ⟨true, cursor, some upper, []⟩ else scan

end runs

end GoNavi.Sync
