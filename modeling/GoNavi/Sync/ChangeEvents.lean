import GoNavi.Json.Render
import GoNavi.Machine.Fallible
import Mathlib.Data.List.AList

/-! # Applying change events

`applyPreparedChangeEventBatch` folds the events of a batch into one insert, update or delete for
each key, and applies these to the target table.  `applyLocked` cuts the events of a delivery into
batches.  A value is what the engine compares of it: NULL, or its comparable text.  The target
table holds one row under each key, and answers and changes as the statements say. -/

namespace GoNavi.Sync

open Scan

/-! ### Rows -/

/-- NULL, or the comparable text. -/
abbrev Value := Option Text

/-- A row as a map from the names of its columns. -/
abbrev Row := AList fun _ : Text => Value

inductive Operation where
  | insert
  | replace
  | update
  | delete
  deriving DecidableEq

inductive Err where
  | missingKey (column : Text)
  | emptyLookup
  | duplicateTargetKey
  | duplicateRow
  deriving DecidableEq

/-- `strings.EqualFold`, for the canonical form of a text under case folding. -/
def equalFold (fold : Text → Text) (s t : Text) : Bool := fold s = fold t

/-- A value, whether the column exists, and whether its name is ambiguous. -/
def lookupProjectionSourceValue (fold : Text → Text) (row : Row) (source : Text) :
    Value × Bool × Bool :=
  if source = [] then (none, false, false)
  else
    match row.lookup source with
    | some value => (value, true, false)
    | none =>
      let hits := row.entries.filter fun entry => equalFold fold (trimSpace entry.1) source
      (hits.getLast?.bind Sigma.snd, hits.length = 1, 1 < hits.length)

/-- The texts of the key columns, each behind its length. -/
def watermarkCompositeRowKey (fold : Text → Text) (row : Row) : List Text → Except Err Text
  | [] => .ok []
  | column :: columns =>
    match lookupProjectionSourceValue fold row column with
    | (some text, true, false) =>
      (watermarkCompositeRowKey fold row columns).map fun key =>
        Json.natural text.length ++ 0x3A :: (text ++ 0x7C :: key)
    | _ => .error (.missingKey column)

def watermarkValuesEqual : Value → Value → Bool
  | some left, some right => left = right
  | left, right => left.isNone && right.isNone

def changeEventContainsFold (fold : Text → Text) (values : List Text) (candidate : Text) : Bool :=
  values.any fun value => equalFold fold (trimSpace value) (trimSpace candidate)

/-! ### The target -/

/-- The table that events are applied to: its columns, its stable key and the defaults of its
columns.  The name of a column that is not a key column differs from theirs in more than case. -/
structure TableRuntime (fold : Text → Text) where
  targetColumns : List Text
  targetKeys : List Text
  defaults : {c // c ∈ targetColumns} → Value
  keys_ne : targetKeys ≠ []
  columns_named : ∀ c ∈ targetColumns, c ≠ []
  keys_columns : ∀ k ∈ targetKeys, k ∈ targetColumns
  keys_apart : ∀ c ∈ targetColumns, changeEventContainsFold fold targetKeys c → c ∈ targetKeys

section target

variable {fold : Text → Text} (runtime : TableRuntime fold)

/-- A stored row has a value in every column. -/
abbrev TableRuntime.Stored : Type := {c // c ∈ runtime.targetColumns} → Value

/-- The rows of the table under their keys. -/
abbrev TableRuntime.Table : Type := Text → Option runtime.Stored

/-- The key of a row, or of the condition of a statement. -/
abbrev TableRuntime.keyOf (row : Row) : Except Err Text :=
  watermarkCompositeRowKey fold row runtime.targetKeys

/-- What a query reads of a stored row. -/
def TableRuntime.toRow (r : runtime.Stored) : Row :=
  (runtime.targetColumns.attach.map fun c => (⟨c.1, r c⟩ : Sigma fun _ : Text => Value)).toAList

/-- A stored row with the values that a statement sets. -/
def TableRuntime.overlay (row : Row) (r : runtime.Stored) : runtime.Stored :=
  fun c => (row.lookup c.1).getD (r c)

/-- Every row is stored under its key. -/
def TableRuntime.Keyed (table : runtime.Table) : Prop :=
  ∀ key r, table key = some r → runtime.keyOf (runtime.toRow r) = .ok key

structure UpdateRow where
  keys : Row
  values : Row

structure ChangeSet where
  inserts : List Row
  updates : List UpdateRow
  deletes : List Row

/-- A statement about the row of one key. -/
def TableRuntime.mutate {ι : Type} (keysOf : ι → Row)
    (change : ι → Option runtime.Stored → Except Err (Option runtime.Stored))
    (table : runtime.Table) (item : ι) : Except Err runtime.Table := do
  let key ← runtime.keyOf (keysOf item)
  let r ← change item (table key)
  return Function.update table key r

/-- `ApplyChanges`: the deletes, the updates and the inserts, in one transaction. -/
def TableRuntime.applyChanges (changes : ChangeSet) (table : runtime.Table) :
    Except Err runtime.Table := do
  let table ← changes.deletes.foldlM (runtime.mutate id fun _ _ => .ok none) table
  let table ← changes.updates.foldlM (runtime.mutate UpdateRow.keys fun update r =>
    .ok (r.map (runtime.overlay update.values))) table
  changes.inserts.foldlM (runtime.mutate id fun row r =>
    if r.isSome then .error .duplicateRow
    else .ok (some (runtime.overlay row runtime.defaults))) table

/-- The rows that the query of `buildWatermarkTargetLookupQuery` finds. -/
def TableRuntime.lookupRows (table : runtime.Table) (keyRows : List Row) :
    Except Err (List Row) := do
  let keys ← keyRows.mapM runtime.keyOf
  if keys = [] then .error .emptyLookup
  else return keys.dedup.filterMap fun key => (table key).map runtime.toRow

end target

/-! ### Batches -/

section batches

variable {fold : Text → Text} (runtime : TableRuntime fold)

/-- What `prepareChangeEvent` makes of an event: a row of columns of the target, and a value for
every key column. -/
structure PreparedChangeEvent where
  operation : Operation
  row : Row
  keys : Row
  row_columns : ∀ c ∈ row.keys, c ∈ runtime.targetColumns
  keys_columns : ∀ c, c ∈ keys.keys ↔ c ∈ runtime.targetKeys
  keys_values : ∀ c ∈ runtime.targetKeys, ∃ text, keys.lookup c = some (some text)

/-- What the loop over the events holds. -/
structure Folded where
  currentByKey : Text → Option Row
  keyValuesByKey : Text → Option Row
  orderedKeys : List Text

/-- The rows that the query found, by their keys. -/
def indexRows (rows : List Row) : Except Err (Text → Option Row) :=
  rows.foldlM (fun (initialByKey : Text → Option Row) row => do
    let key ← runtime.keyOf row
    if (initialByKey key).isSome then .error .duplicateTargetKey
    else return Function.update initialByKey key (some row)) fun _ => none

/-- A row with the columns of another one written over it. -/
def writeOver (row : Row) (current : Option Row) : Row := row ∪ current.getD ∅

def foldEvent (folded : Folded) (event : PreparedChangeEvent runtime) : Except Err Folded := do
  let eventKey ← runtime.keyOf event.keys
  let folded :=
    if eventKey ∈ folded.orderedKeys then folded
    else { folded with
      orderedKeys := folded.orderedKeys ++ [eventKey]
      keyValuesByKey := Function.update folded.keyValuesByKey eventKey (some event.keys) }
  match event.operation with
  | .delete =>
    return { folded with currentByKey := Function.update folded.currentByKey eventKey none }
  | _ =>
    let current := writeOver event.keys (some (writeOver event.row (folded.currentByKey eventKey)))
    return { folded with
      currentByKey := Function.update folded.currentByKey eventKey (some current) }

/-- The columns that an update writes. -/
def changedValues (initial current : Row) : Row :=
  ⟨current.entries.filter fun entry =>
    ¬ changeEventContainsFold fold runtime.targetKeys entry.1 ∧
      ¬ watermarkValuesEqual entry.2 (lookupProjectionSourceValue fold initial entry.1).1,
    current.nodupKeys.sublist List.filter_sublist⟩

/-- The net change of each key. -/
def netChanges (initialByKey : Text → Option Row) (folded : Folded) : ChangeSet where
  inserts := folded.orderedKeys.filterMap fun key =>
    match initialByKey key, folded.currentByKey key with
    | none, some current => some current
    | _, _ => none
  updates := folded.orderedKeys.filterMap fun key =>
    match initialByKey key, folded.currentByKey key with
    | some initial, some current =>
      let values := changedValues runtime initial current
      if values.entries = [] then none
      else some ⟨(folded.keyValuesByKey key).getD ∅, values⟩
    | _, _ => none
  deletes := folded.orderedKeys.filterMap fun key =>
    match initialByKey key, folded.currentByKey key with
    | some _, none => some ((folded.keyValuesByKey key).getD ∅)
    | _, _ => none

def applyPreparedChangeEventBatch (table : runtime.Table)
    (events : List (PreparedChangeEvent runtime)) : Except Err runtime.Table := do
  let existingRows ← runtime.lookupRows table (events.map PreparedChangeEvent.keys)
  let initialByKey ← indexRows runtime existingRows
  let folded ← events.foldlM (foldEvent runtime) ⟨initialByKey, fun _ => none, []⟩
  let changes := netChanges runtime initialByKey folded
  if changes.inserts.length + changes.updates.length + changes.deletes.length = 0 then return table
  else runtime.applyChanges changes table

/-- The `flush` of `applyLocked`. -/
def flush (table : runtime.Table) (pending : List (PreparedChangeEvent runtime)) :
    Except Err runtime.Table :=
  if pending.length = 0 then .ok table
  else applyPreparedChangeEventBatch runtime table pending

/-- The loop of `applyLocked` over the prepared events of one table. -/
def applyLocked (batchSize : ℕ) : runtime.Table → List (PreparedChangeEvent runtime) →
    List (PreparedChangeEvent runtime) → Except Err runtime.Table
  | table, pending, [] => flush runtime table pending
  | table, pending, event :: events => do
    let pending := pending ++ [event]
    if batchSize ≤ pending.length then
      let table ← flush runtime table pending
      applyLocked batchSize table [] events
    else applyLocked batchSize table pending events

/-- Every event is a batch of its own. -/
def applySingly (table : runtime.Table) (events : List (PreparedChangeEvent runtime)) :
    Except Err runtime.Table :=
  events.foldlM (fun table event => applyPreparedChangeEventBatch runtime table [event]) table

end batches

end GoNavi.Sync
