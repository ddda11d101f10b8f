import GoNavi.Machine.Relation
import GoNavi.Scan.Text
import Mathlib.Data.List.Sort
import Mathlib.Data.List.Lex
import Mathlib.Data.UInt

/-! # Reverse statements

A change set deletes, updates and inserts rows of a table, and carries the values that the rows
had before (`PreviousDeletes`, `PreviousValues`).  `generateChangeReverse` writes the statements
that take the change back: an `INSERT` for each deleted row, an `UPDATE` for each updated row
and a `DELETE` for each inserted row.  A row for which that is not possible is reported as
skipped, and the result is complete when no row is.

A value that is `nil` is `none`.  The statements are kept in parts; `Statement.text` is the SQL. -/

namespace GoNavi.Db

open Scan Relation List

variable {V : Type}

/-- A Go map from column names to values. -/
structure Record (V : Type) where
  cells : Cells Text V
  nodup : (cells.map Prod.fst).Nodup

/-- The value of a column, `nil` when the map does not have it. -/
def Record.value (m : Record V) (column : Text) : Option V := (m.cells.lookup column).join

/-- The keys of a map in byte order. -/
def sortedKeys (m : Record V) : List Text := (m.cells.map Prod.fst).insertionSort (· ≤ ·)

/-- An update of one row. -/
structure UpdateRow (V : Type) where
  keys : Record V
  values : Record V
  previousValues : Record V

/-- A locator column, and the column of a row that carries its value. -/
structure LocatorColumn where
  key : Text
  valueColumn : Text

/-- A change of a table. -/
structure ChangeSet (V : Type) where
  inserts : List (Record V)
  updates : List (UpdateRow V)
  deletes : List (Record V)
  locatorStrategy : Text
  previousDeletes : List (Record V)
  locatorColumns : List LocatorColumn

/-! ### Statements -/

/-- A column in a condition; the row identifiers of some databases are not quoted. -/
inductive Reference
  | quoted (name : Text)
  | bare (name : Text)

/-- The column that is meant. -/
def Reference.name : Reference → Text
  | quoted name => name
  | bare name => name

/-- A reverse statement. -/
inductive Statement (V : Type)
  | delete (conditions : List (Reference × Option V))
  | update (u : Update Text V)
  | insert (cells : Cells Text V)

/-- What a statement does to a table. -/
def Statement.meaning : Statement V → Relation.Statement Text V
  | delete conditions => .delete (conditions.map fun c => (c.1.name, c.2))
  | update u => .update u
  | insert cells => .insert cells

/-- How a dialect writes identifiers and values. -/
structure Dialect (V : Type) where
  quoteIdent : Text → Text
  quoteTable : Option (Text → Text)
  format : Option V → Text

namespace Dialect

variable (d : Dialect V)

/-- `quoteTable`, with `quoteIdent` in place of a missing one. -/
def table (tableName : Text) : Text := d.quoteTable.getD d.quoteIdent tableName

/-- A column in a condition as it is written. -/
def reference : Reference → Text
  | .quoted name => d.quoteIdent name
  | .bare name => name

/-- An equation of an `UPDATE`. -/
def equation (cell : Text × Option V) : Text :=
  d.quoteIdent cell.1 ++ bytes " = " ++ d.format cell.2

end Dialect

/-- The SQL of a statement. -/
def Statement.text (d : Dialect V) (tableName : Text) : Statement V → Text
  | delete conditions =>
    bytes "DELETE FROM " ++ d.table tableName ++ bytes " WHERE " ++
      (bytes " AND ").intercalate
        (conditions.map fun c => d.reference c.1 ++ bytes " = " ++ d.format c.2) ++ bytes ";"
  | update u =>
    bytes "UPDATE " ++ d.table tableName ++
      bytes " SET " ++ (bytes ", ").intercalate (u.sets.map d.equation) ++
      bytes " WHERE " ++ (bytes " AND ").intercalate (u.conds.map d.equation) ++ bytes ";"
  | insert cells =>
    bytes "INSERT INTO " ++ d.table tableName ++
      bytes " (" ++ (bytes ", ").intercalate (cells.map fun c => d.quoteIdent c.1) ++ bytes ")" ++
      bytes " VALUES (" ++ (bytes ", ").intercalate (cells.map fun c => d.format c.2) ++
      bytes ");"

/-! ### Results -/

/-- The kind of change that a row belongs to. -/
inductive Group
  | insert
  | update
  | delete
  deriving DecidableEq

/-- A row without a reverse statement. -/
structure SkippedReverseRow where
  group : Group
  index : ℕ
  reason : Text

/-- The reverse statements of a change set. -/
structure ChangeReverseResult (V : Type) where
  deletes : List (Statement V)
  updates : List (Statement V)
  inserts : List (Statement V)
  skipped : List SkippedReverseRow
  complete : Bool

/-- The statements in the order in which they are executed. -/
def ChangeReverseResult.script (r : ChangeReverseResult V) : List (Statement V) :=
  r.deletes ++ r.updates ++ r.inserts

def reverseReasonMissingPreviousValues : Text :=
  bytes "data_grid.reverse.skip.missing_previous_values"
def reverseReasonMissingPreviousDelete : Text :=
  bytes "data_grid.reverse.skip.missing_previous_delete"
def reverseReasonMissingLocator : Text := bytes "data_grid.reverse.skip.missing_locator"
def reverseReasonNoLocatorColumns : Text := bytes "data_grid.reverse.skip.no_locator_columns"

/-! ### Statements of single rows -/

/-- The row before a delete, when the change set has one. -/
def previousDeleteAt (previousDeletes : List (Record V)) (index : ℕ) : Option (Record V) :=
  previousDeletes[index]?

/-- The columns of a row that have a value. -/
def presentCells (row : Record V) : Cells Text V :=
  (sortedKeys row).filterMap fun column =>
    (row.value column).map fun value => (column, some value)

/-- The `INSERT` of a row.  Columns without a value are left to the defaults of the database. -/
def buildReverseInsert (row : Record V) : Option (Statement V) :=
  if (presentCells row).isEmpty then none else some (.insert (presentCells row))

/-- The reverse statement of a delete. -/
def reverseDelete (previous : Option (Record V)) : Except Text (Statement V) :=
  match previous.bind buildReverseInsert with
  | none => .error reverseReasonMissingPreviousDelete
  | some statement => .ok statement

/-- The columns an update writes back: those that it sets and whose old value is known. -/
def reverseSets (row : UpdateRow V) : Cells Text V :=
  (sortedKeys row.values).filterMap fun column =>
    (row.previousValues.cells.lookup column).map fun value => (column, value)

/-- The conditions on the key columns. -/
def keyConditions (keys : Record V) : Cells Text V :=
  (sortedKeys keys).map fun column => (column, keys.value column)

/-- The update that writes the old values back. -/
def UpdateRow.back (row : UpdateRow V) : Update Text V :=
  ⟨reverseSets row, keyConditions row.keys⟩

/-- The reverse statement of an update. -/
def reverseUpdate (row : UpdateRow V) : Except Text (Statement V) :=
  if row.previousValues.cells.isEmpty then .error reverseReasonMissingPreviousValues
  else if row.keys.cells.isEmpty then .error reverseReasonMissingLocator
  else if (reverseSets row).isEmpty then .error reverseReasonMissingPreviousValues
  else .ok (.update row.back)

section inserted

variable (emptyString : V → Bool) (lower : Text → Text)

/-- A locator column in a condition.  The row identifiers of Oracle and DuckDB are not quoted.
`lower` is `strings.ToLower`. -/
def quoteReverseLocatorColumn (column locatorStrategy : Text) : Reference :=
  let name := trimSpace column
  let strategy := lower (trimSpace locatorStrategy)
  if (strategy = bytes "oracle-rowid" ∨ strategy = bytes "duckdb-rowid") ∧
      toLower name = bytes "rowid" then .bare name
  else .quoted name

/-- A locator's column and the column that carries its value. -/
def locatorPair (locator : LocatorColumn) : Option (Text × Text) :=
  let column := trimSpace locator.key
  let valueColumn := trimSpace locator.valueColumn
  if column.isEmpty then none
  else some (column, if valueColumn.isEmpty then column else valueColumn)

/-- The condition on a locator column.  A value that is missing or an empty string locates
nothing. -/
def locatorCondition (row : Record V) (valueColumns : List (Text × Text))
    (locatorStrategy column : Text) : Option (Reference × Option V) :=
  match row.value ((valueColumns.lookup column).getD []) with
  | none => none
  | some value =>
    if emptyString value then none
    else some (quoteReverseLocatorColumn lower column locatorStrategy, some value)

/-- The conditions that locate an inserted row. -/
def buildReverseDeleteConditions (row : Record V) (locatorColumns : List LocatorColumn)
    (locatorStrategy : Text) : Option (List (Reference × Option V)) :=
  if locatorColumns.isEmpty then none
  else do
    let pairs ← locatorColumns.mapM locatorPair
    let columns := (pairs.map Prod.fst).insertionSort (· ≤ ·)
    -- In the map of value columns a later locator replaces an earlier one of the same column.
    columns.mapM (locatorCondition emptyString lower row pairs.reverse locatorStrategy)

/-- The reverse statement of an insert. -/
def reverseInsert (row : Record V) (locatorColumns : List LocatorColumn)
    (locatorStrategy : Text) : Except Text (Statement V) :=
  match buildReverseDeleteConditions emptyString lower row locatorColumns locatorStrategy with
  | none =>
    .error (if locatorColumns.isEmpty then reverseReasonNoLocatorColumns
      else reverseReasonMissingLocator)
  | some conditions => .ok (.delete conditions)

end inserted

/-! ### The generator -/

/-- The statements of the rows that have one. -/
def statements (rows : List (Except Text (Statement V))) : List (Statement V) :=
  rows.filterMap Except.toOption

/-- The rows that have none. -/
def skips (group : Group) (rows : List (Except Text (Statement V))) : List SkippedReverseRow :=
  rows.zipIdx.filterMap fun
    | (.error reason, index) => some ⟨group, index, reason⟩
    | (.ok _, _) => none

/-- The reverse of a change set. -/
def generateChangeReverse (emptyString : V → Bool) (lower : Text → Text) (changes : ChangeSet V) :
    ChangeReverseResult V :=
  let ofDeletes := (List.range changes.deletes.length).map fun index =>
    reverseDelete (previousDeleteAt changes.previousDeletes index)
  let ofUpdates := changes.updates.map reverseUpdate
  let ofInserts := changes.inserts.map fun row =>
    reverseInsert emptyString lower row changes.locatorColumns changes.locatorStrategy
  let skipped := skips .delete ofDeletes ++ skips .update ofUpdates ++ skips .insert ofInserts
  { deletes := statements ofInserts
    updates := statements ofUpdates
    inserts := statements ofDeletes
    skipped
    complete := skipped.isEmpty && decide (0 < (statements ofInserts).length +
      (statements ofUpdates).length + (statements ofDeletes).length) }

/-! ### Cells -/

theorem mem_of_lookup {c : Text} {v : Option V} {cells : Cells Text V}
    (h : cells.lookup c = some v) : (c, v) ∈ cells := by
  obtain ⟨before, after, rfl, -⟩ := lookup_eq_some_iff.mp h
  exact mem_append_right _ mem_cons_self

theorem lookup_of_mem : ∀ {cells : Cells Text V}, (cells.map Prod.fst).Nodup →
    ∀ {cell : Text × Option V}, cell ∈ cells → cells.lookup cell.1 = some cell.2
  | [], _, _, hcell => absurd hcell not_mem_nil
  | first :: cells, hnodup, cell, hcell => by
    rw [map_cons, nodup_cons] at hnodup
    cases mem_cons.mp hcell with
    | inl h =>
      subst h
      exact lookup_cons_self
    | inr h =>
      have hne : cell.1 ≠ first.1 := fun he => hnodup.1 (he ▸ mem_map_of_mem h)
      rw [lookup_cons, beq_eq_false_iff_ne.mpr hne]
      exact lookup_of_mem hnodup.2 h

theorem mem_sortedKeys {m : Record V} {c : Text} :
    c ∈ sortedKeys m ↔ (m.cells.lookup c).isSome := by
  rw [sortedKeys, mem_insertionSort, mem_map]
  constructor
  · rintro ⟨cell, hcell, rfl⟩
    rw [lookup_isSome_iff]
    exact ⟨cell, hcell, by simp⟩
  · intro h
    rw [lookup_isSome_iff] at h
    obtain ⟨cell, hcell, hc⟩ := h
    exact ⟨cell, hcell, (eq_of_beq hc).symm⟩

theorem lookup_filterMap_cells {β : Type} {f : Text → Option β} {c : Text} :
    ∀ columns : List Text,
      (columns.filterMap fun column => (f column).map fun v => (column, v)).lookup c =
        if c ∈ columns then f c else none
  | [] => rfl
  | column :: columns => by
    have ih := lookup_filterMap_cells (f := f) (c := c) columns
    rw [filterMap_cons]
    cases hf : f column with
    | none =>
      by_cases hc : c = column
      · subst hc
        simpa [hf] using ih
      · simpa [hf, hc] using ih
    | some v =>
      by_cases hc : c = column
      · subst hc
        simp [hf]
      · simpa [hf, hc, lookup_cons, beq_eq_false_iff_ne.mpr hc] using ih

theorem lookup_presentCells (m : Record V) (c : Text) :
    (presentCells m).lookup c = (m.value c).map some := by
  have hcells : presentCells m = (sortedKeys m).filterMap fun column =>
      ((m.value column).map some).map fun v => (column, v) := by
    simp only [presentCells, Option.map_map, Function.comp_def]
  rw [hcells, lookup_filterMap_cells (f := fun column => (m.value column).map some)]
  by_cases hc : c ∈ sortedKeys m
  · rw [if_pos hc]
  · rw [if_neg hc]
    have hnone : m.cells.lookup c = none := by
      rw [mem_sortedKeys, Option.not_isSome_iff_eq_none] at hc
      exact hc
    rw [Record.value, hnone]
    rfl

theorem lookup_back (row : UpdateRow V) (c : Text) :
    row.back.sets.lookup c =
      if (row.values.cells.lookup c).isSome then row.previousValues.cells.lookup c else none := by
  show (reverseSets row).lookup c = _
  rw [reverseSets, lookup_filterMap_cells]
  simp only [mem_sortedKeys]

/-- The conditions of a reverse update are those of the update. -/
theorem meets_keyConditions {keys : Record V} {r : Row Text V} :
    Meets (keyConditions keys) r ↔ Meets keys.cells r := by
  constructor
  · intro h cell hcell
    have hlookup := lookup_of_mem keys.nodup hcell
    have hcond := h (cell.1, keys.value cell.1) (mem_map_of_mem
      (mem_sortedKeys.mpr (Option.isSome_of_eq_some hlookup)))
    rw [Record.value, hlookup] at hcond
    exact hcond
  · intro h cond hcond
    obtain ⟨column, hcolumn, rfl⟩ := mem_map.mp hcond
    obtain ⟨v, hv⟩ := Option.isSome_iff_exists.mp (mem_sortedKeys.mp hcolumn)
    have hcell := h (column, v) (mem_of_lookup hv)
    rw [Record.value, hv]
    exact hcell

/-! ### Complete results -/

section skips

variable {α : Type} {group : Group} {f : α → Except Text (Statement V)} {g : α → Statement V}
  {xs : List α}

theorem exists_ok_of_skips_eq_nil (h : skips group (xs.map f) = []) :
    ∀ x ∈ xs, ∃ s, f x = .ok s := by
  intro x hx
  obtain ⟨index, hindex⟩ := mem_iff_getElem?.mp (mem_map_of_mem (f := f) hx)
  rw [skips, filterMap_eq_nil_iff] at h
  have hnone := h _ (mk_mem_zipIdx_iff_getElem?.mpr hindex)
  cases hrow : f x with
  | error reason => simp [hrow] at hnone
  | ok s => exact ⟨s, rfl⟩

theorem statements_eq_map (hok : ∀ x ∈ xs, f x = .ok (g x)) :
    statements (xs.map f) = xs.map g := by
  rw [statements, filterMap_map]
  refine filterMap_eq_map_iff_forall_eq_some.mpr fun x hx => ?_
  simp [hok x hx, Except.toOption]

end skips

/-- What a deleted row is given back. -/
def previousCells (changes : ChangeSet V) (index : ℕ) : Cells Text V :=
  ((previousDeleteAt changes.previousDeletes index).map presentCells).getD []

theorem reverseDelete_ok {previous : Option (Record V)} {s : Statement V}
    (h : reverseDelete previous = .ok s) :
    ∃ row, previous = some row ∧ s = .insert (presentCells row) := by
  unfold reverseDelete at h
  cases previous with
  | none => cases h
  | some row =>
    rw [Option.bind_some, buildReverseInsert] at h
    split at h
    · cases h
    · next hs =>
      split at hs
      · cases hs
      · cases hs
        cases h
        exact ⟨row, rfl, rfl⟩

theorem reverseUpdate_ok {row : UpdateRow V} {s : Statement V} (h : reverseUpdate row = .ok s) :
    s = .update row.back := by
  unfold reverseUpdate at h
  split at h
  · cases h
  · split at h
    · cases h
    · split at h
      · cases h
      · cases h
        rfl

section complete

variable (emptyString : V → Bool) (lower : Text → Text) (changes : ChangeSet V)

/-- The conditions on which an inserted row is deleted. -/
def locator (row : Record V) : List (Reference × Option V) :=
  (buildReverseDeleteConditions emptyString lower row changes.locatorColumns
    changes.locatorStrategy).getD []

/-- The statements that take back each row of a change set. -/
def fullScript : List (Statement V) :=
  (changes.inserts.map fun row => .delete (locator emptyString lower changes row)) ++
    (changes.updates.map fun row => .update row.back) ++
    ((List.range changes.deletes.length).map fun index => .insert (previousCells changes index))

variable {emptyString lower changes}

theorem reverseInsert_ok {row : Record V} {s : Statement V}
    (h : reverseInsert emptyString lower row changes.locatorColumns changes.locatorStrategy =
      .ok s) :
    buildReverseDeleteConditions emptyString lower row changes.locatorColumns
        changes.locatorStrategy = some (locator emptyString lower changes row) ∧
      s = .delete (locator emptyString lower changes row) := by
  unfold reverseInsert at h
  rw [locator]
  split at h
  · cases h
  · next conditions hconditions =>
    cases h
    rw [hconditions]
    exact ⟨rfl, rfl⟩

/-- A complete result has a statement for each row of the change set. -/
theorem script_of_complete (h : (generateChangeReverse emptyString lower changes).complete) :
    (generateChangeReverse emptyString lower changes).script =
        fullScript emptyString lower changes ∧
      (∀ row ∈ changes.inserts, buildReverseDeleteConditions emptyString lower row
        changes.locatorColumns changes.locatorStrategy =
          some (locator emptyString lower changes row)) ∧
      ∀ index < changes.deletes.length, ∃ previous,
        changes.previousDeletes[index]? = some previous := by
  simp only [generateChangeReverse, Bool.and_eq_true, List.isEmpty_iff, List.append_eq_nil_iff]
    at h
  obtain ⟨⟨⟨hdeletes, hupdates⟩, hinserts⟩, -⟩ := h
  have hd : ∀ index ∈ List.range changes.deletes.length, ∃ previous,
      changes.previousDeletes[index]? = some previous ∧
        reverseDelete (previousDeleteAt changes.previousDeletes index) =
          .ok (.insert (previousCells changes index)) := by
    intro index hindex
    obtain ⟨s, hs⟩ := exists_ok_of_skips_eq_nil hdeletes index hindex
    obtain ⟨previous, hprevious, rfl⟩ := reverseDelete_ok hs
    refine ⟨previous, hprevious, ?_⟩
    rw [hs, previousCells, hprevious]
    rfl
  have hu : ∀ row ∈ changes.updates, reverseUpdate row = .ok (.update row.back) := by
    intro row hrow
    obtain ⟨s, hs⟩ := exists_ok_of_skips_eq_nil hupdates row hrow
    rw [hs, reverseUpdate_ok hs]
  have hi : ∀ row ∈ changes.inserts, ∃ s, reverseInsert emptyString lower row
      changes.locatorColumns changes.locatorStrategy = .ok s :=
    exists_ok_of_skips_eq_nil hinserts
  refine ⟨?_, fun row hrow => (reverseInsert_ok (hi row hrow).choose_spec).1,
    fun index hindex => ?_⟩
  · rw [ChangeReverseResult.script, generateChangeReverse, fullScript]
    congr 1
    · congr 1
      · refine statements_eq_map fun row hrow => ?_
        obtain ⟨s, hs⟩ := hi row hrow
        rw [hs, (reverseInsert_ok hs).2]
      · exact statements_eq_map hu
    · refine statements_eq_map fun index hindex => ?_
      exact (hd index hindex).choose_spec.2
  · obtain ⟨previous, hprevious, -⟩ := hd index (mem_range.mpr hindex)
    exact ⟨previous, hprevious⟩

end complete

end GoNavi.Db
