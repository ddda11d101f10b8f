import GoNavi.Db.ChangeReverse

/-! # Taking a change back

`applyChanges` deletes, updates and inserts the rows of a change set, and fails unless each
delete and each update affects a single row.  **`reverse_restores`**: a complete reverse, executed
on the resulting table, gives the original rows back when the change set is `Reversible`: its
updates leave the columns of their conditions as they are, the last value that is known or set
for a column of an updated row is the one it had, and what a deleted row's snapshot lacks are
defaults. -/

namespace GoNavi.Db

open Scan Relation List

variable {V : Type} [DecidableEq V]

/-! ### Applying a change set -/

/-- The `UPDATE` of an updated row. -/
def UpdateRow.forward (row : UpdateRow V) : Update Text V := ⟨row.values.cells, row.keys.cells⟩

/-- A statement with these conditions affects a single row. -/
def requireSingleRowAffected (conds : Cells Text V) (rows : List (Row Text V)) : Bool :=
  rows.countP (fun r => Meets conds r) = 1

/-- Delete rows by their keys. -/
def applyDeletes : List (Record V) → List (Row Text V) → Option (List (Row Text V))
  | [], rows => some rows
  | pk :: deletes, rows =>
    if pk.cells.isEmpty then applyDeletes deletes rows
    else if requireSingleRowAffected pk.cells rows then
      applyDeletes deletes (rows.filter fun r => ¬ Meets pk.cells r)
    else none

/-- Update rows by their keys. -/
def applyUpdates : List (UpdateRow V) → List (Row Text V) → Option (List (Row Text V))
  | [], rows => some rows
  | update :: updates, rows =>
    if update.values.cells.isEmpty then applyUpdates updates rows
    else if update.keys.cells.isEmpty then none
    else if requireSingleRowAffected update.keys.cells rows then
      applyUpdates updates (rows.map update.forward.apply)
    else none

/-- Apply a change set to a table. -/
def applyChanges (blank : List (Row Text V) → Row Text V) (changes : ChangeSet V)
    (rows : List (Row Text V)) : Option (List (Row Text V)) := do
  let rows ← applyDeletes changes.deletes rows
  let rows ← applyUpdates changes.updates rows
  some (run blank (changes.inserts.map fun row => .insert row.cells) rows)

/-! ### What was applied -/

/-- The rows that deletes remove, in their order. -/
def deletedRows : List (Record V) → List (Row Text V) → List (Row Text V)
  | [], _ => []
  | pk :: deletes, rows =>
    (rows.filter fun r => Meets pk.cells r) ++
      deletedRows deletes (rows.filter fun r => ¬ Meets pk.cells r)

/-- The rows that deletes leave. -/
def survivors (deletes : List (Record V)) (rows : List (Row Text V)) : List (Row Text V) :=
  rows.filter fun r => ∀ pk ∈ deletes, ¬ Meets pk.cells r

theorem survivors_cons (pk : Record V) (deletes : List (Record V)) (rows : List (Row Text V)) :
    survivors (pk :: deletes) rows =
      survivors deletes (rows.filter fun r => ¬ Meets pk.cells r) := by
  rw [survivors, survivors, filter_filter]
  congr 1
  funext r
  simp [Bool.and_comm]

theorem applyDeletes_eq_some : ∀ {deletes : List (Record V)} {rows rows' : List (Row Text V)},
    applyDeletes deletes rows = some rows' → (∀ pk ∈ deletes, pk.cells ≠ []) →
      rows' = survivors deletes rows ∧ (deletedRows deletes rows).length = deletes.length ∧
        rows.Perm (survivors deletes rows ++ deletedRows deletes rows)
  | [], rows, rows', h, _ => by
    cases h
    simp [survivors, deletedRows]
  | pk :: deletes, rows, rows', h, hkeys => by
    rw [applyDeletes, if_neg (by simpa using hkeys pk mem_cons_self)] at h
    split at h
    · next hone =>
      rw [requireSingleRowAffected, decide_eq_true_eq, countP_eq_length_filter] at hone
      obtain ⟨hrows, hlength, hperm⟩ :=
        applyDeletes_eq_some h fun pk' hpk' => hkeys pk' (mem_cons_of_mem pk hpk')
      rw [survivors_cons, deletedRows]
      refine ⟨hrows, by simp only [length_append, hone, hlength, length_cons]; omega, ?_⟩
      have hsplit := (filter_append_perm (fun r => decide (Meets pk.cells r)) rows).symm
      refine hsplit.trans ?_
      have hrest : (rows.filter fun r => !decide (Meets pk.cells r)) =
          rows.filter fun r => decide ¬ Meets pk.cells r := by
        congr 1
        funext r
        simp
      rw [hrest]
      refine (List.Perm.append_left _ hperm).trans ?_
      exact perm_append_comm_assoc ..
    · cases h

theorem apply_of_sets_eq_nil {u : Update Text V} (h : u.sets = []) (r : Row Text V) :
    u.apply r = r := by
  rw [Update.apply]
  split
  · rw [h]
    rfl
  · rfl

theorem applyUpdates_eq_some : ∀ {updates : List (UpdateRow V)} {rows rows' : List (Row Text V)},
    applyUpdates updates rows = some rows' →
      rows' = rows.map (updateRow (updates.map UpdateRow.forward))
  | [], rows, rows', h => by
    cases h
    exact (List.map_id rows).symm
  | update :: updates, rows, rows', h => by
    rw [applyUpdates] at h
    have hcons : updateRow ((update :: updates).map UpdateRow.forward) =
        updateRow (updates.map UpdateRow.forward) ∘ update.forward.apply := rfl
    rw [hcons, ← List.map_map]
    split at h
    · next hempty =>
      have hsame : rows.map update.forward.apply = rows := by
        refine (map_congr_left fun r _ => ?_).trans (map_id rows)
        exact apply_of_sets_eq_nil (isEmpty_iff.mp hempty) r
      rw [hsame]
      exact applyUpdates_eq_some h
    · split at h
      · cases h
      · split at h
        · exact applyUpdates_eq_some h
        · cases h

/-! ### Premises -/

/-- The row of a table after the updates. -/
def updated (changes : ChangeSet V) : Row Text V → Row Text V :=
  updateRow (changes.updates.map UpdateRow.forward)

/-- The rows that the inserts add to a table. -/
def addedRows (changes : ChangeSet V) (rows result : List (Row Text V)) : List (Row Text V) :=
  result.drop (survivors changes.deletes rows).length

/-- The before-images of a change set are the true values, and what locates a row locates that
row only. -/
structure Sound (emptyString : V → Bool) (lower : Text → Text) (changes : ChangeSet V)
    (rows result : List (Row Text V)) : Prop where
  keyed : ∀ pk ∈ changes.deletes, pk.cells ≠ []
  deleted : ∀ {index : ℕ} {previous : Record V} {r : Row Text V}, changes.previousDeletes[index]? = some previous →
    (deletedRows changes.deletes rows)[index]? = some r →
      ∀ c v, previous.cells.lookup c = some v → v = r c
  updated : ∀ {before : List (UpdateRow V)} {row : UpdateRow V} {after : List (UpdateRow V)},
    changes.updates = before ++ row :: after →
    ∀ r ∈ survivors changes.deletes rows,
      Meets row.keys.cells (updateRow (before.map UpdateRow.forward) r) →
        ∀ c v, row.previousValues.cells.lookup c = some v →
          v = updateRow (before.map UpdateRow.forward) r c
  inserted : ∀ {index : ℕ} {row : Record V} {r : Row Text V}, changes.inserts[index]? = some row →
    (addedRows changes rows result)[index]? = some r →
      result.filter (fun r' => Meets ((locator emptyString lower changes row).map
        fun c => (c.1.name, c.2)) r') = [r]

/-! ### Conditions -/

/-- Whatever values the updates of a row have given its columns, the row meets the keys that it
met at first, and no others. -/
def KeysKept (changes : ChangeSet V) (rows : List (Row Text V)) : Prop :=
  ∀ r ∈ survivors changes.deletes rows,
    Settled (Takes (changes.updates.map UpdateRow.forward) r)
      (changes.updates.map UpdateRow.forward) r

/-- The last value of a column that updates of a row give as the old one. -/
def lastImage : List (UpdateRow V) → Text → Option (Option V)
  | [], _ => none
  | row :: updates, c => (lastImage updates c).or
    (if (row.values.cells.lookup c).isSome then row.previousValues.cells.lookup c else none)

/-- The updates of a row. -/
def updatesOf (changes : ChangeSet V) (r : Row Text V) : List (UpdateRow V) :=
  changes.updates.filter fun row => Meets row.keys.cells r

/-- For each column that is updated in a row, the last value that is given as the old one is the
one the row had; where none is given, the updates leave the column as it was. -/
def ImagesRestore (columns : List Text) (changes : ChangeSet V) (rows : List (Row Text V)) :
    Prop :=
  ∀ r ∈ survivors changes.deletes rows, ∀ c ∈ columns,
    ((lastImage (updatesOf changes r) c).or
      (lastSet ((updatesOf changes r).map UpdateRow.forward) c)).getD (r c) = r c

/-- A column that is null in, or missing from, the snapshot of a deleted row had its default. -/
def RestDefault (columns : List Text) (blank : List (Row Text V) → Row Text V)
    (changes : ChangeSet V) (rows : List (Row Text V)) : Prop :=
  ∀ (index : ℕ) (previous : Record V) (r : Row Text V),
    changes.previousDeletes[index]? = some previous →
      (deletedRows changes.deletes rows)[index]? = some r → ∀ c ∈ columns, previous.value c = none →
        ∀ seen, blank seen c = r c

/-! ### The updated rows -/

section updates

variable {changes : ChangeSet V} {rows : List (Row Text V)} {r : Row Text V}

theorem meeting_forward :
    meeting (changes.updates.map UpdateRow.forward) r =
      (updatesOf changes r).map UpdateRow.forward := by
  rw [meeting, filter_map, updatesOf]
  rfl

theorem meeting_back :
    meeting (changes.updates.map UpdateRow.back) r =
      (updatesOf changes r).map UpdateRow.back := by
  rw [meeting, filter_map, updatesOf]
  congr 1
  refine filter_congr fun row _ => ?_
  simp only [Function.comp_apply, UpdateRow.back, meets_keyConditions]

omit [DecidableEq V] in
theorem lastSet_back (c : Text) : ∀ updates : List (UpdateRow V),
    lastSet (updates.map UpdateRow.back) c = lastImage updates c
  | [] => rfl
  | row :: updates => by
    rw [map_cons, lastSet, lastSet_back c updates, lastImage, lookup_back]

theorem settled_back (hkept : KeysKept changes rows) (hr : r ∈ survivors changes.deletes rows) :
    Settled (Takes (changes.updates.map UpdateRow.forward) r)
      (changes.updates.map UpdateRow.back) r := by
  intro u hu r' hr'
  obtain ⟨row, hrow, rfl⟩ := mem_map.mp hu
  have hforward := hkept r hr row.forward (mem_map_of_mem hrow) r' hr'
  exact (meets_keyConditions.trans hforward).trans meets_keyConditions.symm

/-- A true before-image is a value that the row had, or was given by an update. -/
theorem takes_back {emptyString : V → Bool} {lower : Text → Text} {result : List (Row Text V)}
    (hsound : Sound emptyString lower changes rows result) (hkept : KeysKept changes rows)
    (hr : r ∈ survivors changes.deletes rows) :
    ∀ u ∈ changes.updates.map UpdateRow.back, Meets u.conds r → ∀ c v,
      u.sets.lookup c = some v → Takes (changes.updates.map UpdateRow.forward) r c v := by
  intro u hu hmeets c v hlookup
  obtain ⟨row, hrow, rfl⟩ := mem_map.mp hu
  obtain ⟨before, after, hsplit⟩ := append_of_mem hrow
  have hprior : ∀ u' ∈ before.map UpdateRow.forward,
      u' ∈ changes.updates.map UpdateRow.forward := by
    intro u' hu'
    rw [hsplit, map_append]
    exact mem_append_left _ hu'
  -- What the earlier updates have made of the row.
  obtain ⟨-, hin⟩ := updateRow_eq_lastSet (r := r) (s := r)
    (fun u' hu' => hkept r hr u' (hprior u' hu'))
    (fun u' hu' hmeets' c' v' hv' => .inr ⟨u', hprior u' hu', hmeets', hv'⟩) (fun _ => .inl rfl)
  have hmeetsnow : Meets row.keys.cells (updateRow (before.map UpdateRow.forward) r) :=
    (hkept r hr row.forward (mem_map_of_mem hrow) _ hin).mpr (meets_keyConditions.mp hmeets)
  rw [lookup_back] at hlookup
  split at hlookup
  · rw [hsound.updated hsplit r hr hmeetsnow c v hlookup]
    exact hin c
  · cases hlookup

theorem back_updated {emptyString : V → Bool} {lower : Text → Text} {result : List (Row Text V)}
    (hsound : Sound emptyString lower changes rows result) (hkept : KeysKept changes rows)
    (hr : r ∈ survivors changes.deletes rows) :
    (∀ c, updateRow (changes.updates.map UpdateRow.back) (updated changes r) c =
      ((lastImage (updatesOf changes r) c).or
        (lastSet ((updatesOf changes r).map UpdateRow.forward) c)).getD (r c)) ∧
      ∀ c, Takes (changes.updates.map UpdateRow.forward) r c
        (updateRow (changes.updates.map UpdateRow.back) (updated changes r) c) := by
  have h := updateRow_updateRow (hkept r hr) (settled_back hkept hr) (takes_back hsound hkept hr)
  simp only [meeting_back, lastSet_back, meeting_forward] at h
  exact h

end updates

/-! ### The inserted rows -/

section inserts

variable {blank : List (Row Text V) → Row Text V}

/-- Deleting each added row by conditions that only it meets leaves the rows from before. -/
theorem deletes_added {locators : List (Cells Text V)} {rows new : List (Row Text V)}
    (hlength : new.length = locators.length)
    (hone : ∀ {index : ℕ} {conds r}, locators[index]? = some conds → new[index]? = some r →
      (rows ++ new).filter (fun r' => Meets conds r') = [r]) :
    run blank (locators.map .delete) (rows ++ new) = rows := by
  have hfind : ∀ conds ∈ locators, ∃ r ∈ new,
      (rows ++ new).filter (fun r' => Meets conds r') = [r] := by
    intro conds hconds
    obtain ⟨index, hindex⟩ := mem_iff_getElem?.mp hconds
    have hlt : index < new.length := by
      rw [hlength]
      exact (List.getElem?_eq_some_iff.mp hindex).1
    exact ⟨new[index], List.getElem_mem hlt,
      hone hindex (getElem?_eq_getElem hlt)⟩
  have hmeets : ∀ r ∈ new, ∃ conds ∈ locators, Meets conds r := by
    intro r hr
    obtain ⟨index, hindex⟩ := mem_iff_getElem?.mp hr
    have hlt : index < locators.length := by
      rw [← hlength]
      exact (List.getElem?_eq_some_iff.mp hindex).1
    have hfilter := hone (List.getElem?_eq_getElem hlt) hindex
    have hmem : r ∈ (rows ++ new).filter (fun r' => Meets locators[index] r') := by
      rw [hfilter]
      exact mem_singleton_self r
    exact ⟨locators[index], getElem_mem hlt, by simpa using (mem_filter.mp hmem).2⟩
  have hnone : ∀ r ∈ rows, ∀ conds ∈ locators, ¬ Meets conds r := by
    intro r hr conds hconds hmeetsr
    obtain ⟨r', hr', hfilter⟩ := hfind conds hconds
    have hlen := congrArg List.length hfilter
    have hself : Meets conds r' := by
      have hmem : r' ∈ (rows ++ new).filter (fun r' => Meets conds r') := by
        rw [hfilter]
        exact mem_singleton_self r'
      simpa using (mem_filter.mp hmem).2
    have hleft : 0 < (rows.filter fun r' => Meets conds r').length :=
      length_pos_of_mem (mem_filter.mpr ⟨hr, decide_eq_true hmeetsr⟩)
    have hright : 0 < (new.filter fun r' => Meets conds r').length :=
      length_pos_of_mem (mem_filter.mpr ⟨hr', decide_eq_true hself⟩)
    rw [filter_append, length_append, length_singleton] at hlen
    omega
  rw [run_deletes, filter_append, filter_eq_self.mpr, filter_eq_nil_iff.mpr,
    append_nil]
  · intro r hr
    obtain ⟨conds, hconds, hmeetsr⟩ := hmeets r hr
    simpa using ⟨conds, hconds, hmeetsr⟩
  · intro r hr
    exact decide_eq_true (hnone r hr)

end inserts

/-! ### Lists with defaults -/

section defaults

variable {α : Type} [DecidableEq α] {d : α}

theorem countP_ne_le {l l' : List α} (h : List.Forall₂ (fun a b => a = b ∨ a = d) l l') :
    l.countP (· ≠ d) ≤ l'.countP (· ≠ d) := by
  induction h with
  | nil => exact le_rfl
  | cons hab _ ih =>
    rw [countP_cons, countP_cons]
    cases hab with
    | inl h =>
      rw [h]
      omega
    | inr h =>
      rw [h, if_neg (by simp)]
      omega

/-- Putting defaults into a list changes its number of other values, if it changes the list. -/
theorem eq_of_countP_ne_eq {l l' : List α} (h : List.Forall₂ (fun a b => a = b ∨ a = d) l l')
    (hcount : l.countP (· ≠ d) = l'.countP (· ≠ d)) : l = l' := by
  induction h with
  | nil => rfl
  | @cons a b l l' hab hrest ih =>
    have hle := countP_ne_le hrest
    rw [countP_cons, countP_cons] at hcount
    by_cases heq : a = b
    · rw [heq, ih (by rw [heq] at hcount; omega)]
    · obtain rfl := hab.resolve_left heq
      rw [if_neg (by simp), if_pos (by simpa using Ne.symm heq)] at hcount
      omega

end defaults

/-! ### The reverse script -/

/-- The part of a table that is in the given columns. -/
def content (columns : List Text) (rows : List (Row Text V)) : List (List (Option V)) :=
  rows.map fun r => columns.map r

section script

variable {emptyString : V → Bool} {lower : Text → Text} {changes : ChangeSet V}
  {blank : List (Row Text V) → Row Text V} {rows result : List (Row Text V)}

theorem applyChanges_eq_some (happly : applyChanges blank changes rows = some result)
    (hkeyed : ∀ pk ∈ changes.deletes, pk.cells ≠ []) :
    (deletedRows changes.deletes rows).length = changes.deletes.length ∧
      rows.Perm (survivors changes.deletes rows ++ deletedRows changes.deletes rows) ∧
      ∃ new : List (Row Text V), new.length = changes.inserts.length ∧
        result = (survivors changes.deletes rows).map (updated changes) ++ new := by
  unfold applyChanges at happly
  obtain ⟨afterDeletes, hdeletes, happly⟩ := Option.bind_eq_some_iff.mp happly
  obtain ⟨afterUpdates, hupdates, happly⟩ := Option.bind_eq_some_iff.mp happly
  obtain ⟨rfl, hlength, hperm⟩ := applyDeletes_eq_some hdeletes hkeyed
  obtain rfl := applyUpdates_eq_some hupdates
  obtain ⟨new, hrun, hnew⟩ := run_inserts blank
    (changes.inserts.map Record.cells) ((survivors changes.deletes rows).map (updated changes))
  refine ⟨hlength, hperm, new, ?_, ?_⟩
  · rw [← hnew.length_eq, List.length_map]
  · rw [List.map_map] at hrun
    cases happly
    exact hrun

/-- Executing the reverse of every row: the surviving rows are given their old values, and the
deleted rows come back. -/
theorem run_fullScript (hsound : Sound emptyString lower changes rows result)
    (happly : applyChanges blank changes rows = some result) :
    ∃ back : List (Row Text V),
      run blank ((fullScript emptyString lower changes).map Statement.meaning) result =
        (survivors changes.deletes rows).map
          (fun r => updateRow (changes.updates.map UpdateRow.back) (updated changes r)) ++ back ∧
      List.Forall₂ (fun index r => ∃ seen, r = assign (previousCells changes index) (blank seen))
        (List.range changes.deletes.length) back := by
  obtain ⟨-, -, new, hnewlength, hresult⟩ := applyChanges_eq_some happly hsound.keyed
  have hadded : addedRows changes rows result = new := by
    rw [addedRows, hresult, drop_left' (length_map _)]
  have hmeaning : (fullScript emptyString lower changes).map Statement.meaning =
      (changes.inserts.map fun row => (locator emptyString lower changes row).map
          fun c => (c.1.name, c.2)).map .delete ++
        (changes.updates.map UpdateRow.back).map .update ++
        ((List.range changes.deletes.length).map (previousCells changes)).map .insert := by
    simp [fullScript, Statement.meaning, Function.comp_def]
  have hdeletes : run blank ((changes.inserts.map fun row =>
      (locator emptyString lower changes row).map fun c => (c.1.name, c.2)).map .delete) result =
      (survivors changes.deletes rows).map (updated changes) := by
    rw [hresult]
    refine deletes_added (by rw [hnewlength, length_map]) ?_
    intro index conds r hconds hr
    rw [getElem?_map, Option.map_eq_some_iff] at hconds
    obtain ⟨row, hrow, rfl⟩ := hconds
    rw [← hresult]
    exact hsound.inserted hrow (hadded ▸ hr)
  obtain ⟨back, hback, hcells⟩ := run_inserts blank
    ((List.range changes.deletes.length).map (previousCells changes))
    (((survivors changes.deletes rows).map (updated changes)).map
      (updateRow (changes.updates.map UpdateRow.back)))
  refine ⟨back, ?_, List.forall₂_map_left_iff.mp hcells⟩
  rw [hmeaning, run_append, run_append, hdeletes, run_updates, hback, List.map_map]
  rfl

omit [DecidableEq V] in
theorem content_eq_iff {columns : List Text} {rs rs' : List (Row Text V)}
    (hlength : rs.length = rs'.length) :
    content columns rs = content columns rs' ↔ ∀ (index : ℕ) (r r' : Row Text V),
      rs[index]? = some r → rs'[index]? = some r' → ∀ c ∈ columns, r c = r' c := by
  constructor
  · intro h index r r' hr hr' c hc
    have hcells := congrArg (fun l => l[index]?) h
    simp only [content, getElem?_map, hr, hr', Option.map_some, Option.some.injEq] at hcells
    exact map_inj_left.mp hcells c hc
  · intro h
    refine ext_getElem (by simp [content, hlength]) fun index hleft hright => ?_
    have hlt : index < rs.length := by simpa [content] using hleft
    simp only [content, getElem_map]
    exact map_congr_left fun c hc => h index _ _ (getElem?_eq_getElem hlt)
      (getElem?_eq_getElem (hlength ▸ hlt)) c hc

/-- A reinserted row has the old value of a column, where the snapshot does not leave the column
to a different default. -/
theorem assign_previous (hsound : Sound emptyString lower changes rows result) {index : ℕ}
    {previous : Record V} {r : Row Text V}
    (hprevious : changes.previousDeletes[index]? = some previous)
    (hr : (deletedRows changes.deletes rows)[index]? = some r) (seen : List (Row Text V))
    (c : Text) :
    assign (previousCells changes index) (blank seen) c = r c ↔
      (previous.value c = none → blank seen c = r c) := by
  have hcells : previousCells changes index = presentCells previous := by
    rw [previousCells, previousDeleteAt, hprevious]
    rfl
  rw [assign, hcells, lookup_presentCells]
  cases hvalue : previous.value c with
  | none => simp
  | some v =>
    rw [Record.value, Option.join_eq_some_iff] at hvalue
    simpa using hsound.deleted hprevious hr c (some v) hvalue

/-- The reverse updates give the surviving rows their old values exactly where the before-images
do. -/
theorem updates_restore_iff (columns : List Text)
    (hsound : Sound emptyString lower changes rows result) (hkept : KeysKept changes rows) :
    content columns ((survivors changes.deletes rows).map
        (fun r => updateRow (changes.updates.map UpdateRow.back) (updated changes r))) =
      content columns (survivors changes.deletes rows) ↔ ImagesRestore columns changes rows := by
  rw [content, content, List.map_map, List.map_inj_left]
  refine forall₂_congr fun r hr => ?_
  simp only [Function.comp_apply, map_inj_left, (back_updated hsound hkept hr).1]

section reinserted

variable {columns : List Text} {back : List (Row Text V)}
  (hsound : Sound emptyString lower changes rows result)
  (hback : List.Forall₂
    (fun index r => ∃ seen, r = assign (previousCells changes index) (blank seen))
    (List.range changes.deletes.length) back)
  (hlength : (deletedRows changes.deletes rows).length = changes.deletes.length)
include hback hlength

theorem length_reinserted : back.length = (deletedRows changes.deletes rows).length := by
  rw [← hback.length_eq, length_range, hlength]

include hsound

omit hlength in
/-- What a row that comes back has in a column, and where that is the old value. -/
theorem reinserted_row {index : ℕ} {previous : Record V} {r r' : Row Text V}
    (hprevious : changes.previousDeletes[index]? = some previous) (hr : back[index]? = some r)
    (hr' : (deletedRows changes.deletes rows)[index]? = some r') :
    ∃ seen, ∀ c, (previous.value c = none → r c = blank seen c) ∧
      (r c = r' c ↔ (previous.value c = none → blank seen c = r' c)) := by
  obtain ⟨hlt, rfl⟩ := List.getElem?_eq_some_iff.mp hr
  obtain ⟨seen, hseen⟩ := hback.get (by rwa [hback.length_eq]) hlt
  rw [get_eq_getElem, get_eq_getElem, getElem_range] at hseen
  refine ⟨seen, fun c => ⟨fun hnone => ?_, ?_⟩⟩
  · rw [hseen, assign, previousCells, previousDeleteAt, hprevious]
    exact (congrArg (Option.getD · _) (lookup_presentCells ..)).trans (by rw [hnone]; rfl)
  · rw [hseen]
    exact assign_previous hsound hprevious hr' seen c

/-- A row comes back with the values of the deleted row, where its snapshot leaves out defaults
only. -/
theorem reinserted_eq (hprevious : ∀ index < changes.deletes.length, ∃ previous,
      changes.previousDeletes[index]? = some previous)
    (hdefaults : RestDefault columns blank changes rows) :
    content columns back = content columns (deletedRows changes.deletes rows) := by
  rw [content_eq_iff (length_reinserted hback hlength)]
  intro index r r' hr hr' c hc
  obtain ⟨previous, hprev⟩ := hprevious index
    (hlength ▸ (List.getElem?_eq_some_iff.mp hr').1)
  obtain ⟨seen, hrow⟩ := reinserted_row hsound hback hprev hr hr'
  exact (hrow c).2.mpr fun hnone => hdefaults index previous r' hprev hr' c hc hnone seen

/-- In one column, a row that comes back has the old value or the default. -/
theorem reinserted_cell (hprevious : ∀ index < changes.deletes.length, ∃ previous,
      changes.previousDeletes[index]? = some previous)
    {c : Text} (hfixed : ∀ seen seen', blank seen c = blank seen' c) :
    List.Forall₂ (fun v v' => v = v' ∨ v = blank [] c) (back.map fun r => r c)
      ((deletedRows changes.deletes rows).map fun r => r c) := by
  rw [forall₂_iff_get]
  refine ⟨by rw [length_map, length_map, length_reinserted hback hlength], ?_⟩
  intro index hleft hright
  rw [length_map] at hleft hright
  obtain ⟨previous, hprev⟩ := hprevious index (hlength ▸ hright)
  obtain ⟨seen, hrow⟩ := reinserted_row hsound hback hprev (getElem?_eq_getElem hleft)
    (getElem?_eq_getElem hright)
  rw [get_eq_getElem, get_eq_getElem, getElem_map, getElem_map]
  cases hvalue : previous.value c with
  | some v =>
    left
    exact (hrow c).2.mpr fun hnone => absurd (hvalue.symm.trans hnone) (Option.some_ne_none v)
  | none =>
    right
    exact ((hrow c).1 hvalue).trans (hfixed seen [])

theorem restDefault_of_reinserted
    (hfixed : ∀ c ∈ columns, ∀ seen seen', blank seen c = blank seen' c)
    (heq : ∀ c ∈ columns, (back.map fun r => r c) =
      (deletedRows changes.deletes rows).map fun r => r c) :
    RestDefault columns blank changes rows := by
  intro index previous r hprev hr c hc hnone seen
  have hlt : index < back.length := by
    rw [length_reinserted hback hlength]
    exact (List.getElem?_eq_some_iff.mp hr).1
  obtain ⟨seen', hrow⟩ := reinserted_row hsound hback hprev (getElem?_eq_getElem hlt) hr
  have hcell := congrArg (fun l => l[index]?) (heq c hc)
  simp only [getElem?_map, hr, getElem?_eq_getElem hlt, Option.map_some,
    Option.some.injEq] at hcell
  exact (hfixed c hc seen seen').trans ((hrow c).2.mp hcell hnone)

end reinserted

/-- Where the keys of the updates locate one row of the original table, a row that the reverse
gives other values than it had is missing. -/
theorem survivor_restored {columns : List Text} {back : List (Row Text V)}
    (hsound : Sound emptyString lower changes rows result) (hkept : KeysKept changes rows)
    (hunique : ∀ row ∈ changes.updates, ∀ r ∈ rows, ∀ r' ∈ rows,
      Meets row.keys.cells r → Meets row.keys.cells r' → r = r')
    (hcolumns : ∀ row ∈ changes.updates, ∀ cell ∈ row.keys.cells, cell.1 ∈ columns)
    (hperm : (content columns ((survivors changes.deletes rows).map
      (fun r => updateRow (changes.updates.map UpdateRow.back) (updated changes r)) ++
        back)).Perm (content columns rows))
    {r : Row Text V} (hr : r ∈ survivors changes.deletes rows) :
    columns.map (updateRow (changes.updates.map UpdateRow.back) (updated changes r)) =
      columns.map r := by
  obtain ⟨hvalue, htakes⟩ := back_updated hsound hkept hr
  cases hof : updatesOf changes r with
  | nil =>
    refine map_congr_left fun c _ => ?_
    rw [hvalue c, hof]
    rfl
  | cons row rest =>
    have hmem : row ∈ updatesOf changes r := by
      rw [hof]
      exact mem_cons_self
    rw [updatesOf, mem_filter, decide_eq_true_eq] at hmem
    obtain ⟨hrow, hmeets⟩ := hmem
    have hmeetsback := (hkept r hr row.forward (mem_map_of_mem hrow) _ htakes).mpr hmeets
    -- The row of the original table with the values that the reverse gives this one.
    have hin := hperm.mem_iff.mp (mem_map_of_mem (mem_append_left back
      (mem_map_of_mem hr)))
    obtain ⟨r', hr', hsame⟩ := mem_map.mp hin
    have hmeets' : Meets row.keys.cells r' :=
      (meets_congr fun cell hcell =>
        map_inj_left.mp hsame cell.1 (hcolumns row hrow cell hcell)).mpr hmeetsback
    have hrows : r ∈ rows := mem_of_mem_filter hr
    rw [← hsame, hunique row hrow r hrows r' hr' hmeets hmeets']

omit [DecidableEq V] in
theorem content_column {columns : List Text} {c : Text} (hc : c ∈ columns)
    (rows : List (Row Text V)) :
    ((content columns rows).map fun cells => (cells[columns.idxOf c]?).join) =
      rows.map fun r => r c := by
  rw [content, List.map_map]
  refine List.map_congr_left fun r _ => ?_
  have hlt := idxOf_lt_length_of_mem hc
  rw [Function.comp_apply, getElem?_map, getElem?_eq_getElem hlt, getElem_idxOf]
  rfl

variable (emptyString lower changes blank result) in
/-- The table after the reverse of a change set. -/
def reversed : List (Row Text V) :=
  run blank ((generateChangeReverse emptyString lower changes).script.map Statement.meaning) result

/-- **A complete reverse takes the change back.**  When the updates leave each row with the keys
it had, the before-images and the defaults decide whether the original rows come back. -/
theorem reverse_restores {columns : List Text}
    (hcomplete : (generateChangeReverse emptyString lower changes).complete)
    (happly : applyChanges blank changes rows = some result)
    (hsound : Sound emptyString lower changes rows result) (hkept : KeysKept changes rows) :
    (ImagesRestore columns changes rows → RestDefault columns blank changes rows →
      (content columns (reversed emptyString lower changes blank result)).Perm
        (content columns rows)) ∧
      ((∀ c ∈ columns, ∀ seen seen', blank seen c = blank seen' c) →
        (∀ row ∈ changes.updates, ∀ cell ∈ row.keys.cells, cell.1 ∈ columns) →
        (∀ row ∈ changes.updates, ∀ r ∈ rows, ∀ r' ∈ rows,
          Meets row.keys.cells r → Meets row.keys.cells r' → r = r') →
        (content columns (reversed emptyString lower changes blank result)).Perm
          (content columns rows) →
        ImagesRestore columns changes rows ∧ RestDefault columns blank changes rows) := by
  obtain ⟨hscript, -, hprevious⟩ := script_of_complete hcomplete
  obtain ⟨hlength, hperm, -⟩ := applyChanges_eq_some happly hsound.keyed
  obtain ⟨back, hrun, hback⟩ := run_fullScript hsound happly
  rw [← hscript, ← reversed] at hrun
  have himages := updates_restore_iff columns hsound hkept
  have hparts := hperm.map fun r => columns.map r
  rw [map_append] at hparts
  constructor
  · intro hrestore hdefaults
    rw [hrun, content, map_append, ← content, ← content, himages.mpr hrestore,
      reinserted_eq hsound hback hlength hprevious hdefaults]
    exact hparts.symm
  · intro hfixed hcolumns hunique hsame
    rw [hrun] at hsame
    have hrestored : content columns ((survivors changes.deletes rows).map
        (fun r => updateRow (changes.updates.map UpdateRow.back) (updated changes r))) =
        content columns (survivors changes.deletes rows) := by
      rw [content, content, List.map_map]
      exact List.map_congr_left fun r hr =>
        survivor_restored hsound hkept hunique hcolumns hsame hr
    refine ⟨himages.mp hrestored, ?_⟩
    -- With the survivors restored, the rows that came back are the deleted ones.
    rw [content, map_append, ← content, ← content, hrestored] at hsame
    have hdeleted := (perm_append_left_iff _).mp (hsame.trans hparts)
    refine restDefault_of_reinserted hsound hback hlength hfixed fun c hc => ?_
    refine eq_of_countP_ne_eq
      (reinserted_cell hsound hback hlength hprevious (hfixed c hc)) ?_
    rw [← content_column hc, ← content_column hc]
    exact (hdeleted.map _).countP_eq _

end script

/-! ### Two change sets -/

/-- A map with one column. -/
def Record.single (column : Text) (v : V) : Record V := ⟨[(column, some v)], by simp⟩

/-- A row is given another key. -/
def movedKey : ChangeSet ℕ where
  inserts := []
  updates := [⟨.single (bytes "id") 1, .single (bytes "id") 2, .single (bytes "id") 1⟩]
  deletes := []
  locatorStrategy := []
  previousDeletes := []
  locatorColumns := []

/-- The reverse of a changed key looks for the row under its old key, and finds none. -/
theorem movedKey_not_restored :
    (generateChangeReverse (fun _ : ℕ => false) id movedKey).complete ∧
      applyChanges (fun _ _ => none) movedKey [fun _ => some 1] =
        some [assign [(bytes "id", some 2)] fun _ => some 1] ∧
      Sound (fun _ : ℕ => false) id movedKey [fun _ => some 1]
        [assign [(bytes "id", some 2)] fun _ => some 1] ∧
      ¬ (content [bytes "id"] (reversed (fun _ : ℕ => false) id movedKey (fun _ _ => none)
        [assign [(bytes "id", some 2)] fun _ => some 1])).Perm
          (content [bytes "id"] [fun _ => some 1]) := by
  refine ⟨by decide, rfl, ?_, by decide⟩
  constructor
  · exact forall_mem_nil _
  · intro index previous r hprevious
    cases hprevious
  · intro before row after hsplit r hr hmeets c v hlookup
    cases before with
    | nil =>
      cases hsplit
      obtain rfl := mem_singleton.mp (mem_of_mem_filter hr)
      have hmem := mem_of_lookup hlookup
      cases mem_singleton.mp hmem
      rfl
    | cons first before =>
      cases before with
      | nil => cases hsplit
      | cons second before => cases hsplit
  · intro index row r hrow
    cases hrow

/-- A row with an id and a name. -/
def person (n m : ℕ) : Row Text ℕ :=
  assign [(bytes "id", some n), (bytes "name", some m)] fun _ => none

/-- The map of such a row. -/
def personRecord (n m : ℕ) : Record ℕ :=
  ⟨[(bytes "id", some n), (bytes "name", some m)], by
    show [bytes "id", bytes "name"].Nodup
    decide⟩

/-- One row is deleted, one updated and one inserted. -/
def mixed : ChangeSet ℕ where
  inserts := [personRecord 3 30]
  updates := [⟨.single (bytes "id") 1, .single (bytes "name") 11, .single (bytes "name") 10⟩]
  deletes := [.single (bytes "id") 2]
  locatorStrategy := bytes "primary-key"
  previousDeletes := [personRecord 2 20]
  locatorColumns := [⟨bytes "id", []⟩]

/-- The table after it. -/
def mixedResult : List (Row Text ℕ) :=
  [assign [(bytes "name", some 11)] (person 1 10), person 3 30]

theorem mixed_sound :
    Sound (fun _ : ℕ => false) id mixed [person 1 10, person 2 20] mixedResult := by
  constructor
  · intro pk hpk
    obtain rfl := mem_singleton.mp hpk
    exact cons_ne_nil _ _
  · intro index previous r hprevious hr c v hlookup
    cases index with
    | zero =>
      cases hprevious
      cases hr
      have hmem := mem_of_lookup hlookup
      simp only [personRecord, mem_cons, not_mem_nil, or_false] at hmem
      rcases hmem with h | h
      · cases h
        rfl
      · cases h
        rfl
    | succ index => cases hprevious
  · intro before row after hsplit r hr hmeets c v hlookup
    cases before with
    | nil =>
      cases hsplit
      have hr' : r ∈ [person 1 10] := hr
      obtain rfl := mem_singleton.mp hr'
      cases mem_singleton.mp (mem_of_lookup hlookup)
      rfl
    | cons first before =>
      cases before with
      | nil => cases hsplit
      | cons second before => cases hsplit
  · intro index row r hrow hr
    cases index with
    | zero =>
      cases hrow
      cases hr
      rfl
    | succ index => cases hrow

theorem mixed_keysKept : KeysKept mixed [person 1 10, person 2 20] := by
  intro r hr u hu r' hr'
  have hrow : r ∈ [person 1 10] := hr
  obtain rfl := mem_singleton.mp hrow
  obtain rfl := mem_singleton.mp hu
  refine meets_congr fun cell hcell => ?_
  obtain rfl := mem_singleton.mp hcell
  -- The only update sets the name, so the id is the row's own.
  rcases hr' (bytes "id") with h | ⟨u, hu, -, hlookup⟩
  · exact h
  · obtain rfl := mem_singleton.mp hu
    cases hlookup

theorem mixed_restored :
    (content [bytes "id", bytes "name"] (reversed (fun _ : ℕ => false) id mixed
      (fun _ _ => none) mixedResult)).Perm
        (content [bytes "id", bytes "name"] [person 1 10, person 2 20]) := by
  refine (reverse_restores (by decide) rfl mixed_sound mixed_keysKept).1 ?_ ?_
  · intro r hr c hc
    have hrow : r ∈ [person 1 10] := hr
    obtain rfl := mem_singleton.mp hrow
    simp only [mem_cons, not_mem_nil, or_false] at hc
    rcases hc with rfl | rfl
    · rfl
    · rfl
  · intro index previous r hprevious hr c hc hnone
    cases index with
    | zero =>
      cases hprevious
      simp only [mem_cons, not_mem_nil, or_false] at hc
      rcases hc with rfl | rfl
      · cases hnone
      · cases hnone
    | succ index => cases hprevious

end GoNavi.Db
