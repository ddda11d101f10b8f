import Mathlib.Data.List.Basic
import Mathlib.Data.List.Perm.Basic

/-! # Rows and statements

A table is a list of rows, and a row gives each column a value or null.  A statement deletes or
updates the rows that meet its conditions, or adds a row.  A condition compares with `=`, so a
null meets none.

`updateRow_eq_lastSet` says what a sequence of updates leaves in a row that meets the same of
them throughout: each column holds what the last update of the row set it to.  From it,
`updateRow_updateRow` says what a second sequence makes of the result of a first. -/

namespace Relation

open List

universe u v w

variable {κ : Type u} {ν : Type v}

/-- A row; `none` is null. -/
abbrev Row (κ : Type u) (ν : Type v) := κ → Option ν

/-- Values for some columns. -/
abbrev Cells (κ : Type u) (ν : Type v) := List (κ × Option ν)

/-- All conditions hold of the row. -/
def Meets (conds : Cells κ ν) (r : Row κ ν) : Prop := ∀ c ∈ conds, c.2 ≠ none ∧ r c.1 = c.2

instance [DecidableEq ν] (conds : Cells κ ν) (r : Row κ ν) : Decidable (Meets conds r) :=
  inferInstanceAs (Decidable (∀ c ∈ conds, c.2 ≠ none ∧ r c.1 = c.2))

theorem meets_congr {conds : Cells κ ν} {r r' : Row κ ν}
    (h : ∀ c ∈ conds, r' c.1 = r c.1) : Meets conds r' ↔ Meets conds r := by
  constructor
  · intro hmeets c hc
    exact ⟨(hmeets c hc).1, (h c hc).symm.trans (hmeets c hc).2⟩
  · intro hmeets c hc
    exact ⟨(hmeets c hc).1, (h c hc).trans (hmeets c hc).2⟩

/-- An update of the rows that meet its conditions. -/
structure Update (κ : Type u) (ν : Type v) where
  sets : Cells κ ν
  conds : Cells κ ν

/-- A statement on a table. -/
inductive Statement (κ : Type u) (ν : Type v)
  | delete (conds : Cells κ ν)
  | update (u : Update κ ν)
  | insert (cells : Cells κ ν)

variable [BEq κ]

/-- The row with new values in the named columns. -/
def assign (cells : Cells κ ν) (r : Row κ ν) : Row κ ν := fun c => (cells.lookup c).getD (r c)

variable [DecidableEq ν]

/-- What an update makes of a row. -/
def Update.apply (u : Update κ ν) (r : Row κ ν) : Row κ ν :=
  if Meets u.conds r then assign u.sets r else r

/-- What a sequence of updates makes of a row. -/
def updateRow (us : List (Update κ ν)) (r : Row κ ν) : Row κ ν :=
  us.foldl (fun r u => u.apply r) r

/-- Execute a statement.  `blank` is the row a table is given by an `INSERT` that names no
column: its defaults, and what the database generates. -/
def exec (blank : List (Row κ ν) → Row κ ν) (rows : List (Row κ ν)) :
    Statement κ ν → List (Row κ ν)
  | .delete conds => rows.filter fun r => ¬ Meets conds r
  | .update u => rows.map u.apply
  | .insert cells => rows ++ [assign cells (blank rows)]

/-- Execute statements in order. -/
def run (blank : List (Row κ ν) → Row κ ν) (ss : List (Statement κ ν))
    (rows : List (Row κ ν)) : List (Row κ ν) :=
  ss.foldl (exec blank) rows

variable {blank : List (Row κ ν) → Row κ ν} {us : List (Update κ ν)} {r : Row κ ν} {c : κ}

theorem run_append (ss ss' : List (Statement κ ν)) (rows : List (Row κ ν)) :
    run blank (ss ++ ss') rows = run blank ss' (run blank ss rows) :=
  foldl_append

/-! ### Deletes and inserts -/

/-- Deletes leave the rows that meet none of their conditions. -/
theorem run_deletes : ∀ (cs : List (Cells κ ν)) (rows : List (Row κ ν)),
    run blank (cs.map .delete) rows = rows.filter fun r => ∀ conds ∈ cs, ¬ Meets conds r
  | [], rows => by simp [run]
  | conds :: cs, rows => by
    have ih := run_deletes cs (rows.filter fun r => ¬ Meets conds r)
    rw [map_cons, ← singleton_append, run_append]
    refine ih.trans ?_
    rw [filter_filter]
    congr 1
    funext r
    simp [Bool.and_comm]

variable (blank) in
theorem run_inserts : ∀ (cs : List (Cells κ ν)) (rows : List (Row κ ν)),
    ∃ new, run blank (cs.map .insert) rows = rows ++ new ∧
      List.Forall₂ (fun cells r => ∃ seen, r = assign cells (blank seen)) cs new
  | [], rows => ⟨[], (append_nil rows).symm, .nil⟩
  | cells :: cs, rows => by
    obtain ⟨new, hrun, hnew⟩ := run_inserts cs (rows ++ [assign cells (blank rows)])
    refine ⟨assign cells (blank rows) :: new, ?_, .cons ⟨rows, rfl⟩ hnew⟩
    rw [map_cons, ← singleton_append, run_append]
    exact hrun.trans (by simp)

/-! ### Updates -/

theorem run_updates : ∀ (us : List (Update κ ν)) (rows : List (Row κ ν)),
    run blank (us.map .update) rows = rows.map (updateRow us)
  | [], rows => (map_id rows).symm
  | u :: us, rows => by
    have ih := run_updates us (rows.map u.apply)
    rw [List.map_cons, ← List.singleton_append, run_append]
    exact ih.trans (List.map_map ..)

theorem updateRow_cons (u : Update κ ν) (us : List (Update κ ν)) (r : Row κ ν) :
    updateRow (u :: us) r = updateRow us (u.apply r) := rfl

/-- The value that the last update to set a column gives it. -/
def lastSet : List (Update κ ν) → κ → Option (Option ν)
  | [], _ => none
  | u :: us, c => (lastSet us c).or (u.sets.lookup c)

/-- The updates whose conditions a row meets. -/
def meeting (us : List (Update κ ν)) (r : Row κ ν) : List (Update κ ν) :=
  us.filter fun u => Meets u.conds r

omit [BEq κ] in
theorem meeting_cons (u : Update κ ν) (us : List (Update κ ν)) (r : Row κ ν) :
    meeting (u :: us) r = if Meets u.conds r then u :: meeting us r else meeting us r := by
  rw [meeting, filter_cons, ← meeting]
  simp

/-- The values that the updates of a row, and the row itself, give a column. -/
def Takes (us : List (Update κ ν)) (r : Row κ ν) (c : κ) (v : Option ν) : Prop :=
  v = r c ∨ ∃ u ∈ us, Meets u.conds r ∧ u.sets.lookup c = some v

/-- All rows with these values in their columns meet the same of the updates. -/
def Settled (S : κ → Option ν → Prop) (us : List (Update κ ν)) (r : Row κ ν) : Prop :=
  ∀ u ∈ us, ∀ r' : Row κ ν, (∀ c, S c (r' c)) → (Meets u.conds r' ↔ Meets u.conds r)

section settled

variable {S : κ → Option ν → Prop}

omit [BEq κ] [DecidableEq ν] in
theorem Settled.tail {u : Update κ ν} (h : Settled S (u :: us) r) : Settled S us r :=
  fun u' hu' => h u' (mem_cons_of_mem u hu')

theorem apply_settled {u : Update κ ν} {r' : Row κ ν} (hsettled : Settled S (u :: us) r)
    (hsets : Meets u.conds r → ∀ c v, u.sets.lookup c = some v → S c v)
    (hr' : ∀ c, S c (r' c)) :
    (∀ c, u.apply r' c = (if Meets u.conds r then u.sets.lookup c else none).getD (r' c)) ∧
      ∀ c, S c (u.apply r' c) := by
  have hiff := hsettled u mem_cons_self r' hr'
  by_cases hmeets : Meets u.conds r
  · constructor
    · intro c
      rw [Update.apply, if_pos (hiff.mpr hmeets), if_pos hmeets, assign]
    · intro c
      rw [Update.apply, if_pos (hiff.mpr hmeets), assign]
      cases hlookup : u.sets.lookup c with
      | none => exact hr' c
      | some v => exact hsets hmeets c v hlookup
  · constructor
    · intro c
      rw [Update.apply, if_neg (hiff.not.mpr hmeets), if_neg hmeets, Option.getD_none]
    · intro c
      rw [Update.apply, if_neg (hiff.not.mpr hmeets)]
      exact hr' c

/-- **What updates leave in a row.** -/
theorem updateRow_eq_lastSet : ∀ {us : List (Update κ ν)} {s : Row κ ν}, Settled S us r →
    (∀ u ∈ us, Meets u.conds r → ∀ c v, u.sets.lookup c = some v → S c v) →
      (∀ c, S c (s c)) →
        (∀ c, updateRow us s c = (lastSet (meeting us r) c).getD (s c)) ∧
          ∀ c, S c (updateRow us s c)
  | [], _, _, _, hs => ⟨fun _ => rfl, hs⟩
  | u :: us, s, hsettled, hsets, hs => by
    obtain ⟨happly, hin⟩ := apply_settled hsettled (hsets u mem_cons_self) hs
    obtain ⟨ih, ihin⟩ := updateRow_eq_lastSet hsettled.tail
      (fun u' hu' => hsets u' (mem_cons_of_mem u hu')) hin
    refine ⟨?_, ihin⟩
    intro c
    rw [updateRow_cons, ih c, happly c, meeting_cons]
    by_cases hmeets : Meets u.conds r
    · rw [if_pos hmeets, if_pos hmeets, lastSet]
      cases lastSet (meeting us r) c with
      | none => rfl
      | some v => rfl
    · rw [if_neg hmeets, if_neg hmeets, Option.getD_none]

/-- **Updates after updates.**  Where the row meets the same updates throughout, a column holds
what the second sequence sets it to, else what the first does. -/
theorem updateRow_updateRow {backs : List (Update κ ν)} (hsettled : Settled (Takes us r) us r)
    (hback : Settled (Takes us r) backs r)
    (hsets : ∀ u ∈ backs, Meets u.conds r → ∀ c v, u.sets.lookup c = some v → Takes us r c v) :
    (∀ c, updateRow backs (updateRow us r) c =
      ((lastSet (meeting backs r) c).or (lastSet (meeting us r) c)).getD (r c)) ∧
      ∀ c, Takes us r c (updateRow backs (updateRow us r) c) := by
  obtain ⟨hfirst, hin⟩ := updateRow_eq_lastSet (s := r) hsettled
    (fun u hu hmeets c v hv => .inr ⟨u, hu, hmeets, hv⟩) fun _ => .inl rfl
  obtain ⟨hsecond, hin'⟩ := updateRow_eq_lastSet hback hsets hin
  refine ⟨fun c => ?_, hin'⟩
  rw [hsecond c, hfirst c]
  cases lastSet (meeting backs r) c with
  | none => rfl
  | some v => rfl

end settled

end Relation
