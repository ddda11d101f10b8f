import GoNavi.Machine.Steps
import GoNavi.Sqlparam.Convert

/-! # The fields of a cron expression

`parseCronField` reads a list of values, ranges and wildcards, each with a step.  It counts
through each part of the list in machine integers, and the step is only asked to be positive.

**A field means its grammar if and only if no part of it counts past the largest machine
integer** (`cronField_iff_fits`): otherwise the count goes on below zero, and the field holds
values that were not written. -/

namespace GoNavi.Syncjob

open Scan Word

/-! ### Reading a field -/

/-- What `parseCronField` refuses. -/
inductive CronError where
  | fieldEmpty
  | emptyListItem
  | invalidStep (step : Text)
  | invalidRange (base : Text)
  | invalidRangeStart (bound : Text)
  | invalidRangeEnd (bound : Text)
  | invalidValue (base : Text)
  | outside (start stop minValue maxValue : Int64)
  deriving DecidableEq

/-- `strconv.Atoi`. -/
def atoi (t : Text) : Option Int64 := (Sqlparam.parseInt t).map Int64.ofInt

/-- One item of the list, which lies in the range of the field. -/
structure CronPart (minValue maxValue : Int64) where
  start : Int64
  stop : Int64
  step : Int64
  low : minValue ≤ start
  high : stop ≤ maxValue
  ordered : start ≤ stop
  positive : 0 < step

/-- The step behind the first slash of an item. -/
def cronStep (item : Text) : Except CronError { step : Int64 // 0 < step } :=
  let slash := '/'.toUInt8
  if slash ∈ item then
    let text := item.drop ((item.takeWhile (· ≠ slash)).length + 1)
    match atoi text with
    | some step => if h : 0 < step then .ok ⟨step, h⟩ else .error (.invalidStep text)
    | none => .error (.invalidStep text)
  else .ok ⟨1, by decide⟩

/-- The first and the last value of an item, without its step. -/
def cronBounds (base : Text) (minValue maxValue : Int64) : Except CronError (Int64 × Int64) :=
  let hyphen := '-'.toUInt8
  if base = bytes "*" then .ok (minValue, maxValue)
  else if hyphen ∈ base then
    match base.splitOn hyphen with
    | [first, second] =>
      match atoi first with
      | none => .error (.invalidRangeStart first)
      | some start =>
        match atoi second with
        | none => .error (.invalidRangeEnd second)
        | some stop => .ok (start, stop)
    | _ => .error (.invalidRange base)
  else
    match atoi base with
    | none => .error (.invalidValue base)
    | some value => .ok (value, value)

/-- An item of the list. -/
def parseCronPart (item : Text) (minValue maxValue : Int64) :
    Except CronError (CronPart minValue maxValue) := do
  let item := trimSpace item
  if item = [] then .error .emptyListItem
  else
    let ⟨step, positive⟩ ← cronStep item
    let (start, stop) ← cronBounds (item.takeWhile (· ≠ '/'.toUInt8)) minValue maxValue
    if h : minValue ≤ start ∧ stop ≤ maxValue ∧ start ≤ stop then
      .ok { start, stop, step, low := h.1, high := h.2.1, ordered := h.2.2, positive }
    else .error (.outside start stop minValue maxValue)

/-- The last day of the week is the first one. -/
def readWeekday (normalizeSunday : Bool) (value : Int64) : Int64 :=
  if normalizeSunday ∧ value = 7 then 0 else value

/-- The items one after the other, with the values so far; a loop is given so many turns. -/
def parseCronItems (turns : ℕ) (minValue maxValue : Int64) (normalizeSunday : Bool) :
    List Text → List Int64 → Option (Except CronError (List Int64))
  | [], values => some (.ok values)
  | item :: items, values =>
    match parseCronPart item minValue maxValue with
    | .error err => some (.error err)
    | .ok part =>
      match steps turns part.start part.stop part.step with
      | none => none
      | some visited => parseCronItems turns minValue maxValue normalizeSunday items
          (values ++ visited.map (readWeekday normalizeSunday))

/-- The values of a field, and whether it is a bare `*`. -/
structure CronField where
  values : List Int64
  any : Bool

/-- `parseCronField`. -/
def parseCronField (turns : ℕ) (spec : Text) (minValue maxValue : Int64)
    (normalizeSunday : Bool) : Option (Except CronError CronField) :=
  let spec := trimSpace spec
  if spec = [] then some (.error .fieldEmpty)
  else
    (parseCronItems turns minValue maxValue normalizeSunday (spec.splitOn ','.toUInt8) []).map
      fun result => result.map fun values => { values, any := spec = bytes "*" }

/-! ### What a field means -/

section meaning

variable {minValue maxValue : Int64}

/-- The parts of a field. -/
def cronParts (spec : Text) (minValue maxValue : Int64) : List (CronPart minValue maxValue) :=
  ((trimSpace spec).splitOn ','.toUInt8).filterMap fun item =>
    (parseCronPart item minValue maxValue).toOption

/-- `start, start + step, ...`, up to the end of the part. -/
def CronPart.grid (part : CronPart minValue maxValue) : Set ℤ :=
  Grid part.start.toInt part.stop.toInt part.step.toInt

/-- The first sum beyond the end of the part is a machine integer. -/
def CronPart.Fits (part : CronPart minValue maxValue) : Prop :=
  lastOf part.start.toInt part.stop.toInt part.step.toInt + part.step.toInt < 2 ^ 63

/-- The field means the union of its parts: its values are theirs, they lie in the range of the
field, and every sum that the loop makes is a machine integer. -/
structure MeansGrammar (parts : List (CronPart minValue maxValue)) (normalizeSunday : Bool)
    (values : List Int64) : Prop where
  exact : ∀ v, v ∈ values ↔ ∃ part ∈ parts, ∃ u : Int64, u.toInt ∈ part.grid ∧
    v = readWeekday normalizeSunday u
  inside : ∀ v ∈ values, ∃ u, minValue ≤ u ∧ u ≤ maxValue ∧ v = readWeekday normalizeSunday u
  sums : ∀ part ∈ parts, ∀ u ∈ part.grid, u + part.step.toInt < 2 ^ 63

variable {turns : ℕ} {normalizeSunday : Bool} {values result : List Int64}

theorem CronPart.step_pos (part : CronPart minValue maxValue) : 0 < part.step.toInt :=
  Int64.lt_iff_toInt_lt.mp part.positive

theorem CronPart.start_le_stop (part : CronPart minValue maxValue) :
    part.start.toInt ≤ part.stop.toInt :=
  Int64.le_iff_toInt_le.mp part.ordered

theorem CronPart.inside_of_mem_grid (part : CronPart minValue maxValue) {u : Int64}
    (hu : u.toInt ∈ part.grid) : minValue ≤ u ∧ u ≤ maxValue := by
  have hlow := Int64.le_iff_toInt_le.mp part.low
  have hhigh := Int64.le_iff_toInt_le.mp part.high
  have hstart := (le_lastOf part.step_pos hu).1
  have hstop := hu.1
  rw [Int64.le_iff_toInt_le, Int64.le_iff_toInt_le]
  omega

theorem CronPart.fits_iff (part : CronPart minValue maxValue) :
    part.Fits ↔ ∀ u ∈ part.grid, u + part.step.toInt < 2 ^ 63 := by
  constructor
  · intro hfits u hu
    have hlast := (le_lastOf part.step_pos hu).2
    unfold Fits at hfits
    omega
  · intro hsums
    exact hsums _ (lastOf_mem part.step_pos part.start_le_stop)

/-- The values of an accepted list, part by part; induction on the items. -/
theorem parseCronItems_ok {items : List Text} {values : List Int64}
    (h : parseCronItems turns minValue maxValue normalizeSunday items values = some (.ok result))
    (v : Int64) :
    v ∈ result ↔ v ∈ values ∨ ∃ part ∈ items.filterMap fun item =>
        (parseCronPart item minValue maxValue).toOption,
      ∃ visited, steps turns part.start part.stop part.step = some visited ∧
        ∃ u ∈ visited, v = readWeekday normalizeSunday u := by
  induction items generalizing values with
  | nil =>
    cases h
    simp
  | cons item items ih =>
    unfold parseCronItems at h
    split at h
    · cases h
    · rename_i part hpart
      split at h
      · cases h
      · rename_i visited hvisited
        rw [ih h, List.mem_append, List.mem_map]
        simp only [List.filterMap_cons, hpart, Except.toOption, List.exists_mem_cons_iff,
          hvisited, Option.some.injEq, exists_eq_left', or_assoc]
        refine or_congr_right (or_congr_left ?_)
        exact ⟨fun ⟨u, hu, huv⟩ => ⟨u, hu, huv.symm⟩, fun ⟨u, hu, huv⟩ => ⟨u, hu, huv.symm⟩⟩

/-- Every part of an accepted list has been counted through; induction on the items. -/
theorem steps_of_parseCronItems {items : List Text} {values : List Int64}
    (h : parseCronItems turns minValue maxValue normalizeSunday items values = some (.ok result))
    {part : CronPart minValue maxValue} (hpart : part ∈ items.filterMap fun item =>
      (parseCronPart item minValue maxValue).toOption) :
    ∃ visited, steps turns part.start part.stop part.step = some visited := by
  induction items generalizing values with
  | nil => cases hpart
  | cons item items ih =>
    unfold parseCronItems at h
    split at h
    · cases h
    · rename_i first hfirst
      split at h
      · cases h
      · rename_i visited hvisited
        simp only [List.filterMap_cons, hfirst, Except.toOption, List.mem_cons] at hpart
        cases hpart with
        | inl heq => exact ⟨visited, heq ▸ hvisited⟩
        | inr hpart => exact ih h hpart

theorem parseCronField_ok {spec : Text} {field : CronField}
    (h : parseCronField turns spec minValue maxValue normalizeSunday = some (.ok field)) :
    parseCronItems turns minValue maxValue normalizeSunday
        ((trimSpace spec).splitOn ','.toUInt8) [] = some (.ok field.values) ∧
      field.any = (trimSpace spec = bytes "*") := by
  unfold parseCronField at h
  dsimp only at h
  split at h
  · cases h
  · obtain ⟨result, hresult, hmap⟩ := Option.map_eq_some_iff.mp h
    cases result with
    | error err => cases hmap
    | ok values =>
      cases hmap
      exact ⟨hresult, by simp⟩

/-- **A field means its grammar if and only if none of its parts counts past the largest machine
integer**; a field that does not holds a value below zero. -/
theorem cronField_iff_fits {spec : Text} {field : CronField}
    (h : parseCronField turns spec minValue maxValue normalizeSunday = some (.ok field)) :
    (MeansGrammar (cronParts spec minValue maxValue) normalizeSunday field.values ↔
      ∀ part ∈ cronParts spec minValue maxValue, part.Fits) ∧
    ((∃ part ∈ cronParts spec minValue maxValue, ¬ part.Fits) →
      ∃ v ∈ field.values, v < 0) := by
  have hitems := (parseCronField_ok h).1
  have hvalues := parseCronItems_ok hitems
  simp only [List.not_mem_nil, false_or] at hvalues
  have hnegative : (∃ part ∈ cronParts spec minValue maxValue, ¬ part.Fits) →
      ∃ v ∈ field.values, v < 0 := by
    rintro ⟨part, hpart, hfits⟩
    obtain ⟨visited, hvisited⟩ := steps_of_parseCronItems hitems hpart
    obtain ⟨v, hv, hneg⟩ := exists_neg_of_steps part.step_pos part.start_le_stop hvisited
      (not_lt.mp hfits)
    have hread : readWeekday normalizeSunday v = v := by
      refine if_neg fun hseven => ?_
      rw [hseven.2] at hneg
      exact absurd hneg (by decide)
    refine ⟨v, (hvalues v).mpr ⟨part, hpart, visited, hvisited, v, hv, hread.symm⟩, ?_⟩
    rwa [Int64.lt_iff_toInt_lt, Int64.toInt_zero]
  refine ⟨⟨fun hmeans part hpart => part.fits_iff.mpr (hmeans.sums part hpart), ?_⟩, hnegative⟩
  intro hfits
  have hexact : ∀ v, v ∈ field.values ↔ ∃ part ∈ cronParts spec minValue maxValue,
      ∃ u : Int64, u.toInt ∈ part.grid ∧ v = readWeekday normalizeSunday u := by
    intro v
    rw [hvalues v]
    refine exists_congr fun part => and_congr_right fun hpart => ?_
    obtain ⟨visited, hvisited⟩ := steps_of_parseCronItems hitems hpart
    simp only [hvisited, Option.some.injEq, exists_eq_left',
      mem_steps part.step_pos hvisited (hfits part hpart)]
    rfl
  refine ⟨hexact, ?_, fun part hpart => part.fits_iff.mp (hfits part hpart)⟩
  intro v hv
  obtain ⟨part, _, u, hu, huv⟩ := (hexact v).mp hv
  obtain ⟨hlow, hhigh⟩ := part.inside_of_mem_grid hu
  exact ⟨u, hlow, hhigh, huv⟩

/-- An accepted step counts past the largest machine integer, and the minute 5 becomes the
minutes 1, 3 and 5. -/
theorem cronField_iff_fits_wraps :
    ∃ field, parseCronField 9 (bytes "5/9223372036854775807") 0 59 false = some (.ok field) ∧
      1 ∈ field.values ∧ 3 ∈ field.values ∧
      ¬ MeansGrammar (cronParts (bytes "5/9223372036854775807") 0 59) false field.values := by
  have hparse : (parseCronField 9 (bytes "5/9223372036854775807") 0 59 false).any (fun
      | .ok field => field.values = [5, -9223372036854775804, 3, -9223372036854775806, 1,
          -9223372036854775808, -1]
      | .error _ => false) = true := by
    decide
  cases hfield : parseCronField 9 (bytes "5/9223372036854775807") 0 59 false with
  | none =>
    rw [hfield] at hparse
    cases hparse
  | some result =>
    cases result with
    | error err =>
      rw [hfield] at hparse
      cases hparse
    | ok field =>
      rw [hfield] at hparse
      have hvalues := of_decide_eq_true hparse
      refine ⟨field, rfl, by rw [hvalues]; decide, by rw [hvalues]; decide, fun hmeans => ?_⟩
      obtain ⟨u, hlow, _, hu⟩ := hmeans.inside (-1) (by rw [hvalues]; decide)
      have hnotSunday : readWeekday false u = u := if_neg nofun
      rw [hnotSunday] at hu
      rw [← hu] at hlow
      exact absurd hlow (by decide)

/-- Every fifteenth minute. -/
theorem cronField_iff_fits_quarters :
    ∃ field, parseCronField 9 (bytes "*/15") 0 59 false = some (.ok field) ∧
      (MeansGrammar (cronParts (bytes "*/15") 0 59) false field.values ↔
        ∀ part ∈ cronParts (bytes "*/15") 0 59, part.Fits) ∧
      ((∃ part ∈ cronParts (bytes "*/15") 0 59, ¬ part.Fits) → ∃ v ∈ field.values, v < 0) := by
  have hparse : (parseCronField 9 (bytes "*/15") 0 59 false).any (fun
      | .ok _ => true
      | .error _ => false) = true := by
    decide
  cases hfield : parseCronField 9 (bytes "*/15") 0 59 false with
  | none =>
    rw [hfield] at hparse
    cases hparse
  | some result =>
    cases result with
    | error err =>
      rw [hfield] at hparse
      cases hparse
    | ok field => exact ⟨field, rfl, cronField_iff_fits hfield⟩

/-! ### The loops end -/

/-- The items of a field with a low range; induction on the items. -/
theorem parseCronItems_returns (hmin : 0 ≤ minValue.toInt) (hmax : maxValue.toInt < 2 ^ 60)
    (hturns : 2 * maxValue.toInt + 2 < turns) (items : List Text) (values : List Int64) :
    ∃ result, parseCronItems turns minValue maxValue normalizeSunday items values =
      some result := by
  induction items generalizing values with
  | nil => exact ⟨_, rfl⟩
  | cons item items ih =>
    unfold parseCronItems
    split
    · exact ⟨_, rfl⟩
    · rename_i part hpart
      have hlow := Int64.le_iff_toInt_le.mp part.low
      have hhigh := Int64.le_iff_toInt_le.mp part.high
      have hloop : ∃ visited, steps turns part.start part.stop part.step = some visited := by
        apply steps_returns part.step_pos _ part.start_le_stop <;> omega
      obtain ⟨visited, hvisited⟩ := hloop
      rw [hvisited]
      exact ih _

/-- **Reading a field with a low range comes to an end**, also when it wraps around. -/
theorem parseCronField_returns (hmin : 0 ≤ minValue.toInt) (hmax : maxValue.toInt < 2 ^ 60)
    (hturns : 2 * maxValue.toInt + 2 < turns) (spec : Text) :
    ∃ result, parseCronField turns spec minValue maxValue normalizeSunday = some result := by
  unfold parseCronField
  dsimp only
  split
  · exact ⟨_, rfl⟩
  · have hitems : ∃ result, parseCronItems turns minValue maxValue normalizeSunday
        ((trimSpace spec).splitOn ','.toUInt8) [] = some result :=
      parseCronItems_returns hmin hmax hturns _ _
    obtain ⟨result, hresult⟩ := hitems
    rw [hresult]
    exact ⟨_, rfl⟩

end meaning

end GoNavi.Syncjob
