import GoNavi.Resultdiff.Aligned

/-! # What the options of a comparison do to values

Values are compared by their normalised texts.  `normalizeValue` trims whether or not it is asked
to, and gives a null the text of an empty value: of the three options only `ignoreCase` has an
effect on it (`normalizeValue_eq`).

**With all options off a pair of aligned rows is counted as the same exactly when its values are,
unless the values that differ are all only blurred** (`same_exact_iff`). -/

namespace GoNavi.Resultdiff

open Scan

section options

variable {ν : Type} (unicode : UnicodeTables) (sprint : ν → Text)

/-! ### Normalised values -/

/-- The trimmed text of a value; a null and `<nil>` are empty. -/
def blanked (value : Option ν) : Text :=
  match value with
  | none => []
  | some x => if trimSpace (sprint x) = bytes "<nil>" then [] else trimSpace (sprint x)

theorem trimSpace_blanked (value : Option ν) :
    trimSpace (blanked sprint value) = blanked sprint value := by
  cases value with
  | none => rfl
  | some x =>
    unfold blanked
    dsimp only
    split
    · rfl
    · exact trimSpace_trimSpace _

/-- **Only `ignoreCase` changes a normalised value.** -/
theorem normalizeValue_eq (value : Option ν) (opts : CompareOptions) :
    normalizeValue unicode sprint value opts =
      if opts.ignoreCase then lower unicode (blanked sprint value) else blanked sprint value := by
  have htrim := trimSpace_blanked sprint value
  cases value with
  | none =>
    cases opts.ignoreCase with
    | false => rfl
    | true => rfl
  | some x =>
    unfold normalizeValue
    unfold blanked at htrim ⊢
    dsimp only at htrim ⊢
    rw [htrim]
    cases opts.trimStrings with
    | false => rfl
    | true => rfl

/-- The options that are on stay on. -/
def CompareOptions.Extends (opts opts' : CompareOptions) : Prop :=
  opts.trimStrings ≤ opts'.trimStrings ∧ opts.ignoreCase ≤ opts'.ignoreCase ∧
    opts.nullEqualsEmpty ≤ opts'.nullEqualsEmpty

instance (opts opts' : CompareOptions) : Decidable (opts.Extends opts') := instDecidableAnd

def CompareOptions.off : CompareOptions := ⟨false, false, false⟩

/-- Values that are equal stay equal when an option is turned on. -/
theorem valuesEqual_mono {opts opts' : CompareOptions} (h : opts.Extends opts')
    {left right : Option ν} (heq : valuesEqual unicode sprint left right opts = true) :
    valuesEqual unicode sprint left right opts' = true := by
  unfold valuesEqual at heq ⊢
  split
  · rfl
  · rename_i hnulls
    rw [if_neg hnulls, decide_eq_true_eq, normalizeValue_eq, normalizeValue_eq] at heq
    rw [decide_eq_true_eq, normalizeValue_eq, normalizeValue_eq]
    cases hcase : opts.ignoreCase with
    | false =>
      have hblanked : blanked sprint left = blanked sprint right := by simpa [hcase] using heq
      rw [hblanked]
    | true =>
      have hcase' : opts'.ignoreCase = true := by
        have hle := h.2.1
        rw [hcase] at hle
        exact Bool.eq_true_of_true_le hle
      rw [hcase] at heq
      rw [hcase']
      exact heq

/-! ### Equal values -/

/-- Null on both sides, or on neither and printed the same. -/
def Exact (left right : Option ν) : Prop := left.map sprint = right.map sprint

/-- Not the same, but once trimmed, with a null and `<nil>` for an empty text. -/
def Blurred (left right : Option ν) : Prop :=
  ¬ Exact sprint left right ∧ blanked sprint left = blanked sprint right

instance (left right : Option ν) : Decidable (Exact sprint left right) :=
  inferInstanceAs (Decidable (left.map sprint = right.map sprint))

instance (left right : Option ν) : Decidable (Blurred sprint left right) := instDecidableAnd

theorem Exact.blanked_eq {left right : Option ν} (h : Exact sprint left right) :
    blanked sprint left = blanked sprint right := by
  unfold Exact at h
  cases left with
  | none =>
    cases right with
    | none => rfl
    | some y => cases h
  | some x =>
    cases right with
    | none => cases h
    | some y =>
      have hprint : sprint x = sprint y := Option.some.inj h
      unfold blanked
      dsimp only
      rw [hprint]

/-- **With all options off, values are equal when they are the same or blurred.** -/
theorem valuesEqual_off (left right : Option ν) :
    valuesEqual unicode sprint left right .off = true ↔
      Exact sprint left right ∨ Blurred sprint left right := by
  have hblanked : valuesEqual unicode sprint left right .off = true ↔
      blanked sprint left = blanked sprint right := by
    unfold valuesEqual
    split
    · rename_i hnulls
      rw [Bool.and_eq_true, Option.isNone_iff_eq_none, Option.isNone_iff_eq_none] at hnulls
      rw [hnulls.1, hnulls.2]
      simp
    · rw [decide_eq_true_eq, normalizeValue_eq, normalizeValue_eq]
      rfl
  rw [hblanked]
  constructor
  · intro h
    by_cases hexact : Exact sprint left right
    · exact .inl hexact
    · exact .inr ⟨hexact, h⟩
  · intro h
    cases h with
    | inl h => exact h.blanked_eq
    | inr h => exact h.2

/-! ### Pairs of rows -/

/-- The value of a column that the comparison of two rows sees. -/
def Setup.valueOf (setup : Setup ν) (side : Side) (key : Text) (row : Row ν) (col : Text) :
    Option ν :=
  (lookupValue unicode (setup.ranging.range (.comparing side key col) row) col).getD none

/-- A pair is the same when the values of every compared column are equal. -/
theorem Setup.isSame_iff (setup : Setup ν) (key : Text) (left right : Row ν) :
    setup.isSame unicode sprint (key, left, right) = true ↔
      ∀ col ∈ setup.compared, valuesEqual unicode sprint (setup.valueOf unicode .left key left col)
        (setup.valueOf unicode .right key right col) setup.opts = true := by
  unfold Setup.isSame Setup.changes diffFields Setup.valueOf
  rw [List.isEmpty_iff, List.filterMap_eq_nil_iff]
  constructor
  · intro h col hcol
    have hnone := h col hcol
    dsimp only at hnone
    split at hnone
    · assumption
    · cases hnone
  · intro h col hcol
    exact if_pos (h col hcol)

/-- The values of every compared column are the same. -/
def Setup.AllExact (setup : Setup ν) (key : Text) (left right : Row ν) : Prop :=
  ∀ col ∈ setup.compared,
    Exact sprint (setup.valueOf unicode .left key left col)
      (setup.valueOf unicode .right key right col)

/-- Some values differ, and all that do are blurred. -/
def Setup.AllBlurred (setup : Setup ν) (key : Text) (left right : Row ν) : Prop :=
  let blurred := fun col => Blurred sprint (setup.valueOf unicode .left key left col)
    (setup.valueOf unicode .right key right col)
  (∃ col ∈ setup.compared, blurred col) ∧
    ∀ col ∈ setup.compared, blurred col ∨
      Exact sprint (setup.valueOf unicode .left key left col)
        (setup.valueOf unicode .right key right col)

/-- With all options off a pair is the same, but not exactly, when it is all blurred. -/
theorem Setup.isSame_exact_iff (setup : Setup ν) (hoff : setup.opts = .off) (key : Text)
    (left right : Row ν) :
    (setup.isSame unicode sprint (key, left, right) = true ↔
        setup.AllExact unicode sprint key left right) ↔
      ¬ setup.AllBlurred unicode sprint key left right := by
  rw [Setup.isSame_iff, hoff]
  simp only [valuesEqual_off]
  unfold Setup.AllExact Setup.AllBlurred
  constructor
  · rintro h ⟨⟨col, hcol, hblurred⟩, hall⟩
    exact hblurred.1 (h.mp (fun col hcol => (hall col hcol).symm) col hcol)
  · intro h
    constructor
    · intro hall col hcol
      cases hall col hcol with
      | inl hexact => exact hexact
      | inr hblurred => exact absurd ⟨⟨col, hcol, hblurred⟩, fun col hcol => (hall col hcol).symm⟩ h
    · exact fun hexact col hcol => .inl (hexact col hcol)

/-! ### Whole comparisons -/

variable (ranging : Ranging) (request : Request ν)

/-- Turning options on leaves a pair that is the same the same, whatever its key is then, as long
as the loops over its rows find the same values. -/
def Request.OnlyToSame (key : Text) (left right : Row ν) : Prop :=
  ∀ opts' key', request.opts.Extends opts' →
    let setup := request.setup unicode sprint ranging
    let setup' := { request with opts := opts' }.setup unicode sprint ranging
    (∀ col, setup'.valueOf unicode .left key' left col = setup.valueOf unicode .left key left col ∧
      setup'.valueOf unicode .right key' right col = setup.valueOf unicode .right key right col) →
    setup.isSame unicode sprint (key, left, right) = true →
      setup'.isSame unicode sprint (key', left, right) = true

theorem Request.onlyToSame (key : Text) (left right : Row ν) :
    request.OnlyToSame unicode sprint ranging key left right := by
  intro opts' key' hopts setup setup' hvalues hsame
  rw [Setup.isSame_iff] at hsame ⊢
  intro col hcol
  rw [(hvalues col).1, (hvalues col).2]
  exact valuesEqual_mono unicode sprint hopts (hsame col hcol)

theorem Request.counts_pairs {summary : Summary} {rows : List (DiffRow ν)}
    (h : request.run unicode sprint ranging = .ok (summary, rows)) :
    let setup := request.setup unicode sprint ranging
    summary.same = setup.pairs.countP (setup.isSame unicode sprint) ∧
      summary.changed = setup.pairs.countP fun pair => !setup.isSame unicode sprint pair := by
  obtain ⟨-, rfl, -⟩ := request.of_run_ok unicode sprint ranging h
  unfold Request.report
  rw [visitRows_same, visitRows_changed]
  exact ⟨Nat.zero_add _, Nat.zero_add _⟩

/-- **The options are respected exactly by the pairs that are not all blurred**: with all options
off such a pair is counted as the same when its values are, and an option that is turned on moves
no pair from the same to changed.  The counts are those of the aligned pairs. -/
theorem same_exact_iff :
    let setup := request.setup unicode sprint ranging
    (∀ key left right, (key, left, right) ∈ setup.pairs →
      (((request.opts = .off → (setup.isSame unicode sprint (key, left, right) = true ↔
            setup.AllExact unicode sprint key left right)) ∧
          request.OnlyToSame unicode sprint ranging key left right) ↔
        (request.opts = .off → ¬ setup.AllBlurred unicode sprint key left right))) ∧
      ∀ summary rows, request.run unicode sprint ranging = .ok (summary, rows) →
        summary.same = setup.pairs.countP (setup.isSame unicode sprint) ∧
          summary.changed = setup.pairs.countP fun pair => !setup.isSame unicode sprint pair := by
  intro setup
  constructor
  · intro key left right _
    constructor
    · intro h hoff
      exact (setup.isSame_exact_iff unicode sprint hoff key left right).mp (h.1 hoff)
    · intro h
      refine ⟨fun hoff => ?_, request.onlyToSame unicode sprint ranging key left right⟩
      exact (setup.isSame_exact_iff unicode sprint hoff key left right).mpr (h hoff)
  · intro summary rows h
    exact request.counts_pairs unicode sprint ranging h

end options

/-- With all options off, a padded text and a null are counted as the same as a text and an empty
one. -/
theorem same_blurred :
    let unicode : UnicodeTables := ⟨fun _ => false, fun _ => false, id⟩
    let cell := fun column value : String => (bytes column, some (bytes value))
    let left := [cell "id" "1", cell "v" "a ", (bytes "w", none)]
    let right := [cell "id" "1", cell "v" "a", cell "w" ""]
    let request : Request Text := {
      leftRows := [left], rightRows := [right], keyColumns := [bytes "id"], opts := .off }
    let setup := request.setup unicode id .listed
    ((request.run unicode id .listed).toOption.map fun outcome =>
        (outcome.1.same, outcome.1.changed)) = some (1, 0) ∧
      (bytes "1", left, right) ∈ setup.pairs ∧
      setup.isSame unicode id (bytes "1", left, right) = true ∧
      ¬ Exact id (setup.valueOf unicode .left (bytes "1") left (bytes "v"))
        (setup.valueOf unicode .right (bytes "1") right (bytes "v")) ∧
      ¬ Exact id (setup.valueOf unicode .left (bytes "1") left (bytes "w"))
        (setup.valueOf unicode .right (bytes "1") right (bytes "w")) ∧
      ¬ setup.AllExact unicode id (bytes "1") left right := by
  intro unicode cell left right request setup
  have hv : ¬ Exact id (setup.valueOf unicode .left (bytes "1") left (bytes "v"))
      (setup.valueOf unicode .right (bytes "1") right (bytes "v")) := by decide
  have hpair : (bytes "1", left, right) ∈ setup.pairs :=
    (mem_pairs setup (by decide)).mpr ⟨by decide, by decide⟩
  refine ⟨by decide, hpair, by decide, hv, by decide, ?_⟩
  intro hall
  exact hv (hall (bytes "v") (by decide))

end GoNavi.Resultdiff
