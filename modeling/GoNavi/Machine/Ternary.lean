import Mathlib.Data.List.Basic

/-! # Three truth values

The truth values of a condition over values that may be missing: `some true`, `some false`, and
`none` where it is unknown.  A condition selects where it is `some true`: a conjunction does where
every part does (`all_eq_true`), a disjunction where some part does (`any_eq_true`). -/

namespace Ternary

universe u

abbrev Truth := Option Bool

/-- False wins over unknown, and unknown over true. -/
def and : Truth → Truth → Truth
  | some false, _ | _, some false => some false
  | some true, some true => some true
  | _, _ => none

/-- True wins over unknown, and unknown over false. -/
def or : Truth → Truth → Truth
  | some true, _ | _, some true => some true
  | some false, some false => some false
  | _, _ => none

def all (truths : List Truth) : Truth := truths.foldr and (some true)

def any (truths : List Truth) : Truth := truths.foldr or (some false)

theorem and_eq_true {a b : Truth} : and a b = some true ↔ a = some true ∧ b = some true := by
  rcases a with _ | _ | _ <;> rcases b with _ | _ | _ <;> simp [and]

theorem or_eq_true {a b : Truth} : or a b = some true ↔ a = some true ∨ b = some true := by
  rcases a with _ | _ | _ <;> rcases b with _ | _ | _ <;> simp [or]

theorem all_eq_true {truths : List Truth} :
    all truths = some true ↔ ∀ truth ∈ truths, truth = some true := by
  induction truths with
  | nil => simp [all]
  | cons truth truths ih =>
    unfold all at ih ⊢
    rw [List.foldr_cons, and_eq_true, ih, List.forall_mem_cons]

theorem any_eq_true {truths : List Truth} :
    any truths = some true ↔ ∃ truth ∈ truths, truth = some true := by
  induction truths with
  | nil => simp [any]
  | cons truth truths ih =>
    unfold any at ih ⊢
    rw [List.foldr_cons, or_eq_true, ih, List.exists_mem_cons_iff]

end Ternary
