import GoNavi.Machine.Program

/-! # Programs and their answers

What a program asks for and how it goes on depends on the answers alone, wherever they come
from. -/

universe u v w

namespace Program

variable {ρ : Type u} {ans : ρ → Type v} {α β : Type w}

/-- What a program returns when its requests are answered in this way. -/
def answered (answer : (r : ρ) → ans r) : Program ρ ans α → α
  | .ret a => a
  | .ask r next => (next (answer r)).answered answer

/-- With these answers the program gets to another one. -/
inductive Gets : Program ρ ans α → List ((r : ρ) × ans r) → Program ρ ans α → Prop where
  | here (p : Program ρ ans α) : Gets p [] p
  | ask {r : ρ} {next : ans r → Program ρ ans α} {answer : ans r} {answers : List ((r : ρ) × ans r)}
      {q : Program ρ ans α} (hgets : Gets (next answer) answers q) :
      Gets (.ask r next) (⟨r, answer⟩ :: answers) q

/-- A sequence is in its first part, or the first part has returned; induction on that part. -/
theorem Gets.of_bind {p : Program ρ ans α} {f : α → Program ρ ans β}
    {answers : List ((r : ρ) × ans r)} {q : Program ρ ans β} (h : Gets (p.bind f) answers q) :
    (∃ p', Gets p answers p' ∧ q = p'.bind f) ∨
      ∃ first second a, answers = first ++ second ∧ Gets p first (.ret a) ∧
        Gets (f a) second q := by
  induction p generalizing answers with
  | ret a => exact .inr ⟨[], answers, a, rfl, .here _, h⟩
  | ask r next ih =>
    change Gets (.ask r fun a => (next a).bind f) answers q at h
    cases h with
    | here => exact .inl ⟨.ask r next, .here _, rfl⟩
    | ask hgets =>
      cases ih _ hgets with
      | inl hfirst =>
        obtain ⟨p', hp', rfl⟩ := hfirst
        exact .inl ⟨p', .ask hp', rfl⟩
      | inr hsecond =>
        obtain ⟨first, second, a, rfl, hret, hrest⟩ := hsecond
        exact .inr ⟨_ :: first, second, a, rfl, .ask hret, hrest⟩

end Program
