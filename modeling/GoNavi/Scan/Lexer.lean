import GoNavi.Scan.Scanner

/-! # Lexers

A `Lexer` cuts a list into chunks from left to right and writes something for each chunk.  What
is behind a chunk is a suffix of what is behind its first symbol, so the loop terminates, and
`lex_cons` is its equation.

* `lex_induction` is the induction over the chunks of a list, `Stands` the relation between a
  list and the places in front of which a chunk is cut.
* `run_eq_lex` says that a scanner which appends what the lexer writes computes `lex`.
* `lex_lex` is the rule for a rewriting that settles in one pass: every chunk that is written
  has to be read again as itself in front of what is written behind it. -/

namespace Scan

open List

universe u v w

/-- A left-to-right loop that writes a list for each chunk it cuts. -/
structure Lexer (α : Type u) (β : Type v) where
  /-- What is written in front of a symbol and the symbols behind it, and what is left. -/
  next : α → List α → List β × List α
  /-- What is left is a suffix of what was behind the symbol. -/
  next_suffix : ∀ c t, (next c t).2 <:+ t

namespace Lexer

variable {α : Type u} {β : Type v} {γ : Type w} (L : Lexer α β)

/-- The loop, with a bound on the number of chunks. -/
def drive : ℕ → List α → List β
  | 0, _ => []
  | _ + 1, [] => []
  | n + 1, c :: t => (L.next c t).1 ++ drive n (L.next c t).2

/-- The loop on a whole list. -/
def lex (t : List α) : List β := L.drive t.length t

/-- The chunk in front of a symbol and the symbols behind it. -/
def chunk (c : α) (t : List α) : List α := (c :: t).take (t.length + 1 - (L.next c t).2.length)

theorem drive_eq_of_le : ∀ {m n : ℕ} {t : List α}, t.length ≤ m → t.length ≤ n →
    L.drive m t = L.drive n t
  | 0, 0, _, _, _ => rfl
  | 0, _ + 1, [], _, _ => rfl
  | _ + 1, 0, [], _, _ => rfl
  | _ + 1, _ + 1, [], _, _ => rfl
  | m + 1, n + 1, c :: t, hm, hn => by
    have ht := (L.next_suffix c t).length_le
    simp only [length_cons] at hm hn
    simp only [drive]
    rw [@drive_eq_of_le m n (L.next c t).2 (by omega) (by omega)]

@[simp] theorem lex_nil : L.lex [] = [] := rfl

theorem lex_cons (c : α) (t : List α) :
    L.lex (c :: t) = (L.next c t).1 ++ L.lex (L.next c t).2 := by
  simp only [lex, length_cons, drive]
  rw [L.drive_eq_of_le (L.next_suffix c t).length_le le_rfl]

theorem next_suffix_cons (c : α) (t : List α) : (L.next c t).2 <:+ c :: t :=
  (L.next_suffix c t).trans (suffix_cons _ _)

theorem chunk_append (c : α) (t : List α) : L.chunk c t ++ (L.next c t).2 = c :: t := by
  obtain ⟨s, hs⟩ := L.next_suffix_cons c t
  have hlen := congrArg List.length hs
  rw [length_append, length_cons] at hlen
  have hs' : L.chunk c t = s := by
    rw [chunk, ← hs, take_append_of_le_length (by omega)]
    exact take_of_length_le (by omega)
  rw [hs', hs]

/-- What holds of the empty list and goes from what is behind a chunk to the list from it on. -/
theorem lex_induction {P : List α → Prop} (nil : P [])
    (cons : ∀ c t, P (L.next c t).2 → P (c :: t)) (t : List α) : P t := by
  induction hn : t.length using Nat.strongRecOn generalizing t with
  | ind n ih =>
    cases t with
    | nil => exact nil
    | cons c t =>
      apply cons
      have ht := (L.next_suffix c t).length_le
      rw [length_cons] at hn
      exact ih _ (by omega) _ rfl

theorem lex_of_next {c : α} {t : List α} {p : List β × List α} (h : L.next c t = p) :
    L.lex (c :: t) = p.1 ++ L.lex p.2 := by
  rw [lex_cons, h]

/-! ### The places of the loop -/

/-- `L.Stands t u`: on `t` the loop comes to stand in front of `u`. -/
inductive Stands : List α → List α → Prop where
  | here (t : List α) : Stands t t
  | next {c : α} {t u : List α} : Stands (L.next c t).2 u → Stands (c :: t) u

variable {L}

theorem Stands.suffix {t u : List α} (h : L.Stands t u) : u <:+ t := by
  induction h with
  | here t => exact suffix_refl t
  | next _ ih => exact ih.trans (L.next_suffix_cons _ _)

/-- The loop stands at its start, or behind its first chunk and from there on. -/
theorem stands_cons {c : α} {t u : List α} :
    L.Stands (c :: t) u ↔ u = c :: t ∨ L.Stands (L.next c t).2 u := by
  constructor
  · intro h
    cases h with
    | here => exact .inl rfl
    | next h => exact .inr h
  · rintro (rfl | h)
    · exact .here _
    · exact .next h

/-! ### Scanners that write like a lexer -/

section scanner

variable {M : Scanner α (List β)} {P : List β → List α → Prop}

/-- A scanner that appends what the lexer writes, as long as `P` holds, which its steps keep. -/
structure Writes (L : Lexer α β) (M : Scanner α (List β)) (P : List β → List α → Prop) :
    Prop where
  step : ∀ {out c t}, P out (c :: t) → M.step out c t = some (out ++ (L.next c t).1, (L.next c t).2)
  keep : ∀ {out c t}, P out (c :: t) → P (out ++ (L.next c t).1) (L.next c t).2

theorem Writes.run_eq (h : L.Writes M P) (t : List α) : ∀ {out : List β}, P out t →
    M.run out t = (out ++ L.lex t, []) := by
  induction t using L.lex_induction with
  | nil =>
    intro out _
    simp
  | cons c t ih =>
    intro out hout
    rw [Scanner.run_step (h.step hout), ih (h.keep hout), lex_cons, append_assoc]

theorem Writes.stands_of_reach (h : L.Writes M P) {out out' : List β} {t u : List α}
    (hout : P out t) (hreach : M.Reach out t out' u) : L.Stands t u ∧ P out' u := by
  induction t using L.lex_induction generalizing out with
  | nil =>
    rcases hreach.cases_head with ⟨rfl, rfl⟩ | ⟨c, v, s, w, hnil, -⟩
    · exact ⟨.here _, hout⟩
    · cases hnil
  | cons c t ih =>
    rcases hreach.cases_head with ⟨rfl, rfl⟩ | ⟨d, v, s, w, hcons, hstep, hrest⟩
    · exact ⟨.here _, hout⟩
    · cases hcons
      rw [h.step hout] at hstep
      cases hstep
      obtain ⟨hstands, hkept⟩ := ih (h.keep hout) hrest
      exact ⟨.next hstands, hkept⟩

theorem Writes.reach_of_stands (h : L.Writes M P) {out : List β} {t u : List α}
    (hout : P out t) (hstands : L.Stands t u) : ∃ out', M.Reach out t out' u ∧ P out' u := by
  induction hstands generalizing out with
  | here t => exact ⟨out, .refl, hout⟩
  | next _ ih =>
    obtain ⟨out', hreach, hkept⟩ := ih (h.keep hout)
    exact ⟨out', .head (h.step hout) hreach, hkept⟩

end scanner

/-! ### Lexers that write something else -/

/-- The lexer that cuts alike and writes `g b` for every `b`. -/
def post (L : Lexer α β) (g : β → List γ) : Lexer α γ where
  next c t := ((L.next c t).1.flatMap g, (L.next c t).2)
  next_suffix c t := L.next_suffix c t

theorem lex_post (g : β → List γ) (t : List α) : (L.post g).lex t = (L.lex t).flatMap g := by
  induction t using L.lex_induction with
  | nil => rfl
  | cons c t ih =>
    rw [lex_cons, lex_cons, flatMap_append]
    exact congrArg _ ih

theorem stands_post {g : β → List γ} {t u : List α} : (L.post g).Stands t u ↔ L.Stands t u := by
  constructor
  · intro h
    induction h with
    | here t => exact .here t
    | next _ ih => exact .next ih
  · intro h
    induction h with
    | here t => exact .here t
    | next _ ih => exact .next ih

/-! ### Rewriting that settles -/

/-- **A lexer whose chunks are read again as themselves settles in one pass.** -/
theorem lex_lex {L : Lexer α α}
    (h : ∀ c t, ∃ d u, (L.next c t).1 = d :: u ∧
      L.next d (u ++ L.lex (L.next c t).2) = ((L.next c t).1, L.lex (L.next c t).2))
    (t : List α) : L.lex (L.lex t) = L.lex t := by
  induction t using L.lex_induction with
  | nil => rfl
  | cons c t ih =>
    obtain ⟨d, u, hwritten, hread⟩ := h c t
    rw [L.lex_cons c t, hwritten, cons_append, L.lex_of_next hread, ih, hwritten,
      cons_append]

end Lexer

end Scan
