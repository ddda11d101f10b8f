import Mathlib.Data.List.TakeWhile
import GoNavi.Sql.Block

/-! # Look-ahead in a longer text

What a splitter decides in front of a position it decides from the text behind it.  This file
says which decisions cannot change when more text comes in: a look-ahead that stops in front
of a byte which is no lone `-` or `/` stops there in every longer text (`skipSQLTrivia_append`),
a token that ends inside the text stays the token (`nextSQLKeyword_append`), and a word whose
look-ahead does not touch the end of the text (`LookaheadOpen`) has the same effect on the
nesting (`Block.word_append`). -/

namespace GoNavi.Sql

open Scan List

variable {t u r : Text}

/-! ### Comments and blanks -/

variable {p : UInt8 → Bool}

theorem dropWhile_append_of_ne_nil (h : t.dropWhile p ≠ []) :
    (t ++ r).dropWhile p = t.dropWhile p ++ r := by
  rw [dropWhile_append, if_neg (by simpa using h)]

theorem takeWhile_append_of_dropWhile (h : t.dropWhile p ≠ []) :
    (t ++ r).takeWhile p = t.takeWhile p := by
  rw [takeWhile_append, if_neg]
  intro hlen
  have hsplit := congrArg List.length (takeWhile_append_dropWhile (p := p) (l := t))
  rw [length_append, hlen] at hsplit
  exact h (length_eq_zero_iff.mp (by omega))

theorem scanSQLLineCommentEnd_append (h : scanSQLLineCommentEnd t ≠ []) :
    scanSQLLineCommentEnd (t ++ r) = scanSQLLineCommentEnd t ++ r :=
  dropWhile_append_of_ne_nil h

theorem afterLine_append (h : scanSQLLineCommentEnd t ≠ []) :
    afterLine (t ++ r) = afterLine t ++ r := by
  rw [afterLine, scanSQLLineCommentEnd_append h, tail_append_of_ne_nil h]
  rfl

theorem scanSQLLineCommentEnd_ne_nil (h : afterLine t ≠ []) : scanSQLLineCommentEnd t ≠ [] :=
  fun hnil => h (by rw [afterLine, hnil]; rfl)

variable {needle : Text}

theorem length_le_of_afterFirst : ∀ {t u : Text},
    afterFirst needle t = some u → needle.length ≤ t.length
  | [], _, h => by simp [afterFirst] at h
  | c :: t, u, h => by
    rw [afterFirst] at h
    split at h
    · next hp => exact (List.isPrefixOf_iff_prefix.mp hp).length_le
    · exact (length_le_of_afterFirst h).trans (Nat.le_succ _)

theorem isPrefixOf_append_of_length (h : needle.length ≤ t.length) :
    needle.isPrefixOf (t ++ r) = needle.isPrefixOf t := by
  rw [Bool.eq_iff_iff, List.isPrefixOf_iff_prefix, List.isPrefixOf_iff_prefix]
  exact ⟨fun hp => List.prefix_of_prefix_length_le hp (List.prefix_append t r) h,
    fun hp => hp.trans (List.prefix_append t r)⟩

/-- A text that does not end inside `needle` has it in front, or has not, whatever comes. -/
theorem isPrefixOf_append_of_not_partial
    (h : ¬ (t.length < needle.length ∧ t.isPrefixOf needle = true)) :
    needle.isPrefixOf (t ++ r) = needle.isPrefixOf t ∧
      ¬ ((t ++ r).length < needle.length ∧ (t ++ r).isPrefixOf needle = true) := by
  constructor
  · rcases Nat.lt_or_ge t.length needle.length with hlt | hge
    · have hnot : ¬ needle <+: t ++ r := fun hp => h ⟨hlt, List.isPrefixOf_iff_prefix.mpr
        (List.prefix_of_prefix_length_le (List.prefix_append t r) hp hlt.le)⟩
      have hnot' : ¬ needle <+: t := fun hp => hnot (hp.trans (List.prefix_append t r))
      rw [← List.isPrefixOf_iff_prefix, Bool.not_eq_true] at hnot hnot'
      rw [hnot, hnot']
    · exact isPrefixOf_append_of_length hge
  · rintro ⟨hlt, hp⟩
    rw [length_append] at hlt
    exact h ⟨by omega, List.isPrefixOf_iff_prefix.mpr
      ((List.prefix_append t r).trans (List.isPrefixOf_iff_prefix.mp hp))⟩

theorem afterFirst_append : ∀ {t u : Text}, afterFirst needle t = some u →
    afterFirst needle (t ++ r) = some (u ++ r)
  | [], _, h => by simp [afterFirst] at h
  | c :: t, u, h => by
    have hlen := length_le_of_afterFirst h
    rw [afterFirst] at h
    rw [cons_append, afterFirst, ← cons_append, isPrefixOf_append_of_length hlen]
    split_ifs at h ⊢ with hp
    · cases h
      rw [drop_append_of_le_length hlen]
    · exact afterFirst_append h

theorem afterBlock_append (h : afterBlock t ≠ []) : afterBlock (t ++ r) = afterBlock t ++ r := by
  unfold afterBlock at h ⊢
  cases hf : afterFirst [star, slash] t with
  | none => simp [hf] at h
  | some u => rw [afterFirst_append hf]; rfl

/-- A lone `-` or `/` at the end of the text may start a comment. -/
def LoneOpener (t : Text) : Prop := t = [dash] ∨ t = [slash]

variable {c : UInt8} {s : Unit}

theorem trivia_append {t' : Text} {s' : Unit} (h : trivia.step s c t = some (s', t'))
    (hne : t' ≠ []) :
    trivia.step s c (t ++ r) = some (s', t' ++ r) := by
  have ht : t ≠ [] := by
    rintro rfl
    exact hne (suffix_nil.mp (trivia.step_suffix h))
  simp only [trivia] at h ⊢
  rw [head?_append_of_ne_nil _ ht, tail_append_of_ne_nil ht]
  split_ifs at h with h₁ h₂ h₃ h₄ <;> cases h
  · rw [if_pos h₁]
  · rw [if_neg h₁, if_pos h₂, afterLine_append (scanSQLLineCommentEnd_ne_nil hne)]
  · rw [if_neg h₁, if_neg h₂, if_pos h₃, afterLine_append (scanSQLLineCommentEnd_ne_nil hne)]
  · rw [if_neg h₁, if_neg h₂, if_neg h₃, if_pos h₄, afterBlock_append hne]

theorem trivia_stop_append (h : trivia.step s c t = none) (hopen : ¬ LoneOpener (c :: t)) :
    trivia.step s c (t ++ r) = none := by
  by_cases ht : t = []
  · subst ht
    have hd : c ≠ dash := fun hc => hopen (.inl (by rw [hc]))
    have hs : c ≠ slash := fun hc => hopen (.inr (by rw [hc]))
    simp only [trivia, hd, hs, false_and, if_false] at h ⊢
    split_ifs at h ⊢
    rfl
  · simp only [trivia] at h ⊢
    rw [head?_append_of_ne_nil _ ht]
    split_ifs at h ⊢
    rfl

theorem skipSQLTrivia_append (hne : skipSQLTrivia t ≠ []) (hopen : ¬ LoneOpener (skipSQLTrivia t)) :
    skipSQLTrivia (t ++ r) = skipSQLTrivia t ++ r := by
  unfold skipSQLTrivia at *
  rw [Scanner.run_append trivia_append hne]
  intro c u hu
  exact trivia_stop_append (Scanner.run_stuck hu) (hu ▸ hopen)

theorem skipBlockComment_eq : ∀ {t u : Text}, afterFirst [star, slash] t = some u →
    skipBlockComment t = u
  | [], _, h => by simp [afterFirst] at h
  | [_], _, h => absurd (length_le_of_afterFirst h) (by simp)
  | c :: d :: t, u, h => by
    have hpre : [star, slash].isPrefixOf (c :: d :: t) = true ↔ c = star ∧ d = slash := by
      simp only [List.isPrefixOf, Bool.and_eq_true, beq_iff_eq, and_true]
      exact and_congr eq_comm eq_comm
    rw [afterFirst] at h
    rw [skipBlockComment]
    by_cases hcd : c = star ∧ d = slash
    · rw [if_pos (hpre.mpr hcd)] at h
      rw [if_pos hcd]
      exact Option.some.inj h
    · rw [if_neg fun hp => hcd (hpre.mp hp)] at h
      rw [if_neg hcd]
      exact skipBlockComment_eq h

/-- The two look-aheads read the same comments, but for `#`. -/
theorem whitespaceAndComments_step {s' : Unit} (h : trivia.step s c t = some (s', u)) (hne : u ≠ [])
    (hc : c ≠ hash) :
    whitespaceAndComments.Reach () (c :: t) () u := by
  simp only [trivia] at h
  split_ifs at h with h₁ h₂ h₃ <;> cases h
  · exact .single (by simp only [whitespaceAndComments, if_pos h₁])
  · -- the line comment ends at a newline, which is skipped next
    obtain ⟨d, v, hv⟩ := exists_cons_of_ne_nil (scanSQLLineCommentEnd_ne_nil hne)
    have hline : whitespaceAndComments.Reach () (c :: t) () (d :: v) :=
      .single (by simp only [whitespaceAndComments, if_neg h₁, if_pos h₂, hv])
    have hd : isSQLBlankByte d = true := by
      rw [scanSQLLineCommentEnd_head hv]
      decide
    have htail : afterLine (List.tail t) = v := by rw [afterLine, hv]; rfl
    exact htail ▸ hline.tail (by simp only [whitespaceAndComments, if_pos hd])
  · cases hf : afterFirst [star, slash] (List.tail t) with
    | none => exact absurd (by simp [afterBlock, hf]) hne
    | some v =>
      have hv : afterBlock (List.tail t) = skipBlockComment (List.tail t) := by
        rw [skipBlockComment_eq hf, afterBlock, hf]
        rfl
      refine .single ?_
      simp only [whitespaceAndComments, if_neg h₁, if_neg h₂, hv]
      rw [if_pos ‹_›]

theorem whitespaceAndComments_reach (h : trivia.Reach () t s u) (hne : u ≠ []) :
    (whitespaceAndComments.Reach () t () u ∧ whitespaceAndComments.Reach () (t ++ r) () (u ++ r)) ∨
      ∃ v w, whitespaceAndComments.Reach () t () (hash :: v) ∧
        whitespaceAndComments.Reach () (t ++ r) () (hash :: w) := by
  induction h with
  | refl => exact .inl ⟨.refl, .refl⟩
  | @tail s₁ s₂ c t₁ t₂ _ hst ih =>
    rcases ih (by simp) with ⟨ih, ihr⟩ | ih
    · by_cases hc : c = hash
      · exact .inr ⟨_, _, hc ▸ ih, hc ▸ ihr⟩
      · exact .inl ⟨ih.trans (whitespaceAndComments_step hst hne hc),
          ihr.trans (whitespaceAndComments_step (trivia_append hst hne) (by simp [hne]) hc)⟩
    · exact .inr ih

theorem whitespaceAndComments_stop (h : trivia.step () c t = none) :
    whitespaceAndComments.step () c t = none := by
  simp only [trivia] at h
  simp only [whitespaceAndComments]
  split_ifs at h ⊢
  rfl

/-- In front of a token, `skipSQLWhitespaceAndComments` stops where `skipSQLTrivia` does, or
before, at a `#`. -/
theorem skipSQLWhitespaceAndComments_append (hne : skipSQLTrivia t ≠ [])
    (hopen : ¬ LoneOpener (skipSQLTrivia t)) :
    (skipSQLWhitespaceAndComments t = skipSQLTrivia t ∧
        skipSQLWhitespaceAndComments (t ++ r) = skipSQLTrivia t ++ r) ∨
      ∃ v w, skipSQLWhitespaceAndComments t = hash :: v ∧
        skipSQLWhitespaceAndComments (t ++ r) = hash :: w := by
  have hhash : ∀ {x v : Text}, whitespaceAndComments.Reach () x () (hash :: v) →
      skipSQLWhitespaceAndComments x = hash :: v := by
    intro x v h
    rw [skipSQLWhitespaceAndComments, h.run_eq, Scanner.run_stop]
    simp only [whitespaceAndComments]
    rw [if_neg (by decide), if_neg (by simp [hash, dash]), if_neg (by simp [hash, slash])]
  obtain ⟨c, u, hu⟩ := exists_cons_of_ne_nil hne
  have hstuck : trivia.step () c u = none := Scanner.run_stuck hu
  rcases whitespaceAndComments_reach (r := r) (Scanner.run_reach () t) hne with ⟨h, hr⟩ | ⟨v, w, h⟩
  · have hrest : (trivia.run () t).2 = c :: u := hu
    have hlong : trivia.step () c (u ++ r) = none := trivia_stop_append hstuck (hu ▸ hopen)
    rw [hrest] at h hr
    rw [hu]
    refine .inl ⟨?_, ?_⟩
    · rw [skipSQLWhitespaceAndComments, h.run_eq, Scanner.run_stop]
      exact whitespaceAndComments_stop hstuck
    · rw [skipSQLWhitespaceAndComments, hr.run_eq, cons_append, Scanner.run_stop]
      exact whitespaceAndComments_stop hlong
  · exact .inr ⟨v, w, hhash h.1, hhash h.2⟩

/-! ### Tokens -/

/-- The next token of a text, or where it would stand, touches the end of the text. -/
def TokenOpen (t : Text) : Prop :=
  skipSQLTrivia t = [] ∨ LoneOpener (skipSQLTrivia t) ∨
    (skipSQLTrivia t).all isSQLIdentifierPart = true

instance (t : Text) : Decidable (LoneOpener t) := inferInstanceAs (Decidable (_ ∨ _))

instance (t : Text) : Decidable (TokenOpen t) := inferInstanceAs (Decidable (_ ∨ _ ∨ _))

theorem dropWhile_ne_nil (hp : ∀ c, p c = true → isSQLIdentifierPart c = true)
    (h : ¬ t.all isSQLIdentifierPart = true) : t.dropWhile p ≠ [] := by
  intro hnil
  rw [dropWhile_eq_nil_iff] at hnil
  exact h (all_eq_true.mpr fun c hc => hp c (hnil c hc))

theorem tokenSpan_append {start part : UInt8 → Bool} (hne : t ≠ [])
    (hstart : ∀ c, start c = true → isSQLIdentifierPart c = true)
    (hpart : ∀ c, part c = true → isSQLIdentifierPart c = true)
    (h : ¬ t.all isSQLIdentifierPart = true) :
    tokenSpan start part (t ++ r) =
      ((tokenSpan start part t).1, (tokenSpan start part t).2 ++ r) := by
  obtain ⟨c, u, rfl⟩ := exists_cons_of_ne_nil hne
  rw [cons_append, tokenSpan, tokenSpan]
  split_ifs with hc
  · have hu : u.dropWhile part ≠ [] := by
      refine dropWhile_ne_nil hpart fun hall => h ?_
      rw [all_cons, hstart c hc, hall]
      rfl
    rw [dropWhile_append_of_ne_nil hu, takeWhile_append_of_dropWhile hu]
  · rfl

theorem isSQLIdentifierPart_of_keywordByte (h : isSQLKeywordByte c = true) :
    isSQLIdentifierPart c = true := by
  simp only [isSQLKeywordByte, Bool.or_eq_true] at h
  rcases h with h | h <;> simp [isSQLIdentifierPart, h]

theorem nextSQLKeyword_append (h : ¬ TokenOpen t) :
    nextSQLKeyword (t ++ r) = ((nextSQLKeyword t).1, (nextSQLKeyword t).2 ++ r) := by
  simp only [TokenOpen, not_or] at h
  obtain ⟨hne, hlone, hall⟩ := h
  rw [nextSQLKeyword, skipSQLTrivia_append hne hlone]
  exact tokenSpan_append hne (fun _ => isSQLIdentifierPart_of_keywordByte)
    (fun _ => isSQLIdentifierPart_of_keywordByte) hall

theorem nextSQLSignificantToken_append (h : ¬ TokenOpen t) :
    nextSQLSignificantToken (t ++ r) = nextSQLSignificantToken t ∧
      nextSQLSignificantByte (t ++ r) = nextSQLSignificantByte t := by
  simp only [TokenOpen, not_or] at h
  obtain ⟨hne, hlone, hall⟩ := h
  unfold nextSQLSignificantToken nextSQLSignificantTokenSpan nextSQLSignificantByte
  rcases skipSQLWhitespaceAndComments_append (r := r) hne hlone with ⟨h, hr⟩ | ⟨v, w, h, hr⟩
  · rw [h, hr, tokenSpan_append hne (fun _ => isSQLIdentifierPart_of_start) (fun _ => id) hall]
    obtain ⟨c, u, hu⟩ := exists_cons_of_ne_nil hne
    rw [hu]
    exact ⟨rfl, rfl⟩
  · rw [h, hr]
    exact ⟨rfl, rfl⟩

/-- The look-ahead of the word `token`, with `t` behind it, touches the end of the text: at the
next token or, for a `BEGIN`, at the one behind it. -/
def LookaheadOpen (token t : Text) : Prop :=
  TokenOpen t ∨ token = bytes "begin" ∧ (TokenOpen (nextSQLKeyword t).2 ∨
    TokenOpen (tokenSpan isSQLIdentifierStart isSQLIdentifierPart (skipSQLTrivia t)).2)

instance (token t : Text) : Decidable (LookaheadOpen token t) :=
  inferInstanceAs (Decidable (_ ∨ _ ∧ (_ ∨ _)))

variable {dbType : Text}

theorem sqlBeginStartsTransactionForDialect_append (h : ¬ LookaheadOpen (bytes "begin") t) :
    sqlBeginStartsTransactionForDialect dbType (t ++ r) =
      sqlBeginStartsTransactionForDialect dbType t := by
  simp only [LookaheadOpen, not_or, not_and, true_implies] at h
  unfold sqlBeginStartsTransactionForDialect
  dsimp only
  rw [nextSQLKeyword_append h.1, nextSQLKeyword_append h.2.1]

theorem shouldEnterPLSQLBlockForDialect_append (h : ¬ LookaheadOpen (bytes "begin") t) :
    shouldEnterPLSQLBlockForDialect dbType (t ++ r) = shouldEnterPLSQLBlockForDialect dbType t := by
  have hopen : ¬ TokenOpen t := fun ho => h (.inl ho)
  have htrivia : ¬ skipSQLTrivia t = [] ∧ ¬ LoneOpener (skipSQLTrivia t) :=
    ⟨fun h => hopen (.inl h), fun h => hopen (.inr (.inl h))⟩
  unfold shouldEnterPLSQLBlockForDialect
  dsimp only
  rw [skipSQLTrivia_append htrivia.1 htrivia.2, nextSQLKeyword_append hopen,
    sqlBeginStartsTransactionForDialect_append h, head?_append_of_ne_nil _ htrivia.1]
  simp only [append_eq_nil_iff, htrivia.1, false_and, false_or]

theorem Block.word_append {cur token : Text} {b : Block} (h : ¬ LookaheadOpen token t) :
    b.word dbType cur token (t ++ r) = b.word dbType cur token t := by
  have hopen : ¬ TokenOpen t := fun ho => h (.inl ho)
  obtain ⟨htoken, hbyte⟩ := nextSQLSignificantToken_append (r := r) hopen
  have hbegin : token = bytes "begin" → shouldEnterPLSQLBlockForDialect dbType (t ++ r) =
      shouldEnterPLSQLBlockForDialect dbType t := by
    rintro rfl
    exact shouldEnterPLSQLBlockForDialect_append h
  have hroutine : shouldEnterPLSQLCreateRoutineBlock cur token (t ++ r) =
      shouldEnterPLSQLCreateRoutineBlock cur token t := by
    rw [shouldEnterPLSQLCreateRoutineBlock, shouldEnterPLSQLCreateRoutineBlock, hbyte]
  unfold Block.word shouldEnterPLSQLDeclareBlock isPLSQLControlEnd
  rw [htoken, hroutine]
  by_cases hb : token = bytes "begin"
  · rw [hbegin hb]
  · simp only [hb, false_and, if_false]

/-- The words whose effect on the nesting depends on the text behind them. -/
theorem Block.word_eq_of_not_mem {cur token : Text} {b : Block}
    (h : token ∉ [bytes "begin", bytes "declare", bytes "end", bytes "is", bytes "as"]) (u : Text) :
    b.word dbType cur token t = b.word dbType cur token u := by
  simp only [mem_cons, not_mem_nil, or_false, not_or] at h
  obtain ⟨hbegin, hdeclare, hend, his, has⟩ := h
  have hroutine : ∀ v, shouldEnterPLSQLCreateRoutineBlock cur token v = false := fun v => by
    rw [shouldEnterPLSQLCreateRoutineBlock, if_pos ⟨his, has⟩]
  simp only [Block.word, hbegin, hdeclare, hend, hroutine, false_and, if_false]

end GoNavi.Sql
