import GoNavi.Sql.Stream

/-! # One `Feed` and the batch splitter

For a dialect without client directives, the loop of `Feed` on a whole text makes the
decisions of the batch splitter, step by step (`InStep.step`), except in three places.

* A `/` behind a delimiter on the same line: `Feed` looks for the start of the line in the
  statement under construction, the batch splitter looks for it in the text
  (`SlashBehindDelimiter`).
* Bytes that the end of the text leaves undecided for `Feed` (`Undecided`): they end up in the
  last statement as they are, where the batch splitter still finds delimiters in them.
* A last statement that is a lone `/`, which only the batch splitter returns.

Where none of these occurs (`StreamAgrees`), both return the same statements
(`streamStatements_eq_split`). -/

namespace GoNavi.Sql

open Scan List StreamSplitter

/-! ### Where the two loops part -/

/-- The bytes from `c` on do not decide for `Feed`, at the end of the text, between a keyword
and a name or between a byte and a full-width semicolon. -/
def Undecided (c : UInt8) (t : Text) : Prop :=
  (isSQLIdentifierStart c = true ∧
    shouldDeferPLSQLKeywordInStream (toLower (c :: t.takeWhile isSQLIdentifierPart))
      (t.dropWhile isSQLIdentifierPart) = true) ∨
  c = 0xEF ∧ t.length < 2

/-- `Feed` takes a slash line that is not one for the batch splitter: its line in the
statement is blank, its line in the text is not. -/
def SlashBehindDelimiter (b : Splitter) (c : UInt8) (t : Text) : Prop :=
  c = slash ∧ (b.block.justClosedPLSQLBlock = true ∨ trimSpace b.cur = []) ∧
    lineBlank b.cur.reverse = true ∧ (scanSQLStandaloneSlashLineSuffix t).isSome = true ∧
    lineBlank b.before = false

/-- From here on to the end of the text, the batch splitter finds no delimiter and no slash
line. -/
def Silent (dbType : Text) (b : Splitter) (t : Text) : Prop :=
  ∀ b' d u, (splitter dbType true).Reach b t b' (d :: u) →
    (b'.action dbType true d u).effect = .keep

/-- None of the three differences between the splitters occurs in a text. -/
structure StreamAgrees (dbType text : Text) : Prop where
  slash : ∀ b c t, (splitter dbType true).Reach .initial text b (c :: t) →
    b.mode.quoted dbType true c t = none → ¬ SlashBehindDelimiter b c t
  undecided : ∀ b c t, (splitter dbType true).Reach .initial text b (c :: t) →
    b.mode.quoted dbType true c t = none → Undecided c t → Silent dbType b (c :: t)
  last : trimSpace (splitText dbType true text).cur ≠ [Sql.slash]

/-! ### One step -/

/-- A state of `Feed` and a state of the batch splitter that stand at the same place. -/
structure InStep (f : FeedState) (b : Splitter) : Prop where
  before : f.before = b.before
  cur : f.core.cur = b.cur
  statements : f.statements = b.statements
  mode : f.core.mode = b.mode
  block : f.core.block = b.block
  delimiter : f.core.delimiter = []
  preserve : f.core.preserveSQLServerBatch = false
  /-- The statement under construction is the end of the text read so far. -/
  suffix : b.cur.reverse <+: b.before

theorem inStep_initial : InStep ⟨.initial false, [], []⟩ .initial :=
  ⟨rfl, rfl, rfl, rfl, rfl, rfl, rfl, List.prefix_refl _⟩

theorem lineBlank_of_prefix {p before : Text} (h : p <+: before) (hb : lineBlank before = true) :
    lineBlank p = true := by
  obtain ⟨x, rfl⟩ := h
  unfold lineBlank at hb ⊢
  rw [takeWhile_append] at hb
  split_ifs at hb with hall
  · rw [all_append, Bool.and_eq_true] at hb
    rw [(List.takeWhile_prefix _).eq_of_length hall]
    exact hb.1
  · exact hb

theorem wordTail_semicolon : ∀ t : Text, wordTail [semicolon] t = t.takeWhile isSQLIdentifierPart
  | [] => rfl
  | c :: t => by
    rw [wordTail, takeWhile_cons, wordTail_semicolon t]
    simp [delimiterStartsAt]

theorem drop_length_takeWhile (p : UInt8 → Bool) :
    ∀ t : Text, t.drop (t.takeWhile p).length = t.dropWhile p
  | [] => rfl
  | c :: t => by
    rw [takeWhile_cons, dropWhile_cons]
    split_ifs
    · rw [length_cons, drop_succ_cons, drop_length_takeWhile p t]
    · rfl

/-- The action of `Feed` that does the same as an action of the batch splitter. -/
def Action.toStream (a : Action) : StreamAction :=
  ⟨match a.effect with
    | .keep => .keep
    | .push => .push
    | .keepPush => .keepPush, a.mode, a.block, a.extra⟩

section Step

variable {dbType : Text} {f : FeedState} {b : Splitter} {c : UInt8} {t : Text} {a : StreamAction}

theorem InStep.semicolonAction (h : InStep f b) (k : ℕ) :
    f.core.semicolonAction k = (b.delimiter k).toStream := by
  unfold StreamSplitter.semicolonAction Splitter.delimiter
  rw [h.preserve, h.mode, h.block]
  simp only [Bool.false_eq_true, if_false]
  split_ifs <;> rfl

theorem InStep.currentLineBlank (h : InStep f b) :
    f.core.currentLineBlank = lineBlank b.cur.reverse := by
  rw [StreamSplitter.currentLineBlank, h.cur]

/-- `Feed` finds no slash line where the batch splitter finds none. -/
theorem InStep.slashLine_none (h : InStep f b) (hl : f.core.slashLine c t = none) :
    b.slashLine c t = none := by
  unfold slashLine at hl
  unfold Splitter.slashLine
  rw [h.block, h.cur, h.currentLineBlank] at hl
  rw [standaloneSQLSlashLineEnd]
  split_ifs with hc hb
  · -- a blank line of the text is a blank line of the statement
    rw [if_pos ⟨hc.1, hc.2, lineBlank_of_prefix h.suffix hb⟩] at hl
    rw [hl]
    rfl
  · rfl
  · rfl

theorem InStep.slashLine_some (h : InStep f b) (hs : ¬ SlashBehindDelimiter b c t) {p : Text × Bool}
    (hl : f.core.slashLine c t = some p) : b.slashLine c t = some p.1 := by
  unfold slashLine at hl
  unfold Splitter.slashLine
  rw [h.block, h.cur, h.currentLineBlank] at hl
  split_ifs at hl with h₁
  rw [if_pos ⟨h₁.1, h₁.2.1⟩, standaloneSQLSlashLineEnd]
  have hb : lineBlank b.before = true := by
    by_contra hb
    exact hs ⟨h₁.1, h₁.2.1, h₁.2.2, by simp [hl], by simpa using hb⟩
  rw [if_pos hb, hl]
  rfl

theorem InStep.word (h : InStep f b) (ha : f.core.word dbType f.before c t = some a) :
    a = (b.word dbType c t).toStream := by
  have hdel : f.core.activeDelimiter = [semicolon] := by
    simp [StreamSplitter.activeDelimiter, h.delimiter]
  simp only [StreamSplitter.word, hdel, wordTail_semicolon, drop_length_takeWhile, h.mode,
    h.block, h.cur] at ha
  split_ifs at ha
  exact (Option.some.inj ha).symm

theorem InStep.punctuation (h : InStep f b)
    (ha : f.core.punctuation dbType f.before c t = some a) :
    a = (b.punctuation dbType c t).toStream := by
  unfold StreamSplitter.punctuation at ha
  unfold Splitter.punctuation
  rw [h.before, h.mode, h.block, h.semicolonAction, h.semicolonAction] at ha
  by_cases h₁ : c = slash ∧ t = []
  · rw [if_pos h₁] at ha
    cases ha
  rw [if_neg h₁] at ha
  split_ifs at ha ⊢ <;> cases ha <;> rfl

theorem InStep.code (h : InStep f b) (hs : ¬ SlashBehindDelimiter b c t)
    (ha : f.core.code dbType f.before c t = some a) : a = (b.code dbType c t).toStream := by
  unfold StreamSplitter.code at ha
  unfold Splitter.code
  rw [h.mode, h.block] at ha
  cases hl : f.core.slashLine c t with
  | some p =>
    rw [h.slashLine_some hs hl]
    obtain ⟨lineEnd, complete⟩ := p
    rw [hl] at ha
    cases complete <;> dsimp only at ha ⊢ <;> split_ifs at ha ⊢ <;> cases ha <;> rfl
  | none =>
    rw [h.slashLine_none hl]
    rw [hl] at ha
    dsimp only at ha ⊢
    split_ifs at ha ⊢
    · cases ha
      rfl
    · cases ha
      rfl
    · exact h.punctuation ha

/-- A dialect without client directives. -/
def NoClientDirectives (dbType : Text) : Prop :=
  isSQLStreamMySQLClientDialect dbType = false ∧ isSQLServerLexical dbType = false

theorem InStep.plain (h : InStep f b) (hd : NoClientDirectives dbType) :
    f.core.plain dbType f.before c t = f.core.wordOrCode dbType f.before c t := by
  have hdel : f.core.delimiterDirective dbType (c :: t) = .no := by
    simp [delimiterDirective, hd.1]
  have hgo : f.core.goDirective dbType (c :: t) = .no := by
    simp [goDirective, hd.2]
  have hcustom : f.core.customDelimiter (c :: t) = none := by
    simp [StreamSplitter.customDelimiter, StreamSplitter.activeDelimiter, h.delimiter]
  rw [StreamSplitter.plain, hdel, hgo, hcustom]

/-- Where `Feed` decides, it decides as the batch splitter. -/
theorem InStep.action (h : InStep f b) (hd : NoClientDirectives dbType)
    (hs : b.mode.quoted dbType true c t = none → ¬ SlashBehindDelimiter b c t)
    (ha : f.core.action dbType f.before c t = some a) :
    a = (b.action dbType true c t).toStream := by
  unfold StreamSplitter.action at ha
  unfold Splitter.action
  rw [h.mode, h.block] at ha
  cases hq : b.mode.feedQuoted dbType c t with
  | wait =>
    rw [hq] at ha
    cases ha
  | take m k =>
    rw [hq] at ha
    rw [Mode.quoted_of_feedQuoted_take hq]
    exact (Option.some.inj ha).symm
  | pass =>
    have hq' := Mode.quoted_of_feedQuoted_pass hq
    rw [hq] at ha
    rw [hq']
    rw [h.plain hd, wordOrCode] at ha
    split_ifs at ha ⊢
    · exact h.word ha
    · exact h.code (hs hq') ha

/-- **One step**: where `Feed` goes on, the batch splitter takes the same step. -/
theorem InStep.step (h : InStep f b) (hd : NoClientDirectives dbType)
    (hs : b.mode.quoted dbType true c t = none → ¬ SlashBehindDelimiter b c t)
    {f' : FeedState} {t' : Text} (hst : (feeder dbType).step f c t = some (f', t')) :
    ∃ b', (splitter dbType true).step b c t = some (b', t') ∧ InStep f' b' := by
  obtain ⟨a, ha, hf⟩ := Option.map_eq_some_iff.mp hst
  obtain rfl := h.action hd hs ha
  cases hf
  refine ⟨_, rfl, ?_⟩
  obtain ⟨hbefore, hcur, hstm, hmode, hblock, hdel, hpre, hsuf⟩ := h
  have hkept : ((c :: t.take (b.action dbType true c t).extra).reverse ++ b.cur.reverse) <+:
      (c :: t.take (b.action dbType true c t).extra).reverse ++ b.before :=
    List.prefix_append_right_inj _ |>.mpr hsuf
  unfold apply Splitter.apply Action.toStream
  cases he : (b.action dbType true c t).effect with
  | keep =>
    exact ⟨by simp [hbefore], by simp [hcur], by simp [hstm], rfl, rfl, hdel, hpre,
      by simpa using hkept⟩
  | push =>
    exact ⟨by simp [hbefore], rfl, by simp [hcur, hstm], rfl, rfl, hdel, hpre, List.nil_prefix⟩
  | keepPush =>
    exact ⟨by simp [hbefore], rfl, by simp [hcur, hstm], rfl, rfl, hdel, hpre, List.nil_prefix⟩

end Step

/-! ### The end of the text -/

section Silent

variable {dbType : Text} {b : Splitter} {c : UInt8} {t : Text}

theorem silent_nil : Silent dbType b [] := by
  intro b' d u h
  rcases h.cases_head with ⟨-, h⟩ | ⟨_, _, _, _, h, -⟩ <;> cases h

theorem silent_cons (hkeep : (b.action dbType true c t).effect = .keep)
    (h : Silent dbType (b.apply dbType (b.action dbType true c t) c t)
      (t.drop (b.action dbType true c t).extra)) : Silent dbType b (c :: t) := by
  intro b' d u hreach
  rcases hreach.cases_head with ⟨rfl, hu⟩ | ⟨_, _, _, _, ht, hst, hreach⟩
  · cases hu
    exact hkeep
  · cases ht
    cases hst
    exact h b' d u hreach

theorem silent_of_invariant {P : Splitter → Text → Prop}
    (hstep : ∀ {b c t}, P b (c :: t) → (b.action dbType true c t).effect = .keep ∧
      P (b.apply dbType (b.action dbType true c t) c t)
        (t.drop (b.action dbType true c t).extra)) (h : P b t) : Silent dbType b t := by
  intro b' d u hreach
  have hP : P b' (d :: u) := by
    refine hreach.induction (P := P) ?_ h
    intro s c t s' t' hs hst
    cases hst
    exact (hstep hs).2
  exact (hstep hP).1

theorem Silent.run (h : Silent dbType b t) :
    ((splitter dbType true).run b t).1.cur = b.cur ++ t ∧
      ((splitter dbType true).run b t).1.statements = b.statements := by
  have hrun := Scanner.run_induction (M := splitter dbType true) (s := b) (t := t)
    (P := fun b' u => (splitter dbType true).Reach b t b' u ∧
      b'.cur ++ u = b.cur ++ t ∧ b'.statements = b.statements) ?_ ⟨.refl, rfl, rfl⟩
  · have hend : ((splitter dbType true).run b t).2 = [] :=
      Scanner.run_snd_eq_nil (by intro s c t h; cases h) b t
    rw [hend, append_nil] at hrun
    exact hrun.2
  · rintro b' c u b'' u' ⟨hreach, hcur, hstm⟩ hst
    refine ⟨hreach.tail hst, ?_⟩
    have hkeep := h b' c u hreach
    cases hst
    simp [Splitter.apply, hkeep, hcur, hstm]

/-- What the splitter returns when it reads a silent end of the text. -/
theorem Silent.finish (h : Silent dbType b t) :
    ((splitter dbType true).run b t).1.finish dbType =
      b.statements ++ Splitter.piece dbType (b.cur ++ t) := by
  rw [Splitter.finish, h.run.1, h.run.2]

end Silent

section Waiting

variable {dbType : Text} {m : Mode} {b : Splitter} {c : UInt8} {t : Text}

/-- Inside a comment or a quote, `Feed` waits at the last byte, or inside the dollar tag that
may close a dollar quote. -/
theorem Mode.feedQuoted_wait (h : m.feedQuoted dbType c t = .wait) : c ≠ slash ∧
    ((t = [] ∧ (m.quoted dbType true c t).isSome = true) ∨
      m.inLineComment = false ∧ m.inBlockComment = false ∧
        ¬ (supportsSQLBracketIdentifier dbType = true ∧ m.inBracket = true) ∧
        (c :: t).length < m.dollarTag.length) := by
  unfold feedQuoted at h
  cases hc : m.feedComment dbType c t with
  | wait =>
    simp only [feedComment] at hc
    split_ifs at hc with h₁ h₂ h₃ h₄ h₅ h₆ h₇ h₈ h₉ h₁₀ h₁₁
    · exact ⟨by rw [h₃.1]; decide, .inl ⟨h₃.2, by simp [quoted, comment, h₁, h₂, h₃]⟩⟩
    · exact ⟨by rw [h₆]; decide, .inl ⟨h₈.2, by simp [quoted, comment, h₁, h₂, h₅, h₆, h₈]⟩⟩
    · exact ⟨by rw [h₁₁.1]; decide, .inr ⟨by simpa using h₁, by simpa using h₂, h₅, h₁₁.2.1⟩⟩
  | take m' k => simp [hc] at h
  | pass =>
    simp only [hc, feedLiteral] at h
    split_ifs at h with h₁ h₂ h₃ h₄
    refine ⟨by rw [h₃.2.2]; decide, .inl ⟨h₄.2, ?_⟩⟩
    rw [quoted, comment_of_feedComment_pass hc]
    simp only [literal, h₁, h₃, h₄]
    split_ifs <;> first | rfl | contradiction

theorem silent_of_quoted (ht : t = []) (hq : (b.mode.quoted dbType true c t).isSome = true) :
    Silent dbType b (c :: t) := by
  subst ht
  refine silent_cons ?_ (by simpa using silent_nil)
  obtain ⟨p, hp⟩ := Option.isSome_iff_exists.mp hq
  simp [Splitter.action, hp]

theorem silent_of_dollarTag {u : Text} (hl : b.mode.inLineComment = false)
    (hb : b.mode.inBlockComment = false)
    (hbr : ¬ (supportsSQLBracketIdentifier dbType = true ∧ b.mode.inBracket = true))
    (hlen : u.length < b.mode.dollarTag.length) : Silent dbType b u := by
  set m := b.mode with hm
  refine silent_of_invariant (P := fun b u => b.mode = m ∧ u.length < m.dollarTag.length) ?_
    ⟨hm.symm, hlen⟩
  rintro b' c u ⟨hmode, hu⟩
  have hne : m.dollarTag ≠ [] := by
    intro h
    simp [h] at hu
  have hprefix : ¬ m.dollarTag <+: c :: u := fun h => by
    have := h.length_le
    omega
  have hq : b'.mode.quoted dbType true c u = some (m, 0) := by
    simp [hmode, Mode.quoted, Mode.comment, hl, hb, hbr, hne, hprefix]
  have ha : b'.action dbType true c u = ⟨.keep, m, b'.block, 0⟩ := by
    simp [Splitter.action, hq]
  rw [length_cons] at hu
  exact ⟨by rw [ha], by rw [ha]; rfl, by rw [ha, drop_zero]; omega⟩

theorem silent_of_feedQuoted_wait (h : b.mode.feedQuoted dbType c t = .wait) :
    Silent dbType b (c :: t) := by
  rcases (Mode.feedQuoted_wait h).2 with ⟨ht, hq⟩ | ⟨hl, hb, hbr, hlen⟩
  · exact silent_of_quoted ht hq
  · exact silent_of_dollarTag hl hb hbr hlen

theorem Mode.InCode.quoted_none_of_keywordByte (h : m.InCode dbType)
    (hc : isSQLKeywordByte c = true) : m.quoted dbType true c t = none := by
  refine h.quoted_none fun hmem => ?_
  have hall : ([singleQuote, doubleQuote, backtick, leftBracket] : Text).all
      (fun d => !isSQLKeywordByte d) = true := by decide
  have hnot := all_eq_true.mp hall c hmem
  rw [hc] at hnot
  cases hnot

theorem Splitter.code_of_digit (hd : isDigit c = true) :
    b.code dbType c t = ⟨.keep, b.mode, b.block, 0⟩ := by
  have hne : c ≠ dash ∧ c ≠ hash ∧ c ≠ slash ∧ c ≠ dollar ∧ c ≠ semicolon ∧ c ≠ 0xEF := by
    refine ⟨?_, ?_, ?_, ?_, ?_, ?_⟩ <;> (rintro rfl; revert hd; decide)
  have hline : b.slashLine c t = none := by simp [slashLine, hne]
  simp only [code, hline, punctuation, hne, fullWidthSemicolon_isPrefixOf_of_ne hne.2.2.2.2.2]
  simp

theorem silent_of_keywordBytes {u : Text} (hm : b.mode.InCode dbType)
    (hu : u.all isSQLKeywordByte = true) : Silent dbType b u := by
  refine silent_of_invariant
    (P := fun b u => b.mode.InCode dbType ∧ u.all isSQLKeywordByte = true) ?_ ⟨hm, hu⟩
  rintro b' d u ⟨hm, hu⟩
  rw [all_cons, Bool.and_eq_true] at hu
  have hall : ∀ k, (u.drop k).all isSQLKeywordByte = true := fun k =>
    all_eq_true.mpr fun x hx => all_eq_true.mp hu.2 x (mem_of_mem_drop hx)
  unfold Splitter.action
  rw [hm.quoted_none_of_keywordByte hu.1]
  split_ifs with hs
  · exact ⟨rfl, hm, hall _⟩
  · have hdigit : isDigit d = true := by simpa [isSQLKeywordByte, hs] using hu.1
    rw [Splitter.code_of_digit hdigit]
    exact ⟨rfl, hm, hall 0⟩

/-- A byte that ends the text, or starts a silent end of it, and is kept by the action on
code. -/
theorem silent_of_code (hm : b.mode.InCode dbType)
    (hc : c ∈ ([dash, slash, dollar] : Text))
    (hkeep : b.code dbType c t = ⟨.keep, b.mode, b.block, 0⟩) (ht : t.all isSQLKeywordByte = true) : Silent dbType b (c :: t) := by
  have hall : ([dash, slash, dollar] : Text).all (fun d => !isSQLIdentifierStart d &&
      !([singleQuote, doubleQuote, backtick, leftBracket] : Text).contains d) = true := by decide
  have hcode := all_eq_true.mp hall c hc
  simp only [Bool.and_eq_true, Bool.not_eq_true', contains_iff_mem, ← Bool.not_eq_true]
    at hcode
  have ha : b.action dbType true c t = ⟨.keep, b.mode, b.block, 0⟩ := by
    rw [Splitter.action, hm.quoted_none hcode.2]
    simp [hcode.1, hkeep]
  refine silent_cons (by rw [ha]) ?_
  rw [ha]
  exact silent_of_keywordBytes hm ht

end Waiting

section Stuck

variable {dbType : Text} {f : FeedState} {b : Splitter} {c : UInt8} {t : Text}

/-- `Feed` leaves a word pending that ends the text, or a keyword. -/
theorem InStep.word_stuck (h : InStep f b) (hm : b.mode.InCode dbType)
    (hund : Undecided c t → Silent dbType b (c :: t)) (hs : isSQLIdentifierStart c = true)
    (ha : f.core.word dbType f.before c t = none) : Silent dbType b (c :: t) := by
  have hdel : f.core.activeDelimiter = [semicolon] := by
    simp [StreamSplitter.activeDelimiter, h.delimiter]
  simp only [StreamSplitter.word, hdel, wordTail_semicolon, drop_length_takeWhile] at ha
  split_ifs at ha with hprefix hkeyword
  · have hrest : t.dropWhile isSQLIdentifierPart = [] := by
      unfold shouldDeferPLSQLKeywordPrefixInStream at hprefix
      by_contra hrest
      rw [if_pos hrest] at hprefix
      cases hprefix
    have hact : b.action dbType true c t = b.word dbType c t := by
      rw [Splitter.action, hm.quoted_none_of_keywordByte (isSQLKeywordByte_of_start hs)]
      simp [hs]
    refine silent_cons (by rw [hact]; rfl) ?_
    have hdrop : t.drop (b.word dbType c t).extra = [] :=
      (drop_length_takeWhile _ t).trans hrest
    rw [hact, hdrop]
    exact silent_nil
  · exact hund (.inl ⟨hs, hkeyword⟩)

theorem Splitter.punctuation_of_ne (h₁ : ¬ (c = slash ∧ t.head? = some star))
    (h₂ : ¬ (c = dollar ∧ supportsSQLDollarQuote dbType = true ∧
      parseSQLDollarTagAt b.before t ≠ [])) (h₃ : c ≠ semicolon) (h₄ : c ≠ 0xEF) :
    b.punctuation dbType c t = ⟨.keep, b.mode, b.block, 0⟩ := by
  simp [punctuation, h₁, h₂, h₃, fullWidthSemicolon_isPrefixOf_of_ne h₄]

theorem InStep.punctuation_stuck (h : InStep f b) (hm : b.mode.InCode dbType)
    (hl : b.slashLine c t = none) (hdash : c ≠ dash)
    (hhash : ¬ (c = hash ∧ supportsSQLHashLineComment dbType = true))
    (hund : Undecided c t → Silent dbType b (c :: t))
    (ha : f.core.punctuation dbType f.before c t = none) : Silent dbType b (c :: t) := by
  have hcode : b.code dbType c t = b.punctuation dbType c t := by
    simp [Splitter.code, hl, hdash, hhash]
  unfold StreamSplitter.punctuation at ha
  split_ifs at ha with h₁ h₂ h₃ h₄ h₅ h₆
  · obtain ⟨rfl, rfl⟩ := h₁
    refine silent_of_code hm (by decide) (hcode.trans ?_) rfl
    exact Splitter.punctuation_of_ne (by simp) (by simp [slash, dollar]) (by decide) (by decide)
  · obtain ⟨rfl, hd, htag⟩ := h₄
    rw [isIncompleteSQLDollarTagAt, Bool.and_eq_true] at htag
    refine silent_of_code hm (by decide) (hcode.trans ?_) htag.2
    exact Splitter.punctuation_of_ne (by simp [slash, dollar]) (h.before ▸ h₃) (by decide)
      (by decide)
  · exact hund (.inr h₆)

/-- `Feed` leaves other bytes of code pending: a slash line, or a silent end of the text. -/
theorem InStep.code_stuck (h : InStep f b) (hm : b.mode.InCode dbType)
    (hs : isSQLIdentifierStart c = false) (hund : Undecided c t → Silent dbType b (c :: t))
    (ha : f.core.code dbType f.before c t = none) :
    (∃ e, f.core.slashLine c t = some (e, false)) ∨
      f.core.slashLine c t = none ∧ Silent dbType b (c :: t) := by
  have hslash : c = dash → f.core.slashLine c t = none ∧ b.slashLine c t = none := by
    rintro rfl
    constructor
    · exact if_neg fun h => absurd h.1 (by decide)
    · exact if_neg fun h => absurd h.1 (by decide)
  unfold StreamSplitter.code at ha
  dsimp only at ha
  split_ifs at ha with h₁ h₂ h₃ h₄
  · -- a single dash
    obtain ⟨rfl, rfl⟩ := h₁
    obtain ⟨hf, hb⟩ := hslash rfl
    refine .inr ⟨hf, silent_of_code hm (by decide) ?_ rfl⟩
    have hpunct : b.punctuation dbType dash [] = ⟨.keep, b.mode, b.block, 0⟩ :=
      Splitter.punctuation_of_ne (by simp) (by simp [dash, dollar]) (by decide) (by decide)
    simp [Splitter.code, hb, hpunct, dash, hash]
  · -- two dashes, where MySQL wants to see a third byte
    obtain ⟨rfl, hnext, hmysql, htail⟩ := h₂
    obtain rfl : t = [dash] := by
      cases t with
      | nil => cases hnext
      | cons d u =>
        cases hnext
        obtain rfl : u = [] := htail
        rfl
    have hact : b.action dbType true dash [dash] =
        ⟨.keep, { b.mode with inLineComment := true }, b.block, 0⟩ := by
      rw [Splitter.action, hm.quoted_none (by decide)]
      simp [Splitter.code, isSQLDashLineCommentStart, isMySQLDashCommentStart, hs]
    refine .inr ⟨(hslash rfl).1, silent_cons (by rw [hact]) ?_⟩
    rw [hact]
    exact silent_of_quoted rfl (by simp [Splitter.apply, Mode.quoted, Mode.comment])
  · cases hl : f.core.slashLine c t with
    | some p =>
      obtain ⟨e, complete⟩ := p
      cases complete with
      | false => exact .inl ⟨e, rfl⟩
      | true =>
        rw [hl] at ha
        cases ha
    | none =>
      rw [hl] at ha
      by_cases hdash : c = dash
      · -- a dash that starts no comment is decided
        subst hdash
        simp [StreamSplitter.punctuation, dash, slash, dollar, semicolon] at ha
      · exact .inr ⟨rfl, h.punctuation_stuck hm (h.slashLine_none hl) hdash h₄ hund ha⟩

end Stuck

/-! ### Agreement -/

section Agreement

variable {dbType : Text} {f : FeedState} {b : Splitter} {c : UInt8} {t : Text}

theorem normalizeLineEnds_eq : ∀ {text : Text}, (0x0D : UInt8) ∉ text → normalizeLineEnds text = text
  | [], _ => rfl
  | [_], _ => rfl
  | c :: d :: t, h => by
    rw [mem_cons, not_or] at h
    rw [normalizeLineEnds, if_neg fun hc => h.1 hc.1.symm, normalizeLineEnds_eq h.2]

/-- Without client directives and batches, `flushStatements` completes a slash line or the
statement. -/
theorem flushStatements_eq {s : StreamSplitter} (hd : NoClientDirectives dbType)
    (hs : s.preserveSQLServerBatch = false) :
    s.flushStatements dbType = if s.flushSlashLine then Splitter.piece dbType s.cur
      else (Splitter.piece dbType (s.cur ++ s.pending)).filter (· ≠ [slash]) := by
  have hcur : ∀ r : StreamSplitter, r.preserveSQLServerBatch = false →
      r.flushCur dbType = (Splitter.piece dbType r.cur).filter (· ≠ [slash]) := by
    intro r hr
    simp [flushCur, hr]
  by_cases hp : s.pending = []
  · have hline : s.flushSlashLine = false := by rw [flushSlashLine, hp]
    rw [flushStatements, if_pos hp, hcur s hs, hp, append_nil, hline,
      if_neg (by decide)]
  · rw [flushStatements, if_neg hp]
    simp only [hd.1, hd.2, Bool.false_eq_true, false_and, if_false]
    rw [hcur { s with cur := s.cur ++ s.pending, pending := [] } hs]

theorem piece_filter {u : Text} (h : trimSpace u ≠ [slash]) :
    (Splitter.piece dbType u).filter (· ≠ [slash]) = Splitter.piece dbType u := by
  unfold Splitter.piece
  dsimp only
  split_ifs
  · simp [h]
  · rfl

/-- The batch splitter, in front of a slash line that ends the text. -/
theorem finish_of_slashLine (hm : b.mode.InCode dbType) (hl : b.slashLine c t = some []) :
    ((splitter dbType true).run b (c :: t)).1.finish dbType =
      b.statements ++ Splitter.piece dbType b.cur := by
  obtain ⟨rfl, -⟩ := Splitter.slashLine_eq_some hl
  have hcode : b.code dbType slash t =
      ⟨.push, b.mode, { b.block with justClosedPLSQLBlock := false }, t.length⟩ := by
    have h₁ : ¬ (slash = dash ∧ t.head? = some dash ∧
        isSQLDashLineCommentStart dbType t.tail = true) := fun h => absurd h.1 (by decide)
    have h₂ : ¬ (slash = hash ∧ supportsSQLHashLineComment dbType = true) :=
      fun h => absurd h.1 (by decide)
    simp only [Splitter.code, hl, if_neg h₁, if_neg h₂]
    rfl
  have ha : b.action dbType true slash t =
      ⟨.push, b.mode, { b.block with justClosedPLSQLBlock := false }, t.length⟩ := by
    rw [Splitter.action, hm.quoted_none (by decide)]
    exact hcode
  rw [Scanner.run_step (M := splitter dbType true) rfl, ha, drop_length, Scanner.run_nil]
  have hnil : Splitter.piece dbType [] = [] := rfl
  simp [Splitter.finish, Splitter.apply, hnil]

/-- In code, `Feed` stops at a slash line that ends the text, or at a silent end of it. -/
theorem InStep.stuck (h : InStep f b) (hd : NoClientDirectives dbType)
    (hslash : b.mode.quoted dbType true c t = none → ¬ SlashBehindDelimiter b c t)
    (hund : b.mode.quoted dbType true c t = none → Undecided c t → Silent dbType b (c :: t))
    (ha : f.core.action dbType f.before c t = none) :
    (b.mode.InCode dbType ∧ b.slashLine c t = some [] ∧ (f.core.slashLine c t).isSome = true) ∨
      f.core.slashLine c t = none ∧ Silent dbType b (c :: t) := by
  have hne : c ≠ slash → f.core.slashLine c t = none := fun hc => if_neg fun h => hc h.1
  unfold StreamSplitter.action at ha
  rw [h.mode] at ha
  cases hq : b.mode.feedQuoted dbType c t with
  | wait => exact .inr ⟨hne (Mode.feedQuoted_wait hq).1, silent_of_feedQuoted_wait hq⟩
  | take m k =>
    rw [hq] at ha
    cases ha
  | pass =>
    have hq' := Mode.quoted_of_feedQuoted_pass hq
    have hm := Mode.inCode_of_quoted_none hq'
    rw [hq] at ha
    rw [h.plain hd, wordOrCode] at ha
    split_ifs at ha with hs
    · have hc : c ≠ slash := by
        rintro rfl
        revert hs
        decide
      exact .inr ⟨hne hc, h.word_stuck hm (hund hq') hs ha⟩
    · rcases h.code_stuck hm (by simpa using hs) (hund hq') ha with ⟨e, he⟩ | hsilent
      · refine .inl ⟨hm, ?_, by simp [he]⟩
        have hnil : e = [] := by
          unfold slashLine at he
          split_ifs at he
          exact slashLineSuffix_incomplete he
        rw [h.slashLine_some (hslash hq') he, hnil]
      · exact .inr hsilent

/-- **The stream splitter agrees with the batch splitter** where none of the differences
occurs: for a dialect without client directives and a text without carriage returns, one `Feed`
of the text and a flush return the statements of the batch splitter. -/
theorem streamStatements_eq_split (text : Text) (hd : NoClientDirectives dbType)
    (hes : isElasticsearch dbType = false) (hcr : (0x0D : UInt8) ∉ text)
    (hagree : StreamAgrees dbType text) :
    streamStatements dbType false [text] = splitSQLStatementsForDialect dbType text := by
  have hsplit : splitSQLStatementsForDialect dbType text =
      (splitText dbType true text).finish dbType := by
    simp [splitSQLStatementsForDialect, splitSQLStatementsForDialectMode, hes,
      normalizeLineEnds_eq hcr]
  have hrun := Scanner.run_reach (M := feeder dbType) ⟨.initial false, [], []⟩ text
  have hstuck := @Scanner.run_stuck _ _ (feeder dbType) ⟨.initial false, [], []⟩ text
  -- what the loop of `Feed` has read, the batch splitter has read in the same way
  obtain ⟨b, ⟨hreach, hstep⟩⟩ := hrun.simulate (N := splitter dbType true)
    (R := fun f b t => InStep f b ∧ (splitter dbType true).Reach .initial text b t)
    (fun {_ b c t _ _} h hst => by
      obtain ⟨b', hb', hin⟩ := h.1.step hd (hagree.slash b c t h.2) hst
      exact ⟨b', hb', hin, h.2.tail hb'⟩) ⟨inStep_initial, .refl⟩
  obtain ⟨hin, -⟩ := hstep
  have hfeed : streamStatements dbType false [text] =
      ((feeder dbType).run ⟨.initial false, [], []⟩ text).1.statements ++
      flushStatements dbType
        { ((feeder dbType).run ⟨.initial false, [], []⟩ text).1.core with
          pending := ((feeder dbType).run ⟨.initial false, [], []⟩ text).2 } := by
    simp [streamStatements, feedAll, feed, initial]
  rw [hfeed, hsplit, splitText, hreach.run_eq]
  have hlast := hagree.last
  rw [splitText, hreach.run_eq] at hlast
  generalize (feeder dbType).run ⟨.initial false, [], []⟩ text = p at *
  obtain ⟨f, pending⟩ := p
  dsimp only at *
  rw [flushStatements_eq (s := { f.core with pending := pending }) hd hin.preserve,
    hin.statements]
  cases pending with
  | nil =>
    rw [Scanner.run_nil] at hlast ⊢
    rw [if_neg (by simp [flushSlashLine])]
    simp only [append_nil, hin.cur]
    rw [piece_filter hlast]
    rfl
  | cons c t =>
    have ha : f.core.action dbType f.before c t = none := by
      simpa [feeder] using hstuck rfl
    have hline : ({ f.core with pending := c :: t } : StreamSplitter).flushSlashLine =
        (f.core.slashLine c t).isSome := rfl
    rw [hline]
    rcases hin.stuck hd (hagree.slash b c t hreach) (hagree.undecided b c t hreach) ha with
      ⟨hm, hl, hsome⟩ | ⟨hnone, hsilent⟩
    · rw [if_pos hsome, finish_of_slashLine hm hl]
      simp only [hin.cur]
    · rw [hsilent.run.1] at hlast
      rw [hsilent.finish, hnone, if_neg (by simp)]
      simp only [hin.cur]
      rw [piece_filter hlast]

/-- A text without slashes in which `Feed` is never undecided. -/
theorem streamAgrees_of_not_mem {text : Text} (hslash : Sql.slash ∉ text)
    (hund : ∀ c t, c :: t ∈ text.tails → ¬ Undecided c t) : StreamAgrees dbType text where
  slash b c t hreach _ h :=
    hslash (h.1 ▸ hreach.suffix.subset mem_cons_self)
  undecided b c t hreach _ h := absurd h (hund c t ((mem_tails _ _).mpr hreach.suffix))
  last h := by
    have hcur : ∀ x ∈ (splitText dbType true text).cur, x ∈ text := by
      refine Scanner.run_induction (M := splitter dbType true)
        (P := fun b u => (∀ x ∈ b.cur, x ∈ text) ∧ u <:+ text) ?_
        ⟨forall_mem_nil _, suffix_refl _⟩ |>.1
      rintro b c u b' u' ⟨hb, hu⟩ hst
      have htaken : ∀ x ∈ c :: u.take (b.action dbType true c u).extra, x ∈ text := fun x hx =>
        hu.subset (cons_subset_cons _ (take_subset _ _) hx)
      refine ⟨?_, (((splitter dbType true).step_suffix hst).trans (suffix_cons _ _)).trans hu⟩
      cases hst
      unfold Splitter.apply
      cases (b.action dbType true c u).effect with
      | keep => exact fun x hx => (mem_append.mp hx).elim (hb x) (htaken x)
      | push => exact forall_mem_nil _
      | keepPush => exact forall_mem_nil _
    obtain ⟨v, w, -, -, hv⟩ := trimSpace_spec (splitText dbType true text).cur
    refine hslash (hcur _ ?_)
    rw [hv, h]
    simp

end Agreement

/-- Two statements on one line, in both splitters. -/
theorem streamStatements_eq_split_selects :
    streamStatements (bytes "postgres") false [bytes "select 1; select 2"] =
      splitSQLStatementsForDialect (bytes "postgres") (bytes "select 1; select 2") := by
  refine streamStatements_eq_split _ ⟨by decide, by decide⟩ (by decide) (by decide)
    (streamAgrees_of_not_mem (by decide) ?_)
  have hall : ∀ u ∈ (bytes "select 1; select 2").tails, u.all (· ≠ 0xEF) = true ∧
      (isSQLIdentifierStart (u.headD 0) = true → shouldDeferPLSQLKeywordInStream
        (toLower (u.headD 0 :: u.tail.takeWhile isSQLIdentifierPart))
        (u.tail.dropWhile isSQLIdentifierPart) = false) := by decide
  rintro c t hmem (⟨hs, hdefer⟩ | ⟨rfl, -⟩)
  · exact absurd hdefer (by simpa using (hall _ hmem).2 hs)
  · simpa using (hall _ hmem).1

/-- A slash behind a delimiter on its line. -/
theorem streamStatements_slashBehindDelimiter :
    ¬ ∀ dbType text : Text, NoClientDirectives dbType → isElasticsearch dbType = false →
      (0x0D : UInt8) ∉ text →
      streamStatements dbType false [text] = splitSQLStatementsForDialect dbType text := by
  intro h
  have := h (bytes "postgres") (bytes "select 1; /") ⟨by decide, by decide⟩ (by decide) (by decide)
  revert this
  decide

end GoNavi.Sql
