import GoNavi.Sql.StreamStep

/-! # Feeding a text in chunks

What `Feed` and a flush return should not depend on where a text is cut into chunks, as long as no
cut matters (`CutsHarmless`).  While a chunk is read, the run on the whole text stands at the same
place in the same state, or ahead of it at the end of the word that the chunk has cut (`Follows`).
A step on such a word keeps that (`Follows.step_cut`, `Follows.step_part`).

A cut matters at a seam of `StreamStep`, or where a part of a word that it cuts off, or the whole
word, changes the nesting of blocks. -/

namespace GoNavi.Sql

open Scan List StreamSplitter Option

/-! ### Inside a word -/

section InWord

variable {dbType : Text} {m : Mode} {s : StreamSplitter} {before t u r : Text} {c : UInt8}

theorem Mode.inCode_of_feedQuoted_pass (h : m.feedQuoted dbType c t = .pass) :
    m.InCode dbType :=
  inCode_of_quoted_none (quoted_of_feedQuoted_pass h)

theorem not_part_of_horizontalWhitespace (h : isSQLHorizontalWhitespace c = true) :
    isSQLIdentifierPart c = false := by
  simp only [isSQLHorizontalWhitespace, Bool.or_eq_true, beq_iff_eq] at h
  rcases h with ((rfl | rfl) | rfl) | rfl <;> decide

theorem not_quote_of_part (h : isSQLIdentifierPart c = true) :
    c ∉ ([singleQuote, doubleQuote, backtick, leftBracket] : Text) ∧ c ≠ newline ∧ c ≠ dash ∧
      c ≠ slash ∧ c ≠ semicolon ∧ c ≠ 0xEF := by
  refine ⟨fun hm => ?_, ?_, ?_, ?_, ?_, ?_⟩
  · simp only [mem_cons, not_mem_nil, or_false] at hm
    rcases hm with rfl | rfl | rfl | rfl <;> revert h <;> decide
  all_goals rintro rfl; revert h; decide

/-- The statement under construction ends in a byte of a word, in code. -/
structure StreamSplitter.InWord (dbType : Text) (s : StreamSplitter) : Prop where
  mode : s.mode.InCode dbType
  last : ∃ v x, s.cur = v ++ [x] ∧ isSQLIdentifierPart x = true

namespace StreamSplitter.InWord

theorem currentLineBlank (h : s.InWord dbType) : s.currentLineBlank = false := by
  obtain ⟨v, x, hcur, hx⟩ := h.last
  have hne := (not_quote_of_part hx).2.1
  have hblank : isSQLHorizontalWhitespace x = false := by
    by_contra hb
    rw [not_part_of_horizontalWhitespace (by simpa using hb)] at hx
    cases hx
  rw [StreamSplitter.currentLineBlank, hcur, reverse_append, lineBlank]
  simp [hne, hblank]

theorem delimiterDirective (h : s.InWord dbType) : s.delimiterDirective dbType u = .no := by
  simp [StreamSplitter.delimiterDirective, canConsumeClientDirective, h.currentLineBlank]

theorem goDirective (h : s.InWord dbType) : s.goDirective dbType u = .no := by
  simp [StreamSplitter.goDirective, h.currentLineBlank]

theorem action_eq (h : s.InWord dbType) (hc : isSQLIdentifierPart c = true) :
    s.action dbType before c t =
      match s.customDelimiter (c :: t) with
      | some true => some ⟨.push, s.mode, { s.block with justClosedPLSQLBlock := false },
          s.activeDelimiter.length - 1⟩
      | some false => none
      | none => s.wordOrCode dbType before c t := by
  have hd : s.delimiterDirective dbType (c :: t) = .no := h.delimiterDirective
  have hg : s.goDirective dbType (c :: t) = .no := h.goDirective
  have hpass : s.mode.feedQuoted dbType c t = .pass :=
    h.mode.feedQuoted_pass (not_quote_of_part hc).1
  cases hcustom : s.customDelimiter (c :: t) with
  | none => simp only [action, hpass, plain, hd, hg, hcustom]
  | some complete => cases complete <;> simp only [action, hpass, plain, hd, hg, hcustom]

/-- A byte of a word, as the first of a statement under construction or behind others. -/
theorem of_append {v : Text} (hm : s.mode.InCode dbType) (hv : v ≠ [])
    (hpart : ∀ x ∈ v, isSQLIdentifierPart x = true) (hcur : s.cur = u ++ v) : s.InWord dbType := by
  refine ⟨hm, u ++ v.dropLast, v.getLast hv, ?_, hpart _ (getLast_mem hv)⟩
  rw [hcur, append_assoc, dropLast_append_getLast]

end StreamSplitter.InWord

/-- A byte of a word that starts no word, no comment and no dollar tag is kept. -/
theorem StreamSplitter.code_part (hc : isSQLIdentifierPart c = true)
    (hhash : c = hash → supportsSQLHashLineComment dbType = false)
    (hdollar : c = dollar → supportsSQLDollarQuote dbType = true →
      parseSQLDollarTagAt before t = [] ∧ isIncompleteSQLDollarTagAt before t = false) :
    s.code dbType before c t = some ⟨.keep, s.mode, s.block, 0⟩ := by
  obtain ⟨-, -, hdash, hslash, hsemi, hef⟩ := not_quote_of_part hc
  have hh : ¬ (c = hash ∧ supportsSQLHashLineComment dbType = true) := fun h => by
    rw [hhash h.1] at h
    cases h.2
  have hline : s.slashLine c t = none := if_neg fun h => hslash h.1
  have h₁ : ¬ (c = dollar ∧ supportsSQLDollarQuote dbType = true ∧
      parseSQLDollarTagAt before t ≠ []) := fun h => h.2.2 (hdollar h.1 h.2.1).1
  have h₂ : ¬ (c = dollar ∧ supportsSQLDollarQuote dbType = true ∧
      isIncompleteSQLDollarTagAt before t = true) := fun h => by
    rw [(hdollar h.1 h.2.1).2] at h
    cases h.2.2
  simp only [code, punctuation, hdash, hslash, hsemi, hef, hh, hline, h₁, h₂,
    fullWidthSemicolon_isPrefixOf_of_ne hef, false_and, if_false, Bool.false_eq_true]

end InWord

/-! ### Cuts that do not matter -/

section Cuts

/-- The word that `Feed` reads in front of `c` and `t` leaves the nesting as every word does that
is no keyword. -/
def PlainWord (dbType : Text) (s : StreamSplitter) (c : UInt8) (t : Text) : Prop :=
  let tail := wordTail s.activeDelimiter t
  s.block.word dbType s.cur (toLower (c :: tail)) (t.drop tail.length) =
    { s.block with skipNextPLSQLCaseEndToken := false }

/-- The step of `Feed` in front of `c` and `t` is not changed by the cuts around it.  The text
`older` stands in front of the text of this call, last byte first, and `later` behind it; `cut`
bytes are still to be read of a word that a chunk has cut. -/
structure StepHarmless (dbType older later : Text) (f : FeedState) (cut : ℕ) (c : UInt8)
    (t : Text) : Prop where
  dollar : ¬ DollarSeam dbType f.before older c t
  /-- The chunk holds the whole word. -/
  keyword : cut = 0 → f.core.AtCode dbType c t → isSQLIdentifierStart c = true →
    wordTail f.core.activeDelimiter (t ++ later) = wordTail f.core.activeDelimiter t →
    ¬ KeywordSeam dbType f.core c t later
  /-- The chunk cuts the word. -/
  word : cut = 0 → f.core.AtCode dbType c t → isSQLIdentifierStart c = true →
    wordTail f.core.activeDelimiter (t ++ later) ≠ wordTail f.core.activeDelimiter t →
    PlainWord dbType f.core c t ∧ PlainWord dbType f.core c (t ++ later) ∧
      (f.core.word dbType (f.before ++ older) c (t ++ later)).isSome = true
  /-- A chunk before has cut the word. -/
  part : cut ≠ 0 → isSQLIdentifierStart c = true → PlainWord dbType f.core c t
  hash : cut ≠ 0 → c = Sql.hash → supportsSQLHashLineComment dbType = false

instance (dbType : Text) (s : StreamSplitter) (c : UInt8) (t : Text) :
    Decidable (PlainWord dbType s c t) :=
  inferInstanceAs (Decidable ((_ : Block) = _))

set_option synthInstance.maxSize 512 in
instance (dbType older later : Text) (f : FeedState) (cut : ℕ) (c : UInt8) (t : Text) :
    Decidable (StepHarmless dbType older later f cut c t) :=
  decidable_of_iff
    (¬ DollarSeam dbType f.before older c t ∧
      (cut = 0 → f.core.AtCode dbType c t → isSQLIdentifierStart c = true →
        wordTail f.core.activeDelimiter (t ++ later) = wordTail f.core.activeDelimiter t →
        ¬ KeywordSeam dbType f.core c t later) ∧
      (cut = 0 → f.core.AtCode dbType c t → isSQLIdentifierStart c = true →
        wordTail f.core.activeDelimiter (t ++ later) ≠ wordTail f.core.activeDelimiter t →
        PlainWord dbType f.core c t ∧ PlainWord dbType f.core c (t ++ later) ∧
          (f.core.word dbType (f.before ++ older) c (t ++ later)).isSome = true) ∧
      (cut ≠ 0 → isSQLIdentifierStart c = true → PlainWord dbType f.core c t) ∧
      (cut ≠ 0 → c = Sql.hash → supportsSQLHashLineComment dbType = false))
    ⟨fun ⟨h₁, h₂, h₃, h₄, h₅⟩ => ⟨h₁, h₂, h₃, h₄, h₅⟩,
      fun ⟨h₁, h₂, h₃, h₄, h₅⟩ => ⟨h₁, h₂, h₃, h₄, h₅⟩⟩

/-- How many bytes of the word in front of `c` and `t` the end of the chunk cuts off. -/
def cutOff (dbType later : Text) (s : StreamSplitter) (c : UInt8) (t : Text) : ℕ :=
  if s.AtCode dbType c t ∧ isSQLIdentifierStart c = true then
    (wordTail s.activeDelimiter (t ++ later)).length - (wordTail s.activeDelimiter t).length
  else 0

/-- The loop of `Feed`, which counts what is still to be read of a word that a chunk has cut. -/
def cutFeeder (dbType later : Text) : Scanner UInt8 (FeedState × ℕ) where
  step s c t :=
    ((feeder dbType).step s.1 c t).map fun p =>
      ((p.1, if s.2 = 0 then cutOff dbType later s.1.core c t
        else s.2 - ((c :: t).length - p.2.length)), p.2)
  step_suffix := by
    intro s c t s' t' h
    obtain ⟨p, hp, h⟩ := map_eq_some_iff.mp h
    cases h
    exact (feeder dbType).step_suffix hp

/-- No cut between the chunks matters.  The splitter `s` comes with the text `older` in front of
its pending bytes, last byte first, and with the number of bytes still to be read of a word that
a chunk has cut. -/
def CutsHarmless (dbType : Text) : StreamSplitter → Text → ℕ → List Text → Prop
  | s, _, cut, [] => cut = 0 ∨ s.pending.length ≤ cut
  | s, older, cut, chunk :: chunks =>
    let later := chunks.flatten
    let start : FeedState := ⟨{ s with pending := [] }, [], []⟩
    let p := (cutFeeder dbType later).run (start, cut) (s.pending ++ chunk)
    (∀ q c t, (cutFeeder dbType later).Reach (start, cut) (s.pending ++ chunk) q (c :: t) →
      StepHarmless dbType older later q.1 q.2 c t) ∧
    CutsHarmless dbType { p.1.1.core with pending := p.2 } (p.1.1.before ++ older) p.1.2 chunks

instance decidableCutsHarmless (dbType : Text) : ∀ (s : StreamSplitter) (older : Text) (cut : ℕ)
    (chunks : List Text), Decidable (CutsHarmless dbType s older cut chunks)
  | _, _, _, [] => inferInstanceAs (Decidable (_ ∨ _))
  | s, older, cut, chunk :: chunks =>
    let start : FeedState := ⟨{ s with pending := [] }, [], []⟩
    let p := (cutFeeder dbType chunks.flatten).run (start, cut) (s.pending ++ chunk)
    have := decidableCutsHarmless dbType { p.1.1.core with pending := p.2 }
      (p.1.1.before ++ older) p.1.2 chunks
    have : Decidable (∀ q c t, (cutFeeder dbType chunks.flatten).Reach (start, cut)
        (s.pending ++ chunk) q (c :: t) →
        StepHarmless dbType older chunks.flatten q.1 q.2 c t) :=
      decidable_of_iff ((cutFeeder dbType chunks.flatten).check
        (fun q c t => decide (StepHarmless dbType older chunks.flatten q.1 q.2 c t))
        (start, cut) (s.pending ++ chunk) = true)
        (Scanner.check_iff.trans (by simp only [decide_eq_true_eq]))
    inferInstanceAs (Decidable (_ ∧ _))

end Cuts

/-! ### The run on the chunks and the run on the whole text -/

/-- The run on the whole text, in the state `f'` in front of `z`, stands where the run on the
chunks will stand when it has read `v`, the end of a word that a chunk has cut.  The text `older`
was read, and the statements `done` were completed, in the calls of `Feed` before this one. -/
structure Follows (dbType : Text) (done : List Text) (older : Text) (f f' : FeedState)
    (v z : Text) : Prop where
  core : f'.core = { f.core with cur := f.core.cur ++ v }
  before : f'.before = v.reverse ++ (f.before ++ older)
  statements : f'.statements = done ++ f.statements
  pending : f.core.pending = []
  tag : f.core.mode.TagStarts
  delimiter : f.core.delimiter ≠ [] → isSQLStreamMySQLClientDialect dbType = true
  inWord : v ≠ [] → f.core.InWord dbType
  skip : v ≠ [] → f.core.block.skipNextPLSQLCaseEndToken = false
  head : v ≠ [] → (f.before ++ older).head?.any isSQLIdentifierPart = true
  /-- The word ends in front of `z`. -/
  tail : v ≠ [] → wordTail f.core.activeDelimiter (v ++ z) = v

section Follows

variable {dbType : Text} {done : List Text} {older later : Text} {f f' f₁ : FeedState}
  {v z t t₁ : Text} {c : UInt8} {a : StreamAction}

theorem feeder_step (h : f.core.action dbType f.before c t = some a) :
    (feeder dbType).step f c t = some
      (⟨(f.core.apply dbType a (c :: t.take a.extra)).1,
        (c :: t.take a.extra).reverse ++ f.before,
        f.statements ++ (f.core.apply dbType a (c :: t.take a.extra)).2⟩, t.drop a.extra) := by
  simp only [feeder, h, map_some]

/-- The state in which the run on the whole text stands, when no word is cut. -/
theorem Follows.eq (h : Follows dbType done older f f' [] z) :
    f' = ⟨f.core, f.before ++ older, done ++ f.statements⟩ := by
  obtain ⟨core, before, statements⟩ := f'
  obtain ⟨hc, hb, hs, -⟩ := h
  dsimp only at hc hb hs
  rw [append_nil] at hc
  rw [hc, hb, hs]
  rfl

/-- The action that keeps bytes of a word. -/
def keepWord (s : StreamSplitter) (k : ℕ) : StreamAction :=
  ⟨.keep, s.mode, { s.block with skipNextPLSQLCaseEndToken := false }, k⟩

/-- The state behind bytes of a word. -/
def FeedState.keepWord (f : FeedState) (w : Text) : FeedState :=
  ⟨{ f.core with
      cur := f.core.cur ++ w
      block := { f.core.block with skipNextPLSQLCaseEndToken := false } },
    w.reverse ++ f.before, f.statements⟩

theorem feeder_keepWord {k : ℕ}
    (h : f.core.action dbType f.before c t = some (Sql.keepWord f.core k)) :
    (feeder dbType).step f c t = some (f.keepWord (c :: t.take k), t.drop k) := by
  rw [feeder_step h]
  simp [Sql.keepWord, FeedState.keepWord, apply]

theorem StreamSplitter.word_eq_of_plain {s : StreamSplitter} {before : Text}
    (h : s.word dbType before c t = some a) (hplain : PlainWord dbType s c t) :
    a = Sql.keepWord s (wordTail s.activeDelimiter t).length := by
  unfold word at h
  dsimp only at h
  split_ifs at h
  unfold PlainWord at hplain
  rw [hplain] at h
  exact (some.inj h).symm

theorem head_reverse_append {w x : Text} (hw : w ≠ [])
    (hpart : ∀ y ∈ w, isSQLIdentifierPart y = true) :
    (w.reverse ++ x).head?.any isSQLIdentifierPart = true := by
  rw [head?_append_of_ne_nil _ (by simpa using hw), head?_reverse,
    getLast?_eq_some_getLast hw]
  exact hpart _ (getLast_mem hw)

theorem part_of_word (hs : isSQLIdentifierStart c = true) (delimiter : Text) :
    ∀ y ∈ c :: wordTail delimiter t, isSQLIdentifierPart y = true := by
  intro y hy
  rcases mem_cons.mp hy with rfl | hy
  · exact isSQLIdentifierPart_of_start hs
  · exact wordTail_part delimiter y hy

/-- Behind the bytes `w` of a word, the run on the whole text is ahead by the rest of it. -/
theorem follows_keepWord {w : Text} (hpending : f.core.pending = [])
    (htag : f.core.mode.TagStarts)
    (hdelimiter : f.core.delimiter ≠ [] → isSQLStreamMySQLClientDialect dbType = true)
    (hm : f.core.mode.InCode dbType) (hw : w ≠ []) (hpart : ∀ y ∈ w, isSQLIdentifierPart y = true)
    (htail : wordTail f.core.activeDelimiter (v ++ z) = v) :
    Follows dbType done older (f.keepWord w)
      ((⟨f.core, f.before ++ older, done ++ f.statements⟩ : FeedState).keepWord (w ++ v)) v z where
  core := by simp [FeedState.keepWord]
  before := by simp [FeedState.keepWord]
  statements := rfl
  pending := hpending
  tag := htag
  delimiter := hdelimiter
  inWord _ := .of_append hm hw hpart rfl
  skip _ := rfl
  head _ := by
    rw [FeedState.keepWord, append_assoc]
    exact head_reverse_append hw hpart
  tail _ := htail

/-- The step on a word that the chunk cuts: the run on the whole text reads all of it. -/
theorem Follows.step_cut (h : Follows dbType done older f f' [] z)
    (hcode : f.core.AtCode dbType c t) (hs : isSQLIdentifierStart c = true)
    (hplain : PlainWord dbType f.core c t) (hplain' : PlainWord dbType f.core c (t ++ later))
    (hword : (f.core.word dbType (f.before ++ older) c (t ++ later)).isSome = true)
    (hst : (feeder dbType).step f c t = some (f₁, t₁)) :
    ∃ f₁' v₁ z₁, (feeder dbType).step f' c (t ++ later) = some (f₁', z₁) ∧
      Follows dbType done older f₁ f₁' v₁ z₁ ∧ t₁ ++ later = v₁ ++ z₁ ∧
      v₁.length = cutOff dbType later f.core c t := by
  obtain ⟨v, hv⟩ := wordTail_append f.core.activeDelimiter (r := later) t
  have hlen := (wordTail_isPrefix f.core.activeDelimiter t).length_le
  have htake := List.prefix_iff_eq_take.mp (wordTail_isPrefix f.core.activeDelimiter t)
  have hsplit := List.prefix_iff_eq_append.mp (wordTail_isPrefix f.core.activeDelimiter (t ++ later))
  have htake' := List.prefix_iff_eq_take.mp (wordTail_isPrefix f.core.activeDelimiter (t ++ later))
  -- both runs keep the word they read and leave the nesting alone
  obtain ⟨a, ha, -⟩ := map_eq_some_iff.mp hst
  have hact := ha
  rw [hcode.action_eq, wordOrCode, if_pos hs] at hact
  obtain rfl := word_eq_of_plain hact hplain
  obtain ⟨a', hact'⟩ := isSome_iff_exists.mp hword
  obtain rfl := word_eq_of_plain hact' hplain'
  have ha' : f.core.action dbType (f.before ++ older) c (t ++ later) =
      some (Sql.keepWord f.core (wordTail f.core.activeDelimiter (t ++ later)).length) := by
    rw [(hcode.append h.tag).action_eq, wordOrCode, if_pos hs, hact']
  rw [feeder_keepWord ha] at hst
  obtain ⟨rfl, rfl⟩ := Prod.mk.inj (some.inj hst)
  have htail := wordTail_drop f.core.activeDelimiter hv.symm
  generalize hz₁ : (t ++ later).drop (wordTail f.core.activeDelimiter (t ++ later)).length = z₁
    at hsplit
  have hrest : t.drop (wordTail f.core.activeDelimiter t).length ++ later = v ++ z₁ := by
    rw [← drop_append_of_le_length hlen, ← hsplit, ← hv, append_assoc, drop_left]
  let whole : FeedState := ⟨f.core, f.before ++ older, done ++ f.statements⟩
  refine ⟨whole.keepWord (c :: (wordTail f.core.activeDelimiter t ++ v)), v, z₁, ?_, ?_, hrest, ?_⟩
  · rw [h.eq, feeder_keepWord (f := whole) ha', hz₁, ← htake', hv]
  · rw [← htake]
    refine follows_keepWord h.pending h.tag h.delimiter (Mode.inCode_of_feedQuoted_pass hcode.1)
      (cons_ne_nil _ _) (part_of_word hs _) ?_
    rwa [drop_append_of_le_length hlen, hrest] at htail
  · rw [cutOff, if_pos ⟨hcode, hs⟩, ← hv, length_append]
    omega

/-- What `Feed` does with a `$` in code, it has decided. -/
theorem dollar_decided {s : StreamSplitter} {before : Text} (hd : supportsSQLDollarQuote dbType = true)
    (h : s.code dbType before dollar t = some a) :
    parseSQLDollarTagAt before t ≠ [] ∨ isIncompleteSQLDollarTagAt before t = false := by
  by_contra hnot
  rw [not_or, not_not, Bool.not_eq_false] at hnot
  have hline : s.slashLine dollar t = none := if_neg fun h => absurd h.1 (by decide)
  simp [code, punctuation, hline, hnot, hd, dollar, dash, hash, slash]
    at h

/-- A delimiter that starts in a text starts there in a longer one. -/
theorem delimiterStartsAt_of_customDelimiter {s : StreamSplitter} {r : Text}
    (h : s.customDelimiter (c :: t) = some true) :
    delimiterStartsAt s.activeDelimiter (c :: (t ++ r)) = true := by
  have hp := List.isPrefixOf_iff_prefix.mp (isPrefixOf_of_customDelimiter h)
  have hne : s.activeDelimiter ≠ [semicolon] := by
    intro heq
    rw [customDelimiter, if_pos heq] at h
    cases h
  have hlong : s.activeDelimiter.isPrefixOf (c :: (t ++ r)) = true :=
    List.isPrefixOf_iff_prefix.mpr (hp.trans ⟨r, rfl⟩)
  rw [delimiterStartsAt, if_neg (by simp [hne]), hlong]
  rfl

/-- Bytes of a word that a chunk before has cut are kept, and leave the nesting alone. -/
theorem Follows.keepWord_of_part (h : Follows dbType done older f f' (c :: v) z)
    (htext : t ++ later = v ++ z) (hsafe : StepHarmless dbType older later f (v.length + 1) c t)
    (ha : f.core.action dbType f.before c t = some a) :
    ∃ k, a = Sql.keepWord f.core k ∧ k ≤ t.length ∧ t.take k <+: v := by
  have hv : c :: v ≠ [] := cons_ne_nil _ _
  have htail := h.tail hv
  have hpart : isSQLIdentifierPart c = true :=
    wordTail_part _ c (by rw [htail]; exact mem_cons_self)
  have hin := h.inWord hv
  have hstart : delimiterStartsAt f.core.activeDelimiter (c :: (t ++ later)) = false := by
    rw [cons_append, wordTail, ← htext] at htail
    split_ifs at htail with hc
    exact hc.2
  have htail' : wordTail f.core.activeDelimiter (t ++ later) = v := by
    rw [htext]
    exact wordTail_drop _ (t := c :: (v ++ z)) (x := [c]) htail
  rw [hin.action_eq hpart] at ha
  cases hcustom : f.core.customDelimiter (c :: t) with
  | some b =>
    rw [hcustom] at ha
    cases b with
    | false => cases ha
    | true =>
      -- the word would have ended here
      rw [delimiterStartsAt_of_customDelimiter hcustom] at hstart
      cases hstart
  | none =>
    rw [hcustom] at ha
    unfold wordOrCode at ha
    split_ifs at ha with hs
    · refine ⟨_, word_eq_of_plain ha (hsafe.part (Nat.succ_ne_zero _) hs),
        (wordTail_isPrefix _ t).length_le, ?_⟩
      rw [← List.prefix_iff_eq_take.mp (wordTail_isPrefix _ t), ← htail']
      exact wordTail_append _ t
    · refine ⟨0, ?_, Nat.zero_le _, List.nil_prefix⟩
      have hdollar : c = dollar → supportsSQLDollarQuote dbType = true →
          parseSQLDollarTagAt f.before t = [] ∧ isIncompleteSQLDollarTagAt f.before t = false := by
        rintro rfl hdialect
        have htag : parseSQLDollarTagAt f.before t = [] := by
          have hhead := h.head hv
          by_cases hb : f.before = []
          · by_contra hne
            rw [hb, nil_append] at hhead
            exact hsafe.dollar ⟨hb, hhead, rfl, hdialect, hb ▸ hne⟩
          · rw [head?_append_of_ne_nil _ hb] at hhead
            simp [parseSQLDollarTagAt, hhead]
        exact ⟨htag, (dollar_decided hdialect ha).resolve_left (not_not.mpr htag)⟩
      rw [code_part hpart (hsafe.hash (Nat.succ_ne_zero _)) hdollar] at ha
      rw [← some.inj ha, Sql.keepWord, ← h.skip hv]

/-- A step on bytes of a word that a chunk before has cut: the run on the whole text waits. -/
theorem Follows.step_part (h : Follows dbType done older f f' v z) (hv : v ≠ [])
    (htext : c :: t ++ later = v ++ z) (hsafe : StepHarmless dbType older later f v.length c t)
    (hst : (feeder dbType).step f c t = some (f₁, t₁)) :
    ∃ v₁, Follows dbType done older f₁ f' v₁ z ∧ t₁ ++ later = v₁ ++ z ∧
      v₁.length = v.length - ((c :: t).length - t₁.length) := by
  obtain ⟨d, v, rfl⟩ := exists_cons_of_ne_nil hv
  obtain ⟨rfl, hrest⟩ := List.cons.inj htext
  obtain ⟨a, ha, -⟩ := map_eq_some_iff.mp hst
  obtain ⟨k, rfl, hk, v₁, hv₁⟩ := h.keepWord_of_part hrest hsafe ha
  rw [feeder_keepWord ha] at hst
  obtain ⟨rfl, rfl⟩ := Prod.mk.inj (some.inj hst)
  have hrest₁ : t.drop k ++ later = v₁ ++ z := by
    have hsplit : t.take k ++ (t.drop k ++ later) = t.take k ++ (v₁ ++ z) := by
      rw [← append_assoc, take_append_drop, ← append_assoc, hv₁]
      exact hrest
    exact append_cancel_left hsplit
  refine ⟨v₁, ?_, hrest₁, ?_⟩
  · have hwhole : f' = (⟨f.core, f.before ++ older, done ++ f.statements⟩ : FeedState).keepWord
        (c :: t.take k ++ v₁) := by
      have hblock : ({ f.core.block with skipNextPLSQLCaseEndToken := false } : Block) =
          f.core.block := by rw [← h.skip hv]
      obtain ⟨core, before, statements⟩ := f'
      have hcore := h.core
      have hbefore := h.before
      have hstatements := h.statements
      dsimp only at hcore hbefore hstatements
      rw [FeedState.keepWord, hblock, cons_append, hv₁, hcore, hbefore, hstatements]
    have hpart : ∀ y ∈ c :: t.take k, isSQLIdentifierPart y = true := by
      intro y hy
      refine wordTail_part f.core.activeDelimiter y (t := c :: v ++ z) ?_
      rw [h.tail hv, ← hv₁, ← cons_append]
      exact mem_append_left _ hy
    rw [hwhole]
    refine follows_keepWord h.pending h.tag h.delimiter (h.inWord hv).mode (cons_ne_nil _ _) hpart ?_
    have htail := wordTail_drop f.core.activeDelimiter (t := c :: v ++ z) (x := c :: t.take k)
      (w := v₁) (by rw [h.tail hv, ← hv₁, cons_append])
    rwa [← hv₁, ← cons_append, append_assoc, drop_left] at htail
  · rw [← hv₁]
    simp only [length_cons, length_append, length_take, length_drop]
    omega

end Follows

/-! ### The end of the input -/

section Flush

variable {dbType : Text} {s : StreamSplitter} {before before' t : Text} {c : UInt8}

/-- What a search leaves alone in front of more text, it leaves alone at the end of the input. -/
theorem scanSQLStreamDelimiterDirective_eof
    (h : scanSQLStreamDelimiterDirective false t = .no) :
    scanSQLStreamDelimiterDirective true t = .no := by
  unfold scanSQLStreamDelimiterDirective at h ⊢
  dsimp only at h ⊢
  split_ifs at h ⊢ <;> simp_all

theorem scanSQLStreamGoDirective_eof (h : scanSQLStreamGoDirective false t = .no) :
    scanSQLStreamGoDirective true t = .no := by
  unfold scanSQLStreamGoDirective at h ⊢
  dsimp only at h ⊢
  split_ifs at h ⊢ <;> simp_all

theorem flushCur_congr {s' : StreamSplitter} (hcur : s.cur = s'.cur)
    (hbatch : s.preserveSQLServerBatch = s'.preserveSQLServerBatch)
    (hgo : s.sqlServerGoSeen = s'.sqlServerGoSeen) : s.flushCur dbType = s'.flushCur dbType := by
  simp only [flushCur, hcur, hbatch, hgo]

/-- Pending bytes of a word are no directive and no slash line at the end of the input. -/
theorem noDirective_of_part (hp : s.pending ≠ [])
    (hpart : ∀ x ∈ s.pending, isSQLIdentifierPart x = true)
    (hd : s.delimiterDirective dbType s.pending = .no)
    (hg : s.goDirective dbType s.pending = .no) :
    (if isSQLServerLexical dbType = true ∧ s.currentLineBlank = true then
      scanSQLStreamGoDirective true s.pending else .no) = .no ∧
    (if isSQLStreamMySQLClientDialect dbType = true ∧
      s.canConsumeClientDirective dbType = true then
      scanSQLStreamDelimiterDirective true s.pending else .no) = .no ∧
    s.flushSlashLine = false := by
  refine ⟨?_, ?_, ?_⟩
  · unfold goDirective at hg
    split_ifs at hg ⊢
    · exact scanSQLStreamGoDirective_eof hg
    · rfl
  · unfold delimiterDirective at hd
    split_ifs at hd ⊢
    · exact scanSQLStreamDelimiterDirective_eof hd
    · rfl
  · unfold flushSlashLine
    obtain ⟨c, t, hct⟩ := exists_cons_of_ne_nil hp
    have hc := (not_quote_of_part (hpart c (hct ▸ mem_cons_self))).2.2.2.1
    rw [hct]
    dsimp only
    rw [slashLine, if_neg fun h => hc h.1]
    rfl

/-- Where only the bytes in front make the difference between waiting and going on, a word or a
dollar tag ends the text. -/
structure StopsInWord (dbType : Text) (s : StreamSplitter) (before' : Text) (c : UInt8) (t : Text) :
    Prop where
  atCode : s.AtCode dbType c t
  word : isSQLIdentifierStart c = true ∧ wordTail s.activeDelimiter t = t ∨
    c = dollar ∧ supportsSQLDollarQuote dbType = true ∧ t.all isSQLKeywordByte = true ∧
      before'.head?.any isSQLIdentifierPart = true

theorem StopsInWord.part (h : StopsInWord dbType s before c t) :
    ∀ x ∈ c :: t, isSQLIdentifierPart x = true := by
  cases h.word with
  | inl hword =>
    rw [← hword.2]
    exact part_of_word hword.1 _
  | inr hdollar =>
    obtain ⟨rfl, _, hall, _⟩ := hdollar
    intro x hx
    cases mem_cons.mp hx with
    | inl hx => exact hx ▸ (by decide)
    | inr hx => exact isSQLIdentifierPart_of_keywordByte (all_eq_true.mp hall x hx)

theorem word_none (h : s.word dbType before c t = none) (h' : s.word dbType before' c t ≠ none) :
    wordTail s.activeDelimiter t = t := by
  have hnil : t.drop (wordTail s.activeDelimiter t).length = [] := by
    by_contra hne
    have hp : ∀ b token, shouldDeferPLSQLKeywordPrefixInStream b token
        (t.drop (wordTail s.activeDelimiter t).length) = false := fun b token => if_pos hne
    unfold word at h h'
    simp only [hp, Bool.false_eq_true, if_false] at h h'
    exact h' h
  have hsplit := List.prefix_iff_eq_append.mp (wordTail_isPrefix s.activeDelimiter t)
  rwa [hnil, append_nil] at hsplit

theorem punctuation_none (h : s.punctuation dbType before c t = none)
    (h' : s.punctuation dbType before' c t ≠ none) :
    c = dollar ∧ supportsSQLDollarQuote dbType = true ∧ t.all isSQLKeywordByte = true ∧
      before'.head?.any isSQLIdentifierPart = true := by
  by_cases hd : c = dollar ∧ supportsSQLDollarQuote dbType = true
  · obtain ⟨rfl, hdialect⟩ := hd
    have hfacts : ∀ b, s.punctuation dbType b dollar t = none ↔
        parseSQLDollarTagAt b t = [] ∧ isIncompleteSQLDollarTagAt b t = true := by
      intro b
      have h₁ : dollar ≠ slash ∧ dollar ≠ semicolon ∧ dollar ≠ 0xEF := by decide
      simp only [punctuation, hdialect, h₁,
        fullWidthSemicolon_isPrefixOf_of_ne h₁.2.2, false_and, true_and, if_false,
        Bool.false_eq_true]
      split_ifs with h₁ h₂ <;> simp_all
    obtain ⟨-, hinc⟩ := (hfacts before).mp h
    have hall : t.all isSQLKeywordByte = true := by
      rw [isIncompleteSQLDollarTagAt, Bool.and_eq_true] at hinc
      exact hinc.2
    refine ⟨rfl, hdialect, hall, ?_⟩
    by_contra hhead
    refine h' ((hfacts before').mpr ⟨?_, ?_⟩)
    · by_contra hne
      exact not_all_of_parseSQLDollarTag hne hall
    · rw [isIncompleteSQLDollarTagAt, hall]
      simpa using hhead
  · have htag : ∀ p : Prop, ¬ (c = dollar ∧ supportsSQLDollarQuote dbType = true ∧ p) :=
      fun p hc => hd ⟨hc.1, hc.2.1⟩
    unfold punctuation at h h'
    simp only [htag, if_false] at h h'
    exact absurd h h'

theorem code_none (h : s.code dbType before c t = none) (h' : s.code dbType before' c t ≠ none) :
    c = dollar ∧ supportsSQLDollarQuote dbType = true ∧ t.all isSQLKeywordByte = true ∧
      before'.head?.any isSQLIdentifierPart = true := by
  unfold code at h h'
  dsimp only at h h'
  split_ifs at h h'
  · exact absurd rfl h'
  · exact absurd rfl h'
  · cases hl : s.slashLine c t with
    | none =>
      rw [hl] at h h'
      exact punctuation_none h h'
    | some p =>
      obtain ⟨e, complete⟩ := p
      rw [hl] at h h'
      cases complete
      · exact absurd rfl h'
      · cases h

theorem stopsInWord (h : s.action dbType before c t = none)
    (h' : s.action dbType before' c t ≠ none) : StopsInWord dbType s before' c t := by
  unfold action at h h'
  cases hq : s.mode.feedQuoted dbType c t with
  | wait => simp [hq] at h'
  | take _ _ => simp [hq] at h
  | pass =>
    rw [hq] at h h'
    unfold plain at h h'
    cases hd : s.delimiterDirective dbType (c :: t) with
    | incomplete => simp [hd] at h'
    | matched _ _ => simp [hd] at h
    | no =>
      rw [hd] at h h'
      cases hg : s.goDirective dbType (c :: t) with
      | incomplete => simp [hg] at h'
      | matched _ _ => simp [hg] at h
      | no =>
        rw [hg] at h h'
        cases hc : s.customDelimiter (c :: t) with
        | some b =>
          rw [hc] at h h'
          cases b
          · exact absurd h h'
          · cases h
        | none =>
          rw [hc] at h h'
          refine ⟨⟨hq, hd, hg, hc⟩, ?_⟩
          unfold wordOrCode at h h'
          split_ifs at h h' with hs
          · exact .inl ⟨hs, word_none h h'⟩
          · exact .inr (code_none h h')

theorem action_keywordByte {a : StreamAction} (hin : s.InWord dbType) (hdel : s.delimiter = [])
    (hc : isSQLKeywordByte c = true) (h : s.action dbType before c t = some a) :
    ∃ b k, a = ⟨.keep, s.mode, b, k⟩ := by
  have hpart := isSQLIdentifierPart_of_keywordByte hc
  have hcustom : s.customDelimiter (c :: t) = none := by
    simp [customDelimiter, activeDelimiter, hdel]
  rw [hin.action_eq hpart, hcustom] at h
  unfold wordOrCode at h
  split_ifs at h with hs
  · unfold word at h
    dsimp only at h
    split_ifs at h
    exact ⟨_, _, (some.inj h).symm⟩
  · have hne : c ≠ hash ∧ c ≠ dollar := by
      constructor <;> (rintro rfl; revert hc; decide)
    rw [code_part hpart (fun h => absurd h hne.1) fun h => absurd h hne.2] at h
    exact ⟨_, _, (some.inj h).symm⟩

theorem not_mysqlClient_of_dollarQuote (h : supportsSQLDollarQuote dbType = true) :
    isSQLStreamMySQLClientDialect dbType = false := by
  simp only [supportsSQLDollarQuote, decide_eq_true_eq] at h
  unfold isSQLStreamMySQLClientDialect
  rcases h with h | h
  · rw [h]
    decide
  · revert h
    generalize normalizeExplainLexicalDBType dbType = name
    simp only [mem_cons, not_mem_nil, or_false]
    rintro (rfl | rfl | rfl | rfl | rfl | rfl) <;> decide

end Flush

/-! ### Chunks -/

section Chunks

variable {dbType : Text} {done : List Text} {older : Text} {f f' : FeedState} {v z : Text}

/-- A new call of `Feed`. -/
theorem Follows.restart (h : Follows dbType done older f f' v z) :
    Follows dbType (done ++ f.statements) (f.before ++ older) ⟨f.core, [], []⟩ f' v z where
  core := h.core
  before := h.before
  statements := by rw [h.statements, append_nil]
  pending := h.pending
  tag := h.tag
  delimiter := h.delimiter
  inWord := h.inWord
  skip := h.skip
  head hv := h.head hv
  tail := h.tail

end Chunks

end GoNavi.Sql
