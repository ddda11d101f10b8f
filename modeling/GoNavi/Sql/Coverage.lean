import GoNavi.Sql.Split

/-! # The batch splitter loses nothing

A text is `Segmented` into a list of statements when it can be read from left to right as
statements and gaps, where a gap is white space, a delimiter, a standalone slash line or a
piece without executable content (`Gap`).  The invariant of the loop (`Splitter.Covers`)
is that the text already read is segmented into the statements so far, up to the statement
under construction: `push` closes a segment (`Segmented.piece`), the delimiters and slash
lines an action drops are gaps (`Splitter.action_push`). -/

namespace GoNavi.Sql

open Scan List

/-- `Gap dbType before w t`: the part `w` of a text, between `before` and `t`, holds nothing
that is executed. -/
inductive Gap (dbType before w t : Text) : Prop where
  | blank : Blank w → Gap dbType before w t
  | delimiter : w = [semicolon] ∨ w = fullWidthSemicolon → Gap dbType before w t
  | slashLine (l : Text) : w = slash :: l → standaloneSQLSlashLineEnd before (l ++ t) = some t →
      Gap dbType before w t
  | idle : hasExecutableSQLStatementContent dbType w = false → Gap dbType before w t

/-- `Segmented dbType text before t ss`: `text` is `before` (last byte first) followed by
`t`, and `before` consists of the statements `ss`, in this order, with gaps before, between
and after them. -/
inductive Segmented (dbType text : Text) : Text → Text → List Text → Prop where
  | start : Segmented dbType text [] text []
  | gap {before w t : Text} {ss : List Text} : Segmented dbType text before (w ++ t) ss →
      Gap dbType before w t → Segmented dbType text (w.reverse ++ before) t ss
  | statement {before s t : Text} {ss : List Text} : Segmented dbType text before (s ++ t) ss →
      Segmented dbType text (s.reverse ++ before) t (ss ++ [s])

namespace Segmented

variable {dbType text before t : Text} {ss : List Text}

theorem text_eq (h : Segmented dbType text before t ss) : before.reverse ++ t = text := by
  induction h with
  | start => rfl
  | gap _ _ ih => simpa using ih
  | statement _ ih => simpa using ih

/-- A piece of text is a gap, or white space around one statement. -/
theorem piece {cur : Text} (h : Segmented dbType text before (cur ++ t) ss) :
    Segmented dbType text (cur.reverse ++ before) t (ss ++ Splitter.piece dbType cur) := by
  obtain ⟨v, w, hv, hw, hcur⟩ := trimSpace_spec cur
  have hread : cur.reverse = w.reverse ++ ((trimSpace cur).reverse ++ v.reverse) := by
    rw [← reverse_append, ← reverse_append, ← hcur]
  have htext : cur ++ t = v ++ (trimSpace cur ++ (w ++ t)) := by
    conv_lhs => rw [hcur]
    simp only [append_assoc]
  rw [hread, append_assoc, append_assoc]
  refine .gap ?_ (.blank hw)
  have hv := Segmented.gap (htext ▸ h) (.blank hv)
  rw [Splitter.piece]
  split_ifs with hs
  · exact .statement hv
  · rw [append_nil]
    refine .gap hv ?_
    by_cases hnil : trimSpace cur = []
    · exact .blank (hnil ▸ Blank.nil)
    · exact .idle (by simpa [hnil] using hs)

end Segmented

namespace Splitter

variable {dbType : Text} {esc : Bool} {s : Splitter} {c : UInt8} {t : Text}

/-- What an action that completes a statement takes: a delimiter, or a slash line with its
newline. -/
theorem action_push (h : (s.action dbType esc c t).effect ≠ .keep) :
    c :: t.take (s.action dbType esc c t).extra ∈ [[semicolon], fullWidthSemicolon] ∨
      (s.action dbType esc c t).effect = .push ∧ c = slash ∧
        ∃ lineEnd, standaloneSQLSlashLineEnd s.before t = some lineEnd ∧
          (s.action dbType esc c t).extra = t.length - lineEnd.tail.length := by
  have hdel : ∀ {k : ℕ}, (s.delimiter k).extra = k := by
    intro k
    unfold delimiter
    split_ifs <;> rfl
  revert h
  refine action_cases (P := fun a => a.effect ≠ .keep →
    c :: t.take a.extra ∈ [[semicolon], fullWidthSemicolon] ∨
      a.effect = .push ∧ c = slash ∧
        ∃ lineEnd, standaloneSQLSlashLineEnd s.before t = some lineEnd ∧
          a.extra = t.length - lineEnd.tail.length) ?_ ?_ ?_ ?_
  · exact fun _ _ _ h => absurd rfl h
  · rintro rfl -
    left
    rw [hdel]
    simp
  · rintro ⟨u, hu⟩ -
    left
    have htake : c :: t.take 2 = (c :: t).take 3 := rfl
    rw [hdel, htake, ← hu]
    simp
  · exact fun lineEnd hc hl _ => .inr ⟨rfl, hc, lineEnd, hl, rfl⟩

/-- The invariant of the loop over `text`. -/
def Covers (dbType text : Text) (s : Splitter) (t : Text) : Prop :=
  ∃ before, Segmented dbType text before (s.cur ++ t) s.statements ∧
    s.before = s.cur.reverse ++ before

theorem covers_initial (dbType text : Text) : Covers dbType text initial text :=
  ⟨[], .start, rfl⟩

/-- The end of a slash line, passed over with its newline, leaves a gap behind. -/
theorem segmented_slashLine {text t lineEnd : Text} {ss : List Text}
    (h : Segmented dbType text s.before (slash :: t) ss)
    (hl : standaloneSQLSlashLineEnd s.before t = some lineEnd) :
    Segmented dbType text
      ((slash :: t.take (t.length - lineEnd.tail.length)).reverse ++ s.before)
      (t.drop (t.length - lineEnd.tail.length)) ss := by
  obtain ⟨l, rfl⟩ := standaloneSQLSlashLineEnd_suffix hl
  have hline : Segmented dbType text ((slash :: l).reverse ++ s.before) lineEnd ss :=
    .gap (w := slash :: l) (by simpa using h) (.slashLine l rfl hl)
  cases lineEnd with
  | nil => simpa using hline
  | cons d u =>
    have hlen : (l ++ d :: u).length - (d :: u).tail.length = (l ++ [d]).length := by
      simp; omega
    have hsplit : l ++ d :: u = (l ++ [d]) ++ u := by simp
    rw [hlen, hsplit, take_left', drop_left'] <;> try rfl
    have hd : d = newline := standaloneSQLSlashLineEnd_head hl
    have := Segmented.gap (w := [d]) hline (.blank (hd ▸ Blank.rune (by decide)))
    simpa using this

theorem covers_step {text : Text} (h : Covers dbType text s (c :: t)) :
    Covers dbType text (s.apply dbType (s.action dbType esc c t) c t)
      (t.drop (s.action dbType esc c t).extra) := by
  obtain ⟨before, hseg, hbefore⟩ := h
  set a := s.action dbType esc c t with ha
  have htaken : c :: t = (c :: t.take a.extra) ++ t.drop a.extra := by simp
  cases he : a.effect with
  | keep =>
    refine ⟨before, ?_, ?_⟩
    · simpa [apply, he] using hseg
    · simp [apply, he, hbefore]
  | push =>
    have hpiece := hseg.piece
    rw [← hbefore] at hpiece
    refine ⟨(c :: t.take a.extra).reverse ++ s.before, ?_, by simp [apply, he]⟩
    simp only [apply, he, nil_append]
    have hpush : (s.action dbType esc c t).effect ≠ .keep := by
      rw [← ha, he]
      decide
    rcases action_push hpush with hd | ⟨-, rfl, lineEnd, hl, hextra⟩
    · rw [htaken] at hpiece
      exact .gap hpiece (.delimiter (by simpa using hd))
    · rw [← ha] at hextra
      rw [hextra]
      exact segmented_slashLine hpiece hl
  | keepPush =>
    have hpiece : Segmented dbType text ((s.cur ++ c :: t.take a.extra).reverse ++ before)
        (t.drop a.extra) (s.statements ++ piece dbType (s.cur ++ c :: t.take a.extra)) := by
      refine Segmented.piece ?_
      rwa [append_assoc, ← htaken]
    refine ⟨(s.cur ++ c :: t.take a.extra).reverse ++ before, ?_, ?_⟩
    · simpa [apply, he] using hpiece
    · simp [apply, he, hbefore]

theorem covers_run (dbType : Text) (esc : Bool) (text : Text) :
    Covers dbType text (splitText dbType esc text) [] := by
  have hrun := Scanner.run_induction (M := splitter dbType esc) (P := Covers dbType text)
    (fun h hstep => by cases hstep; exact covers_step h) (covers_initial dbType text)
  rwa [Scanner.run_snd_eq_nil (by intro s c t h; cases h)] at hrun

end Splitter

/-- A segmentation that has reached the end of the text has read all of it. -/
theorem Segmented.read_eq {dbType text before : Text} {ss : List Text}
    (h : Segmented dbType text before [] ss) : Segmented dbType text text.reverse [] ss := by
  have htext := h.text_eq
  rw [append_nil, reverse_eq_iff] at htext
  exact htext ▸ h

/-- **The batch splitter neither loses, nor repeats, nor reorders executable text**: the
statements it returns are disjoint parts of the normalised text, in order, and what lies
before, between and after them is gaps. -/
theorem splitSQLStatementsForDialect_segmented (dbType sql : Text) :
    Segmented dbType (normalizeLineEnds sql) (normalizeLineEnds sql).reverse []
      (splitSQLStatementsForDialect dbType sql) := by
  unfold splitSQLStatementsForDialect splitSQLStatementsForDialectMode
  dsimp only
  split_ifs with hes hsrc
  · obtain ⟨v, w, hv, hw, htext⟩ := trimSpace_spec (normalizeLineEnds sql)
    have h₀ : Segmented dbType (normalizeLineEnds sql) (v.reverse ++ [])
        (trimSpace (normalizeLineEnds sql) ++ w) [] :=
      .gap (by rw [← append_assoc, ← htext]; exact .start) (.blank hv)
    have h₁ := h₀.statement
    rw [← append_nil w] at h₁
    exact (h₁.gap (.blank hw)).read_eq
  · obtain ⟨v, w, hv, hw, htext⟩ := trimSpace_spec (normalizeLineEnds sql)
    rw [not_not.mp hsrc, append_nil] at htext
    have h₀ : Segmented dbType (normalizeLineEnds sql) [] ((v ++ w) ++ []) [] := by
      rw [← htext, append_nil]
      exact .start
    exact (Segmented.gap h₀ (.blank (hv.append hw))).read_eq
  · obtain ⟨before, hseg, -⟩ := Splitter.covers_run dbType true (normalizeLineEnds sql)
    exact hseg.piece.read_eq

end GoNavi.Sql
