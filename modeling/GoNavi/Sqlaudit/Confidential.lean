import GoNavi.Sqlaudit.Integrity
import GoNavi.Sqlaudit.Lexing

/-! # What the audit log keeps of literals

`Seen` is where the redactor reads a statement as its dialect does: comments and literals start
and end where the dialect has them, code has neither, and a number ends with the code it stands in.

**Statements that are equal but for the contents of their literals are stored as the same text**
(`storedText_eq`) when both are read so.  Behind a PostgreSQL literal that ends in a backslash, the
redactor takes literals for code (`storedText_leaks`). -/

namespace GoNavi.Sqlaudit

open Scan GoNavi.Sql List

/-! ### Code in front of pieces -/

/-- The bytes of code at the front. -/
def leadingBytes : List Piece → Text
  | .byte c :: pieces => c :: leadingBytes pieces
  | _ => []

/-- The text behind them. -/
def behindBytes : List Piece → Text
  | .byte _ :: pieces => behindBytes pieces
  | pieces => render pieces

theorem leadingBytes_append (pieces : List Piece) :
    leadingBytes pieces ++ behindBytes pieces = render pieces := by
  induction pieces with
  | nil => rfl
  | cons piece pieces ih =>
    cases piece with
    | byte c =>
      rw [leadingBytes, behindBytes, render_cons, cons_append, ih]
      rfl
    | fixed t => rfl
    | literal opening content closing => rfl

variable {pieces : List Piece}

theorem render_drop : ∀ {k : ℕ}, k ≤ (leadingBytes pieces).length →
    render (pieces.drop k) = (leadingBytes pieces).drop k ++ behindBytes pieces := by
  induction pieces with
  | nil =>
    intro k hk
    rw [drop_nil]
    simp [leadingBytes, behindBytes]
  | cons piece pieces ih =>
    intro k hk
    cases k with
    | zero => exact (leadingBytes_append _).symm
    | succ k =>
      cases piece with
      | byte c =>
        rw [leadingBytes, length_cons] at hk
        exact ih (by omega)
      | fixed t => simp [leadingBytes] at hk
      | literal opening content closing => simp [leadingBytes] at hk

theorem closed_drop (h : Closed pieces) : ∀ k : ℕ,
    k ≤ (leadingBytes pieces).length → Closed (pieces.drop k) := by
  induction pieces with
  | nil => intro k _; rw [drop_nil]; exact trivial
  | cons piece pieces ih =>
    intro k hk
    cases k with
    | zero => exact h
    | succ k =>
      cases piece with
      | byte c =>
        rw [leadingBytes, length_cons] at hk
        exact ih h k (by omega)
      | fixed t => simp [leadingBytes] at hk
      | literal opening content closing => simp [leadingBytes] at hk

theorem behindBytes_head (h : Closed pieces) :
    (behindBytes pieces).head?.all (· < 0x80) = true := by
  induction pieces with
  | nil => rfl
  | cons piece pieces ih =>
    cases piece with
    | byte c => exact ih h
    | fixed t =>
      cases t with
      | nil => cases h.1
      | cons c t => simpa [behindBytes, Piece.text, render] using h.1
    | literal opening content closing =>
      cases opening with
      | single => rfl
      | double => rfl
      | dollar tag => rfl
      | alternative capital delimiter => cases capital <;> rfl

/-! ### Reading as the dialect does -/

/-- What the redactor leaves when it finds a comment or a literal in front. -/
def regionRest : Text → Option Text
  | [] => none
  | c :: t => (redactRegion c t).map Prod.snd

/-- The redactor reads the pieces as they are, behind the byte `previous`. -/
def Seen : Option UInt8 → List Piece → Prop
  | _, [] => True
  | previous, .byte c :: pieces =>
    redactRegion c (render pieces) = none ∧
      (isNumberStart previous c = true → skipNumber (c :: render pieces) =
        skipNumber (c :: leadingBytes pieces) ++ behindBytes pieces) ∧
      Seen (some c) pieces
  | _, .fixed t :: pieces =>
    regionRest (t ++ render pieces) = some (render pieces) ∧ Seen t.getLast? pieces
  | _, .literal opening content closing :: pieces =>
    regionRest (opening.text ++ (content ++ closing) ++ render pieces) = some (render pieces) ∧
      Seen closing.getLast? pieces

instance decidableSeen : ∀ (previous : Option UInt8) (pieces : List Piece),
    Decidable (Seen previous pieces)
  | _, [] => isTrue trivial
  | _, .byte c :: pieces =>
    have := decidableSeen (some c) pieces
    inferInstanceAs (Decidable (_ ∧ _ ∧ _))
  | _, .fixed t :: pieces =>
    have := decidableSeen t.getLast? pieces
    inferInstanceAs (Decidable (_ ∧ _))
  | _, .literal _ _ closing :: pieces =>
    have := decidableSeen closing.getLast? pieces
    inferInstanceAs (Decidable (_ ∧ _))

/-- The byte in front of what is left once some bytes of code have been read. -/
theorem seen_drop : ∀ {previous : Option UInt8} {k : ℕ},
    Seen previous pieces → k ≤ (leadingBytes pieces).length →
    Seen ((previous.toList ++ (leadingBytes pieces).take k).getLast?) (pieces.drop k) := by
  induction pieces with
  | nil => intro previous k _ _; rw [drop_nil]; exact trivial
  | cons piece pieces ih =>
    intro previous k h hk
    cases k with
    | zero => cases previous <;> simpa using h
    | succ k =>
      cases piece with
      | byte c =>
        rw [leadingBytes, length_cons] at hk
        have hdrop := ih h.2.2 (by omega : k ≤ (leadingBytes pieces).length)
        rw [leadingBytes, take_succ_cons, drop_succ_cons]
        have hlast : (previous.toList ++ c :: (leadingBytes pieces).take k).getLast? =
            ((some c).toList ++ (leadingBytes pieces).take k).getLast? := by
          cases previous with
          | none => rfl
          | some p => simp [getLast?_cons]
        rw [hlast]
        exact hdrop
      | fixed t => simp [leadingBytes] at hk
      | literal opening content closing => simp [leadingBytes] at hk

/-! ### A step on code -/

variable {c : UInt8}

theorem runeTail_append {run behind : Text} (h : behind.head?.all (· < 0x80) = true) :
    runeTail c (run ++ behind) = runeTail c run := by
  cases behind with
  | nil => rw [append_nil]
  | cons d behind =>
    unfold runeTail
    by_cases hlength : continuationCount c ≤ run.length
    · rw [take_append_of_le_length hlength]
    · rw [not_le] at hlength
      -- the rune would need the byte behind the code, which is no continuation
      rw [if_neg, if_neg]
      · rw [take_of_length_le hlength.le]
        exact fun hrune => absurd hrune.1 hlength.ne
      · intro hrune
        have hmem : d ∈ (run ++ d :: behind).take (continuationCount c) := by
          obtain ⟨m, hm⟩ := Nat.exists_eq_add_of_lt hlength
          rw [hm, Nat.add_assoc, take_length_add_append, take_succ_cons]
          exact mem_append_right _ mem_cons_self
        have hcontinuation := all_eq_true.mp hrune.2.1 d hmem
        rw [isContinuation, Bool.and_eq_true, decide_eq_true_iff] at hcontinuation
        have hascii : d < 0x80 := by simpa using h
        exact absurd hcontinuation.1 (UInt8.not_le.mpr hascii)

/-- What is read of code does not depend on what is behind it. -/
theorem redactCode_append {previous : Option UInt8} {run behind : Text}
    (hhead : behind.head?.all (· < 0x80) = true)
    (hnumber : isNumberStart previous c = true →
      skipNumber (c :: (run ++ behind)) = skipNumber (c :: run) ++ behind) :
    redactCode previous c (run ++ behind) =
      ((redactCode previous c run).1, (redactCode previous c run).2 ++ behind) := by
  have htail : runeTail c (run ++ behind) = runeTail c run := runeTail_append hhead
  have hle := runeTail_le c run
  unfold redactCode
  split
  · rename_i hstart
    rw [hnumber hstart]
  · rw [runeAt, runeAt, htail, take_append_of_le_length hle,
      drop_append_of_le_length hle]

theorem lastBefore_append (front rest : Text) :
    lastBefore (front ++ rest) rest = front.getLast? := by
  simp [lastBefore]

/-- **A step on code** reads some of its bytes, the same whatever is behind them. -/
theorem redactStep_byte {s : RedactState} (hclosed : Closed pieces)
    (h : Seen s.previous (.byte c :: pieces)) :
    ∃ k ≤ (leadingBytes pieces).length,
      k = (leadingBytes pieces).length - (redactCode s.previous c (leadingBytes pieces)).2.length ∧
      redactStep s c (render pieces) =
        (⟨(c :: (leadingBytes pieces).take k).getLast?,
          s.out ++ (redactCode s.previous c (leadingBytes pieces)).1⟩, render (pieces.drop k)) := by
  obtain ⟨hregion, hnumber, _⟩ := h
  have hcode := leadingBytes_append pieces
  have hrest := redactCode_suffix s.previous c (leadingBytes pieces)
  refine ⟨_, Nat.sub_le _ _, rfl, ?_⟩
  have hdrop := suffix_iff_eq_drop.mp hrest
  have hread : redactCode s.previous c (render pieces) =
      ((redactCode s.previous c (leadingBytes pieces)).1, render (pieces.drop
        ((leadingBytes pieces).length -
          (redactCode s.previous c (leadingBytes pieces)).2.length))) := by
    rw [render_drop (Nat.sub_le _ _), ← hdrop, ← hcode]
    refine redactCode_append (behindBytes_head hclosed) ?_
    rw [hcode]
    exact hnumber
  have hsplit : c :: render pieces = (c :: (leadingBytes pieces).take
      ((leadingBytes pieces).length - (redactCode s.previous c (leadingBytes pieces)).2.length)) ++
      render (pieces.drop ((leadingBytes pieces).length -
        (redactCode s.previous c (leadingBytes pieces)).2.length)) := by
    rw [render_drop (Nat.sub_le _ _), cons_append, ← append_assoc, take_append_drop,
      hcode]
  unfold redactStep
  rw [hregion, Option.getD_none, hread]
  dsimp only
  rw [hsplit, lastBefore_append]

/-! ### A step on a comment or a literal -/

/-- What is written for a comment or a literal, by its first byte and what is left. -/
def regionMark (c : UInt8) (rest : Text) : Text :=
  if c = dash ∨ c = hash then (if rest.head?.any isLineEnd then [newline] else [])
  else if c = slash then [0x20]
  else if c = singleQuote ∨ c = doubleQuote then [c, questionMark, c]
  else [questionMark]

theorem skipOracleQuotedLiteral_byte {t rest : Text}
    (h : skipOracleQuotedLiteral (c :: t) = some rest) :
    c = 'q'.toUInt8 ∨ c = 'Q'.toUInt8 := by
  unfold skipOracleQuotedLiteral at h
  split at h
  · rename_i quote opening d u heq
    cases heq
    split_ifs at h with hopens
    exact hopens.1
  · cases h

theorem redactRegion_mark {t written rest : Text} (h : redactRegion c t = some (written, rest)) :
    written = regionMark c rest := by
  unfold redactRegion at h
  split at h
  · rename_i hline
    cases h
    exact (if_pos (hline.imp And.left id)).symm
  · split at h
    · rename_i hblock
      cases h
      obtain ⟨rfl, _⟩ := hblock
      rfl
    · split at h
      · rename_i horacle
        cases h
        rcases skipOracleQuotedLiteral_byte horacle with rfl | rfl
        · rfl
        · rfl
      · split at h
        · rename_i hdollar
          cases h
          split_ifs at hdollar with hc
          rw [hc]
          rfl
        · split_ifs at h with hquote
          cases h
          rcases hquote with rfl | rfl
          · rfl
          · rfl

/-- **A step on a piece** that is not code reads the whole piece. -/
theorem redactStep_region {s : RedactState} {t rest : Text}
    (h : regionRest (c :: (t ++ rest)) = some rest) :
    redactStep s c (t ++ rest) =
      (⟨(c :: t).getLast?, s.out ++ regionMark c rest⟩, rest) := by
  obtain ⟨⟨written, rest'⟩, hregion, hrest⟩ := Option.map_eq_some_iff.mp h
  subst hrest
  unfold redactStep
  rw [hregion, Option.getD_some]
  dsimp only
  rw [redactRegion_mark hregion, ← cons_append, lastBefore_append]

/-! ### Two statements -/

theorem leadingBytes_erase : ∀ {pieces' : List Piece},
    pieces.map Piece.erase = pieces'.map Piece.erase →
    leadingBytes pieces = leadingBytes pieces' := by
  induction pieces with
  | nil =>
    intro pieces' h
    rw [map_eq_nil_iff.mp h.symm]
  | cons piece pieces ih =>
    intro pieces' h
    cases pieces' with
    | nil => cases h
    | cons piece' pieces' =>
      simp only [map_cons, List.cons.injEq] at h
      obtain ⟨hpiece, hpieces⟩ := h
      cases piece <;> cases piece' <;>
        simp only [Piece.erase, reduceCtorEq, Piece.byte.injEq] at hpiece
      · rw [leadingBytes, leadingBytes, hpiece, ih hpieces]
      · rfl
      · rfl

/-- Statements that are equal but for contents start with the same byte. -/
theorem head_render_erase {pieces' : List Piece} (hclosed : Closed pieces)
    (h : pieces.map Piece.erase = pieces'.map Piece.erase) :
    (render pieces).head? = (render pieces').head? := by
  cases pieces with
  | nil => rw [map_eq_nil_iff.mp h.symm]
  | cons piece pieces =>
    cases pieces' with
    | nil => cases h
    | cons piece' pieces' =>
      simp only [map_cons, List.cons.injEq] at h
      obtain ⟨hpiece, _⟩ := h
      cases piece <;> cases piece' <;> simp only [Piece.erase, reduceCtorEq, Piece.byte.injEq,
        Piece.fixed.injEq, Piece.literal.injEq] at hpiece
      · rw [hpiece]
        rfl
      · rename_i t t'
        subst hpiece
        cases t with
        | nil => cases hclosed.1
        | cons c t => rfl
      · rename_i opening content closing opening' content' closing'
        obtain ⟨rfl, _, _⟩ := hpiece
        cases opening <;> rfl

theorem Opening.text_eq_cons (opening : Opening) : ∃ c t, opening.text = c :: t := by
  cases opening <;> exact ⟨_, _, rfl⟩

/-- **Two runs write the same.** -/
theorem run_out_eq : ∀ (n : ℕ) {pieces pieces' : List Piece} {s : RedactState},
    pieces.length ≤ n → Closed pieces → Closed pieces' →
    pieces.map Piece.erase = pieces'.map Piece.erase →
    Seen s.previous pieces → Seen s.previous pieces' →
    (redactor.run s (render pieces)).1.out = (redactor.run s (render pieces')).1.out := by
  intro n
  induction n with
  | zero =>
    intro pieces pieces' s hn _ _ herase _ _
    rw [eq_nil_of_length_eq_zero (Nat.le_zero.mp hn)] at herase ⊢
    rw [map_eq_nil_iff.mp herase.symm]
  | succ n ih =>
    intro pieces pieces' s hn hclosed hclosed' herase hseen hseen'
    cases pieces with
    | nil => rw [map_eq_nil_iff.mp herase.symm]
    | cons piece pieces =>
      cases pieces' with
      | nil => cases herase
      | cons piece' pieces' =>
        have hheads := head_render_erase hclosed herase
        simp only [map_cons, List.cons.injEq] at herase
        obtain ⟨hpiece, hpieces⟩ := herase
        rw [length_cons] at hn
        cases piece with
        | byte c =>
          cases piece' with
          | byte c' =>
            cases hpiece
            have hclosed : Closed pieces := hclosed
            have hclosed' : Closed pieces' := hclosed'
            obtain ⟨k, hk, hkeq, hstep⟩ := redactStep_byte hclosed hseen
            obtain ⟨k', hk', hkeq', hstep'⟩ := redactStep_byte hclosed' hseen'
            have hleading := leadingBytes_erase hpieces
            rw [← hleading] at hk' hkeq' hstep'
            obtain rfl : k = k' := hkeq.trans hkeq'.symm
            rw [render_cons, render_cons]
            show (redactor.run s (c :: render pieces)).1.out =
              (redactor.run s (c :: render pieces')).1.out
            rw [Scanner.run_step (congrArg some hstep), Scanner.run_step (congrArg some hstep')]
            have hdrop := seen_drop hseen.2.2 hk
            have hdrop' := seen_drop hseen'.2.2 (hleading ▸ hk')
            rw [← hleading] at hdrop'
            refine ih ?_ (closed_drop hclosed k hk) (closed_drop hclosed' k (hleading ▸ hk')) ?_
              hdrop hdrop'
            · rw [length_drop]
              omega
            · rw [map_drop, map_drop, hpieces]
          | fixed t => cases hpiece
          | literal opening content closing => cases hpiece
        | fixed t =>
          cases piece' with
          | byte c => cases hpiece
          | fixed t' =>
            cases hpiece
            cases t with
            | nil => cases hclosed.1
            | cons c t =>
              have hheads := head_render_erase hclosed.2 hpieces
              rw [render_cons, render_cons, Piece.text, cons_append, cons_append,
                Scanner.run_step (congrArg some (redactStep_region hseen.1)),
                Scanner.run_step (congrArg some (redactStep_region hseen'.1))]
              have hmark : regionMark c (render pieces) = regionMark c (render pieces') := by
                rw [regionMark, hheads]
                rfl
              rw [hmark]
              exact ih (by omega) hclosed.2 hclosed'.2 hpieces hseen.2 hseen'.2
          | literal opening content closing => cases hpiece
        | literal opening content closing =>
          cases piece' with
          | byte c => cases hpiece
          | fixed t => cases hpiece
          | literal opening' content' closing' =>
            obtain ⟨rfl, rfl⟩ := hpiece
            have hheads := head_render_erase hclosed.2 hpieces
            obtain ⟨c, o, hopening⟩ := opening.text_eq_cons
            have hregion := hseen.1
            have hregion' := hseen'.1
            rw [hopening, cons_append, cons_append] at hregion hregion'
            rw [render_cons, render_cons, Piece.text, Piece.text, hopening, cons_append,
              cons_append, cons_append, cons_append,
              Scanner.run_step (congrArg some (redactStep_region hregion)),
              Scanner.run_step (congrArg some (redactStep_region hregion'))]
            have hmark : regionMark c (render pieces) = regionMark c (render pieces') := by
              rw [regionMark, hheads]
              rfl
            rw [hmark]
            cases closing with
            | nil =>
              -- the literal is the end of both statements
              rw [hclosed.1 rfl, hclosed'.1 rfl]
              rfl
            | cons d closing =>
              have hlast : ∀ content : Text, (c :: (o ++ (content ++ d :: closing))).getLast? =
                  (d :: closing).getLast? := by
                intro content
                rw [← append_assoc, ← cons_append, getLast?_append_of_ne_nil _
                  (cons_ne_nil d closing)]
              rw [hlast, hlast]
              exact ih (by omega) hclosed.2 hclosed'.2 hpieces hseen.2 hseen'.2

/-! ### Blank statements -/

def Piece.isLiteral : Piece → Bool
  | .literal _ _ _ => true
  | _ => false

theorem map_erase_eq_self (h : pieces.any Piece.isLiteral = false) :
    pieces.map Piece.erase = pieces := by
  refine (map_congr_left fun piece hpiece => ?_).trans (map_id pieces)
  have hliteral := any_eq_false.mp h piece hpiece
  cases piece with
  | byte c => rfl
  | fixed t => rfl
  | literal opening content closing => exact absurd rfl hliteral

theorem any_isLiteral_erase (pieces : List Piece) :
    (pieces.map Piece.erase).any Piece.isLiteral = pieces.any Piece.isLiteral := by
  induction pieces with
  | nil => rfl
  | cons piece pieces ih =>
    rw [map_cons, any_cons, any_cons, ih]
    cases piece <;> rfl

theorem trimSpace_render (h : pieces.any Piece.isLiteral = true) :
    trimSpace (render pieces) ≠ [] := by
  obtain ⟨piece, hpiece, hliteral⟩ := any_eq_true.mp h
  cases piece with
  | byte c => cases hliteral
  | fixed t => cases hliteral
  | literal opening content closing =>
    have hmem : ∀ c ∈ opening.text, c ∈ render pieces := by
      intro c hc
      exact mem_flatMap.mpr ⟨_, hpiece, mem_append_left _ hc⟩
    cases opening with
    | single => exact trimSpace_ne_nil (by decide) (hmem singleQuote (by decide))
    | double => exact trimSpace_ne_nil (by decide) (hmem doubleQuote (by decide))
    | dollar tag =>
      exact trimSpace_ne_nil (by decide) (hmem Sql.dollar mem_cons_self)
    | alternative capital delimiter =>
      exact trimSpace_ne_nil (by decide)
        (hmem singleQuote (mem_cons_of_mem _ mem_cons_self))

/-! ### Stored texts -/

/-- Two statements that are equal but for the contents of their literals. -/
def SameButLiterals (rules : LexicalRules) (s s' : Text) : Prop :=
  (lex rules s).map Piece.erase = (lex rules s').map Piece.erase

/-- The redactor reads a statement as its dialect does. -/
def ReadAsDialect (rules : LexicalRules) (s : Text) : Prop := Seen none (lex rules s)

theorem redactSQL_eq {rules : LexicalRules} {s s' : Text} (hsame : SameButLiterals rules s s')
    (hs : ReadAsDialect rules s) (hs' : ReadAsDialect rules s') (patterns : RedactionPatterns) :
    redactSQL patterns s = redactSQL patterns s' := by
  have hrun := run_out_eq _ (s := ⟨none, []⟩) le_rfl (closed_lex rules s) (closed_lex rules s')
    hsame hs hs'
  rw [render_lex, render_lex] at hrun
  have hliteral : (lex rules s).any Piece.isLiteral = (lex rules s').any Piece.isLiteral := by
    rw [← any_isLiteral_erase, hsame, any_isLiteral_erase]
  unfold redactSQL
  rw [hrun]
  cases hany : (lex rules s).any Piece.isLiteral with
  | true =>
    have hblank := trimSpace_render hany
    have hblank' := trimSpace_render (hliteral ▸ hany)
    rw [render_lex] at hblank hblank'
    rw [if_neg hblank, if_neg hblank']
  | false =>
    -- without a literal the statements are equal
    have hpieces : lex rules s = lex rules s' :=
      (map_erase_eq_self hany).symm.trans (hsame.trans (map_erase_eq_self (hliteral ▸ hany)))
    have hequal : s = s' := by rw [← render_lex rules s, hpieces, render_lex]
    rw [hequal]

/-- What is stored of a statement. -/
def storedText (sanitizer : Sanitizer) (patterns : RedactionPatterns)
    (redactRedisQuery : Text → Text) (settings : Settings) (event : Event) (sqlText : Text) :
    Text :=
  (sanitizeEvent
    { sanitizer with redactQuery := redactQuery sanitizer.unicode patterns redactRedisQuery }
    { event with sqlText } settings).sqlText

/-- **The contents of literals are not stored**: of statements that the redactor reads as their
dialect does, and that are equal but for these contents, the same text is stored. -/
theorem storedText_eq (sanitizer : Sanitizer) (patterns : RedactionPatterns)
    (redactRedisQuery : Text → Text) (settings : Settings) (event : Event)
    (htype : normalizeQueryType sanitizer.unicode
      (lower sanitizer.unicode (sanitizeLabel event.dbType 64)) ∈ sqlQueryTypes)
    {rules : LexicalRules} {s s' : Text} (hsame : SameButLiterals rules s s')
    (hs : ReadAsDialect rules s) (hs' : ReadAsDialect rules s') :
    storedText sanitizer patterns redactRedisQuery settings event s =
      storedText sanitizer patterns redactRedisQuery settings event s' := by
  have hredis : bytes "redis" ∉ sqlQueryTypes := by decide
  have hsql : ∀ text, redactQuery sanitizer.unicode patterns redactRedisQuery
      (lower sanitizer.unicode (sanitizeLabel event.dbType 64)) text = redactSQL patterns text := by
    intro text
    unfold redactQuery
    rw [if_neg, if_pos htype]
    intro heq
    rw [heq] at htype
    exact hredis htype
  unfold storedText sanitizeEvent
  dsimp only
  rw [hsql, hsql, redactSQL_eq hsame hs hs']

/-! ### PostgreSQL -/

def postgresRules : LexicalRules where
  backslashEscapes := false
  escapeStrings := true
  doubleQuotedStrings := false
  dollarQuotes := true
  alternativeQuotes := false
  hashComments := false
  dashCommentNeedsSpace := false
  nestedComments := true
  returnEndsComment := true
  backtickIdentifiers := false
  bracketIdentifiers := false
  escapedBracketIdentifiers := false

/-- Tables, patterns and digests that change nothing. -/
def plainSanitizer : Sanitizer :=
  ⟨⟨fun _ => false, fun _ => false, id⟩, fun _ => id, id, id⟩

def plainPatterns : RedactionPatterns := ⟨id, id, id, id⟩

def postgresEvent : Event := { bareEvent id [] 0 [] with dbType := bytes "postgres" }

def redactedSettings : Settings := ⟨true, captureModeRedacted, 0, 0⟩

/-- Two statements of PostgreSQL that differ in a literal. -/
theorem storedText_postgres :
    storedText plainSanitizer plainPatterns id redactedSettings postgresEvent
        (bytes "SELECT $$it's$$, E'a\\'b', 12 FROM t") =
      storedText plainSanitizer plainPatterns id redactedSettings postgresEvent
        (bytes "SELECT $$$$, E'', 12 FROM t") :=
  storedText_eq plainSanitizer plainPatterns id redactedSettings postgresEvent
    (by decide)
    (by unfold SameButLiterals; decide : SameButLiterals postgresRules _ _)
    (by unfold ReadAsDialect; decide) (by unfold ReadAsDialect; decide)

/-- **Behind a backslash a literal is stored**: the redactor takes the quote for an escaped one. -/
theorem storedText_leaks :
    ¬ ∀ s s', SameButLiterals postgresRules s s' →
      storedText plainSanitizer plainPatterns id redactedSettings postgresEvent s =
        storedText plainSanitizer plainPatterns id redactedSettings postgresEvent s' := by
  intro h
  have hsame : SameButLiterals postgresRules (bytes "SELECT '\\', 'alice'")
      (bytes "SELECT '\\', 'bob'") := by
    unfold SameButLiterals
    decide
  have hstored := h _ _ hsame
  revert hstored
  decide

end GoNavi.Sqlaudit
