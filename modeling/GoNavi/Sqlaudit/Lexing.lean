import GoNavi.Sqlaudit.Redact

/-! # Where a dialect has its literals

`lex` cuts a statement into pieces by the lexical rules of a dialect (`LexicalRules`): the bytes of
code, comments and quoted identifiers, and string literals, each with its opening, its content and
its closing.  **The pieces are the statement** (`render_lex`).  Two statements are equal but for
the contents of their literals when their pieces are, once the contents are erased. -/

namespace GoNavi.Sqlaudit

open Scan GoNavi.Sql List

/-! ### Rules and pieces -/

/-- What differs between the lexers of databases. -/
structure LexicalRules where
  /-- A backslash in quotes escapes the byte behind it. -/
  backslashEscapes : Bool
  /-- So it does in a literal behind the word `E`. -/
  escapeStrings : Bool
  /-- Double quotes are those of a literal, not of an identifier. -/
  doubleQuotedStrings : Bool
  dollarQuotes : Bool
  /-- `q'[…]'`. -/
  alternativeQuotes : Bool
  hashComments : Bool
  dashCommentNeedsSpace : Bool
  nestedComments : Bool
  /-- A carriage return ends a line comment. -/
  returnEndsComment : Bool
  backtickIdentifiers : Bool
  bracketIdentifiers : Bool
  escapedBracketIdentifiers : Bool

inductive Opening where
  | single
  | double
  | dollar (tag : Text)
  | alternative (capital : Bool) (delimiter : UInt8)
  deriving DecidableEq

def Opening.text : Opening → Text
  | .single => [singleQuote]
  | .double => [doubleQuote]
  | .dollar tag => Sql.dollar :: (tag ++ [Sql.dollar])
  | .alternative capital delimiter =>
    [if capital then 'Q'.toUInt8 else 'q'.toUInt8, singleQuote, delimiter]

inductive Piece where
  | byte (c : UInt8)
  | fixed (t : Text)
  | literal (opening : Opening) (content closing : Text)
  deriving DecidableEq

def Piece.text : Piece → Text
  | .byte c => [c]
  | .fixed t => t
  | .literal opening content closing => opening.text ++ (content ++ closing)

def render (pieces : List Piece) : Text := pieces.flatMap Piece.text

/-- A literal loses its content. -/
def Piece.erase : Piece → Piece
  | .literal opening _ closing => .literal opening [] closing
  | piece => piece

/-! ### Ends -/

/-- The text up to a needle, the needle when it is there, and what is behind it. -/
def upTo (needle : Text) : Text → Text × Text × Text
  | [] => ([], [], [])
  | c :: t =>
    if needle.isPrefixOf (c :: t) then ([], needle, (c :: t).drop needle.length)
    else (c :: (upTo needle t).1, (upTo needle t).2)

/-- The content behind an opening quote, the closing quote when it is there, and what is behind
it. -/
def upToQuote (escapes : Bool) (quote : UInt8) : Text → Text × Text × Text
  | [] => ([], [], [])
  | [c] => if c = quote then ([], [c], []) else ([c], [], [])
  | c :: d :: t =>
    if (escapes ∧ c = backslash) ∨ (c = quote ∧ d = quote) then
      (c :: d :: (upToQuote escapes quote t).1, (upToQuote escapes quote t).2)
    else if c = quote then ([], [c], d :: t)
    else (c :: (upToQuote escapes quote (d :: t)).1, (upToQuote escapes quote (d :: t)).2)

/-- What is left behind a line comment. -/
def lineCommentRest (rules : LexicalRules) (t : Text) : Text :=
  t.dropWhile fun c => !(c = newline || (rules.returnEndsComment && c = carriageReturn))

/-- What is left behind a block comment, from behind its opening. -/
def blockCommentRest (rules : LexicalRules) (t : Text) : Text :=
  if rules.nestedComments then skipBlockComment 0 t else (upTo [star, slash] t).2.2

/-! ### One piece -/

/-- A byte of an identifier. -/
def isWordByte (c : UInt8) : Bool := isTagByte c || c = dollar || 0x80 ≤ c

/-- The tag of a dollar quote, and what is behind its opening. -/
def dollarOpening (t : Text) : Option (Text × Text) :=
  let isNameByte := fun c : UInt8 => isTagByte c || 0x80 ≤ c
  let tag := t.takeWhile isNameByte
  match t.dropWhile isNameByte with
  | [] => none
  | c :: content =>
    if c = dollar ∧ tag.head?.all (fun d => !isDigit d) then some (tag, content) else none

/-- The delimiter of an alternative quote, and what is behind its opening. -/
def alternativeOpening (word : Text) (c : UInt8) (t : Text) : Option (UInt8 × Text) :=
  match t with
  | quote :: delimiter :: content =>
    if (c = 'q'.toUInt8 ∨ c = 'Q'.toUInt8) ∧ quote = singleQuote ∧
        word ∈ [[], bytes "n", bytes "N"] then some (delimiter, content)
    else none
  | _ => none

/-- What is between a text and what is left of it. -/
def taken (t rest : Text) : Text := t.take (t.length - rest.length)

def literalPiece (opening : Opening) (span : Text × Text × Text) : List Piece × Text :=
  ([.literal opening span.1 span.2.1], span.2.2)

def fixedPiece (t rest : Text) : List Piece × Text := ([.fixed (taken t rest)], rest)

/-- The bytes of an identifier in its own quotes. -/
def bytePieces (t rest : Text) : List Piece × Text := ((taken t rest).map .byte, rest)

/-- A literal in alternative or dollar quotes. -/
def lexDelimited (rules : LexicalRules) (word : Text) (c : UInt8) (t : Text) :
    Option (List Piece × Text) :=
  match if rules.alternativeQuotes then alternativeOpening word c t else none with
  | some (delimiter, content) =>
    some (literalPiece (.alternative (c = 'Q'.toUInt8) delimiter)
      (upTo [closingDelimiter delimiter, singleQuote] content))
  | none =>
    match if rules.dollarQuotes ∧ c = dollar ∧ word = [] then dollarOpening t else none with
    | some (tag, content) =>
      some (literalPiece (.dollar tag) (upTo (Opening.dollar tag).text content))
    | none => none

/-- A comment, a literal or a quoted identifier at `c`, behind the bytes `word` of a word. -/
def lexRegion (rules : LexicalRules) (word : Text) (c : UInt8) (t : Text) :
    Option (List Piece × Text) :=
  if (c = dash ∧ t.head? = some dash ∧
        (rules.dashCommentNeedsSpace → t.tail.head?.all fun d => d ≤ 0x20)) ∨
      (rules.hashComments ∧ c = hash) then
    some (fixedPiece (c :: t) (lineCommentRest rules (c :: t)))
  else if c = slash ∧ t.head? = some star then
    some (fixedPiece (c :: t) (blockCommentRest rules t.tail))
  else if c = singleQuote then
    let escapes := rules.backslashEscapes ||
      (rules.escapeStrings && (word = bytes "e" || word = bytes "E"))
    some (literalPiece .single (upToQuote escapes singleQuote t))
  else if c = doubleQuote then
    let span := upToQuote rules.backslashEscapes doubleQuote t
    some (if rules.doubleQuotedStrings then literalPiece .double span
      else fixedPiece (c :: t) span.2.2)
  else if rules.backtickIdentifiers ∧ c = backtick then
    some (bytePieces (c :: t) (upToQuote false backtick t).2.2)
  else if rules.bracketIdentifiers ∧ c = leftBracket then
    some (bytePieces (c :: t) (if rules.escapedBracketIdentifiers
      then (upToQuote false rightBracket t).2.2 else (upTo [rightBracket] t).2.2))
  else lexDelimited rules word c t

/-- The pieces at `c`, the word in front of what is left, and what is left. -/
def lexStep (rules : LexicalRules) (word : Text) (c : UInt8) (t : Text) :
    List Piece × Text × Text :=
  match lexRegion rules word c t with
  | some (pieces, rest) => (pieces, [], rest)
  | none => ([.byte c], if isWordByte c then word ++ [c] else [], t)

def lexFrom (rules : LexicalRules) : ℕ → Text → Text → List Piece
  | fuel + 1, word, c :: t =>
    let (pieces, word, rest) := lexStep rules word c t
    pieces ++ lexFrom rules fuel word rest
  | _, _, _ => []

def lex (rules : LexicalRules) (t : Text) : List Piece := lexFrom rules t.length [] t

/-! ### The pieces are the statement -/

@[simp] theorem render_nil : render [] = [] := rfl

@[simp] theorem render_cons (piece : Piece) (pieces : List Piece) :
    render (piece :: pieces) = piece.text ++ render pieces := by
  simp [render]

@[simp] theorem render_append (pieces pieces' : List Piece) :
    render (pieces ++ pieces') = render pieces ++ render pieces' :=
  flatMap_append

theorem render_bytes (t : Text) : render (t.map .byte) = t := by
  induction t with
  | nil => rfl
  | cons c t ih => rw [map_cons, render_cons, ih]; rfl

variable {rest t : Text}

theorem taken_append (h : rest <:+ t) : taken t rest ++ rest = t := by
  obtain ⟨front, rfl⟩ := h
  simp [taken]

theorem upTo_append {needle : Text} (t : Text) :
    (upTo needle t).1 ++ ((upTo needle t).2.1 ++ (upTo needle t).2.2) = t := by
  induction t with
  | nil => rfl
  | cons c t ih =>
    rw [upTo]
    split
    · rename_i hprefix
      obtain ⟨behind, hbehind⟩ := List.isPrefixOf_iff_prefix.mp hprefix
      rw [← hbehind]
      simp
    · simp [ih]

theorem upToQuote_append (escapes : Bool) (quote : UInt8) : ∀ t : Text,
    (upToQuote escapes quote t).1 ++
      ((upToQuote escapes quote t).2.1 ++ (upToQuote escapes quote t).2.2) = t
  | [] => rfl
  | [c] => by
    rw [upToQuote]
    split_ifs
    · rfl
    · rfl
  | c :: d :: t => by
    have ih := upToQuote_append escapes quote t
    have ih' := upToQuote_append escapes quote (d :: t)
    rw [upToQuote]
    split_ifs with hpair hquote
    · simp [ih]
    · rw [hquote]
      rfl
    · simp [ih']

theorem upTo_suffix (needle t : Text) : (upTo needle t).2.2 <:+ t :=
  ⟨(upTo needle t).1 ++ (upTo needle t).2.1, by rw [append_assoc, upTo_append]⟩

theorem upToQuote_suffix (escapes : Bool) (quote : UInt8) (t : Text) :
    (upToQuote escapes quote t).2.2 <:+ t :=
  ⟨(upToQuote escapes quote t).1 ++ (upToQuote escapes quote t).2.1, by
    rw [append_assoc, upToQuote_append]⟩

theorem blockCommentRest_suffix (rules : LexicalRules) (t : Text) :
    blockCommentRest rules t <:+ t := by
  unfold blockCommentRest
  split
  · exact skipBlockComment_suffix 0 t
  · exact upTo_suffix _ t

variable {c : UInt8}

theorem lineCommentRest_suffix (rules : LexicalRules) (hc : c = dash ∨ c = hash) (t : Text) :
    lineCommentRest rules (c :: t) <:+ t := by
  rw [lineCommentRest, dropWhile_cons_of_pos]
  · exact List.dropWhile_suffix _
  · rcases hc with rfl | rfl
    · cases rules.returnEndsComment
      · decide
      · decide
    · cases rules.returnEndsComment
      · decide
      · decide

theorem dollarOpening_eq {tag content : Text} (h : dollarOpening t = some (tag, content)) :
    dollar :: t = (Opening.dollar tag).text ++ content := by
  unfold dollarOpening at h
  dsimp only at h
  split at h
  · cases h
  · rename_i c rest hrest
    split_ifs at h with hdollar
    cases h
    conv_lhs => rw [← takeWhile_append_dropWhile (l := t), hrest, hdollar.1]
    simp [Opening.text]

theorem alternativeOpening_eq {word : Text} {delimiter : UInt8} {content : Text}
    (h : alternativeOpening word c t = some (delimiter, content)) :
    c :: t = (Opening.alternative (c = 'Q'.toUInt8) delimiter).text ++ content := by
  unfold alternativeOpening at h
  split at h
  · rename_i quote delimiter' content'
    split_ifs at h with hopening
    cases h
    obtain ⟨hc, rfl, _⟩ := hopening
    rcases hc with rfl | rfl
    · rfl
    · rfl
  · cases h

/-- What the pieces of a step are: the bytes of code, or one piece that is closed unless it is the
last one. -/
inductive LexesTo (c : UInt8) (t : Text) : List Piece → Text → Prop where
  | bytes (rest : Text) (h : rest <:+ t) : LexesTo c t ((taken (c :: t) rest).map .byte) rest
  | fixed (rest : Text) (h : rest <:+ t) (hc : c < 0x80) :
    LexesTo c t [.fixed (taken (c :: t) rest)] rest
  | literal (opening : Opening) (content closing rest : Text)
    (h : c :: t = opening.text ++ (content ++ (closing ++ rest))) (hc : c < 0x80)
    (hclosing : closing = [] → rest = []) : LexesTo c t [.literal opening content closing] rest

theorem upTo_closing {needle : Text} (hne : needle ≠ []) (t : Text)
    (h : (upTo needle t).2.1 = []) : (upTo needle t).2.2 = [] := by
  induction t with
  | nil => rfl
  | cons c t ih =>
    rw [upTo] at h ⊢
    split
    · rename_i hprefix
      rw [if_pos hprefix] at h
      exact absurd h hne
    · rename_i hprefix
      rw [if_neg hprefix] at h
      exact ih h

theorem upToQuote_closing (escapes : Bool) (quote : UInt8) : ∀ t : Text,
    (upToQuote escapes quote t).2.1 = [] → (upToQuote escapes quote t).2.2 = []
  | [], _ => rfl
  | [c], _ => by
    rw [upToQuote]
    split_ifs
    · rfl
    · rfl
  | c :: d :: t, h => by
    have ih := upToQuote_closing escapes quote t
    have ih' := upToQuote_closing escapes quote (d :: t)
    rw [upToQuote] at h ⊢
    split_ifs at h ⊢
    · exact ih h
    · exact ih' h

variable {pieces : List Piece}

theorem lexDelimited_lexesTo {rules : LexicalRules} {word : Text}
    (h : lexDelimited rules word c t = some (pieces, rest)) :
    LexesTo c t pieces rest := by
  unfold lexDelimited at h
  split at h
  · rename_i delimiter content halternative
    cases h
    split_ifs at halternative
    have hopening := alternativeOpening_eq halternative
    refine .literal _ _ _ _ ?_ ?_ (upTo_closing (cons_ne_nil _ _) content)
    · rw [upTo_append]
      exact hopening
    · rw [Opening.text, cons_append] at hopening
      rw [(List.cons.inj hopening).1]
      split
      · decide
      · decide
  · split at h
    · rename_i tag content hdollar
      cases h
      split_ifs at hdollar with hopens
      obtain ⟨_, rfl, _⟩ := hopens
      refine .literal _ _ _ _ ?_ (by decide) (upTo_closing (cons_ne_nil _ _) content)
      rw [upTo_append]
      exact dollarOpening_eq hdollar
    · cases h

theorem lexRegion_lexesTo {rules : LexicalRules} {word : Text}
    (h : lexRegion rules word c t = some (pieces, rest)) :
    LexesTo c t pieces rest := by
  unfold lexRegion at h
  split_ifs at h with hline hblock hsingle hdouble hstrings hbacktick hbracket hescaped
  · cases h
    have hc : c = dash ∨ c = hash := hline.imp And.left And.right
    refine .fixed _ (lineCommentRest_suffix rules hc t) ?_
    rcases hc with rfl | rfl
    · decide
    · decide
  · cases h
    refine .fixed _ ((blockCommentRest_suffix rules _).trans (List.tail_suffix t)) ?_
    rw [hblock.1]
    decide
  · cases h
    subst hsingle
    refine .literal .single _ _ _ ?_ (by decide) (upToQuote_closing _ _ t)
    rw [upToQuote_append]
    rfl
  · cases h
    subst hdouble
    refine .literal .double _ _ _ ?_ (by decide) (upToQuote_closing _ _ t)
    rw [upToQuote_append]
    rfl
  · cases h
    subst hdouble
    exact .fixed _ (upToQuote_suffix _ _ t) (by decide)
  · cases h
    exact .bytes _ (upToQuote_suffix _ _ t)
  · cases h
    exact .bytes _ (upToQuote_suffix _ _ t)
  · cases h
    exact .bytes _ (upTo_suffix _ t)
  · exact lexDelimited_lexesTo h

theorem lexStep_lexesTo (rules : LexicalRules) (word : Text) (c : UInt8) (t : Text) :
    LexesTo c t (lexStep rules word c t).1 (lexStep rules word c t).2.2 := by
  unfold lexStep
  split
  · rename_i pieces rest hregion
    exact lexRegion_lexesTo hregion
  · have hbyte : taken (c :: t) t = [c] := by simp [taken]
    have hbytes := LexesTo.bytes (c := c) t (suffix_refl t)
    rwa [hbyte] at hbytes

theorem LexesTo.render (h : LexesTo c t pieces rest) :
    render pieces ++ rest = c :: t ∧ rest <:+ t := by
  cases h with
  | bytes rest h =>
    refine ⟨?_, h⟩
    rw [render_bytes, taken_append (h.trans (suffix_cons c t))]
  | fixed rest h hc =>
    refine ⟨?_, h⟩
    simpa [Piece.text] using taken_append (h.trans (suffix_cons c t))
  | literal opening content closing rest h hc hclosing =>
    refine ⟨by simp [Piece.text, h], ?_⟩
    have htail : t = opening.text.tail ++ (content ++ (closing ++ rest)) := by
      cases opening <;> exact (List.cons.inj h).2
    rw [htail]
    exact ⟨opening.text.tail ++ (content ++ closing), by simp⟩

theorem lexFrom_cons (rules : LexicalRules) (fuel : ℕ) (word : Text) (c : UInt8) (t : Text) :
    lexFrom rules (fuel + 1) word (c :: t) = (lexStep rules word c t).1 ++
      lexFrom rules fuel (lexStep rules word c t).2.1 (lexStep rules word c t).2.2 := rfl

theorem lexFrom_nil (rules : LexicalRules) (fuel : ℕ) (word : Text) :
    lexFrom rules fuel word [] = [] := by
  cases fuel <;> rfl

theorem render_lexFrom (rules : LexicalRules) : ∀ {fuel : ℕ} (word : Text) {t : Text},
    t.length ≤ fuel → render (lexFrom rules fuel word t) = t := by
  intro fuel
  induction fuel with
  | zero =>
    intro word t ht
    rw [eq_nil_of_length_eq_zero (Nat.le_zero.mp ht)]
    rfl
  | succ fuel ih =>
    intro word t ht
    cases t with
    | nil => rfl
    | cons c t =>
      obtain ⟨hrender, hsuffix⟩ := (lexStep_lexesTo rules word c t).render
      have hlength := hsuffix.length_le
      rw [length_cons] at ht
      rw [lexFrom_cons, render_append, ih _ (by omega), hrender]

/-- **The pieces are the statement.** -/
theorem render_lex (rules : LexicalRules) (t : Text) : render (lex rules t) = t :=
  render_lexFrom rules [] le_rfl

/-- Comments and identifiers start with an ASCII byte, and only the last literal is not closed. -/
def Closed : List Piece → Prop
  | [] => True
  | .byte _ :: pieces => Closed pieces
  | .fixed t :: pieces => t.head?.any (· < 0x80) = true ∧ Closed pieces
  | .literal _ _ closing :: pieces => (closing = [] → pieces = []) ∧ Closed pieces

theorem closed_bytes (h : Closed pieces) (t : Text) :
    Closed (t.map .byte ++ pieces) := by
  induction t with
  | nil => exact h
  | cons c t ih => exact ih

theorem LexesTo.closed {more : List Piece} (h : LexesTo c t pieces rest) (hmore : Closed more)
    (hlast : rest = [] → more = []) :
    Closed (pieces ++ more) := by
  cases h with
  | bytes rest h => exact closed_bytes hmore _
  | fixed rest h hc =>
    have hlength := h.length_le
    refine ⟨?_, hmore⟩
    rw [taken, length_cons, Nat.succ_sub hlength, take_succ_cons]
    simpa using hc
  | literal opening content closing rest h hc hclosing =>
    exact ⟨fun hempty => hlast (hclosing hempty), hmore⟩

theorem closed_lexFrom (rules : LexicalRules) : ∀ (fuel : ℕ) (word t : Text),
    Closed (lexFrom rules fuel word t) := by
  intro fuel
  induction fuel with
  | zero => intro word t; exact trivial
  | succ fuel ih =>
    intro word t
    cases t with
    | nil => exact trivial
    | cons c t =>
      rw [lexFrom_cons]
      refine (lexStep_lexesTo rules word c t).closed (ih _ _) ?_
      intro hnil
      rw [hnil, lexFrom_nil]

theorem closed_lex (rules : LexicalRules) (t : Text) : Closed (lex rules t) :=
  closed_lexFrom rules _ _ _

end GoNavi.Sqlaudit
