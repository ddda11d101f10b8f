import GoNavi.Scan.Lexer
import GoNavi.Sql.Closing
import GoNavi.Sql.Control
import GoNavi.Sql.Postgres

/-! # The repair of doubled quotes

What `sanitizeSQLForPgLike` does to a text.  Its loop is a lexer (`writes_identifierFixer`): it
copies comments, strings, quoted names and single bytes, and of a name in doubled quotes it keeps
one quote on each side and the name without blanks.

* `sanitize_sanitize`: one pass settles.  A chunk that was written is read again as itself, since
  what is written behind it looks like the text behind it (`alike_written`).
* `Repair.keepsData_iff`: a repair drops no byte of a comment, a string or a dollar-quoted body if
  and only if PostgreSQL stands outside of them on both sides of the name.

**Main theorem** (`sanitizesSafely_iff`): the data of a query stays and a second pass changes
nothing if and only if all repairs lie outside of data.  The loop does not know escape strings,
nested comments and `$` inside words, and a name may hold `--` or open a dollar quote, so it does
touch data (`sanitize_touches_string`). -/

namespace GoNavi.Sql

open Scan List Option

variable {unicode : UnicodeTables} {seen before name rest t : Text}

/-! ### What a repair replaces -/

theorem Blank.mem_spaceRunes {t : Text} (h : Blank t) {c : UInt8} (hc : c ∈ t) :
    c ∈ spaceRunes.flatten := by
  obtain ⟨rs, hrs, rfl⟩ := h
  obtain ⟨r, hr, hcr⟩ := mem_flatten.mp hc
  exact mem_flatten.mpr ⟨r, hrs r hr, hcr⟩

theorem doubleQuote_not_mem_of_looksLikeIdentifierContent {s : Text}
    (h : looksLikeIdentifierContent unicode s = true) : doubleQuote ∉ s := by
  intro hmem
  rw [← flatten_runes s] at hmem
  obtain ⟨r, hr, hquote⟩ := mem_flatten.mp hmem
  unfold looksLikeIdentifierContent at h
  have hlike := all_eq_true.mp ((Bool.and_eq_true _ _).mp h).2 r hr
  match r, isRune_of_mem s r hr with
  | [c], _ =>
    rw [← mem_singleton.mp hquote] at hlike
    exact absurd hlike (by simp only [isKeywordRune]; decide)
  | c :: d :: u, hrune => exact absurd (hrune.le_of_mem _ hquote) (by decide)

/-- The loop of `tryFixDoubleDoubleQuotedIdent` stops at closing quotes, two at least, behind a
content on one line that is trimmed to a name. -/
theorem fixedIdentifier_eq_some (h : fixedIdentifier unicode seen t = some (name, rest)) :
    ∃ content closing, t = content ++ closing ++ rest ∧ 2 ≤ closing.length ∧
      (∀ c ∈ closing, c = doubleQuote) ∧ rest.head? ≠ some doubleQuote ∧
      (∀ c ∈ content, c ≠ newline ∧ c ≠ 0x0D) ∧ name = trimSpace (seen ++ content) ∧
      looksLikeIdentifierContent unicode name = true := by
  induction t generalizing seen with
  | nil => cases h
  | cons c t ih =>
    rw [fixedIdentifier] at h
    split_ifs at h with hquote hdouble hlike hline
    · cases h
      have hsplit := takeWhile_append_dropWhile (p := (· == doubleQuote)) (l := t)
      refine ⟨[], c :: t.takeWhile (· == doubleQuote), ?_, ?_, ?_, ?_, by simp, by simp, hlike⟩
      · rw [nil_append, cons_append, hsplit]
      · cases t with
        | nil => cases hdouble
        | cons d t =>
          cases hdouble
          simp
      · intro d hd
        rcases mem_cons.mp hd with rfl | hd
        · exact hquote
        · simpa using mem_takeWhile_imp hd
      · intro hhead
        have hnot := head?_dropWhile_not (· == doubleQuote) t
        rw [hhead] at hnot
        simp at hnot
    all_goals
      obtain ⟨content, closing, rfl, hlen, hclosing, hrest, hcontent, hname, hlike⟩ := ih h
      refine ⟨c :: content, closing, rfl, hlen, hclosing, hrest, ?_, by simpa using hname, hlike⟩
      intro d hd
      rcases mem_cons.mp hd with rfl | hd
    · rw [hquote]
      decide
    · exact hcontent d hd
    · exact not_or.mp hline
    · exact hcontent d hd

/-- The quotes in front of a name, the text between them and the next quotes, and these. -/
def openingQuotes (t : Text) : Text := t.takeWhile (· == doubleQuote)

def quotedContent (t : Text) : Text := (t.dropWhile (· == doubleQuote)).takeWhile (· != doubleQuote)

def closingQuotes (t : Text) : Text :=
  ((t.dropWhile (· == doubleQuote)).dropWhile (· != doubleQuote)).takeWhile (· == doubleQuote)

/-- What a repair replaces. -/
structure Repair (unicode : UnicodeTables) (t name rest : Text) : Prop where
  split : t = openingQuotes t ++ quotedContent t ++ closingQuotes t ++ rest
  opening : openingQuotes t ≠ []
  odd : (openingQuotes t).length % 2 = 1
  closing : 2 ≤ (closingQuotes t).length
  rest_head : rest.head? ≠ some doubleQuote
  line : ∀ c ∈ quotedContent t, c ≠ newline ∧ c ≠ 0x0D
  name_eq : name = trimSpace (quotedContent t)
  like : looksLikeIdentifierContent unicode name = true

theorem eq_doubleQuote_of_mem_openingQuotes {c : UInt8} (h : c ∈ openingQuotes t) :
    c = doubleQuote := by
  simpa using mem_takeWhile_imp h

theorem eq_doubleQuote_of_mem_closingQuotes {c : UInt8} (h : c ∈ closingQuotes t) :
    c = doubleQuote := by
  simpa using mem_takeWhile_imp h

theorem repair_of_tryFix (h : tryFixDoubleDoubleQuotedIdent unicode before t = some (name, rest)) :
    Repair unicode t name rest := by
  unfold tryFixDoubleDoubleQuotedIdent at h
  dsimp only at h
  split_ifs at h with hbefore hquotes
  obtain ⟨hne, hodd⟩ := not_or.mp hquotes
  obtain ⟨content, closing, hsplit, hlen, hclosing, hrest, hline, hname, hlike⟩ :=
    fixedIdentifier_eq_some h
  rw [nil_append] at hname
  have hfree : doubleQuote ∉ content := by
    obtain ⟨v, w, hv, hw, hvw⟩ := trimSpace_spec content
    have hblank : doubleQuote ∉ spaceRunes.flatten := by decide
    rw [hvw, ← hname]
    simp only [mem_append, not_or]
    exact ⟨⟨fun hmem => hblank (Blank.mem_spaceRunes hv hmem),
      doubleQuote_not_mem_of_looksLikeIdentifierContent hlike⟩,
      fun hmem => hblank (Blank.mem_spaceRunes hw hmem)⟩
  obtain ⟨d, closing', rfl⟩ := exists_cons_of_ne_nil (l := closing) (by
    rintro rfl
    cases hlen)
  have hd : d = doubleQuote := hclosing d mem_cons_self
  have hcontent := @takeWhile_dropWhile_append (· != doubleQuote) content (d :: closing' ++ rest)
    (fun c hc => bne_iff_ne.mpr fun h => hfree (h ▸ hc)) (fun c hc => by cases hc; simp [hd])
  have hclose := @takeWhile_dropWhile_append (· == doubleQuote) (d :: closing') rest
    (fun c hc => by simpa using hclosing c hc)
    (fun c hc => beq_eq_false_iff_ne.mpr fun h => hrest (h ▸ hc))
  have hinner : t.dropWhile (· == doubleQuote) = content ++ (d :: closing' ++ rest) := by
    rw [hsplit, append_assoc]
  have hquoted : quotedContent t = content := by rw [quotedContent, hinner, hcontent.1]
  have hclosed : closingQuotes t = d :: closing' := by
    rw [closingQuotes, hinner, hcontent.2, hclose.1]
  refine ⟨?_, hne, Nat.mod_two_ne_zero.mp hodd, ?_, hrest, ?_, ?_, hlike⟩
  · rw [hquoted, hclosed, append_assoc, append_assoc, ← hinner]
    exact takeWhile_append_dropWhile.symm
  · rwa [hclosed]
  · rwa [hquoted]
  · rwa [hquoted]

/-! ### The loop as a lexer -/

/-- The text behind the comment, string, quoted name or single byte that is copied in one step. -/
def skipCopied (c : UInt8) (t : Text) : Text :=
  if c = dash ∧ t.head? = some dash then afterLine t.tail
  else if c = slash ∧ t.head? = some star then afterBlock t.tail
  else if c = singleQuote then skipSQLDelimited singleQuote t
  else if c = dollar then (afterDollarQuote t).getD t
  else if c = doubleQuote then skipSQLDelimited doubleQuote t
  else t

theorem skipCopied_suffix (c : UInt8) (t : Text) : skipCopied c t <:+ t := by
  unfold skipCopied
  split_ifs
  · exact (afterLine_suffix _).trans (List.tail_suffix _)
  · exact (afterBlock_suffix _).trans (List.tail_suffix _)
  · exact skipSQLDelimited_suffix _ _
  · cases hquote : afterDollarQuote t with
    | none => exact suffix_refl _
    | some u => exact afterDollarQuote_suffix hquote
  · exact skipSQLDelimited_suffix _ _
  · exact suffix_refl _

/-- The bytes of a text with the verdict whether they are written. -/
def kept (t : Text) : List (UInt8 × Bool) := t.map fun c => (c, true)

def dropped (t : Text) : List (UInt8 × Bool) := t.map fun c => (c, false)

/-- What is written of one byte. -/
def writeEdit (e : UInt8 × Bool) : Text := if e.2 then [e.1] else []

/-- White space at both ends is dropped. -/
def trimEdits (content : Text) : List (UInt8 × Bool) :=
  let left := trimLeft content
  dropped (content.take (content.length - left.length)) ++ kept (trimRight left) ++
    dropped (left.drop (trimRight left).length)

/-- A repair keeps the first quote on each side and the trimmed content. -/
def repairEdits (t : Text) : List (UInt8 × Bool) :=
  kept [doubleQuote] ++ dropped (openingQuotes t) ++ trimEdits (quotedContent t) ++
    kept [doubleQuote] ++ dropped (closingQuotes t).tail

/-- The name that is repaired at `c` with `t` behind it, and the text behind its quotes. -/
def repairAt (unicode : UnicodeTables) (c : UInt8) (t : Text) : Option (Text × Text) :=
  if c = doubleQuote then tryFixDoubleDoubleQuotedIdent unicode [] t else none

/-- The loop of `fixBrokenDoubleDoubleQuotedIdent`, with a verdict for every byte. -/
def identifierEdits (unicode : UnicodeTables) : Lexer UInt8 (UInt8 × Bool) where
  next c t :=
    match repairAt unicode c t with
    | some (_, rest) => (repairEdits t, rest)
    | none => (kept ((c :: t).take (t.length + 1 - (skipCopied c t).length)), skipCopied c t)
  next_suffix := by
    intro c t
    split
    · next name rest hfix =>
      unfold repairAt at hfix
      split_ifs at hfix
      exact tryFixDoubleDoubleQuotedIdent_suffix hfix
    · exact skipCopied_suffix c t

/-- The same loop, with the text it writes. -/
def identifierWriter (unicode : UnicodeTables) : Lexer UInt8 UInt8 :=
  (identifierEdits unicode).post writeEdit

@[simp] theorem flatMap_writeEdit_kept (t : Text) : (kept t).flatMap writeEdit = t := by
  induction t with
  | nil => rfl
  | cons c t ih => rw [kept, map_cons, flatMap_cons, ← kept, ih]; rfl

@[simp] theorem flatMap_writeEdit_dropped (t : Text) : (dropped t).flatMap writeEdit = [] := by
  induction t with
  | nil => rfl
  | cons c t ih => rw [dropped, map_cons, flatMap_cons, ← dropped, ih]; rfl

@[simp] theorem map_fst_kept (t : Text) : (kept t).map Prod.fst = t := by
  simp [kept, Function.comp_def]

@[simp] theorem map_fst_dropped (t : Text) : (dropped t).map Prod.fst = t := by
  simp [dropped, Function.comp_def]

@[simp] theorem length_kept (t : Text) : (kept t).length = t.length := by simp [kept]

@[simp] theorem length_dropped (t : Text) : (dropped t).length = t.length := by simp [dropped]

theorem trimEdits_spec (content : Text) :
    ∃ v w, content = v ++ trimSpace content ++ w ∧ Blank v ∧ Blank w ∧
      trimEdits content = dropped v ++ kept (trimSpace content) ++ dropped w := by
  obtain ⟨v, hv, hleft⟩ := trimLeft_spec content
  obtain ⟨w, hw, hright⟩ := trimRight_spec (trimLeft content)
  refine ⟨v, w, ?_, hv, hw, ?_⟩
  · rw [append_assoc, trimSpace, ← hright]
    exact hleft
  · have hlen := congrArg List.length hleft
    rw [length_append] at hlen
    have hv' : content.take (content.length - (trimLeft content).length) = v := by
      rw [hlen, Nat.add_sub_cancel]
      conv_lhs => rw [hleft]
      exact take_left
    have hw' : (trimLeft content).drop (trimRight (trimLeft content)).length = w :=
      (congrArg (List.drop (trimRight (trimLeft content)).length) hright).trans drop_left
    simp only [trimEdits, hv', hw', trimSpace]

theorem repairAt_eq_some {c : UInt8} (h : repairAt unicode c t = some (name, rest)) :
    c = doubleQuote ∧ Repair unicode t name rest := by
  unfold repairAt at h
  split_ifs at h with hc
  exact ⟨hc, repair_of_tryFix h⟩

theorem Repair.closing_eq (h : Repair unicode t name rest) :
    closingQuotes t = doubleQuote :: (closingQuotes t).tail := by
  cases hq : closingQuotes t with
  | nil => exact absurd h.closing (by simp [hq])
  | cons c q =>
    rw [@eq_doubleQuote_of_mem_closingQuotes t c (by simp [hq])]
    rfl

theorem Repair.source (h : Repair unicode t name rest) :
    (repairEdits t).map Prod.fst ++ rest = doubleQuote :: t := by
  obtain ⟨v, w, hcontent, -, -, htrim⟩ := trimEdits_spec (quotedContent t)
  simp only [repairEdits, htrim, map_append, map_fst_kept, map_fst_dropped, ← hcontent]
  conv_rhs => rw [h.split, h.closing_eq]
  simp

theorem Repair.written (h : Repair unicode t name rest) :
    (repairEdits t).flatMap writeEdit = doubleQuote :: name ++ [doubleQuote] := by
  obtain ⟨v, w, hcontent, -, -, htrim⟩ := trimEdits_spec (quotedContent t)
  simp [repairEdits, htrim, h.name_eq]

/-! ### Chunks -/

theorem afterDollarQuote_eq (t : Text) : afterDollarQuote t =
    if dollarTag isSQLKeywordByte t = [] then none else some (afterTag isSQLKeywordByte t) := rfl

theorem afterDollarQuote_closes {r : Text} (h : afterDollarQuote t = some r) (hr : r ≠ []) :
    ∃ a, t = a ++ dollar :: r ∧ ∀ u, afterDollarQuote (a ++ dollar :: u) = some u := by
  rw [afterDollarQuote_eq] at h
  split_ifs at h with htag
  cases h
  obtain ⟨a, ha, hclose⟩ := afterTag_closes (by decide) htag hr
  refine ⟨a, ha, ?_⟩
  intro u
  obtain ⟨htag, hafter⟩ := hclose u
  rw [afterDollarQuote_eq, if_neg htag, hafter]

/-- Two texts that look alike from outside: the same first byte, and the same byte behind the
word they begin with. -/
structure Alike (t u : Text) : Prop where
  head : u.head? = t.head?
  behind : (u.dropWhile isSQLKeywordByte).head? = (t.dropWhile isSQLKeywordByte).head?

theorem afterDollarQuote_eq_none_iff {t : Text} :
    afterDollarQuote t = none ↔ (t.dropWhile isSQLKeywordByte).head? ≠ some dollar := by
  simp only [afterDollarQuote, parseDollarTag]
  split_ifs with htag <;> simp_all

section copied

variable {c : UInt8}

theorem skipCopied_line (h : t.head? = some dash) : skipCopied dash t = afterLine t.tail :=
  if_pos ⟨rfl, h⟩

theorem skipCopied_block (h : t.head? = some star) : skipCopied slash t = afterBlock t.tail := by
  rw [skipCopied, if_neg (fun hd => absurd hd.1 (by decide)), if_pos ⟨rfl, h⟩]

theorem skipCopied_single (t : Text) :
    skipCopied singleQuote t = skipSQLDelimited singleQuote t := rfl

theorem skipCopied_double (t : Text) :
    skipCopied doubleQuote t = skipSQLDelimited doubleQuote t := rfl

theorem skipCopied_dollar (t : Text) : skipCopied dollar t = (afterDollarQuote t).getD t := rfl

theorem skipCopied_plain (hdash : ¬ (c = dash ∧ t.head? = some dash))
    (hslash : ¬ (c = slash ∧ t.head? = some star)) (hsingle : c ≠ singleQuote)
    (hdollar : c ≠ dollar) (hdouble : c ≠ doubleQuote) : skipCopied c t = t := by
  rw [skipCopied, if_neg hdash, if_neg hslash, if_neg hsingle, if_neg hdollar, if_neg hdouble]

/-- What is copied ends where it ends in front of every text that looks alike; it does not end
between two quotes. -/
theorem skipCopied_closes (h : skipCopied c t ≠ []) :
    ∃ a, t = a ++ skipCopied c t ∧
      ((c :: a).getLast? = some doubleQuote → (skipCopied c t).head? ≠ some doubleQuote) ∧
      ∀ u, Alike (skipCopied c t) u → skipCopied c (a ++ u) = u := by
  by_cases hdash : c = dash ∧ t.head? = some dash
  · obtain ⟨rfl, hhead⟩ := hdash
    obtain ⟨t, rfl⟩ := head?_eq_some_iff.mp hhead
    rw [skipCopied_line hhead] at h ⊢
    obtain ⟨a, ha, hskip⟩ := afterLine_closes h
    refine ⟨dash :: a ++ [newline], by simpa using ha, ?_, fun u _ => ?_⟩
    · rw [← cons_append, getLast?_concat]
      exact fun h => absurd h (by decide)
    · rw [skipCopied_line rfl]
      simpa using hskip u
  by_cases hslash : c = slash ∧ t.head? = some star
  · obtain ⟨rfl, hhead⟩ := hslash
    obtain ⟨t, rfl⟩ := head?_eq_some_iff.mp hhead
    rw [skipCopied_block hhead] at h ⊢
    obtain ⟨a, ha, hskip⟩ := afterBlock_closes h
    refine ⟨star :: a ++ [slash], by simpa using ha, ?_, fun u _ => ?_⟩
    · rw [← cons_append, getLast?_concat]
      exact fun h => absurd h (by decide)
    · rw [skipCopied_block rfl]
      simpa using hskip u
  by_cases hsingle : c = singleQuote
  · subst hsingle
    rw [skipCopied_single] at h ⊢
    obtain ⟨a, ha, hhead, hskip⟩ := skipSQLDelimited_closes h
    refine ⟨a ++ [singleQuote], by simpa using ha, ?_, fun u hu => ?_⟩
    · rw [← cons_append, getLast?_concat]
      exact fun h => absurd h (by decide)
    · rw [skipCopied_single]
      simpa using hskip u (hu.head ▸ hhead)
  by_cases hdollar : c = dollar
  · subst hdollar
    rw [skipCopied_dollar] at h ⊢
    cases hquote : afterDollarQuote t with
    | none =>
      rw [hquote, getD_none] at h
      refine ⟨[], rfl, fun h => absurd h (by decide), fun u hu => ?_⟩
      have hnone : afterDollarQuote u = none := by
        rw [afterDollarQuote_eq_none_iff] at hquote ⊢
        rwa [hu.behind]
      rw [skipCopied_dollar, nil_append, hnone, getD_none]
    | some r =>
      rw [hquote, getD_some] at h
      obtain ⟨a, ha, hskip⟩ := afterDollarQuote_closes hquote h
      refine ⟨a ++ [dollar], by simpa using ha, ?_, fun u _ => ?_⟩
      · rw [← cons_append, getLast?_concat]
        exact fun h => absurd h (by decide)
      · rw [skipCopied_dollar, append_assoc, singleton_append, hskip u, getD_some]
  by_cases hdouble : c = doubleQuote
  · subst hdouble
    rw [skipCopied_double] at h ⊢
    obtain ⟨a, ha, hhead, hskip⟩ := skipSQLDelimited_closes h
    refine ⟨a ++ [doubleQuote], by simpa using ha, fun _ => hhead, fun u hu => ?_⟩
    rw [skipCopied_double]
    simpa using hskip u (hu.head ▸ hhead)
  · rw [skipCopied_plain hdash hslash hsingle hdollar hdouble]
    refine ⟨[], rfl, fun hlast => absurd (some.inj hlast) hdouble, fun u hu => ?_⟩
    rw [nil_append]
    rw [← hu.head] at hdash hslash
    exact skipCopied_plain hdash hslash hsingle hdollar hdouble

/-- The chunk that is copied, up to the end of the text or not. -/
theorem skipCopied_append (c : UInt8) (t : Text) :
    ∃ a, t = a ++ skipCopied c t ∧
      ((c :: a).getLast? = some doubleQuote → (skipCopied c t).head? ≠ some doubleQuote) ∧
      ∀ u, Alike (skipCopied c t) u → skipCopied c (a ++ u) = u := by
  by_cases h : skipCopied c t = []
  · refine ⟨t, by rw [h, append_nil], fun _ => by simp [h], fun u hu => ?_⟩
    have hnil : u = [] := by
      have hhead := hu.head
      rwa [h, head?_nil, head?_eq_none_iff] at hhead
    rw [hnil, append_nil, h]
  · exact skipCopied_closes h

end copied

/-! ### One pass of the loop -/

theorem next_copied {c : UInt8} (h : repairAt unicode c t = none) :
    (identifierEdits unicode).next c t =
      (kept ((c :: t).take (t.length + 1 - (skipCopied c t).length)), skipCopied c t) := by
  simp only [identifierEdits, h]

theorem next_repaired {c : UInt8} (h : repairAt unicode c t = some (name, rest)) :
    (identifierEdits unicode).next c t = (repairEdits t, rest) := by
  simp only [identifierEdits, h]

theorem writer_copied {c : UInt8} {a : Text} (h : repairAt unicode c t = none)
    (ha : t = a ++ skipCopied c t) :
    (identifierWriter unicode).next c t = (c :: a, skipCopied c t) := by
  have htake : (c :: t).take (t.length + 1 - (skipCopied c t).length) = c :: a := by
    have hlen := congrArg List.length ha
    rw [length_append] at hlen
    rw [show t.length + 1 - (skipCopied c t).length = (c :: a).length by simp; omega]
    conv_lhs => rw [ha, ← cons_append]
    exact take_left
  simp only [identifierWriter, Lexer.post, next_copied h, flatMap_writeEdit_kept, htake]

theorem writer_repaired {c : UInt8} (h : repairAt unicode c t = some (name, rest)) :
    (identifierWriter unicode).next c t = (doubleQuote :: name ++ [doubleQuote], rest) := by
  simp only [identifierWriter, Lexer.post, next_repaired h, (repairAt_eq_some h).2.written]

/-- A text is written up to a quote, or goes on without one. -/
def QuoteClosed (out t : Text) : Prop :=
  out.getLast? = some doubleQuote → t.head? ≠ some doubleQuote

/-- The loop stands behind a whole run of quotes, so the byte in front of a repair is none. -/
theorem tryFix_before (hout : before.getLast? ≠ some doubleQuote) :
    tryFixDoubleDoubleQuotedIdent unicode before t =
      tryFixDoubleDoubleQuotedIdent unicode [] t := by
  unfold tryFixDoubleDoubleQuotedIdent
  rw [if_neg hout]
  rfl

theorem identifierFixer_copied {c : UInt8} {out : Text} (hout : QuoteClosed out (c :: t))
    (h : repairAt unicode c t = none) :
    (identifierFixer unicode).step out c t =
      some (out ++ (c :: t).take (t.length + 1 - (skipCopied c t).length), skipCopied c t) := by
  unfold skipCopied
  simp only [identifierFixer]
  split_ifs with hdash hslash hsingle hdollar hdouble
  · rfl
  · rfl
  · rfl
  · rfl
  · have hlast : out.getLast? ≠ some doubleQuote := fun hl => hout hl (by rw [hdouble]; rfl)
    rw [repairAt, if_pos hdouble] at h
    rw [tryFix_before hlast, h]
  · rfl

theorem identifierFixer_repaired {c : UInt8} {out : Text} (hout : QuoteClosed out (c :: t))
    (h : repairAt unicode c t = some (name, rest)) :
    (identifierFixer unicode).step out c t =
      some (out ++ (doubleQuote :: name ++ [doubleQuote]), rest) := by
  have hdouble := (repairAt_eq_some h).1
  subst hdouble
  have hlast : out.getLast? ≠ some doubleQuote := fun hl => hout hl rfl
  rw [repairAt, if_pos rfl, ← tryFix_before hlast] at h
  have hfix : (identifierFixer unicode).step out doubleQuote t =
      match tryFixDoubleDoubleQuotedIdent unicode out t with
      | some (name, rest) => some (out ++ [doubleQuote] ++ name ++ [doubleQuote], rest)
      | none => some (out ++ (doubleQuote :: t).take (t.length + 1 -
          (skipSQLDelimited doubleQuote t).length), skipSQLDelimited doubleQuote t) := rfl
  rw [hfix, h]
  simp

/-- **The loop writes what the lexer writes.** -/
theorem writes_identifierFixer (unicode : UnicodeTables) :
    (identifierWriter unicode).Writes (identifierFixer unicode) QuoteClosed where
  step := by
    intro out c t hout
    cases h : repairAt unicode c t with
    | none =>
      rw [identifierFixer_copied hout h]
      simp only [identifierWriter, Lexer.post, next_copied h, flatMap_writeEdit_kept]
    | some p => rw [identifierFixer_repaired hout h, writer_repaired h]
  keep := by
    intro out c t hout
    cases h : repairAt unicode c t with
    | none =>
      obtain ⟨a, ha, hlast, -⟩ := skipCopied_append c t
      rw [writer_copied h ha]
      intro hquote
      rw [getLast?_append_of_ne_nil _ (cons_ne_nil c a)] at hquote
      exact hlast hquote
    | some p =>
      rw [writer_repaired h]
      exact fun _ => (repairAt_eq_some h).2.rest_head

theorem quoteClosed_nil (t : Text) : QuoteClosed [] t := fun h => absurd h (by simp)

theorem identifierFixer_run (unicode : UnicodeTables) (t : Text) :
    ((identifierFixer unicode).run [] t).1 = (identifierWriter unicode).lex t := by
  rw [(writes_identifierFixer unicode).run_eq t (quoteClosed_nil t), nil_append]

theorem map_fst_identifierEdits (unicode : UnicodeTables) (t : Text) :
    ((identifierEdits unicode).lex t).map Prod.fst = t := by
  induction t using (identifierEdits unicode).lex_induction with
  | nil => rfl
  | cons c t ih =>
    rw [Lexer.lex_cons, map_append, ih]
    cases h : repairAt unicode c t with
    | none =>
      have hchunk := (identifierEdits unicode).chunk_append c t
      rw [Lexer.chunk] at hchunk
      rw [next_copied h] at hchunk ⊢
      rw [map_fst_kept]
      exact hchunk
    | some p =>
      rw [next_repaired h, (repairAt_eq_some h).1]
      exact (repairAt_eq_some h).2.source

/-! ### One pass is enough -/

theorem looksLike_ne_nil (h : looksLikeIdentifierContent unicode name = true) : name ≠ [] := by
  rintro rfl
  cases h

theorem head?_written (unicode : UnicodeTables) (t : Text) :
    ((identifierWriter unicode).lex t).head? = t.head? := by
  cases t with
  | nil => rfl
  | cons c t =>
    rw [Lexer.lex_cons]
    cases h : repairAt unicode c t with
    | none =>
      obtain ⟨a, ha, -⟩ := skipCopied_append c t
      rw [writer_copied h ha]
      rfl
    | some p =>
      rw [writer_repaired h, (repairAt_eq_some h).1]
      rfl

theorem ne_of_isSQLKeywordByte {c d : UInt8} (hc : isSQLKeywordByte c = true)
    (hd : isSQLKeywordByte d = false) : c ≠ d := by
  rintro rfl
  rw [hc] at hd
  cases hd

theorem alike_written (unicode : UnicodeTables) (t : Text) :
    Alike t ((identifierWriter unicode).lex t) := by
  refine ⟨head?_written unicode t, ?_⟩
  induction t with
  | nil => rfl
  | cons c t ih =>
    by_cases hword : isSQLKeywordByte c = true
    · have hplain : skipCopied c t = t := skipCopied_plain
        (fun h => ne_of_isSQLKeywordByte hword (by decide) h.1)
        (fun h => ne_of_isSQLKeywordByte hword (by decide) h.1)
        (ne_of_isSQLKeywordByte hword (by decide)) (ne_of_isSQLKeywordByte hword (by decide))
        (ne_of_isSQLKeywordByte hword (by decide))
      have hnone : repairAt unicode c t = none :=
        if_neg (ne_of_isSQLKeywordByte hword (by decide))
      rw [Lexer.lex_cons, @writer_copied unicode t c [] hnone (by rw [hplain]; rfl), hplain,
        singleton_append, dropWhile_cons_of_pos hword, dropWhile_cons_of_pos hword]
      exact ih
    · obtain ⟨u, hu⟩ := head?_eq_some_iff.mp (head?_written unicode (c :: t))
      rw [hu, dropWhile_cons_of_neg hword, dropWhile_cons_of_neg hword]
      rfl

theorem fixedIdentifier_eq_none (h : doubleQuote ∈ seen) :
    fixedIdentifier unicode seen t = none := by
  cases hf : fixedIdentifier unicode seen t with
  | none => rfl
  | some p =>
    obtain ⟨content, closing, -, -, -, -, -, hname, hlike⟩ := fixedIdentifier_eq_some hf
    obtain ⟨v, w, hv, hw, hvw⟩ := trimSpace_spec (seen ++ content)
    have hblank : doubleQuote ∉ spaceRunes.flatten := by decide
    have hmem : doubleQuote ∈ seen ++ content := mem_append_left content h
    rw [hvw, mem_append, mem_append] at hmem
    rcases hmem with (hmem | hmem) | hmem
    · exact absurd (Blank.mem_spaceRunes hv hmem) hblank
    · exact absurd (hname ▸ hmem) (doubleQuote_not_mem_of_looksLikeIdentifierContent hlike)
    · exact absurd (Blank.mem_spaceRunes hw hmem) hblank

/-- Whether a content is a name does not depend on what a copied chunk stands in front of. -/
theorem fixedIdentifier_append {a u v : Text} (hhead : u.head? = v.head?)
    (huv : ∀ seen, (fixedIdentifier unicode seen u).isSome →
      (fixedIdentifier unicode seen v).isSome)
    (h : (fixedIdentifier unicode seen (a ++ u)).isSome) :
    (fixedIdentifier unicode seen (a ++ v)).isSome := by
  induction a generalizing seen with
  | nil => exact huv seen h
  | cons c a ih =>
    have hnext : (a ++ u).head? = (a ++ v).head? := by
      cases a with
      | nil => exact hhead
      | cons d a => rfl
    rw [cons_append, fixedIdentifier] at h ⊢
    rw [← hnext]
    split_ifs at h ⊢ with hquote hdouble hlike hline
    · rfl
    · exact h
    · exact ih h
    · exact h
    · exact ih h

/-- A content that is a name in what is written is one in the text. -/
theorem fixedIdentifier_of_written
    (h : (fixedIdentifier unicode seen ((identifierWriter unicode).lex t)).isSome) :
    (fixedIdentifier unicode seen t).isSome := by
  induction t using (identifierWriter unicode).lex_induction generalizing seen with
  | nil => exact h
  | cons c t ih =>
    rw [Lexer.lex_cons] at h
    cases hrepair : repairAt unicode c t with
    | none =>
      obtain ⟨a, ha, -⟩ := skipCopied_append c t
      rw [writer_copied hrepair ha] at h ih
      have hsplit : c :: t = c :: a ++ skipCopied c t := by rw [cons_append, ← ha]
      rw [hsplit]
      exact fixedIdentifier_append (head?_written unicode _) (fun _ => ih) h
    | some p =>
      obtain ⟨name, rest⟩ := p
      have hlike := (repairAt_eq_some hrepair).2.like
      rw [writer_repaired hrepair] at h
      obtain ⟨n, name, rfl⟩ := exists_cons_of_ne_nil (looksLike_ne_nil hlike)
      have hn : n ≠ doubleQuote := fun hn =>
        doubleQuote_not_mem_of_looksLikeIdentifierContent hlike (hn ▸ mem_cons_self)
      simp only [cons_append] at h
      rw [fixedIdentifier, if_pos rfl, if_neg (by simpa using hn),
        fixedIdentifier_eq_none (by simp)] at h
      cases h

theorem tryFix_isSome_iff :
    (tryFixDoubleDoubleQuotedIdent unicode [] t).isSome ↔
      (openingQuotes t).length % 2 = 1 ∧
        (fixedIdentifier unicode [] (t.dropWhile (· == doubleQuote))).isSome := by
  have hopening : openingQuotes t = t.takeWhile (· == doubleQuote) := rfl
  unfold tryFixDoubleDoubleQuotedIdent
  rw [if_neg (by simp), ← hopening]
  split_ifs with h
  · refine iff_of_false (by simp) fun hp => ?_
    rcases h with h | h
    · rw [h] at hp
      exact absurd hp.1 (by decide)
    · omega
  · exact ⟨fun hp => ⟨by omega, hp⟩, fun hp => hp.2⟩

theorem skipSQLDelimited_odd {r : Text} (hr : r.head? ≠ some doubleQuote) : ∀ {q : Text},
    (∀ c ∈ q, c = doubleQuote) → q.length % 2 = 1 → skipSQLDelimited doubleQuote (q ++ r) = r
  | [], _, h => absurd h (by decide)
  | [c], hq, _ => by
    rw [hq c mem_cons_self]
    cases r with
    | nil => rfl
    | cons d r =>
      rw [singleton_append, skipSQLDelimited, if_pos rfl, if_neg (by simpa using hr)]
  | c :: d :: q, hq, h => by
    rw [length_cons, length_cons] at h
    rw [cons_append, cons_append, skipSQLDelimited, if_pos (hq c (by simp)),
      if_pos (hq d (by simp))]
    exact skipSQLDelimited_odd hr (fun e he => hq e (by simp [he])) (by omega)

theorem skipSQLDelimited_name {u : Text} (hu : u.head? ≠ some doubleQuote) :
    ∀ {name : Text}, doubleQuote ∉ name →
      skipSQLDelimited doubleQuote (name ++ doubleQuote :: u) = u
  | [], _ => by
    cases u with
    | nil => rfl
    | cons d u => rw [nil_append, skipSQLDelimited, if_pos rfl, if_neg (by simpa using hu)]
  | [c], h => by
    have hc : c ≠ doubleQuote := fun hc => h (hc ▸ mem_cons_self)
    have hrest := @skipSQLDelimited_name u hu [] (by simp)
    rw [singleton_append, skipSQLDelimited, if_neg hc]
    exact hrest
  | c :: d :: name, h => by
    have hc : c ≠ doubleQuote := fun hc => h (hc ▸ mem_cons_self)
    have hrest := @skipSQLDelimited_name u hu (d :: name) fun hd => h (mem_cons_of_mem c hd)
    rw [cons_append, cons_append, skipSQLDelimited, if_neg hc]
    exact hrest

/-- Quotes that were left alone are left alone in front of what is written. -/
theorem repairAt_written {c : UInt8} {a : Text} (ha : t = a ++ skipCopied c t)
    (h : repairAt unicode c t = none) :
    repairAt unicode c (a ++ (identifierWriter unicode).lex (skipCopied c t)) = none := by
  by_cases hc : c = doubleQuote
  swap
  · exact if_neg hc
  subst hc
  cases hrest : skipCopied doubleQuote t with
  | nil =>
    rw [Lexer.lex_nil, append_nil]
    rw [hrest, append_nil] at ha
    rwa [← ha]
  | cons d r =>
    rw [skipCopied_double] at hrest
    obtain ⟨b, hb, hhead, -⟩ := @skipSQLDelimited_closes doubleQuote t (by simp [hrest])
    rw [skipCopied_double, hrest] at ha
    rw [hrest] at hb hhead
    have hab : a = b ++ [doubleQuote] := by
      rw [ha, ← singleton_append (l := d :: r), ← append_assoc] at hb
      exact append_cancel_right hb
    have hwritten : ((identifierWriter unicode).lex (d :: r)).head? = (d :: r).head? :=
      head?_written unicode _
    rw [repairAt, if_pos rfl] at h ⊢
    rw [← not_isSome_iff_eq_none, tryFix_isSome_iff] at h ⊢
    rintro ⟨hodd, hfixed⟩
    apply h
    -- The run of quotes is the whole chunk, or it ends inside the chunk.
    cases hq : a.dropWhile (· == doubleQuote) with
    | nil =>
      have hall : ∀ e ∈ a, (e == doubleQuote) = true := by
        intro e he
        rw [← takeWhile_append_dropWhile (p := (· == doubleQuote)) (l := a), hq,
          append_nil] at he
        exact mem_takeWhile_imp (p := (· == doubleQuote)) he
      have hold := @takeWhile_dropWhile_append (· == doubleQuote) a (d :: r) hall
        (fun e he => beq_eq_false_iff_ne.mpr fun h => hhead (h ▸ he))
      have hnew := @takeWhile_dropWhile_append (· == doubleQuote) a
        ((identifierWriter unicode).lex (d :: r)) hall
        (fun e he => beq_eq_false_iff_ne.mpr fun h => hhead (h ▸ hwritten ▸ he))
      rw [openingQuotes, hnew.1] at hodd
      rw [hnew.2] at hfixed
      rw [ha, openingQuotes, hold.1, hold.2]
      exact ⟨hodd, fixedIdentifier_of_written hfixed⟩
    | cons e q =>
      have he : e ≠ doubleQuote := by
        have hnot := head?_dropWhile_not (· == doubleQuote) a
        rw [hq] at hnot
        simpa using hnot
      have hsplit : a = a.takeWhile (· == doubleQuote) ++ e :: q := by
        rw [← hq, takeWhile_append_dropWhile]
      have hquotes : ∀ e ∈ a.takeWhile (· == doubleQuote), e = doubleQuote :=
        fun e he => by simpa using mem_takeWhile_imp he
      have hopen : ∀ u : Text, openingQuotes (a ++ u) = a.takeWhile (· == doubleQuote) :=
        fun u => takeWhile_append_of_dropWhile (by simp [hq])
      rw [hopen] at hodd
      have hskip := @skipSQLDelimited_odd (e :: q ++ d :: r) (by simpa using he) _ hquotes hodd
      rw [← append_assoc, ← hsplit, ← ha, hrest] at hskip
      have hlen := congrArg List.length hskip
      simp only [length_append, length_cons] at hlen
      omega

/-- **A second pass of the loop changes nothing.** -/
theorem written_written (unicode : UnicodeTables) (t : Text) :
    (identifierWriter unicode).lex ((identifierWriter unicode).lex t) =
      (identifierWriter unicode).lex t := by
  apply Lexer.lex_lex
  intro c t
  cases h : repairAt unicode c t with
  | none =>
    obtain ⟨a, ha, -, hskip⟩ := skipCopied_append c t
    have hrest := hskip _ (alike_written unicode (skipCopied c t))
    refine ⟨c, a, by rw [writer_copied h ha], ?_⟩
    rw [writer_copied h ha]
    have hread := writer_copied (repairAt_written ha h) (congrArg (a ++ ·) hrest.symm)
    rw [hread, hrest]
  | some p =>
    obtain ⟨name, rest⟩ := p
    obtain ⟨-, hrepair⟩ := repairAt_eq_some h
    have hfree := doubleQuote_not_mem_of_looksLikeIdentifierContent hrepair.like
    have hhead : ((identifierWriter unicode).lex rest).head? ≠ some doubleQuote :=
      head?_written unicode rest ▸ hrepair.rest_head
    refine ⟨doubleQuote, name ++ [doubleQuote], by rw [writer_repaired h]; rfl, ?_⟩
    rw [writer_repaired h, append_assoc, singleton_append]
    have hnone : repairAt unicode doubleQuote
        (name ++ doubleQuote :: (identifierWriter unicode).lex rest) = none := by
      rw [repairAt, if_pos rfl, ← not_isSome_iff_eq_none, tryFix_isSome_iff]
      obtain ⟨n, name, rfl⟩ := exists_cons_of_ne_nil (looksLike_ne_nil hrepair.like)
      have hn : n ≠ doubleQuote := fun hn => hfree (hn ▸ mem_cons_self)
      rw [openingQuotes, cons_append, takeWhile_cons_of_neg (by simpa using hn)]
      exact fun hp => absurd hp.1 (by decide)
    have hskip := skipSQLDelimited_name hhead hfree
    have hread := @writer_copied unicode _ doubleQuote (name ++ [doubleQuote]) hnone (by
      rw [skipCopied_double, hskip, append_assoc, singleton_append])
    rw [hread, skipCopied_double, hskip, cons_append]

/-! ### The sanitiser -/

theorem contains_append {needle u : Text} (a : Text) (h : contains needle u = true) :
    contains needle (a ++ u) = true := by
  induction a with
  | nil => exact h
  | cons c a ih =>
    unfold contains at ih ⊢
    rw [cons_append, afterFirst]
    split_ifs
    · rfl
    · exact ih

theorem written_of_not_contains (h : contains [doubleQuote, doubleQuote] t = false) :
    (identifierWriter unicode).lex t = t := by
  induction t using (identifierWriter unicode).lex_induction with
  | nil => rfl
  | cons c t ih =>
    cases hrepair : repairAt unicode c t with
    | none =>
      obtain ⟨a, ha, -⟩ := skipCopied_append c t
      have hsplit : c :: t = c :: a ++ skipCopied c t := by rw [cons_append, ← ha]
      rw [Lexer.lex_cons]
      rw [writer_copied hrepair ha] at ih ⊢
      rw [ih, ← hsplit]
      rw [← Bool.not_eq_true] at h ⊢
      intro hrest
      exact h (hsplit ▸ contains_append _ hrest)
    | some p =>
      obtain ⟨rfl, hfix⟩ := repairAt_eq_some hrepair
      obtain ⟨d, q, hq⟩ := exists_cons_of_ne_nil hfix.opening
      have hd : d = doubleQuote := eq_doubleQuote_of_mem_openingQuotes (hq ▸ mem_cons_self)
      have ht := hfix.split
      rw [hq, hd] at ht
      rw [ht, contains, cons_append, cons_append, cons_append, afterFirst,
        if_pos (by simp [List.isPrefixOf])] at h
      cases h

theorem fixBrokenDoubleDoubleQuotedIdent_eq (unicode : UnicodeTables) (t : Text) :
    fixBrokenDoubleDoubleQuotedIdent unicode t = (identifierWriter unicode).lex t := by
  unfold fixBrokenDoubleDoubleQuotedIdent
  split_ifs with h
  · exact identifierFixer_run unicode t
  · exact (written_of_not_contains (by simpa using h)).symm

theorem repairQuotes_eq (unicode : UnicodeTables) (n : ℕ) (t : Text) :
    repairQuotes unicode (n + 1) t = (identifierWriter unicode).lex t := by
  have hround : ∀ m, repairQuotes unicode m ((identifierWriter unicode).lex t) =
      (identifierWriter unicode).lex t := by
    intro m
    cases m with
    | zero => rfl
    | succ m =>
      have hfixed : fixBrokenDoubleDoubleQuotedIdent unicode ((identifierWriter unicode).lex t) =
          (identifierWriter unicode).lex t := by
        rw [fixBrokenDoubleDoubleQuotedIdent_eq, written_written]
      rw [repairQuotes]
      exact if_pos hfixed
  rw [repairQuotes, fixBrokenDoubleDoubleQuotedIdent_eq]
  split_ifs with h
  · exact h.symm
  · exact hround n

/-- The types of databases whose texts are repaired. -/
def sanitizesQuotes (dbType : Text) : Bool :=
  let normalized := normalizedName dbType
  let pgLike :=
    if normalized = bytes "postgresql" then bytes "postgres"
    else if normalized ∈ [bytes "kingbase8", bytes "kingbasees", bytes "kingbasev8"] then
      bytes "kingbase"
    else if normalized ∈ [bytes "gauss_db", bytes "gauss-db"] then bytes "gaussdb"
    else normalized
  pgLike ∈ [bytes "postgres", bytes "kingbase", bytes "highgo", bytes "vastbase",
    bytes "opengauss", bytes "gaussdb"]

/-- The bytes of a query, with the verdict of the sanitiser whether they stay. -/
def sanitizeEdits (unicode : UnicodeTables) (dbType query : Text) : List (UInt8 × Bool) :=
  if sanitizesQuotes dbType then (identifierEdits unicode).lex query else kept query

theorem sanitizeSQLForPgLike_eq (unicode : UnicodeTables) (dbType query : Text) :
    sanitizeSQLForPgLike unicode dbType query =
      if sanitizesQuotes dbType then (identifierWriter unicode).lex query else query := by
  rw [← repairQuotes_eq unicode 2]
  unfold sanitizeSQLForPgLike sanitizesQuotes
  simp only [decide_eq_true_eq]

theorem flatMap_sanitizeEdits (unicode : UnicodeTables) (dbType query : Text) :
    (sanitizeEdits unicode dbType query).flatMap writeEdit =
      sanitizeSQLForPgLike unicode dbType query := by
  rw [sanitizeSQLForPgLike_eq, sanitizeEdits]
  split_ifs
  · rw [identifierWriter, Lexer.lex_post]
  · exact flatMap_writeEdit_kept query

theorem map_fst_sanitizeEdits (unicode : UnicodeTables) (dbType query : Text) :
    (sanitizeEdits unicode dbType query).map Prod.fst = query := by
  unfold sanitizeEdits
  split_ifs
  · exact map_fst_identifierEdits unicode query
  · exact map_fst_kept query

/-- **Sanitising settles in one pass.** -/
theorem sanitize_sanitize (unicode : UnicodeTables) (dbType query : Text) :
    sanitizeSQLForPgLike unicode dbType (sanitizeSQLForPgLike unicode dbType query) =
      sanitizeSQLForPgLike unicode dbType query := by
  simp only [sanitizeSQLForPgLike_eq]
  split_ifs
  · exact written_written unicode query
  · rfl

/-! ### Data and verdicts -/

/-- No byte that lies in data is dropped. -/
def KeepsData (s : PgMode) (edits : List (UInt8 × Bool)) (t : Text) : Prop :=
  ∀ p ∈ edits.zip (dataBytes s t), p.2 = true → p.1.2 = true

section keeps

variable {s : PgMode} {e e' : List (UInt8 × Bool)} {u : Text}

theorem keepsData_append (h : e.length = t.length) :
    KeepsData s (e ++ e') (t ++ u) ↔
      KeepsData s e t ∧ KeepsData (t.foldl PgMode.next s) e' u := by
  unfold KeepsData
  rw [dataBytes_append, zip_append (by rw [h, length_dataBytes])]
  simp only [mem_append, or_imp, forall_and]

theorem keepsData_kept (s : PgMode) (t u : Text) : KeepsData s (kept t) u := by
  intro p hp _
  obtain ⟨c, -, hc⟩ := mem_map.mp (of_mem_zip hp).1
  rw [← hc]

theorem keepsData_dropped : KeepsData s (dropped t) t ↔ ∀ b ∈ dataBytes s t, b = false := by
  induction t generalizing s with
  | nil => simp [KeepsData, dropped, dataBytes]
  | cons c t ih =>
    have hcons := @keepsData_append [c] s (dropped [c]) (dropped t) t rfl
    have hone : KeepsData s (dropped [c]) [c] ↔ (s.inData || (s.next c).inData) = false := by
      simp [KeepsData, dropped, dataBytes]
    rw [hone, foldl_cons, foldl_nil, ih] at hcons
    rw [dataBytes, forall_mem_cons, ← hcons]
    rfl

theorem keepsData_of_length (h : e.length = t.length) :
    KeepsData s e (t ++ u) ↔ KeepsData s e t := by
  have happend := @keepsData_append t s e [] u h
  rw [append_nil] at happend
  rw [happend]
  exact and_iff_left fun p hp => absurd hp (by simp)

theorem keepsData_dropped_of_outside (hs : s.inData = false)
    (ht : ∀ c ∈ t, c ≠ dash ∧ c ≠ star ∧ c ≠ singleQuote ∧ c ≠ dollar) :
    KeepsData s (dropped t) t :=
  keepsData_dropped.mpr (dataBytes_outside hs ht).2

theorem outside_of_keepsData (hne : t ≠ []) (h : KeepsData s (dropped t) t) : s.inData = false := by
  obtain ⟨c, t, rfl⟩ := exists_cons_of_ne_nil hne
  have hc := keepsData_dropped.mp h _ mem_cons_self
  exact ((Bool.or_eq_false_iff).mp hc).1

end keeps

theorem quote_neutral {c : UInt8} (hc : c = doubleQuote) :
    (c ≠ dash ∧ c ≠ star ∧ c ≠ singleQuote ∧ c ≠ dollar) ∧
      c ≠ newline ∧ c ≠ 0x0D ∧ c ≠ slash ∧ c ≠ singleQuote ∧ c ≠ dollar := by
  subst hc
  decide

theorem blank_neutral {v : Text} (hv : Blank v) {c : UInt8} (hc : c ∈ v) :
    (c ≠ dash ∧ c ≠ star ∧ c ≠ singleQuote ∧ c ≠ dollar) ∧ c ≠ slash := by
  have hall : ∀ d ∈ spaceRunes.flatten,
      (d ≠ dash ∧ d ≠ star ∧ d ≠ singleQuote ∧ d ≠ dollar) ∧ d ≠ slash := by
    decide +kernel
  exact hall c (Blank.mem_spaceRunes hv hc)

/-- What an edit of quotes, blanks, a name, blanks and quotes has to keep. -/
theorem keepsData_pieces (s : PgMode) (o v n w d rest : Text) :
    KeepsData s (kept [doubleQuote] ++ dropped o ++ (dropped v ++ kept n ++ dropped w) ++
        kept [doubleQuote] ++ dropped d)
      ([doubleQuote] ++ o ++ (v ++ n ++ w) ++ [doubleQuote] ++ d ++ rest) ↔
      KeepsData (([doubleQuote] : Text).foldl PgMode.next s) (dropped o) o ∧
        KeepsData (([doubleQuote] ++ o).foldl PgMode.next s) (dropped v) v ∧
        KeepsData (([doubleQuote] ++ o ++ (v ++ n)).foldl PgMode.next s) (dropped w) w ∧
        KeepsData (([doubleQuote] ++ o ++ (v ++ n ++ w) ++ [doubleQuote]).foldl PgMode.next s)
          (dropped d) d := by
  have hkept : ∀ s (t u : Text), KeepsData s (kept t) u ↔ True :=
    fun s t u => iff_true_intro (keepsData_kept s t u)
  rw [keepsData_of_length (by simp only [length_append, length_kept, length_dropped])]
  iterate 6
    rw [keepsData_append (by simp only [length_append, length_kept, length_dropped])]
  simp only [hkept, foldl_append, true_and, and_true, and_assoc]

/-- A repair drops no data if and only if the quotes on both sides of the name lie outside of
data. -/
theorem Repair.keepsData_iff (h : Repair unicode t name rest) (s : PgMode) :
    KeepsData s (repairEdits t) (doubleQuote :: t) ↔
      s.inData = false ∧
        ((doubleQuote :: openingQuotes t ++ quotedContent t).foldl PgMode.next s).inData =
          false := by
  obtain ⟨v, w, hcontent, hv, hw, htrim⟩ := trimEdits_spec (quotedContent t)
  have hclosing : closingQuotes t = [doubleQuote] ++ (closingQuotes t).tail := h.closing_eq
  have htail : (closingQuotes t).tail ≠ [] := by
    intro hnil
    have hlen := h.closing
    rw [hclosing, hnil] at hlen
    exact absurd hlen (by decide)
  have hopening : ∀ c ∈ doubleQuote :: openingQuotes t, c = doubleQuote := by
    intro c hc
    rcases mem_cons.mp hc with rfl | hc
    · rfl
    · exact eq_doubleQuote_of_mem_openingQuotes hc
  have hclosed : ∀ c ∈ doubleQuote :: (closingQuotes t).tail, c = doubleQuote := by
    intro c hc
    rcases mem_cons.mp hc with rfl | hc
    · rfl
    · exact eq_doubleQuote_of_mem_closingQuotes (mem_of_mem_tail hc)
  have hline : ∀ c ∈ w, c ≠ newline ∧ c ≠ 0x0D :=
    fun c hc => h.line c (hcontent ▸ mem_append_right _ hc)
  have hsplit : doubleQuote :: t = [doubleQuote] ++ openingQuotes t ++
      (v ++ trimSpace (quotedContent t) ++ w) ++ [doubleQuote] ++ (closingQuotes t).tail ++
        rest := by
    conv_lhs => rw [h.split, hclosing]
    rw [← hcontent]
    simp
  rw [hsplit, repairEdits, htrim, keepsData_pieces, ← singleton_append (l := openingQuotes t)]
  constructor
  · rintro ⟨hfirst, -, -, hlast⟩
    constructor
    · by_contra hin
      have hgo := @inData_foldl s [doubleQuote] (by simpa using hin)
        (fun c hc => (quote_neutral (mem_singleton.mp hc)).2)
      rw [outside_of_keepsData h.opening hfirst] at hgo
      cases hgo
    · by_contra hin
      rw [hcontent] at hin
      have hgo := @inData_foldl _ [doubleQuote] (Bool.not_eq_false _ ▸ hin)
        (fun c hc => (quote_neutral (mem_singleton.mp hc)).2)
      rw [← foldl_append, outside_of_keepsData htail hlast] at hgo
      cases hgo
  · rintro ⟨hstart, hend⟩
    have hopen := @dataBytes_outside s ([doubleQuote] ++ openingQuotes t) hstart
      (fun c hc => (quote_neutral (hopening c hc)).1)
    have hfirst := (@dataBytes_outside s [doubleQuote] hstart
      (fun c hc => (quote_neutral (mem_singleton.mp hc)).1)).1
    refine ⟨?_, ?_, ?_, ?_⟩
    · exact keepsData_dropped_of_outside hfirst
        (fun c hc => (quote_neutral (hopening c (mem_cons_of_mem _ hc))).1)
    · exact keepsData_dropped_of_outside hopen.1 (fun c hc => (blank_neutral hv hc).1)
    · apply keepsData_dropped_of_outside
      · by_contra hin
        have hgo := @inData_foldl _ w (Bool.not_eq_false _ ▸ hin) (fun c hc =>
          have hc' := blank_neutral hw hc
          ⟨(hline c hc).1, (hline c hc).2, hc'.2, hc'.1.2.2.1, hc'.1.2.2.2⟩)
        rw [← foldl_append, append_assoc, ← hcontent, hend] at hgo
        cases hgo
      · exact fun c hc => (blank_neutral hw hc).1
    · rw [← hcontent, foldl_append]
      have hafter := (@dataBytes_outside _ [doubleQuote] hend
        (fun c hc => (quote_neutral (mem_singleton.mp hc)).1)).1
      exact keepsData_dropped_of_outside hafter
        (fun c hc => (quote_neutral (hclosed c (mem_cons_of_mem _ hc))).1)

/-! ### The places of the repairs -/

/-- Where PostgreSQL stands in front of `u`, which ends the text `t`. -/
def pgModeAt (s : PgMode) (t u : Text) : PgMode :=
  (t.take (t.length - u.length)).foldl PgMode.next s

theorem pgModeAt_append (s : PgMode) (a u : Text) :
    pgModeAt s (a ++ u) u = a.foldl PgMode.next s := by
  rw [pgModeAt, length_append, Nat.add_sub_cancel, take_left]

/-- A pass keeps the data of a text if and only if it does so in every chunk. -/
theorem keepsData_lex_iff (s : PgMode) (t : Text) :
    KeepsData s ((identifierEdits unicode).lex t) t ↔
      ∀ c u, (identifierEdits unicode).Stands t (c :: u) →
        KeepsData (pgModeAt s t (c :: u)) ((identifierEdits unicode).next c u).1 (c :: u) := by
  induction t using (identifierEdits unicode).lex_induction generalizing s with
  | nil =>
    refine iff_of_true (fun p hp => absurd hp (by simp)) fun c u h => ?_
    exact absurd h.suffix.length_le (by simp)
  | cons c t ih =>
    have hchunk := (identifierEdits unicode).chunk_append c t
    generalize hrest : ((identifierEdits unicode).next c t).2 = rest at hchunk ih
    have hlen : ((identifierEdits unicode).next c t).1.length =
        ((identifierEdits unicode).chunk c t).length := by
      have hsource := congrArg List.length (map_fst_identifierEdits unicode (c :: t))
      have hsource' := congrArg List.length (map_fst_identifierEdits unicode rest)
      rw [Lexer.lex_cons, hrest, map_append, length_append, hsource', ← hchunk,
        length_append, length_map] at hsource
      omega
    have hhead : KeepsData s ((identifierEdits unicode).next c t).1 (c :: t) ↔
        KeepsData s ((identifierEdits unicode).next c t).1
          ((identifierEdits unicode).chunk c t) := by
      rw [← hchunk]
      exact keepsData_of_length hlen
    have hat : ∀ d u, (identifierEdits unicode).Stands rest (d :: u) →
        pgModeAt s (c :: t) (d :: u) =
          pgModeAt (((identifierEdits unicode).chunk c t).foldl PgMode.next s) rest (d :: u) := by
      intro d u h
      obtain ⟨a, rfl⟩ := h.suffix
      rw [← hchunk, ← append_assoc, pgModeAt_append, pgModeAt_append, foldl_append]
    have hsplit : KeepsData s ((identifierEdits unicode).lex (c :: t)) (c :: t) ↔
        KeepsData s ((identifierEdits unicode).next c t).1 (c :: t) ∧
          KeepsData (((identifierEdits unicode).chunk c t).foldl PgMode.next s)
            ((identifierEdits unicode).lex rest) rest := by
      rw [hhead, Lexer.lex_cons, hrest]
      conv_lhs => rw [← hchunk]
      exact keepsData_append hlen
    rw [hsplit, ih]
    constructor
    · rintro ⟨hfirst, hothers⟩ d u h
      rcases Lexer.stands_cons.mp h with heq | h
      · cases heq
        rw [pgModeAt, Nat.sub_self]
        exact hfirst
      · rw [hrest] at h
        rw [hat d u h]
        exact hothers d u h
    · intro h
      refine ⟨?_, fun d u hd => ?_⟩
      · have hfirst := h c t (.here _)
        rwa [pgModeAt, Nat.sub_self] at hfirst
      · rw [← hat d u hd]
        exact h d u (.next (hrest ▸ hd))

/-- **What the sanitiser promises**: no byte of a comment, a string or a dollar-quoted body is
dropped, and a second pass changes nothing. -/
structure SanitizesSafely (unicode : UnicodeTables) (dbType query : Text) : Prop where
  keeps : KeepsData .code (sanitizeEdits unicode dbType query) query
  settles : sanitizeSQLForPgLike unicode dbType (sanitizeSQLForPgLike unicode dbType query) =
    sanitizeSQLForPgLike unicode dbType query

/-- Where the loop repairs a name, PostgreSQL stands outside of data in front of the quotes that
open the name and in front of those that close it. -/
def RepairsOutsideData (unicode : UnicodeTables) (dbType query : Text) : Prop :=
  sanitizesQuotes dbType = true → ∀ out t p,
    (identifierFixer unicode).Reach [] query out (doubleQuote :: t) →
    tryFixDoubleDoubleQuotedIdent unicode out t = some p →
      (pgModeAt .code query (doubleQuote :: t)).inData = false ∧
        (pgModeAt .code query (closingQuotes t ++ p.2)).inData = false

theorem pgModeAt_closing {q : Text} (hfix : Repair unicode t name rest)
    (h : doubleQuote :: t <:+ q) :
    pgModeAt .code q (closingQuotes t ++ rest) =
      (doubleQuote :: openingQuotes t ++ quotedContent t).foldl PgMode.next
        (pgModeAt .code q (doubleQuote :: t)) := by
  obtain ⟨a, rfl⟩ := h
  have hsplit : a ++ doubleQuote :: t =
      a ++ (doubleQuote :: openingQuotes t ++ quotedContent t) ++ (closingQuotes t ++ rest) := by
    conv_lhs => rw [hfix.split]
    simp
  rw [pgModeAt_append, hsplit, pgModeAt_append, foldl_append]

/-- **The sanitiser keeps its promise if and only if every repair lies outside of data.** -/
theorem sanitizesSafely_iff (unicode : UnicodeTables) (dbType query : Text) :
    ((sanitizeEdits unicode dbType query).map Prod.fst = query ∧
      (sanitizeEdits unicode dbType query).flatMap writeEdit =
        sanitizeSQLForPgLike unicode dbType query) ∧
      (SanitizesSafely unicode dbType query ↔ RepairsOutsideData unicode dbType query) := by
  refine ⟨⟨map_fst_sanitizeEdits unicode dbType query, flatMap_sanitizeEdits unicode dbType query⟩,
    ?_⟩
  have hsafe : SanitizesSafely unicode dbType query ↔
      KeepsData .code (sanitizeEdits unicode dbType query) query :=
    ⟨SanitizesSafely.keeps, fun h => ⟨h, sanitize_sanitize unicode dbType query⟩⟩
  rw [hsafe, sanitizeEdits]
  unfold RepairsOutsideData
  cases hpg : sanitizesQuotes dbType with
  | false => exact iff_of_true (keepsData_kept _ _ _) fun h => absurd h Bool.false_ne_true
  | true =>
    rw [if_pos rfl, keepsData_lex_iff]
    have hwrites := writes_identifierFixer unicode
    constructor
    · intro h _ out t p hreach hfix
      obtain ⟨hstands, hout⟩ := hwrites.stands_of_reach (quoteClosed_nil query) hreach
      have hrepair : repairAt unicode doubleQuote t = some p := by
        rw [repairAt, if_pos rfl, ← hfix]
        exact (tryFix_before fun hl => hout hl rfl).symm
      have hchunk := h doubleQuote t (Lexer.stands_post.mp hstands)
      rw [next_repaired hrepair, (repairAt_eq_some hrepair).2.keepsData_iff] at hchunk
      rwa [pgModeAt_closing (repairAt_eq_some hrepair).2 hstands.suffix]
    · intro h c u hstands
      cases hrepair : repairAt unicode c u with
      | none =>
        rw [next_copied hrepair]
        exact keepsData_kept _ _ _
      | some p =>
        obtain ⟨rfl, hp⟩ := repairAt_eq_some hrepair
        obtain ⟨out, hreach, hout⟩ := hwrites.reach_of_stands (quoteClosed_nil query)
          (Lexer.stands_post.mpr hstands)
        have hfix : tryFixDoubleDoubleQuotedIdent unicode out u = some p := by
          rw [repairAt, if_pos rfl] at hrepair
          rw [tryFix_before fun hl => hout hl rfl, hrepair]
        have hsite := h rfl out u p hreach hfix
        rw [pgModeAt_closing hp hstands.suffix] at hsite
        rw [next_repaired hrepair, hp.keepsData_iff]
        exact hsite

/-- A string with an escaped quote: the sanitiser ends it there, and repairs what it takes for a
name in the rest of it. -/
def escapedQuery : Text := bytes "SELECT E'it\\'s \"\"abc\"\" x'"

theorem sanitize_touches_string :
    sanitizeSQLForPgLike asciiTables (bytes "postgres") escapedQuery =
        bytes "SELECT E'it\\'s \"abc\" x'" ∧
      ¬ SanitizesSafely asciiTables (bytes "postgres") escapedQuery := by
  refine ⟨by decide, fun h => ?_⟩
  have hkeeps : ∀ p ∈ (sanitizeEdits asciiTables (bytes "postgres") escapedQuery).zip
      (dataBytes .code escapedQuery), p.2 = true → p.1.2 = true := h.keeps
  revert hkeeps
  decide +kernel

end GoNavi.Sql
