import GoNavi.Sql.Keyword
import GoNavi.Sql.Lookahead

/-! # Where quotes and comments close

A quote or comment that closes inside a text closes at the same place whatever comes behind it
(`skipSQLDelimited_closes`, `afterLine_closes`, `afterBlock_closes`, `afterTag_closes`), and so
does everything the classifiers skip (`skipSQLQuotedOrComment_closes`).  Where nothing starts in
front of a text, nothing starts in front of its beginning (`skipSQLQuotedOrComment_none`). -/

namespace GoNavi.Sql

open Scan List Option

/-! ### Delimiters -/

theorem takeWhile_dropWhile_append {p : UInt8 → Bool} {a u : Text} (ha : ∀ c ∈ a, p c = true)
    (hu : ∀ c, u.head? = some c → p c = false) :
    (a ++ u).takeWhile p = a ∧ (a ++ u).dropWhile p = u := by
  induction a with
  | nil =>
    cases u with
    | nil => exact ⟨rfl, rfl⟩
    | cons c u =>
      have hc := hu c rfl
      exact ⟨takeWhile_cons_of_neg (by simp [hc]), dropWhile_cons_of_neg (by simp [hc])⟩
  | cons c a ih =>
    have hc := ha c mem_cons_self
    obtain ⟨htake, hdrop⟩ := ih fun d hd => ha d (mem_cons_of_mem c hd)
    rw [cons_append, takeWhile_cons_of_pos hc, dropWhile_cons_of_pos hc, htake,
      hdrop]
    exact ⟨rfl, rfl⟩

/-- A quote closes at a lone delimiter, whatever is behind it. -/
theorem skipSQLDelimited_closes {q : UInt8} : ∀ {t : Text}, skipSQLDelimited q t ≠ [] →
    ∃ a, t = a ++ q :: skipSQLDelimited q t ∧ (skipSQLDelimited q t).head? ≠ some q ∧
      ∀ u : Text, u.head? ≠ some q → skipSQLDelimited q (a ++ q :: u) = u
  | [], h => absurd rfl h
  | [_], h => absurd rfl h
  | c :: d :: t, h => by
    rw [skipSQLDelimited] at h ⊢
    split_ifs at h ⊢ with hc hd
    · obtain ⟨a, ha, hhead, hskip⟩ := skipSQLDelimited_closes h
      refine ⟨c :: d :: a, by rw [cons_append, cons_append, ← ha], hhead, ?_⟩
      intro u hu
      rw [cons_append, cons_append, skipSQLDelimited, if_pos hc, if_pos hd, hskip u hu]
    · refine ⟨[], by rw [hc, nil_append], by simpa using hd, ?_⟩
      intro u hu
      cases u with
      | nil => rfl
      | cons e u =>
        rw [nil_append, skipSQLDelimited, if_pos rfl, if_neg (by simpa using hu)]
    · obtain ⟨a, ha, hhead, hskip⟩ := skipSQLDelimited_closes h
      refine ⟨c :: a, by rw [cons_append, ← ha], hhead, ?_⟩
      intro u hu
      have hu' := hskip u hu
      cases a with
      | nil =>
        rw [nil_append] at hu'
        rw [cons_append, nil_append, skipSQLDelimited, if_neg hc, hu']
      | cons e a =>
        rw [cons_append] at hu' ⊢
        rw [cons_append, skipSQLDelimited, if_neg hc, hu']

theorem afterLine_closes {t : Text} (h : afterLine t ≠ []) :
    ∃ a, t = a ++ newline :: afterLine t ∧ ∀ u, afterLine (a ++ newline :: u) = u := by
  have hsplit := takeWhile_append_dropWhile (p := (· != newline)) (l := t)
  obtain ⟨c, r, hr⟩ := exists_cons_of_ne_nil (scanSQLLineCommentEnd_ne_nil h)
  have hc : c = newline := by
    have hhead := head?_dropWhile_not (· != newline) t
    rw [show t.dropWhile (· != newline) = c :: r from hr] at hhead
    simpa using hhead
  subst hc
  refine ⟨t.takeWhile (· != newline), ?_, ?_⟩
  · rw [afterLine, hr, tail_cons, ← hr]
    exact hsplit.symm
  · intro u
    have hline : ∀ d ∈ t.takeWhile (· != newline), (d != newline) = true :=
      fun d hd => mem_takeWhile_imp (p := (· != newline)) hd
    have hdrop := (@takeWhile_dropWhile_append (· != newline) _ (newline :: u) hline
      (fun d hd => by cases hd; simp)).2
    rw [afterLine, scanSQLLineCommentEnd, hdrop]
    rfl

theorem afterFirst_needle {needle : Text} (hneedle : needle ≠ []) (u : Text) :
    afterFirst needle (needle ++ u) = some u := by
  obtain ⟨d, n, rfl⟩ := exists_cons_of_ne_nil hneedle
  rw [cons_append, afterFirst, if_pos]
  · rw [← cons_append, drop_left]
  · exact List.isPrefixOf_iff_prefix.mpr ⟨u, rfl⟩

theorem afterFirst_closes {needle t u : Text} (hneedle : needle ≠ [])
    (h : afterFirst needle t = some u) :
    ∃ a, t = a ++ needle ++ u ∧ ∀ v, afterFirst needle (a ++ needle ++ v) = some v := by
  induction t with
  | nil => cases h
  | cons c t ih =>
    rw [afterFirst] at h
    split_ifs at h with hp
    · cases h
      refine ⟨[], ?_, ?_⟩
      · rw [nil_append]
        exact (List.prefix_iff_eq_append.mp (List.isPrefixOf_iff_prefix.mp hp)).symm
      · exact fun v => afterFirst_needle hneedle v
    · obtain ⟨a, ha, hafter⟩ := ih h
      refine ⟨c :: a, by rw [cons_append, cons_append, ← ha], ?_⟩
      intro v
      have hlen : needle.length ≤ (c :: a ++ needle).length := by
        rw [length_append]
        omega
      have hnot : needle.isPrefixOf (c :: (a ++ needle ++ v)) = false := by
        rw [← cons_append, ← cons_append, isPrefixOf_append_of_length hlen]
        rw [ha, ← cons_append, ← cons_append, isPrefixOf_append_of_length hlen] at hp
        exact Bool.eq_false_iff.mpr hp
      rw [cons_append, cons_append, afterFirst, hnot, if_neg Bool.false_ne_true, hafter v]

theorem afterBlock_closes {t : Text} (h : afterBlock t ≠ []) :
    ∃ a, t = a ++ slash :: afterBlock t ∧ ∀ u, afterBlock (a ++ slash :: u) = u := by
  unfold afterBlock at h ⊢
  cases hf : afterFirst [star, slash] t with
  | none => exact absurd (by rw [hf]; rfl) h
  | some r =>
    obtain ⟨a, ha, hafter⟩ := afterFirst_closes (by simp) hf
    refine ⟨a ++ [star], by simpa using ha, ?_⟩
    intro u
    have hu := hafter u
    simp only [append_assoc, cons_append, nil_append] at hu ⊢
    rw [hu]
    rfl

/-! ### Dollar quotes -/

/-- The tag of `p`-bytes between two dollars that starts at a `$` with `t` behind it. -/
def dollarTag (p : UInt8 → Bool) (t : Text) : Text :=
  if (t.dropWhile p).head? = some dollar then dollar :: t.takeWhile p ++ [dollar] else []

/-- The text behind the dollar quote that starts at a `$` with `t` behind it. -/
def afterTag (p : UInt8 → Bool) (t : Text) : Text :=
  (afterFirst (dollarTag p t) (t.drop ((dollarTag p t).length - 1))).getD []

section tags

variable {p : UInt8 → Bool} {a t : Text}

theorem dollarTag_append (hp : p dollar = false) (ha : ∀ c ∈ a, p c = true) (u : Text) :
    dollarTag p (a ++ dollar :: u) = dollar :: a ++ [dollar] := by
  obtain ⟨htake, hdrop⟩ := @takeWhile_dropWhile_append p a (dollar :: u) ha
    (fun c hc => by cases hc; exact hp)
  rw [dollarTag, hdrop, htake]
  exact if_pos rfl

theorem exists_of_dollarTag (h : dollarTag p t ≠ []) :
    ∃ b v, (∀ c ∈ b, p c = true) ∧ t = b ++ dollar :: v := by
  have hhead : (t.dropWhile p).head? = some dollar := by
    by_contra hne
    exact h (if_neg hne)
  obtain ⟨v, hv⟩ := head?_eq_some_iff.mp hhead
  refine ⟨t.takeWhile p, v, fun c hc => mem_takeWhile_imp hc, ?_⟩
  rw [← hv]
  exact takeWhile_append_dropWhile.symm

theorem afterTag_append (hp : p dollar = false) (ha : ∀ c ∈ a, p c = true) (u : Text) :
    afterTag p (a ++ dollar :: u) = (afterFirst (dollar :: a ++ [dollar]) u).getD [] := by
  have hdrop : (a ++ dollar :: u).drop ((dollarTag p (a ++ dollar :: u)).length - 1) = u := by
    rw [dollarTag_append hp ha]
    simp
  rw [afterTag, hdrop, dollarTag_append hp ha]

theorem afterTag_closes (hp : p dollar = false) (htag : dollarTag p t ≠ [])
    (h : afterTag p t ≠ []) : ∃ a, t = a ++ dollar :: afterTag p t ∧
      ∀ u, dollarTag p (a ++ dollar :: u) ≠ [] ∧ afterTag p (a ++ dollar :: u) = u := by
  obtain ⟨b, v, hb, rfl⟩ := exists_of_dollarTag htag
  rw [afterTag_append hp hb] at h ⊢
  cases hf : afterFirst (dollar :: b ++ [dollar]) v with
  | none => exact absurd (by rw [hf]; rfl) h
  | some r =>
    obtain ⟨a, ha, hclose⟩ := afterFirst_closes (by simp) hf
    refine ⟨b ++ dollar :: (a ++ dollar :: b), by simp [ha], ?_⟩
    intro u
    have hassoc : b ++ dollar :: (a ++ dollar :: b) ++ dollar :: u =
        b ++ dollar :: (a ++ (dollar :: b ++ [dollar]) ++ u) := by simp
    rw [hassoc, dollarTag_append hp hb, afterTag_append hp hb, hclose u]
    exact ⟨by simp, rfl⟩

end tags

/-! ### What the classifiers skip -/

section skipped

variable {dbType t u w w' : Text} {c : UInt8}

/-- The bytes of a dollar tag. -/
abbrev isTagByte (c : UInt8) : Bool := isSQLKeywordByte c || c == dash

/-- What the classifiers skip: a region that starts with a byte, the text behind the byte, and
the text behind the region. -/
inductive Region (dbType : Text) : UInt8 → Text → Text → Prop where
  | line (t : Text) : Region dbType dash (dash :: t) (afterLine t)
  | hashLine (t : Text) : Region dbType hash t (afterLine t)
  | block (t : Text) : Region dbType slash (star :: t) (afterBlock t)
  | quote {q : UInt8} (hq : q = singleQuote ∨ q = doubleQuote ∨ q = backtick) (t : Text) :
      Region dbType q t (skipSQLDelimited q t)
  | bracket (h : supportsSQLBracketIdentifier dbType = true) (t : Text) :
      Region dbType leftBracket t (skipSQLBracketIdentifier t)
  | tag {t : Text} (h : dollarTag isTagByte t ≠ []) : Region dbType dollar t (afterTag isTagByte t)

theorem skipSQLQuotedOrComment_eq_some :
    skipSQLQuotedOrComment dbType c t = some u ↔ Region dbType c t u := by
  constructor
  · intro h
    simp only [skipSQLQuotedOrComment] at h
    split_ifs at h with hline hhash hblock hquote hbracket htag <;> cases h
    · obtain ⟨rfl, hdash⟩ := hline
      obtain ⟨v, rfl⟩ := head?_eq_some_iff.mp hdash
      exact .line v
    · subst hhash
      exact .hashLine t
    · obtain ⟨rfl, hstar⟩ := hblock
      obtain ⟨v, rfl⟩ := head?_eq_some_iff.mp hstar
      exact .block v
    · exact .quote hquote t
    · obtain ⟨rfl, hsupport⟩ := hbracket
      exact .bracket hsupport t
    · obtain ⟨rfl, htag⟩ := htag
      exact .tag htag
  · intro h
    cases h with
    | line t => exact if_pos ⟨rfl, rfl⟩
    | hashLine t => rw [skipSQLQuotedOrComment, if_neg fun h => absurd h.1 (by decide), if_pos rfl]
    | block t =>
      rw [skipSQLQuotedOrComment, if_neg fun h => absurd h.1 (by decide), if_neg (by decide),
        if_pos ⟨rfl, rfl⟩]
      rfl
    | quote hq t =>
      have hne : c ≠ dash ∧ c ≠ hash ∧ c ≠ slash := by
        rcases hq with rfl | rfl | rfl <;> decide
      rw [skipSQLQuotedOrComment, if_neg fun h => hne.1 h.1, if_neg hne.2.1,
        if_neg fun h => hne.2.2 h.1, if_pos hq]
    | bracket hsupport t =>
      rw [skipSQLQuotedOrComment, if_neg fun h => absurd h.1 (by decide), if_neg (by decide),
        if_neg fun h => absurd h.1 (by decide), if_neg (by decide), if_pos ⟨rfl, hsupport⟩]
    | tag htag =>
      rw [skipSQLQuotedOrComment, if_neg fun h => absurd h.1 (by decide), if_neg (by decide),
        if_neg fun h => absurd h.1 (by decide), if_neg (by decide),
        if_neg fun h => absurd h.1 (by decide), if_pos ⟨rfl, htag⟩]
      rfl

theorem skipSQLQuotedOrComment_eq_none :
    skipSQLQuotedOrComment dbType c t = none ↔ ∀ u, ¬ Region dbType c t u := by
  rw [eq_none_iff_forall_ne_some]
  exact forall_congr' fun u => not_congr skipSQLQuotedOrComment_eq_some

/-- The bytes with which a quote or a comment may start. -/
abbrev openers : List UInt8 :=
  [dash, hash, slash, singleQuote, doubleQuote, backtick, leftBracket, dollar]

theorem Region.mem_openers (h : Region dbType c t u) : c ∈ openers := by
  cases h with
  | quote hq => rcases hq with rfl | rfl | rfl <;> decide
  | _ => decide

theorem skipSQLQuotedOrComment_keywordByte (h : isSQLKeywordByte c = true) :
    skipSQLQuotedOrComment dbType c t = none := by
  rw [skipSQLQuotedOrComment_eq_none]
  intro u hu
  have hno : ∀ d ∈ openers, isSQLKeywordByte d = false := by decide +kernel
  rw [hno c hu.mem_openers] at h
  cases h

/-- A quote or comment that closes, closes at the same place at the end of a text, and in front
of a text with the same first byte. -/
theorem Region.closes (h : Region dbType c t u) (hu : u ≠ []) :
    ∃ a, t = a ++ u ∧ ∀ w, w = [] ∨ w.head? = u.head? → Region dbType c (a ++ w) w := by
  have hquoted : ∀ q, skipSQLDelimited q t ≠ [] → ∃ a, t = a ++ skipSQLDelimited q t ∧
      ∀ w, w = [] ∨ w.head? = (skipSQLDelimited q t).head? → skipSQLDelimited q (a ++ w) = w := by
    intro q hq
    obtain ⟨a, ha, hhead, hclose⟩ := skipSQLDelimited_closes hq
    refine ⟨a ++ [q], by simpa using ha, ?_⟩
    intro w hw
    rw [append_assoc, singleton_append]
    apply hclose
    rcases hw with rfl | hw
    · simp
    · rwa [hw]
  cases h with
  | line t =>
    obtain ⟨a, ha, hclose⟩ := afterLine_closes hu
    refine ⟨dash :: (a ++ [newline]), by simpa using ha, ?_⟩
    intro w _
    have hregion := @Region.line dbType (a ++ newline :: w)
    rw [hclose w] at hregion
    simpa using hregion
  | hashLine t =>
    obtain ⟨a, ha, hclose⟩ := afterLine_closes hu
    refine ⟨a ++ [newline], by simpa using ha, ?_⟩
    intro w _
    have hregion := @Region.hashLine dbType (a ++ newline :: w)
    rw [hclose w] at hregion
    simpa using hregion
  | block t =>
    obtain ⟨a, ha, hclose⟩ := afterBlock_closes hu
    refine ⟨star :: (a ++ [slash]), by simpa using ha, ?_⟩
    intro w _
    have hregion := @Region.block dbType (a ++ slash :: w)
    rw [hclose w] at hregion
    simpa using hregion
  | quote hq t =>
    obtain ⟨a, ha, hclose⟩ := hquoted c hu
    refine ⟨a, ha, ?_⟩
    intro w hw
    have hregion := @Region.quote dbType c hq (a ++ w)
    rwa [hclose w hw] at hregion
  | bracket hsupport t =>
    obtain ⟨a, ha, hclose⟩ := hquoted rightBracket hu
    refine ⟨a, ha, ?_⟩
    intro w hw
    have hregion := Region.bracket hsupport (a ++ w)
    rwa [skipSQLBracketIdentifier, hclose w hw] at hregion
  | tag htag =>
    obtain ⟨a, ha, hclose⟩ := afterTag_closes (by decide) htag hu
    refine ⟨a ++ [dollar], by simpa using ha, ?_⟩
    intro w _
    obtain ⟨htag, hafter⟩ := hclose w
    have hregion := @Region.tag dbType _ htag
    rw [hafter] at hregion
    simpa using hregion

/-- The text ends, or starts with the same quote as `u`. -/
def StartsAlike (u w : Text) : Prop :=
  w = [] ∨ ∃ q, (q = singleQuote ∨ q = doubleQuote) ∧ u.head? = some q ∧ w.head? = some q

/-- A tag lies in front of the end of the text, or of a quote, since neither is part of it. -/
theorem dollarTag_of_startsAlike (hw : StartsAlike w w')
    (h : dollarTag isTagByte (t ++ w') ≠ []) : dollarTag isTagByte (t ++ w) ≠ [] := by
  obtain ⟨b, v, hb, hsplit⟩ := exists_of_dollarTag h
  have hstub : ∀ d ∈ w'.head?, isTagByte d = false ∧ d ≠ dollar := by
    intro d hd
    rcases hw with rfl | ⟨q, hq, -, hq'⟩
    · cases hd
    · obtain rfl : q = d := some.inj (hq'.symm.trans hd)
      rcases hq with rfl | rfl <;> decide
  obtain ⟨r, hr⟩ : ∃ r, t = b ++ dollar :: r := by
    rcases append_eq_append_iff.mp hsplit with ⟨a, hba, hw'⟩ | ⟨a, hta, hav⟩
    · cases a with
      | nil => exact absurd (hstub dollar (by rw [hw']; rfl)).2 (by simp)
      | cons d a =>
        have hd := (hstub d (by rw [hw']; rfl)).1
        rw [hb d (by simp [hba])] at hd
        cases hd
    · cases a with
      | nil =>
        rw [nil_append] at hav
        exact absurd (hstub dollar (by rw [← hav]; rfl)).2 (by simp)
      | cons d a =>
        rw [cons_append] at hav
        obtain ⟨rfl, -⟩ := List.cons.inj hav
        exact ⟨a, hta⟩
  rw [hr, append_assoc, cons_append, dollarTag_append (by decide) hb]
  simp

/-- Where nothing starts in front of a text, nothing starts in front of one that begins
alike. -/
theorem skipSQLQuotedOrComment_none (h : skipSQLQuotedOrComment dbType c (t ++ w) = none)
    (hw : StartsAlike w w') : skipSQLQuotedOrComment dbType c (t ++ w') = none := by
  rw [skipSQLQuotedOrComment_eq_none] at h ⊢
  have hhead : ∀ d v, t ++ w' = d :: v → ∃ v, t ++ w = d :: v := by
    intro d v hd
    cases t with
    | cons b t =>
      obtain ⟨rfl, -⟩ := List.cons.inj hd
      exact ⟨t ++ w, rfl⟩
    | nil =>
      rcases hw with rfl | ⟨q, -, hq, hq'⟩
      · cases hd
      · rw [nil_append] at hd
        rw [hd] at hq'
        obtain rfl := some.inj hq'
        exact head?_eq_some_iff.mp hq
  intro u hu
  generalize hx : t ++ w' = x at hu
  cases hu with
  | line v =>
    obtain ⟨v', hv'⟩ := hhead _ _ hx
    rw [hv'] at h
    exact h _ (.line v')
  | hashLine => exact h _ (.hashLine _)
  | block v =>
    obtain ⟨v', hv'⟩ := hhead _ _ hx
    rw [hv'] at h
    exact h _ (.block v')
  | quote hq => exact h _ (.quote hq _)
  | bracket hsupport => exact h _ (.bracket hsupport _)
  | tag htag => exact h _ (.tag (dollarTag_of_startsAlike hw (hx ▸ htag)))

end skipped

/-! ### Regions that are still open

A region that reaches behind a quote `q` does not close in front of it. -/

section opened

variable {m u v w : Text} {q d : UInt8}

theorem isPrefixOf_append_of_not_mem {needle : Text} (hq : q ∉ needle) :
    ∀ m : Text, needle.isPrefixOf (m ++ q :: v) = needle.isPrefixOf m := by
  intro m
  induction m generalizing needle with
  | nil =>
    cases needle with
    | nil => rfl
    | cons b needle =>
      have hb : b ≠ q := fun hb => hq (hb ▸ mem_cons_self)
      simp [List.isPrefixOf, hb]
  | cons c m ih =>
    cases needle with
    | nil => rfl
    | cons b needle =>
      rw [cons_append, List.isPrefixOf, List.isPrefixOf,
        ih fun hmem => hq (mem_cons_of_mem _ hmem)]

theorem afterFirst_open {needle : Text} (hne : needle ≠ []) (hq : q ∉ needle)
    (h : ((afterFirst needle (m ++ q :: v)).getD []).length < (q :: v).length) (w : Text) :
    afterFirst needle (m ++ q :: w) = afterFirst needle w := by
  induction m with
  | nil =>
    obtain ⟨b, needle, rfl⟩ := exists_cons_of_ne_nil hne
    have hb : b ≠ q := fun hb => hq (hb ▸ mem_cons_self)
    rw [nil_append, afterFirst, if_neg (by simp [List.isPrefixOf, hb])]
  | cons c m ih =>
    rw [cons_append, afterFirst, ← cons_append, isPrefixOf_append_of_not_mem hq] at h ⊢
    split_ifs at h with hp
    · exfalso
      have hlen := (List.isPrefixOf_iff_prefix.mp hp).length_le
      rw [drop_append_of_le_length hlen, getD_some, length_append] at h
      omega
    · rw [if_neg hp]
      exact ih h

theorem afterLine_open (h : (afterLine (m ++ u)).length < u.length) (w : Text) :
    afterLine (m ++ w) = afterLine w := by
  induction m with
  | nil => rfl
  | cons c m ih =>
    have hstep : ∀ x : Text, afterLine (c :: x) = if c = newline then x else afterLine x := by
      intro x
      unfold afterLine scanSQLLineCommentEnd
      by_cases hc : c = newline
      · simp [hc]
      · simp [hc]
    rw [cons_append, hstep] at h ⊢
    split_ifs at h ⊢ with hc
    · rw [length_append] at h
      omega
    · exact ih h

/-- A quote that is open at a place, which is not behind half a doubled delimiter. -/
theorem skipSQLDelimited_open : ∀ {m : Text}, m.getLast? ≠ some d ∨ u.head? ≠ some d →
    (skipSQLDelimited d (m ++ u)).length < u.length → ∀ w : Text,
      skipSQLDelimited d (m ++ w) = skipSQLDelimited d w
  | [], _, _, _ => rfl
  | [c], hlast, h, w => by
    have hc : c ≠ d := by
      rintro rfl
      rcases hlast with hlast | hlast
      · exact hlast rfl
      · cases u with
        | nil => exact absurd h (by simp)
        | cons b u =>
          rw [singleton_append, skipSQLDelimited, if_pos rfl,
            if_neg fun hb => hlast (by rw [hb]; rfl)] at h
          omega
    cases w with
    | nil => rfl
    | cons b w => rw [singleton_append, skipSQLDelimited, if_neg hc]
  | c :: b :: m, hlast, h, w => by
    rw [cons_append, cons_append, skipSQLDelimited] at h ⊢
    split_ifs at h ⊢ with hc hb
    · refine skipSQLDelimited_open ?_ h w
      cases m with
      | nil => exact .inl (by simp)
      | cons e m => simpa [getLast?_cons_cons] using hlast
    · rw [length_cons, length_append] at h
      omega
    · rw [← cons_append] at h ⊢
      refine skipSQLDelimited_open ?_ h w
      simpa [getLast?_cons_cons] using hlast

/-- Bytes that neither end nor escape in a literal with the quote `q`. -/
def Inert (q : UInt8) (z : Text) : Prop := ∀ b ∈ z, b ≠ q ∧ b ≠ backslash

theorem Inert.singleton (h : d ≠ q) (hd : d ≠ backslash) : Inert q [d] := by
  intro b hb
  rw [mem_singleton.mp hb]
  exact ⟨h, hd⟩

theorem isTagByte_ne_backslash {b : UInt8} (h : isTagByte b = true) : b ≠ backslash := by
  rintro rfl
  exact absurd h (by decide)

/-- A region that is open at a quote, but not because of the byte in front, closes behind some
bytes that a literal may hold. -/
theorem Region.exists_closer {dbType : Text} {c : UInt8} {t : Text}
    (hq : q = singleQuote ∨ q = doubleQuote) (h : Region dbType c (m ++ q :: v) t)
    (hlt : t.length < (q :: v).length) (hlast : (c :: m).getLast? ≠ some q) :
    ∃ z, Inert q z ∧ ∀ x, Region dbType c (m ++ q :: (z ++ 0x20 :: x)) (0x20 :: x) := by
  have hne : newline ≠ q ∧ star ≠ q ∧ slash ≠ q ∧ dollar ≠ q ∧ rightBracket ≠ q ∧ dash ≠ q ∧
      q ≠ 0x20 ∧ isTagByte q = false := by
    rcases hq with rfl | rfl <;> decide
  obtain ⟨hnewline, hstar, hslash, hdollar, hbracket, hdash, hblank, htagbyte⟩ := hne
  have hline : ∀ m : Text, (afterLine (m ++ q :: v)).length < (q :: v).length → ∀ x,
      afterLine (m ++ q :: ([newline] ++ 0x20 :: x)) = 0x20 :: x := by
    intro m hopen x
    rw [afterLine_open hopen]
    simp [afterLine, scanSQLLineCommentEnd, Ne.symm hnewline]
  -- a quote or bracket whose delimiter is another byte
  have hother : ∀ d, d ≠ q → d ≠ 0x20 →
      (skipSQLDelimited d (m ++ q :: v)).length < (q :: v).length → ∀ x,
        skipSQLDelimited d (m ++ q :: ([d] ++ 0x20 :: x)) = 0x20 :: x := by
    intro d hd hblank' hopen x
    rw [skipSQLDelimited_open (.inr (by simpa using Ne.symm hd)) hopen, singleton_append,
      skipSQLDelimited, if_neg (Ne.symm hd), skipSQLDelimited, if_pos rfl,
      if_neg (Ne.symm hblank')]
  generalize ht : m ++ q :: v = y at h
  cases h with
  | line y =>
    cases m with
    | nil => exact absurd (List.cons.inj ht).1 (Ne.symm hdash)
    | cons b m =>
      rw [cons_append] at ht
      obtain ⟨rfl, rfl⟩ := List.cons.inj ht
      refine ⟨[newline], .singleton hnewline (by decide), ?_⟩
      intro x
      have hregion := @Region.line dbType (m ++ q :: ([newline] ++ 0x20 :: x))
      rwa [hline m hlt] at hregion
  | hashLine y =>
    subst ht
    refine ⟨[newline], .singleton hnewline (by decide), ?_⟩
    intro x
    have hregion := @Region.hashLine dbType (m ++ q :: ([newline] ++ 0x20 :: x))
    rwa [hline m hlt] at hregion
  | block y =>
    cases m with
    | nil => exact absurd (List.cons.inj ht).1 (Ne.symm hstar)
    | cons b m =>
      rw [cons_append] at ht
      obtain ⟨rfl, rfl⟩ := List.cons.inj ht
      refine ⟨[star, slash], ?_, ?_⟩
      · intro b hb
        rcases mem_pair.mp hb with rfl | rfl
        · exact ⟨hstar, by decide⟩
        · exact ⟨hslash, by decide⟩
      · intro x
        have hmem : q ∉ [star, slash] := by simp [Ne.symm hstar, Ne.symm hslash]
        have hafter : afterBlock (m ++ q :: ([star, slash] ++ 0x20 :: x)) = 0x20 :: x := by
          rw [afterBlock, afterFirst_open (by simp) hmem hlt]
          rfl
        have hregion := @Region.block dbType (m ++ q :: ([star, slash] ++ 0x20 :: x))
        rwa [hafter] at hregion
  | quote hc y =>
    subst ht
    by_cases hcq : c = q
    · subst hcq
      refine ⟨[], fun b hb => absurd hb (by simp), ?_⟩
      intro x
      have hm : m.getLast? ≠ some c := by
        cases m with
        | nil => exact absurd rfl hlast
        | cons b m => simpa [getLast?_cons_cons] using hlast
      have hregion := @Region.quote dbType c hc (m ++ c :: 0x20 :: x)
      rwa [skipSQLDelimited_open (.inl hm) hlt, skipSQLDelimited, if_pos rfl,
        if_neg (Ne.symm hblank)] at hregion
    · have hcne : c ≠ 0x20 ∧ c ≠ backslash := by
        rcases hc with rfl | rfl | rfl <;> decide
      refine ⟨[c], .singleton hcq hcne.2, ?_⟩
      intro x
      have hregion := @Region.quote dbType c hc (m ++ q :: ([c] ++ 0x20 :: x))
      rwa [hother c hcq hcne.1 hlt] at hregion
  | bracket hsupport y =>
    subst ht
    refine ⟨[rightBracket], .singleton hbracket (by decide), ?_⟩
    intro x
    have hregion := Region.bracket hsupport (m ++ q :: ([rightBracket] ++ 0x20 :: x))
    rwa [skipSQLBracketIdentifier, hother rightBracket hbracket (by decide) hlt] at hregion
  | tag htag =>
    subst ht
    obtain ⟨b, r, hb, hsplit⟩ := exists_of_dollarTag htag
    obtain ⟨m', rfl⟩ : ∃ m', m = b ++ dollar :: m' := by
      rcases append_eq_append_iff.mp hsplit with ⟨a, hba, ha⟩ | ⟨a, hma, ha⟩
      · cases a with
        | nil => exact absurd (List.cons.inj ha).1 (Ne.symm hdollar)
        | cons d a =>
          obtain ⟨rfl, -⟩ := List.cons.inj ha
          rw [hb q (by simp [hba])] at htagbyte
          cases htagbyte
      · cases a with
        | nil => exact absurd (List.cons.inj ha).1 hdollar
        | cons d a =>
          obtain ⟨rfl, -⟩ := List.cons.inj ha
          exact ⟨a, hma⟩
    have hmem : q ∉ dollar :: b ++ [dollar] := by
      intro hmem
      simp only [cons_append, mem_cons, mem_append, not_mem_nil,
        or_false] at hmem
      rcases hmem with rfl | hmem | rfl
      · exact hdollar rfl
      · rw [hb q hmem] at htagbyte
        cases htagbyte
      · exact hdollar rfl
    have happend := fun w => @afterTag_append isTagByte b (by decide) hb (m' ++ q :: w)
    rw [append_assoc, cons_append, happend] at hlt
    refine ⟨dollar :: b ++ [dollar], ?_, ?_⟩
    · intro e he
      refine ⟨fun heq => hmem (heq ▸ he), ?_⟩
      simp only [cons_append, mem_cons, mem_append, not_mem_nil,
        or_false] at he
      rcases he with rfl | he | rfl
      · decide
      · exact isTagByte_ne_backslash (hb e he)
      · decide
    · intro x
      have htag' : dollarTag isTagByte
          (b ++ dollar :: (m' ++ q :: (dollar :: b ++ [dollar] ++ 0x20 :: x))) ≠ [] := by
        rw [dollarTag_append (by decide) hb]
        simp
      have hregion := @Region.tag dbType _ htag'
      rw [happend, afterFirst_open (by simp) hmem hlt, afterFirst_needle (by simp),
        getD_some] at hregion
      rwa [append_assoc, cons_append]

end opened

end GoNavi.Sql
