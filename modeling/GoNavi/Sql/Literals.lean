import GoNavi.Scan.TwoRun
import GoNavi.Sql.Closing
import GoNavi.Sql.Embedded

/-! # What the classifiers do not read

The classifiers of a statement pass over quotes and comments with `skipSQLQuotedOrComment`.  Two
texts are `ReadAlike` when they are equal but for the contents of the string literals that this
function finds.  Every classifier reads such texts side by side: the same words
(`beside_nextSQLKeyword`), related finds of a search (`beside_searcher`), bodies in parentheses
that are alike again (`beside_skipBalancedSQLParens`), and so the same operation
(`sqlDataOperationInfo_eq_of_alike`), the same pragma (`pragmaMayWrite_eq`, where double quotes
enclose names) and the same write keyword (`containsEmbeddedWriteStatement_eq`). -/

namespace GoNavi.Sql

open Scan Scan.Lexing List Option

/-! ### The lexing of the classifiers -/

/-- The quotes of string literals; with `names`, double quotes enclose names. -/
def literalQuote (names : Bool) (c : UInt8) : Bool :=
  c == singleQuote || (c == doubleQuote && !names)

/-- What the classifiers skip. -/
def classifierLexing (dbType : Text) (names : Bool) : Lexing UInt8 where
  skip := skipSQLQuotedOrComment dbType
  skip_suffix := skipSQLQuotedOrComment_suffix
  free := literalQuote names

/-- The texts are equal but for the contents of string literals, as the classifiers read them. -/
abbrev ReadAlike (dbType : Text) (names : Bool) (t t' : Text) : Prop :=
  (classifierLexing dbType names).Alike t t'

/-- Places that a classifier comes to side by side. -/
abbrev ReadBeside (dbType : Text) (names : Bool) (t t' u u' : Text) : Prop :=
  (classifierLexing dbType names).Beside t t' u u'

variable {dbType : Text} {names : Bool} {c : UInt8} {t t' u u' v v' : Text}

theorem classifierLexing_local : (classifierLexing dbType names).Local where
  none_of_append := by
    intro c t w h
    have hnone := @skipSQLQuotedOrComment_none dbType t w [] c h (.inl rfl)
    rwa [append_nil] at hnone
  some_of_append := by
    intro c t v w h
    by_cases hnil : v ++ w = []
    · obtain ⟨rfl, rfl⟩ := append_eq_nil_iff.mp hnil
      exact h
    · obtain ⟨a, ha, hclose⟩ := (skipSQLQuotedOrComment_eq_some.mp h).closes hnil
      obtain rfl := append_cancel_right ha
      apply skipSQLQuotedOrComment_eq_some.mpr
      apply hclose
      cases v with
      | nil => exact .inl rfl
      | cons d v => exact .inr rfl

/-! ### Trivia and words -/

/-- `skipSQLTrivia` passes over the comments among what the classifiers skip. -/
theorem trivia_step_region (h : skipSQLQuotedOrComment dbType c t = some u) :
    trivia.step () c t =
      if c = dash ∨ c = hash ∨ c = slash then some ((), u) else none := by
  rw [skipSQLQuotedOrComment_eq_some] at h
  cases h with
  | quote hq t => rcases hq with rfl | rfl | rfl <;> rfl
  | _ => rfl

theorem trivia_step_none (h : skipSQLQuotedOrComment dbType c t = none) :
    trivia.step () c t = if isSQLBlankByte c then some ((), t) else none := by
  rw [skipSQLQuotedOrComment_eq_none] at h
  simp only [trivia]
  split_ifs with hblank hline hhash hblock
  · rfl
  · obtain ⟨rfl, hdash⟩ := hline
    obtain ⟨v, rfl⟩ := head?_eq_some_iff.mp hdash
    exact absurd (.line v) (h _)
  · subst hhash
    exact absurd (.hashLine t) (h _)
  · obtain ⟨rfl, hstar⟩ := hblock
    obtain ⟨v, rfl⟩ := head?_eq_some_iff.mp hstar
    exact absurd (.block v) (h _)
  · rfl

/-- Two texts that are alike have trivia of the same kind in front. -/
theorem beside_skipSQLTrivia (h : ReadAlike dbType names t t') :
    ReadBeside dbType names t t' (skipSQLTrivia t) (skipSQLTrivia t') := by
  refine (h.run (M := trivia) (N := trivia) (P := fun _ _ => True) ?_ ?_ trivial).2
  · intro s r c v v' _ hs hs' _ hnext
    rw [trivia_step_none hs, trivia_step_none hs']
    split_ifs
    · exact .inr ⟨(), v, (), v', rfl, rfl, trivial, hnext.alike.beside⟩
    · exact .inl ⟨rfl, rfl⟩
  · intro s r c v v' x x' _ hs hs' _
    rw [trivia_step_region hs, trivia_step_region hs']
    split_ifs
    · exact .inr ⟨(), (), rfl, rfl, trivial⟩
    · exact .inl ⟨rfl, rfl⟩

theorem ReadAlike.word (h : ReadAlike dbType names t t') :
    t.takeWhile isSQLKeywordByte = t'.takeWhile isSQLKeywordByte ∧
      ReadBeside dbType names t t' (t.dropWhile isSQLKeywordByte)
        (t'.dropWhile isSQLKeywordByte) :=
  Lexing.Alike.word (fun _ _ hc => skipSQLQuotedOrComment_keywordByte hc) h

/-- Two texts that are alike stay alike behind a byte with which nothing starts. -/
theorem ReadAlike.tail (h : ReadAlike dbType names t t') (hhead : t.head? = some c)
    (hc : c ∉ openers) : ReadAlike dbType names t.tail t'.tail := by
  obtain ⟨v, rfl⟩ := head?_eq_some_iff.mp hhead
  obtain ⟨v', rfl, ⟨-, -, hnext⟩ | ⟨x, x', hs, -⟩⟩ := Lexing.Alike.cases_cons h
  · exact hnext.alike
  · have hregion : Region dbType c v x := skipSQLQuotedOrComment_eq_some.mp hs
    exact absurd hregion.mem_openers hc

theorem tokenSpan_eq_word (p : UInt8 → Bool) (t : Text) :
    tokenSpan p p t = (toLower (t.takeWhile p), t.dropWhile p) := by
  cases t with
  | nil => rfl
  | cons c t =>
    rw [tokenSpan]
    cases hc : p c with
    | true => simp [hc]
    | false => simp [hc, toLower]

theorem beside_nextSQLKeyword (h : ReadAlike dbType names t t') :
    (nextSQLKeyword t).1 = (nextSQLKeyword t').1 ∧
      ReadBeside dbType names t t' (nextSQLKeyword t).2 (nextSQLKeyword t').2 := by
  have htrivia := beside_skipSQLTrivia h
  obtain ⟨htake, hdrop⟩ := ReadAlike.word htrivia.alike
  simp only [nextSQLKeyword, tokenSpan_eq_word]
  exact ⟨by rw [htake], htrivia.trans hdrop⟩

/-! ### Searches -/

/-- Two searches at the same depth that have found related places, or nothing. -/
structure SearchBeside (Q : Text → Text → Prop) (s s' : Search) : Prop where
  depth : s.depth = s'.depth
  found : Option.Rel Q s.found s'.found

theorem isSome_eq_of_rel {Q : Text → Text → Prop} {o o' : Option Text} (h : Option.Rel Q o o') :
    o.isSome = o'.isSome := by
  cases h <;> rfl

section searcher

variable {Q : Text → Text → Prop} {visit : Search → UInt8 → Text → Search × Text}
  {hvisit : ∀ s c t, (visit s c t).2 <:+ t}

/-- Two searches whose visits stay side by side find related places. -/
theorem beside_searcher
    (hstep : ∀ {s s' c v v'}, SearchBeside Q s s' →
      ReadBeside dbType names t t' (c :: v) (c :: v') →
      ReadBeside dbType names (c :: v) (c :: v') v v' →
      SearchBeside Q (visit s c v).1 (visit s' c v').1 ∧
        ReadBeside dbType names v v' (visit s c v).2 (visit s' c v').2)
    (h : ReadAlike dbType names t t') :
    Option.Rel Q ((searcher dbType visit hvisit).run ⟨0, none⟩ t).1.found
      ((searcher dbType visit hvisit).run ⟨0, none⟩ t').1.found := by
  refine (h.run (M := searcher dbType visit hvisit) (N := searcher dbType visit hvisit)
    (P := SearchBeside Q) ?_ ?_ ⟨rfl, .none⟩).1.found
  · intro s r c v v' hP hs hs' hat hnext
    simp only [searcher, ← isSome_eq_of_rel hP.found]
    split_ifs
    · exact .inl ⟨rfl, rfl⟩
    · obtain ⟨hP', hnext'⟩ := hstep hP hat hnext
      rw [show skipSQLQuotedOrComment dbType c v = none from hs,
        show skipSQLQuotedOrComment dbType c v' = none from hs']
      exact .inr ⟨_, _, _, _, rfl, rfl, hP', hnext'⟩
  · intro s r c v v' x x' hP hs hs' _
    simp only [searcher, ← isSome_eq_of_rel hP.found]
    split_ifs
    · exact .inl ⟨rfl, rfl⟩
    · rw [show skipSQLQuotedOrComment dbType c v = some x from hs,
        show skipSQLQuotedOrComment dbType c v' = some x' from hs']
      exact .inr ⟨_, _, rfl, rfl, hP⟩

end searcher

theorem beside_findTopLevelSQLKeyword (want : Text) (h : ReadAlike dbType names t t') :
    Option.Rel (ReadAlike dbType names) (findTopLevelSQLKeyword dbType want t)
      (findTopLevelSQLKeyword dbType want t') := by
  apply beside_searcher ?_ h
  rintro ⟨d, f⟩ ⟨d', f'⟩ c v v' ⟨rfl, hf⟩ - hnext
  obtain ⟨htake, hdrop⟩ := ReadAlike.word hnext.alike
  unfold visitTopLevel
  rw [htake]
  split_ifs
  · exact ⟨⟨rfl, hf⟩, hnext.alike.beside⟩
  · exact ⟨⟨rfl, hf⟩, hnext.alike.beside⟩
  · exact ⟨⟨rfl, .some hdrop.alike⟩, hdrop⟩
  · exact ⟨⟨rfl, hf⟩, hdrop⟩
  · exact ⟨⟨rfl, hf⟩, hnext.alike.beside⟩

theorem sqlContainsKeyword_eq (want : Text) (h : ReadAlike dbType names t t') :
    sqlContainsKeyword dbType want t = sqlContainsKeyword dbType want t' := by
  apply isSome_eq_of_rel (Q := ReadAlike dbType names)
  apply beside_searcher ?_ h
  rintro ⟨d, f⟩ ⟨d', f'⟩ c v v' ⟨rfl, hf⟩ - hnext
  obtain ⟨htake, hdrop⟩ := ReadAlike.word hnext.alike
  unfold visitKeyword
  rw [htake]
  split_ifs
  · exact ⟨⟨rfl, .some hdrop.alike⟩, hdrop⟩
  · exact ⟨⟨rfl, hf⟩, hdrop⟩
  · exact ⟨⟨rfl, hf⟩, hnext.alike.beside⟩

/-- The parts of `t` and `t'` in parentheses, in front of `u` and `u'`, are alike. -/
structure ParensAlike (dbType : Text) (names : Bool) (t t' u u' : Text) : Prop where
  rest : ReadAlike dbType names u u'
  body : ReadAlike dbType names (t.tail.take (t.tail.length - u.length - 1))
    (t'.tail.take (t'.tail.length - u'.length - 1))

theorem take_body (b u : Text) :
    (b ++ rightParen :: u).take ((b ++ rightParen :: u).length - u.length - 1) = b := by
  rw [length_append, length_cons, show b.length + (u.length + 1) - u.length - 1 =
    b.length by omega]
  exact take_left

theorem body_alike (hhead : t.head? = some leftParen)
    (h : (classifierLexing dbType names).Along t t' (rightParen :: u) (rightParen :: u')) :
    ReadAlike dbType names (t.tail.take (t.tail.length - u.length - 1))
      (t'.tail.take (t'.tail.length - u'.length - 1)) := by
  cases h with
  | refl => exact absurd (some.inj hhead) (by decide)
  | symbol _ _ h =>
    obtain ⟨⟨b, rfl⟩, ⟨b', rfl⟩⟩ := h.suffix
    rw [tail_cons, tail_cons, take_body, take_body]
    exact h.cut classifierLexing_local
  | @region c x x' y y' _ _ hs _ _ _ =>
    obtain rfl := some.inj hhead
    have hregion : Region dbType leftParen x y := skipSQLQuotedOrComment_eq_some.mp hs
    exact absurd hregion.mem_openers (by decide)

theorem beside_skipBalancedSQLParens (h : ReadAlike dbType names t t') :
    Option.Rel (ParensAlike dbType names t t') (skipBalancedSQLParens dbType t)
      (skipBalancedSQLParens dbType t') := by
  unfold skipBalancedSQLParens
  rw [← h.head?_eq]
  split_ifs with hhead
  · apply beside_searcher ?_ h
    rintro ⟨d, f⟩ ⟨d', f'⟩ c v v' ⟨rfl, hf⟩ hat hnext
    unfold visitParens
    split_ifs with hleft hright hdepth
    · exact ⟨⟨rfl, hf⟩, hnext.alike.beside⟩
    · subst hright
      exact ⟨⟨rfl, .some ⟨hnext.alike, body_alike hhead hat.along⟩⟩, hnext.alike.beside⟩
    · exact ⟨⟨rfl, hf⟩, hnext.alike.beside⟩
    · exact ⟨⟨rfl, hf⟩, hnext.alike.beside⟩
  · exact .none

/-! ### Table expressions -/

/-- The texts behind an identifier are alike; where double quotes enclose names, the identifier
is the same. -/
structure TokenAlike (dbType : Text) (names : Bool) (t t' u u' : Text) : Prop where
  rest : ReadAlike dbType names u u'
  token : names = true → ∃ r, t = r ++ u ∧ t' = r ++ u'

theorem beside_skipSQLIdentifierToken (h : ReadAlike dbType names t t') :
    Option.Rel (TokenAlike dbType names t t') (skipSQLIdentifierToken dbType t)
      (skipSQLIdentifierToken dbType t') := by
  cases t with
  | nil =>
    obtain rfl := h.nil_iff.mp rfl
    exact .none
  | cons c t =>
    obtain ⟨v, rfl, hcase⟩ := h.cases_cons
    simp only [skipSQLIdentifierToken]
    have hregion : ∀ {f : Text → Text}, (∀ w, Region dbType c w (f w)) → c ≠ singleQuote →
        TokenAlike dbType names (c :: t) (c :: v) (f t) (f v) := by
      intro f hf hc
      have hskip := fun w => skipSQLQuotedOrComment_eq_some.mpr (hf w)
      rcases hcase with ⟨hs, -, -⟩ | ⟨x, x', hs, hs', hr, hnext⟩
      · exact absurd ((hskip t).symm.trans hs) (by simp)
      · obtain rfl := some.inj ((hskip t).symm.trans hs)
        obtain rfl := some.inj ((hskip v).symm.trans hs')
        refine ⟨hnext.alike, ?_⟩
        rintro rfl
        rcases hr with hfree | ⟨r, hr, hr'⟩
        · exact absurd (show literalQuote true c = true from hfree) (by simp [literalQuote, hc])
        · exact ⟨c :: r, by rw [cons_append, ← hr], by rw [cons_append, ← hr']⟩
    split_ifs with hquote hbracket hsupport hword
    · refine .some (hregion (fun w => .quote (.inr hquote) w) ?_)
      rcases hquote with rfl | rfl <;> decide
    · subst hbracket
      exact .some (hregion (fun w => .bracket hsupport w) (by decide))
    · exact .none
    · obtain ⟨htake, hdrop⟩ := ReadAlike.word h
      have hsplit := fun w => @List.takeWhile_append_dropWhile _ isSQLKeywordByte (c :: w)
      simp only [dropWhile_cons_of_pos hword] at hdrop hsplit
      exact .some ⟨hdrop.alike, fun _ => ⟨_, (hsplit t).symm, by rw [htake, hsplit v]⟩⟩
    · exact .none

theorem alike_skipMaterialized (h : ReadAlike dbType names t t') :
    ReadAlike dbType names (skipMaterialized t) (skipMaterialized t') := by
  obtain ⟨hkeyword, hnext⟩ := beside_nextSQLKeyword h
  obtain ⟨hkeyword', hnext'⟩ := beside_nextSQLKeyword hnext.alike
  simp only [skipMaterialized, ← hkeyword, ← hkeyword']
  split_ifs
  · exact hnext'.alike
  · exact h
  · exact hnext.alike
  · exact h

theorem rel_cases {P : Text → Text → Prop} {o o' : Option Text} (h : Option.Rel P o o') :
    (o = none ∧ o' = none) ∨ ∃ a a', o = some a ∧ o' = some a' ∧ P a a' := by
  cases h with
  | some h => exact .inr ⟨_, _, rfl, rfl, h⟩
  | none => exact .inl ⟨rfl, rfl⟩

theorem rel_map {P Q : Text → Text → Prop} {o o' : Option Text} {f : Text → Text}
    (h : Option.Rel P o o') (hf : ∀ {a a'}, P a a' → Q (f a) (f a')) :
    Option.Rel Q (o.map f) (o'.map f) := by
  cases h with
  | some h => exact .some (hf h)
  | none => exact .none

theorem rel_bind {P Q : Text → Text → Prop} {o o' : Option Text} {f f' : Text → Option Text}
    (h : Option.Rel P o o') (hf : ∀ {a a'}, P a a' → Option.Rel Q (f a) (f' a')) :
    Option.Rel Q (o.bind f) (o'.bind f') := by
  cases h with
  | some h => exact hf h
  | none => exact .none

theorem beside_skipCteColumns (h : ReadAlike dbType names t t') :
    Option.Rel (ReadAlike dbType names) (skipCteColumns dbType t) (skipCteColumns dbType t') := by
  unfold skipCteColumns
  rw [← h.head?_eq]
  split_ifs
  · exact rel_map (beside_skipBalancedSQLParens h) fun hparens =>
      (beside_skipSQLTrivia hparens.rest).alike
  · exact .some h

theorem beside_cteBodyStart (h : ReadAlike dbType names t t') :
    Option.Rel (ReadAlike dbType names) (cteBodyStart dbType t) (cteBodyStart dbType t') := by
  simp only [cteBodyStart, bind_eq_bind]
  refine rel_bind (beside_skipSQLIdentifierToken (beside_skipSQLTrivia h).alike) fun h => ?_
  refine rel_bind (beside_skipCteColumns (beside_skipSQLTrivia h.rest).alike) fun h => ?_
  refine rel_bind (beside_findTopLevelSQLKeyword _ h) fun h => ?_
  have hstart := (beside_skipSQLTrivia (alike_skipMaterialized
    (beside_skipSQLTrivia h).alike)).alike
  rw [← hstart.head?_eq]
  split_ifs
  · exact .some hstart
  · exact .none

/-- The loop over the table expressions says the same, if it classifies bodies that are alike
the same. -/
theorem cteLoop_eq {info : Text → Text × Bool}
    (hinfo : ∀ {b b'}, ReadAlike dbType names b b' → info b = info b') :
    ∀ {n : ℕ} {w : Bool} {t t' : Text}, ReadAlike dbType names t t' →
      cteLoop dbType info n w t = cteLoop dbType info n w t'
  | 0, _, _, _, _ => rfl
  | n + 1, w, t, t', h => by
    rw [cteLoop, cteLoop]
    rcases rel_cases (beside_cteBodyStart h) with ⟨hs, hs'⟩ | ⟨b, b', hs, hs', hstart⟩
    · rw [hs, hs']
    rcases rel_cases (beside_skipBalancedSQLParens hstart) with
      ⟨hu, hu'⟩ | ⟨u, u', hu, hu', hparens⟩
    · simp only [hs, hs', hu, hu']
    have hrest := (beside_skipSQLTrivia hparens.rest).alike
    simp only [hs, hs', hu, hu', hinfo hparens.body, ← hrest.head?_eq,
      (beside_nextSQLKeyword hrest).1]
    split_ifs with hcomma
    · exact cteLoop_eq hinfo (ReadAlike.tail hrest hcomma (by decide))
    · rfl

theorem sqlKeywordAfterLeadingWith_eq {info : Text → Text × Bool}
    (hinfo : ∀ {b b'}, ReadAlike dbType names b b' → info b = info b')
    (h : ReadAlike dbType names t t') :
    sqlKeywordAfterLeadingWith dbType info t = sqlKeywordAfterLeadingWith dbType info t' := by
  -- the bounds of the two loops differ, and neither matters
  have hloop : ∀ {x x' : Text}, x <:+ t → x' <:+ t' → ReadAlike dbType names x x' →
      cteLoop dbType info (t.length + 1) false x =
        cteLoop dbType info (t'.length + 1) false x' := by
    intro x x' hx hx' hxx
    have hlen := hx.length_le
    have hlen' := hx'.length_le
    rw [@cteLoop_congr dbType info info _ (t.length + t'.length + 1) false x (by omega) (by omega)
        fun _ _ => rfl,
      @cteLoop_congr dbType info info _ (t.length + t'.length + 1) false x' (by omega) (by omega)
        fun _ _ => rfl]
    exact cteLoop_eq hinfo hxx
  have htrivia := beside_skipSQLTrivia h
  obtain ⟨hkeyword, hnext⟩ := beside_nextSQLKeyword htrivia.alike
  simp only [sqlKeywordAfterLeadingWith, ← hkeyword]
  split_ifs
  · exact hloop ((nextSQLKeyword_suffix _).trans (skipSQLTrivia_suffix _))
      ((nextSQLKeyword_suffix _).trans (skipSQLTrivia_suffix _)) hnext.alike
  · exact hloop (skipSQLTrivia_suffix _) (skipSQLTrivia_suffix _) htrivia.alike

theorem operationInfo_eq : ∀ {n : ℕ} {t t' : Text}, ReadAlike dbType names t t' →
    operationInfo dbType n t = operationInfo dbType n t'
  | 0, _, _, _ => rfl
  | n + 1, t, t', h => by
    obtain ⟨hkeyword, hnext⟩ := beside_nextSQLKeyword h
    rw [operationInfo, operationInfo]
    simp only [← hkeyword]
    rw [sqlKeywordAfterLeadingWith_eq (fun hb => operationInfo_eq hb) hnext.alike]

theorem sqlDataOperationInfo_eq_of_alike (h : ReadAlike dbType names t t') :
    sqlDataOperationInfo dbType t = sqlDataOperationInfo dbType t' := by
  unfold sqlDataOperationInfo
  rw [@operationInfo_eq_of_lt dbType _ (t.length + t'.length + 1) t (by omega) (by omega),
    @operationInfo_eq_of_lt dbType _ (t.length + t'.length + 1) t' (by omega) (by omega)]
  exact operationInfo_eq h

theorem isSQLSelectIntoStatement_eq (h : ReadAlike dbType names t t') :
    isSQLSelectIntoStatement dbType t = isSQLSelectIntoStatement dbType t' := by
  unfold isSQLSelectIntoStatement
  rw [sqlDataOperationInfo_eq_of_alike h, isSome_eq_of_rel (beside_findTopLevelSQLKeyword _ h)]

/-! ### `EXPLAIN` and pragmas -/

theorem beside_explainOptions : ∀ {n : ℕ} {analyze : Bool} {t t' : Text},
    ReadAlike dbType names t t' →
      (explainOptions n analyze t).1 = (explainOptions n analyze t').1 ∧
        ReadAlike dbType names (explainOptions n analyze t).2 (explainOptions n analyze t').2
  | 0, _, _, _, h => ⟨rfl, h⟩
  | n + 1, analyze, t, t', h => by
    obtain ⟨hkeyword, hnext⟩ := beside_nextSQLKeyword h
    simp only [explainOptions, ← hkeyword]
    split_ifs
    · exact beside_explainOptions hnext.alike
    · exact beside_explainOptions hnext.alike
    · exact ⟨rfl, h⟩

/-- Behind an `EXPLAIN`, both texts are executed or neither, from places on that are alike. -/
theorem explainAnalyzeBody_cases (h : ReadAlike dbType names t t') :
    (explainAnalyzeBody dbType t = none ∧ explainAnalyzeBody dbType t' = none) ∨
      ∃ a x x', explainAnalyzeBody dbType t = some (a, x) ∧
        explainAnalyzeBody dbType t' = some (a, x') ∧ ReadAlike dbType names x x' := by
  unfold explainAnalyzeBody
  rw [← h.head?_eq]
  split_ifs
  · rcases rel_cases (beside_skipBalancedSQLParens h) with ⟨hs, hs'⟩ | ⟨x, x', hs, hs', hparens⟩
    · exact .inl ⟨by rw [hs]; rfl, by rw [hs']; rfl⟩
    · refine .inr ⟨_, x, x', by rw [hs]; rfl, ?_, hparens.rest⟩
      rw [hs', sqlContainsKeyword_eq _ hparens.body, sqlContainsKeyword_eq _ hparens.body]
      rfl
  · rw [@explainOptions_eq_of_lt _ (t.length + t'.length + 1) false t (by omega) (by omega),
      @explainOptions_eq_of_lt _ (t.length + t'.length + 1) false t' (by omega) (by omega)]
    generalize t.length + t'.length + 1 = n
    obtain ⟨hanalyze, hrest⟩ := @beside_explainOptions dbType names n false t t' h
    exact .inr ⟨_, _, _, rfl, by rw [hanalyze], hrest⟩

theorem explainAnalyzeMayWrite_eq (h : ReadAlike dbType names t t') :
    explainAnalyzeMayWrite dbType t = explainAnalyzeMayWrite dbType t' := by
  obtain ⟨hkeyword, hnext⟩ := beside_nextSQLKeyword h
  simp only [explainAnalyzeMayWrite, ← hkeyword]
  split_ifs
  · rfl
  rcases explainAnalyzeBody_cases (beside_skipSQLTrivia hnext.alike).alike with
    ⟨hs, hs'⟩ | ⟨a, x, x', hs, hs', hx⟩
  · rw [hs, hs']
  · have hinner := (beside_skipSQLTrivia hx).alike
    simp only [hs, hs', sqlDataOperationInfo_eq_of_alike hinner,
      isSQLSelectIntoStatement_eq hinner]

theorem readSQLIdentifierName_cases (h : ReadAlike dbType true t t') :
    (readSQLIdentifierName dbType t = none ∧ readSQLIdentifierName dbType t' = none) ∨
      ∃ name x x', readSQLIdentifierName dbType t = some (name, x) ∧
        readSQLIdentifierName dbType t' = some (name, x') ∧ ReadAlike dbType true x x' := by
  simp only [readSQLIdentifierName, bind_eq_bind]
  rcases rel_cases (beside_skipSQLIdentifierToken (beside_skipSQLTrivia h).alike) with
    ⟨hs, hs'⟩ | ⟨x, x', hs, hs', htoken⟩
  · exact .inl ⟨by rw [hs]; rfl, by rw [hs']; rfl⟩
  · obtain ⟨r, hr, hr'⟩ := htoken.token rfl
    have htake : ∀ w : Text, (r ++ w).take ((r ++ w).length - w.length) = r := by
      intro w
      rw [length_append, Nat.add_sub_cancel]
      exact take_left
    rw [hs, hs', hr, hr']
    simp only [bind_some, htake]
    cases hname : identifierName r with
    | none => exact .inl ⟨rfl, rfl⟩
    | some name =>
      simp only [bind_some]
      split_ifs
      · exact .inl ⟨rfl, rfl⟩
      · exact .inr ⟨_, x, x', rfl, rfl, htoken.rest⟩

theorem pragmaTail_step_none (h : skipSQLQuotedOrComment dbType c t = none) :
    pragmaTail.step () c t =
      if isSQLBlankByte c = true ∨ c = semicolon then some ((), t) else none := by
  simp only [pragmaTail, trivia_step_none h]
  by_cases hblank : isSQLBlankByte c = true
  · simp [hblank]
  · simp [hblank]

theorem pragmaTail_eq_nil_iff (h : ReadAlike dbType names t t') :
    (pragmaTail.run () t).2 = [] ↔ (pragmaTail.run () t').2 = [] := by
  refine (h.run (M := pragmaTail) (N := pragmaTail) (P := fun _ _ => True) ?_ ?_
    trivial).2.alike.nil_iff
  · intro s r c v v' _ hs hs' _ hnext
    rw [pragmaTail_step_none hs, pragmaTail_step_none hs']
    split_ifs
    · exact .inr ⟨(), v, (), v', rfl, rfl, trivial, hnext.alike.beside⟩
    · exact .inl ⟨rfl, rfl⟩
  · intro s r c v v' x x' _ hs hs' _
    have hc : c ≠ semicolon := by
      rintro rfl
      have hregion : Region dbType semicolon v x := skipSQLQuotedOrComment_eq_some.mp hs
      exact absurd hregion.mem_openers (by decide)
    simp only [pragmaTail, trivia_step_region hs, trivia_step_region hs']
    split_ifs
    · exact .inr ⟨(), (), rfl, rfl, trivial⟩
    · exact .inl ⟨rfl, rfl⟩

theorem pragmaValueMayWrite_eq (name : Text) (h : ReadAlike dbType names t t') :
    pragmaValueMayWrite name t = pragmaValueMayWrite name t' := by
  simp only [pragmaValueMayWrite, ne_eq, ← h.head?_eq, pragmaTail_eq_nil_iff h]

theorem pragmaMayWrite_eq (h : ReadAlike dbType true t t') :
    pragmaMayWrite dbType t = pragmaMayWrite dbType t' := by
  obtain ⟨hkeyword, hnext⟩ := beside_nextSQLKeyword h
  simp only [pragmaMayWrite, ← hkeyword]
  split_ifs
  · rfl
  rcases readSQLIdentifierName_cases hnext.alike with ⟨hs, hs'⟩ | ⟨name, x, x', hs, hs', hx⟩
  · rw [hs, hs']
  have hpos := (beside_skipSQLTrivia hx).alike
  simp only [hs, hs', ← hpos.head?_eq]
  split_ifs with hdot
  · rcases readSQLIdentifierName_cases (ReadAlike.tail hpos hdot (by decide)) with
      ⟨ht, ht'⟩ | ⟨name', y, y', ht, ht', hy⟩
    · rw [ht, ht']
    · simp only [ht, ht']
      exact pragmaValueMayWrite_eq name' (beside_skipSQLTrivia hy).alike
  · exact pragmaValueMayWrite_eq name hpos

/-! ### The scan for a write keyword -/

theorem containsEmbeddedWriteStatement_eq (h : ReadAlike dbType names t t') :
    containsEmbeddedWriteStatement dbType t = containsEmbeddedWriteStatement dbType t' := by
  have hrun := (h.run (M := embeddedWriteScanner dbType) (N := embeddedWriteScanner dbType)
    (P := Eq) ?_ ?_ (Eq.refl WriteScan.initial)).1
  · rw [containsEmbeddedWriteStatement, containsEmbeddedWriteStatement,
      firstEmbeddedWriteKeyword, firstEmbeddedWriteKeyword, hrun]
  · rintro g r c v v' rfl hs hs' - hnext
    obtain ⟨htake, hdrop⟩ := ReadAlike.word hnext.alike
    by_cases hopen : g.found = []
    · cases hc : isSQLKeywordByte c with
      | true =>
        refine .inr ⟨_, _, _, _, embeddedWriteScanner_word hopen hs hc,
          embeddedWriteScanner_word hopen hs' hc, ?_, hdrop⟩
        rw [scanWord, scanWord, htake]
      | false =>
        exact .inr ⟨g, v, g, v', embeddedWriteScanner_byte hopen hs hc,
          embeddedWriteScanner_byte hopen hs' hc, rfl, hnext.alike.beside⟩
    · exact .inl ⟨if_pos hopen, if_pos hopen⟩
  · rintro g r c v v' x x' rfl hs hs' -
    by_cases hopen : g.found = []
    · exact .inr ⟨g, g, embeddedWriteScanner_skip hopen hs, embeddedWriteScanner_skip hopen hs',
        rfl⟩
    · exact .inl ⟨if_pos hopen, if_pos hopen⟩

end GoNavi.Sql
