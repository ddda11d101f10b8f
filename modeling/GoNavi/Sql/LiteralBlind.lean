import GoNavi.Sql.Literals

/-! # Literals of MySQL and the read-only test

`isReadOnlySQLQuery` should not depend on what the string literals of a statement hold
(`LiteralBlind`).  The literals of MySQL know backslash escapes, and the source reads them so in
front of version comments (`skipMySQLQuotedText`); its classifiers do not (`skipSQLDelimited`).

* `SeenAlike.isReadOnlySQLText_eq`: texts that are also equal but for literals as the code reads
  them get the same verdict.
* `exists_embedded_write`: a literal can be filled so that the scan for a write keyword comes back
  to code inside of it, whatever region it lies in for the scan (`Region.exists_closer`).

**Main theorem** (`literalBlind`): the verdict is the same for texts that the code reads alike, and
for a text that passes as read-only it depends on no literal if and only if the text has none.  An
escaped quote is enough to see a difference (`not_literalBlind_escape`). -/

namespace GoNavi.Sql

open Scan Scan.Lexing List

variable {dbType : Text} {c : UInt8} {t t' u u' : Text}

/-! ### The lexing of MySQL -/

/-- The quotes and comments of MySQL: backslash escapes in string literals, but not in names, and
the content of a version comment is code. -/
def mysqlSkip (c : UInt8) (t : Text) : Option Text :=
  if c = singleQuote ∨ c = doubleQuote then some (skipMySQLQuotedText c t)
  else if c = backtick then some (skipSQLDelimited c t)
  else if c = hash then some (afterLine t)
  else if c = dash ∧ t.head? = some dash ∧ isMySQLDashCommentStart t.tail then
    some (afterLine t.tail)
  else if c = slash ∧ t.head? = some star ∧ isVersionComment (c :: t) = false then
    some (afterBlock t.tail)
  else none

theorem mysqlSkip_suffix (h : mysqlSkip c t = some u) : u <:+ t := by
  simp only [mysqlSkip] at h
  split_ifs at h <;> cases h
  · exact skipMySQLQuotedText_suffix _ _
  · exact skipSQLDelimited_suffix _ _
  · exact afterLine_suffix _
  · exact (afterLine_suffix _).trans (List.tail_suffix _)
  · exact (afterBlock_suffix _).trans (List.tail_suffix _)

def mysqlLexing : Lexing UInt8 where
  skip := mysqlSkip
  skip_suffix := mysqlSkip_suffix
  free := literalQuote false

/-- Two texts that are equal but for the contents of their string literals get the same
verdict. -/
def LiteralBlind (gates : DocumentGates) (dbType text text' : Text) : Prop :=
  mysqlLexing.Alike text text' →
    isReadOnlySQLQuery gates dbType text = isReadOnlySQLQuery gates dbType text'

/-! ### Version comments -/

/-- What `hasExecutableSQLComment` skips in front of a version comment. -/
def versionSkip (c : UInt8) (t : Text) : Option Text :=
  if c = singleQuote ∨ c = doubleQuote ∨ c = backtick then some (skipMySQLQuotedText c t)
  else if c = hash then some (skipMySQLLineComment t)
  else if c = dash ∧ t.head? = some dash ∧ isMySQLDashCommentStart t.tail then
    some (skipMySQLLineComment t.tail)
  else if c = slash ∧ t.head? = some star then some (afterBlock t.tail)
  else none

theorem versionSkip_suffix (h : versionSkip c t = some u) : u <:+ t := by
  simp only [versionSkip] at h
  split_ifs at h <;> cases h
  · exact skipMySQLQuotedText_suffix _ _
  · exact List.dropWhile_suffix _
  · exact (List.dropWhile_suffix _).trans (List.tail_suffix _)
  · exact (afterBlock_suffix _).trans (List.tail_suffix _)

def versionLexing : Lexing UInt8 where
  skip := versionSkip
  skip_suffix := versionSkip_suffix
  free := literalQuote false

theorem versionCommentScanner_step : versionCommentScanner.step () c t =
    if isVersionComment (c :: t) then none else some ((), (versionSkip c t).getD t) := by
  simp only [versionCommentScanner, versionSkip]
  split_ifs <;> rfl

/-- A byte below the lower-case letters is the lower case of itself only. -/
theorem eq_of_lowerByte {d : UInt8} (h : lowerByte c = d) (hd : d.toNat < 97) : c = d := by
  unfold lowerByte at h
  split_ifs at h with hupper
  · obtain ⟨hlow, hhigh⟩ := hupper
    rw [UInt8.le_iff_toNat_le] at hlow hhigh
    have hA : 'A'.toUInt8.toNat = 65 := rfl
    have hZ : 'Z'.toUInt8.toNat = 90 := rfl
    have hsum := congrArg UInt8.toNat h
    rw [UInt8.toNat_add, show (32 : UInt8).toNat = 32 from rfl] at hsum
    omega
  · exact h

theorem exists_of_isVersionComment (h : isVersionComment t = true) :
    ∃ v, t = slash :: star :: v := by
  simp only [isVersionComment, Bool.or_eq_true, List.isPrefixOf_iff_prefix] at h
  rcases h with ⟨v, rfl⟩ | ⟨v, hv⟩
  · exact ⟨0x21 :: v, rfl⟩
  · have hbytes : bytes "/*m!" = [slash, star, 0x6D, 0x21] := by decide
    rw [hbytes] at hv
    cases t with
    | nil => cases hv
    | cons c t =>
      cases t with
      | nil => cases (List.cons.inj hv).2
      | cons d t =>
        obtain ⟨hc, hv⟩ := List.cons.inj hv
        obtain ⟨hd, -⟩ := List.cons.inj hv
        obtain rfl := eq_of_lowerByte hc.symm (by decide)
        obtain rfl := eq_of_lowerByte hd.symm (by decide)
        exact ⟨t, rfl⟩

theorem isVersionComment_append {a : Text} (ha : 4 ≤ a.length) :
    isVersionComment (a ++ t) = isVersionComment a := by
  have hlen : (bytes "/*!").length = 3 := by decide
  unfold isVersionComment
  rw [isPrefixOf_append_of_length (by omega), take_append_of_le_length ha]

theorem isVersionComment_of_ne (h : c ≠ slash) : isVersionComment (c :: t) = false := by
  rw [Bool.eq_false_iff]
  intro hversion
  obtain ⟨v, hv⟩ := exists_of_isVersionComment hversion
  exact h (List.cons.inj hv).1

theorem versionSkip_slash :
    versionSkip slash t = if t.head? = some star then some (afterBlock t.tail) else none := by
  rw [versionSkip, if_neg (by decide), if_neg (by decide), if_neg fun h => absurd h.1 (by decide)]
  simp

theorem isVersionComment_eq (h : versionLexing.Alike (c :: t) (c :: t')) :
    isVersionComment (c :: t) = isVersionComment (c :: t') := by
  by_cases hc : c = slash
  · subst hc
    obtain ⟨w, hw, hcase⟩ := h.cases_cons
    obtain ⟨-, rfl⟩ := List.cons.inj hw
    rcases hcase with ⟨hs, hs', -⟩ | ⟨x, x', hs, hs', hr, hnext⟩
    · -- a lone slash
      have hlone : ∀ v, versionSkip slash v = none → isVersionComment (slash :: v) = false := by
        intro v hv
        rw [Bool.eq_false_iff]
        intro hversion
        obtain ⟨s, hs⟩ := exists_of_isVersionComment hversion
        obtain ⟨-, rfl⟩ := List.cons.inj hs
        simp [versionSkip_slash] at hv
      rw [hlone t hs, hlone t' hs']
    · rcases hr with hfree | ⟨r, rfl, rfl⟩
      · exact absurd hfree (by decide)
      by_cases hx : x = []
      · rw [hx, hnext.alike.nil_iff.mp hx]
      · -- a comment that closes has four bytes at least
        have hskip : versionSkip slash (r ++ x) = some x := hs
        rw [versionSkip_slash] at hskip
        split_ifs at hskip with hstar
        obtain ⟨v, hv⟩ := head?_eq_some_iff.mp hstar
        rw [hv, tail_cons, Option.some.injEq] at hskip
        obtain ⟨a, ha, hclose⟩ := @afterBlock_closes v (by rwa [hskip])
        have hane : a ≠ [] := by
          rintro rfl
          exact absurd (hclose [0]) (by decide)
        have hlen := congrArg List.length hv
        rw [ha, hskip] at hlen
        have hpos := length_pos_iff.mpr hane
        simp only [length_append, length_cons] at hlen
        have hfour : 4 ≤ (slash :: r).length := by
          rw [length_cons]
          omega
        rw [← cons_append, ← cons_append, isVersionComment_append hfour,
          isVersionComment_append hfour]
  · rw [isVersionComment_of_ne hc, isVersionComment_of_ne hc]

/-- The search for a version comment ends alike in both texts. -/
theorem isEmpty_versionCommentScanner (h : versionLexing.Alike t t') :
    (versionCommentScanner.run () t).2.isEmpty = (versionCommentScanner.run () t').2.isEmpty := by
  have hrun : (versionCommentScanner.run () t).2 = [] ↔
      (versionCommentScanner.run () t').2 = [] := by
    refine (h.run (M := versionCommentScanner) (N := versionCommentScanner)
      (P := fun _ _ => True) ?_ ?_ trivial).2.alike.nil_iff
    · intro s r c v v' _ hs hs' hat hnext
      rw [versionCommentScanner_step, versionCommentScanner_step,
        ← isVersionComment_eq hat.alike, show versionSkip c v = none from hs,
        show versionSkip c v' = none from hs']
      split_ifs
      · exact .inl ⟨rfl, rfl⟩
      · exact .inr ⟨(), v, (), v', rfl, rfl, trivial, hnext.alike.beside⟩
    · intro s r c v v' x x' _ hs hs' hat
      rw [versionCommentScanner_step, versionCommentScanner_step,
        ← isVersionComment_eq hat.alike, show versionSkip c v = some x from hs,
        show versionSkip c v' = some x' from hs']
      split_ifs
      · exact .inl ⟨rfl, rfl⟩
      · exact .inr ⟨(), (), rfl, rfl, trivial⟩
  rw [Bool.eq_iff_iff, List.isEmpty_iff, List.isEmpty_iff]
  exact hrun

/-! ### The verdict -/

/-- The dialects in which the code looks for version comments. -/
def readsVersionComments (dbType : Text) : Bool :=
  normalizedName dbType ∈ [bytes "mysql", bytes "mariadb", bytes "oceanbase", bytes "diros",
    bytes "starrocks"]

/-- The two texts are also equal but for the contents of string literals as the code reads them:
where it looks for version comments and, if there is none, in its classifiers, for which the double
quotes of a `PRAGMA` enclose names. -/
structure SeenAlike (dbType text text' : Text) : Prop where
  version : readsVersionComments dbType = true → versionLexing.Alike text text'
  code : hasExecutableSQLComment dbType text = false →
    ReadAlike dbType ((nextSQLKeyword text).1 = bytes "pragma") text text'

section seen

variable {text text' : Text}

theorem SeenAlike.hasExecutableSQLComment_eq (h : SeenAlike dbType text text') :
    hasExecutableSQLComment dbType text = hasExecutableSQLComment dbType text' := by
  unfold hasExecutableSQLComment
  split_ifs with hreads
  · rw [isEmpty_versionCommentScanner (h.version (decide_eq_true hreads))]
  · rfl

theorem SeenAlike.pragmaMayWrite_eq (h : SeenAlike dbType text text')
    (hcomment : hasExecutableSQLComment dbType text = false) :
    pragmaMayWrite dbType text = pragmaMayWrite dbType text' := by
  have hcode := h.code hcomment
  by_cases hpragma : (nextSQLKeyword text).1 = bytes "pragma"
  · rw [decide_eq_true hpragma] at hcode
    exact GoNavi.Sql.pragmaMayWrite_eq hcode
  · have hkeyword := (beside_nextSQLKeyword hcode).1
    simp only [pragmaMayWrite, ← hkeyword, hpragma, ne_eq, not_false_iff, if_true]

theorem SeenAlike.isReadOnlySQLText_eq (h : SeenAlike dbType text text') :
    isReadOnlySQLText dbType text = isReadOnlySQLText dbType text' := by
  cases hcomment : hasExecutableSQLComment dbType text with
  | true =>
    have hcomment' := h.hasExecutableSQLComment_eq.symm.trans hcomment
    simp [isReadOnlySQLText, headMayWrite, hcomment, hcomment']
  | false =>
    have hcode := h.code hcomment
    have hhead : headMayWrite dbType text = headMayWrite dbType text' := by
      simp only [headMayWrite, h.hasExecutableSQLComment_eq,
        sqlDataOperationInfo_eq_of_alike hcode, isSQLSelectIntoStatement_eq hcode,
        explainAnalyzeMayWrite_eq hcode, h.pragmaMayWrite_eq hcomment]
    rw [isReadOnlySQLText, isReadOnlySQLText, hhead, containsEmbeddedWriteStatement_eq hcode]

end seen

/-! ### Every literal can be filled with a write

What the scanners read in front of a literal they read in front of any other literal with the same
quote. -/

section filled

variable {q : UInt8} {p v v' w x y z : Text}

theorem literalQuote_iff : literalQuote false q = true ↔ q = singleQuote ∨ q = doubleQuote := by
  simp [literalQuote]

/-- What MySQL skips. -/
inductive MySQLRegion : UInt8 → Text → Text → Prop where
  | literal {q : UInt8} (hq : q = singleQuote ∨ q = doubleQuote) (t : Text) :
      MySQLRegion q t (skipMySQLQuotedText q t)
  | name (t : Text) : MySQLRegion backtick t (skipSQLDelimited backtick t)
  | hashLine (t : Text) : MySQLRegion hash t (afterLine t)
  | line {t : Text} (h : isMySQLDashCommentStart t = true) :
      MySQLRegion dash (dash :: t) (afterLine t)
  | block {t : Text} (h : isVersionComment (slash :: star :: t) = false) :
      MySQLRegion slash (star :: t) (afterBlock t)

theorem mysqlSkip_eq_some : mysqlSkip c t = some u ↔ MySQLRegion c t u := by
  constructor
  · intro h
    simp only [mysqlSkip] at h
    split_ifs at h with hquote hname hhash hline hblock <;> cases h
    · exact .literal hquote t
    · subst hname
      exact .name t
    · subst hhash
      exact .hashLine t
    · obtain ⟨rfl, hdash, hstart⟩ := hline
      obtain ⟨v, rfl⟩ := head?_eq_some_iff.mp hdash
      exact .line hstart
    · obtain ⟨rfl, hstar, hversion⟩ := hblock
      obtain ⟨v, rfl⟩ := head?_eq_some_iff.mp hstar
      exact .block hversion
  · intro h
    cases h with
    | literal hq t => exact if_pos hq
    | name t => rfl
    | hashLine t => rfl
    | line hstart =>
      rw [mysqlSkip, if_neg (by decide), if_neg (by decide), if_neg (by decide),
        if_pos ⟨rfl, rfl, hstart⟩]
      rfl
    | block hversion =>
      rw [mysqlSkip, if_neg (by decide), if_neg (by decide), if_neg (by decide),
        if_neg fun h => absurd h.1 (by decide), if_pos ⟨rfl, rfl, hversion⟩]
      rfl

theorem mysqlSkip_eq_none : mysqlSkip c t = none ↔ ∀ u, ¬ MySQLRegion c t u := by
  rw [Option.eq_none_iff_forall_ne_some]
  exact forall_congr' fun u => not_congr mysqlSkip_eq_some

theorem isVersionComment_quote (hq : q = singleQuote ∨ q = doubleQuote) :
    isVersionComment (x ++ q :: v) = isVersionComment (x ++ q :: v') := by
  have hlower : lowerByte q = q := by
    rcases hq with rfl | rfl <;> decide
  have hmysql : q ∉ bytes "/*!" := by
    rcases hq with rfl | rfl <;> decide
  have hmariadb : q ∉ bytes "/*m!" := by
    rcases hq with rfl | rfl <;> decide
  have htake : ∀ y : Text, (bytes "/*m!").isPrefixOf (toLower (y.take 4)) =
      (bytes "/*m!").isPrefixOf (toLower y) := by
    intro y
    rw [Bool.eq_iff_iff, List.isPrefixOf_iff_prefix, List.isPrefixOf_iff_prefix, toLower,
      map_take, List.prefix_take_iff]
    exact and_iff_left (by decide)
  have hmap : ∀ y : Text, toLower (x ++ q :: y) = toLower x ++ q :: toLower y := by
    intro y
    rw [toLower, map_append, map_cons, hlower]
    rfl
  unfold isVersionComment
  rw [htake, htake, hmap, hmap, isPrefixOf_append_of_not_mem hmysql,
    isPrefixOf_append_of_not_mem hmysql, isPrefixOf_append_of_not_mem hmariadb,
    isPrefixOf_append_of_not_mem hmariadb]

/-- A comment or a name in front of a literal ends where it does, with a byte that is no
quote. -/
theorem MySQLRegion.replace (hq : q = singleQuote ∨ q = doubleQuote)
    (hc : literalQuote false c = false) (h : MySQLRegion c (y ++ q :: v) (z ++ q :: v)) :
    ∃ a d, y = a ++ d :: z ∧ d ≠ q ∧ ∀ v', MySQLRegion c (y ++ q :: v') (z ++ q :: v') := by
  have hends : newline ≠ q ∧ slash ≠ q ∧ backtick ≠ q := by
    rcases hq with rfl | rfl <;> decide
  obtain ⟨hnewline, hslash, hback⟩ := hends
  have hhead : ∀ v', (z ++ q :: v').head? = (z ++ q :: v).head? := by
    intro v'
    cases z <;> rfl
  -- what is in front of the part that is left
  have hcut : ∀ {a : Text} {d : UInt8} {y : Text}, y ++ q :: v = a ++ d :: (z ++ q :: v) →
      y = a ++ d :: z := by
    intro a d y hy
    rw [← cons_append, ← append_assoc] at hy
    exact append_cancel_right hy
  have hassoc : ∀ (a : Text) (d : UInt8) (v' : Text),
      a ++ d :: z ++ q :: v' = a ++ d :: (z ++ q :: v') := by
    intro a d v'
    simp
  generalize hy : y ++ q :: v = x, hz : z ++ q :: v = r at h
  have hr : r ≠ [] := by
    rw [← hz]
    simp
  cases h with
  | literal hq' => rw [literalQuote_iff.mpr hq'] at hc; cases hc
  | name x =>
    obtain ⟨a, ha, hback', hclose⟩ := skipSQLDelimited_closes hr
    rw [← hz, ← hy] at ha
    obtain rfl := hcut ha
    refine ⟨a, backtick, rfl, hback, ?_⟩
    intro v'
    have hregion := MySQLRegion.name (a ++ backtick :: (z ++ q :: v'))
    rw [hclose _ (by rwa [hhead v', hz])] at hregion
    rwa [hassoc]
  | hashLine x =>
    obtain ⟨a, ha, hclose⟩ := afterLine_closes hr
    rw [← hz, ← hy] at ha
    obtain rfl := hcut ha
    refine ⟨a, newline, rfl, hnewline, ?_⟩
    intro v'
    have hregion := MySQLRegion.hashLine (a ++ newline :: (z ++ q :: v'))
    rw [hclose] at hregion
    rwa [hassoc]
  | @line x hstart =>
    cases y with
    | nil =>
      obtain ⟨rfl, -⟩ := List.cons.inj hy
      rcases hq with hq | hq <;> exact absurd hq (by decide)
    | cons b y =>
      rw [cons_append] at hy
      obtain ⟨rfl, rfl⟩ := List.cons.inj hy
      obtain ⟨a, ha, hclose⟩ := afterLine_closes hr
      rw [← hz] at ha
      obtain rfl := hcut ha
      refine ⟨dash :: a, newline, rfl, hnewline, ?_⟩
      intro v'
      have hstart' : isMySQLDashCommentStart (a ++ newline :: (z ++ q :: v')) = true := by
        cases a with
        | nil => rfl
        | cons d a => exact hstart
      have hregion := MySQLRegion.line hstart'
      rw [hclose] at hregion
      rwa [cons_append, hassoc]
  | @block x hversion =>
    cases y with
    | nil =>
      obtain ⟨rfl, -⟩ := List.cons.inj hy
      rcases hq with hq | hq <;> exact absurd hq (by decide)
    | cons b y =>
      rw [cons_append] at hy
      obtain ⟨rfl, rfl⟩ := List.cons.inj hy
      obtain ⟨a, ha, hclose⟩ := afterBlock_closes hr
      rw [← hz] at ha
      obtain rfl := hcut ha
      refine ⟨star :: a, slash, rfl, hslash, ?_⟩
      intro v'
      have hversion' :
          isVersionComment (slash :: star :: (a ++ slash :: z ++ q :: v')) = false := by
        rw [← hversion]
        exact @isVersionComment_quote q v' v (slash :: star :: (a ++ slash :: z)) hq
      rw [hassoc] at hversion'
      have hregion := MySQLRegion.block hversion'
      rw [hclose] at hregion
      rwa [cons_append, hassoc]

theorem mysqlSkip_none (hq : q = singleQuote ∨ q = doubleQuote)
    (h : mysqlSkip c (y ++ q :: v) = none) : mysqlSkip c (y ++ q :: v') = none := by
  rw [mysqlSkip_eq_none] at h ⊢
  intro u hu
  generalize hx : y ++ q :: v' = x at hu
  cases hu with
  | literal hq' => exact h _ (.literal hq' _)
  | name => exact h _ (.name _)
  | hashLine => exact h _ (.hashLine _)
  | @line x hstart =>
    cases y with
    | nil =>
      obtain ⟨rfl, -⟩ := List.cons.inj hx
      rcases hq with hq | hq <;> exact absurd hq (by decide)
    | cons b y =>
      rw [cons_append] at hx
      obtain ⟨rfl, rfl⟩ := List.cons.inj hx
      refine h _ (.line ?_)
      cases y with
      | nil => exact hstart
      | cons d y => exact hstart
  | @block x hversion =>
    cases y with
    | nil =>
      obtain ⟨rfl, -⟩ := List.cons.inj hx
      rcases hq with hq | hq <;> exact absurd hq (by decide)
    | cons b y =>
      rw [cons_append] at hx
      obtain ⟨rfl, rfl⟩ := List.cons.inj hx
      refine h _ (.block ?_)
      rw [← hversion]
      exact @isVersionComment_quote q v v' (slash :: star :: y) hq

/-- What MySQL reads in front of a literal does not end with its quote. -/
theorem getLast?_of_bare (hq : q = singleQuote ∨ q = doubleQuote)
    (h : mysqlLexing.Bare (p ++ q :: v) (q :: v)) : p.getLast? ≠ some q := by
  generalize hu : q :: v = u at h
  generalize hx : p ++ u = x at h
  induction h generalizing p with
  | here u =>
    obtain rfl : p = [] := by simpa using hx
    simp
  | @symbol c t u hs h ih =>
    subst hu
    obtain ⟨y, rfl⟩ := h.suffix
    rw [← cons_append] at hx
    obtain rfl := append_cancel_right hx
    have hy := ih rfl rfl
    cases y with
    | nil =>
      rintro heq
      obtain rfl := Option.some.inj heq
      exact mysqlSkip_eq_none.mp hs _ (.literal hq _)
    | cons d y => simpa [getLast?_cons_cons] using hy
  | @region c x t u hfree hs h ih =>
    subst hu
    obtain ⟨z, rfl⟩ := h.suffix
    obtain ⟨r, rfl⟩ := mysqlLexing.skip_suffix hs
    rw [← append_assoc, ← cons_append] at hx
    obtain rfl := append_cancel_right hx
    rw [← append_assoc] at hs
    obtain ⟨a, d, ha, hd, -⟩ := (mysqlSkip_eq_some.mp hs).replace hq hfree
    have hz := ih rfl rfl
    rw [ha]
    cases z with
    | nil =>
      rw [← cons_append, getLast?_append]
      simpa using hd
    | cons e z =>
      rw [← cons_append, getLast?_append]
      simpa [getLast?_cons_cons] using hz

theorem word_append {f : UInt8 → Bool} (hq : f q = false) (y v : Text) :
    (y ++ q :: v).takeWhile f = y.takeWhile f ∧
      (y ++ q :: v).dropWhile f = y.dropWhile f ++ q :: v := by
  induction y with
  | nil => simp [hq]
  | cons c y ih =>
    cases hc : f c with
    | true => simp [hc, ih]
    | false => simp [hc]

theorem found_of_step {s : WriteScan} {r : WriteScan × Text}
    (h : (embeddedWriteScanner dbType).step s c t = some r) : s.found = [] := by
  by_contra hfound
  simp [embeddedWriteScanner, hfound] at h

/-- What the scan for a write keyword does in front of a literal does not depend on it. -/
theorem embeddedWriteScanner_replace {s s' : WriteScan} (hq : q = singleQuote ∨ q = doubleQuote)
    (h : (embeddedWriteScanner dbType).step s c (y ++ q :: v) = some (s', z ++ q :: v)) :
    (embeddedWriteScanner dbType).step s c (y ++ q :: v') = some (s', z ++ q :: v') := by
  have hopen := found_of_step h
  have hquote : isSQLKeywordByte q = false := by
    rcases hq with rfl | rfl <;> decide
  cases hskip : skipSQLQuotedOrComment dbType c (y ++ q :: v) with
  | some r =>
    rw [embeddedWriteScanner_skip hopen hskip] at h
    obtain ⟨rfl, rfl⟩ := Prod.mk.inj (Option.some.inj h)
    obtain ⟨a, ha, hclose⟩ := (skipSQLQuotedOrComment_eq_some.mp hskip).closes (by simp)
    rw [← append_assoc] at ha
    obtain rfl := append_cancel_right ha
    have hregion := hclose (z ++ q :: v') (.inr (by cases z <;> rfl))
    rw [← append_assoc] at hregion
    exact embeddedWriteScanner_skip hopen (skipSQLQuotedOrComment_eq_some.mpr hregion)
  | none =>
    have hskip' : skipSQLQuotedOrComment dbType c (y ++ q :: v') = none :=
      skipSQLQuotedOrComment_none hskip (.inr ⟨q, hq, rfl, rfl⟩)
    obtain ⟨htake, hdrop⟩ := @word_append q _ hquote y v
    obtain ⟨htake', hdrop'⟩ := @word_append q _ hquote y v'
    cases hc : isSQLKeywordByte c with
    | true =>
      rw [embeddedWriteScanner_word hopen hskip hc, scanWord, htake, hdrop] at h
      obtain ⟨rfl, hz⟩ := Prod.mk.inj (Option.some.inj h)
      obtain rfl := append_cancel_right hz
      rw [embeddedWriteScanner_word hopen hskip' hc, scanWord, htake', hdrop']
    | false =>
      rw [embeddedWriteScanner_byte hopen hskip hc] at h
      obtain ⟨rfl, hz⟩ := Prod.mk.inj (Option.some.inj h)
      obtain rfl := append_cancel_right hz
      exact embeddedWriteScanner_byte hopen hskip' hc

theorem skipMySQLQuotedText_inert (hq : q = singleQuote ∨ q = doubleQuote) (hz : Inert q z)
    (hw : w.head? ≠ some q) : skipMySQLQuotedText q (z ++ q :: w) = w := by
  induction z with
  | nil =>
    have hback : q ≠ backslash := by
      rcases hq with rfl | rfl <;> decide
    cases w with
    | nil => rfl
    | cons d w =>
      have hd : d ≠ q := fun hd => hw (by rw [hd]; rfl)
      rw [nil_append, skipMySQLQuotedText, if_neg hback, if_neg (by simp), if_neg hd]
  | cons b z ih =>
    obtain ⟨hb, hback⟩ := hz b mem_cons_self
    have hrest := ih fun e he => hz e (mem_cons_of_mem _ he)
    obtain ⟨d, r, hr⟩ := exists_cons_of_ne_nil (show z ++ q :: w ≠ [] by simp)
    rw [cons_append, hr, skipMySQLQuotedText, if_neg hback, if_pos hb, ← hr, hrest]

theorem skipMySQLQuotedText_head : ∀ t : Text, (skipMySQLQuotedText q t).head? ≠ some q
  | [] => by simp [skipMySQLQuotedText]
  | [_] => by simp [skipMySQLQuotedText]
  | c :: d :: t => by
    rw [skipMySQLQuotedText]
    split_ifs with hback hc hd
    · exact skipMySQLQuotedText_head t
    · exact skipMySQLQuotedText_head (d :: t)
    · exact skipMySQLQuotedText_head t
    · simpa using hd

/-- The words of a write behind a quote that the scan has closed. -/
abbrev smuggled : Text := [0x20, 0x78, 0x20, 0x44, 0x45, 0x4C, 0x45, 0x54, 0x45, 0x20]

example : smuggled = bytes " x DELETE " := by decide

theorem smuggled_found {s : WriteScan} (hopen : s.found = []) (w : Text) :
    ∃ s' t, (embeddedWriteScanner dbType).Reach s (smuggled ++ w) s' t ∧ s'.found ≠ [] := by
  have hblank : ∀ {s : WriteScan} {t : Text}, s.found = [] →
      (embeddedWriteScanner dbType).step s 0x20 t = some (s, t) := by
    intro s t hopen
    exact embeddedWriteScanner_byte hopen
      (skipSQLQuotedOrComment_eq_none.mpr fun u hu => absurd hu.mem_openers (by decide))
      (by decide)
  have hword : ∀ {s : WriteScan} (c : UInt8) (y t : Text), s.found = [] →
      (c :: y).all isSQLKeywordByte = true →
      (embeddedWriteScanner dbType).step s c (y ++ 0x20 :: t) =
        some (s.word (toLower (c :: y)), 0x20 :: t) := by
    intro s c y t hopen hall
    rw [all_cons, Bool.and_eq_true] at hall
    obtain ⟨hc, hy⟩ := hall
    rw [all_eq_true] at hy
    obtain ⟨htake, hdrop⟩ := @takeWhile_dropWhile_append isSQLKeywordByte y (0x20 :: t) hy
      (fun b hb => by cases hb; decide)
    rw [embeddedWriteScanner_word hopen (skipSQLQuotedOrComment_keywordByte hc) hc, scanWord,
      htake, hdrop]
  have hx : s.word (toLower [0x78]) = ⟨bytes "x", false, []⟩ := by
    rw [show toLower [0x78] = bytes "x" by decide, WriteScan.word,
      if_neg fun h => absurd h.2 (by decide), WriteScan.plainWord, if_neg (by decide),
      if_neg fun h => absurd h.1 (by decide), if_neg fun h => absurd h.1 (by decide)]
  have hfirst := hword 0x78 [] (0x44 :: [0x45, 0x4C, 0x45, 0x54, 0x45] ++ 0x20 :: w) hopen
    (by decide)
  rw [hx] at hfirst
  have hsecond := @hword ⟨bytes "x", false, []⟩ 0x44 [0x45, 0x4C, 0x45, 0x54, 0x45] w rfl
    (by decide)
  exact ⟨_, _, .head (hblank hopen) (.head hfirst (.head (hblank rfl) (.single hsecond))),
    by decide⟩

/-- Wherever the scan stands in front of a literal, or of the region in which it lies for the
scan, some bytes that the literal may hold bring it back to code. -/
theorem exists_return {s s' : WriteScan} {t r : Text} (hq : q = singleQuote ∨ q = doubleQuote)
    (hstep : (embeddedWriteScanner dbType).step s c t = some (s', r)) (ht : c :: t = y ++ q :: v)
    (hlt : r.length < (q :: v).length) (hlast : y.getLast? ≠ some q) :
    ∃ z, (∀ x w, Inert q x → w.head? ≠ some q → skipMySQLQuotedText q (z ++ x ++ q :: w) = w) ∧
      ∀ x, (embeddedWriteScanner dbType).Reach s (y ++ q :: (z ++ 0x20 :: x)) s (0x20 :: x) := by
  have hopen := found_of_step hstep
  have hne : isSQLKeywordByte q = false ∧ q ≠ backslash ∧ q ≠ 0x20 := by
    rcases hq with rfl | rfl <;> decide
  obtain ⟨hquote, hback, hblank⟩ := hne
  cases y with
  | nil =>
    -- the scan takes an escaped quote for the end of the literal
    refine ⟨[backslash, q], ?_, ?_⟩
    · intro x w hx hw
      show skipMySQLQuotedText q (backslash :: q :: (x ++ q :: w)) = w
      rw [skipMySQLQuotedText, if_pos rfl]
      exact skipMySQLQuotedText_inert hq hx hw
    · intro x
      have hregion := @Region.quote dbType q (by tauto) (backslash :: q :: 0x20 :: x)
      rw [skipSQLDelimited, if_neg (Ne.symm hback), skipSQLDelimited, if_pos rfl,
        if_neg (Ne.symm hblank)] at hregion
      exact .single (embeddedWriteScanner_skip hopen (skipSQLQuotedOrComment_eq_some.mpr hregion))
  | cons b m =>
    rw [cons_append] at ht
    obtain ⟨rfl, rfl⟩ := List.cons.inj ht
    cases hskip : skipSQLQuotedOrComment dbType c (m ++ q :: v) with
    | some r' =>
      rw [embeddedWriteScanner_skip hopen hskip] at hstep
      obtain ⟨rfl, rfl⟩ := Prod.mk.inj (Option.some.inj hstep)
      obtain ⟨z, hz, hregion⟩ :=
        (skipSQLQuotedOrComment_eq_some.mp hskip).exists_closer hq hlt hlast
      refine ⟨z, ?_, ?_⟩
      · intro x w hx hw
        refine skipMySQLQuotedText_inert hq ?_ hw
        exact forall_mem_append.mpr ⟨hz, hx⟩
      · intro x
        exact .single (embeddedWriteScanner_skip hopen
          (skipSQLQuotedOrComment_eq_some.mpr (hregion x)))
    | none =>
      exfalso
      cases hc : isSQLKeywordByte c with
      | true =>
        rw [embeddedWriteScanner_word hopen hskip hc, (@word_append q _ hquote m v).2] at hstep
        obtain ⟨-, rfl⟩ := Prod.mk.inj (Option.some.inj hstep)
        rw [length_append] at hlt
        omega
      | false =>
        rw [embeddedWriteScanner_byte hopen hskip hc] at hstep
        obtain ⟨-, rfl⟩ := Prod.mk.inj (Option.some.inj hstep)
        rw [length_append] at hlt
        omega

/-- A text in which the scan finds nothing, but which has a literal, differs in that literal only
from a text in which the scan finds a write. -/
theorem exists_embedded_write {text : Text} (h : containsEmbeddedWriteStatement dbType text = false)
    (hliteral : ¬ mysqlLexing.Bare text []) : ∃ text', mysqlLexing.Alike text text' ∧
      containsEmbeddedWriteStatement dbType text' = true := by
  obtain ⟨q, v, w, hbare, hfree, hskip⟩ := (bare_or_exists text).resolve_left hliteral
  have hq := literalQuote_iff.mp hfree
  obtain ⟨p, rfl⟩ := hbare.suffix
  have hfound : firstEmbeddedWriteKeyword dbType (p ++ q :: v) = [] := by
    simpa [containsEmbeddedWriteStatement] using h
  -- the step of the scan in which the literal begins
  obtain ⟨s, c, t, s', r, hreach, hstep, hle, hlt⟩ :=
    Scanner.exists_step_over (M := embeddedWriteScanner dbType) (s := .initial)
      (suffix_append p (q :: v)) (by rw [embeddedWriteScanner_run_snd hfound]; simp)
  obtain ⟨y, hy⟩ := suffix_of_suffix_length_le (suffix_append p (q :: v))
    hreach.suffix hle
  have hlast : y.getLast? ≠ some q := by
    obtain ⟨p', hp'⟩ := hreach.suffix
    rw [← hy, ← append_assoc] at hp'
    obtain rfl := append_cancel_right hp'
    have hp := getLast?_of_bare hq hbare
    intro heq
    rw [getLast?_append, heq] at hp
    exact hp rfl
  obtain ⟨z, hz, hreturn⟩ := exists_return hq hstep hy.symm hlt hlast
  have hliterals : ∀ t, mysqlSkip q t = some (skipMySQLQuotedText q t) :=
    fun t => mysqlSkip_eq_some.mpr (.literal hq t)
  obtain rfl := Option.some.inj ((hliterals v).symm.trans hskip)
  have hinert : Inert q smuggled := by
    have hbytes : ∀ b ∈ smuggled, b ≠ singleQuote ∧ b ≠ doubleQuote ∧ b ≠ backslash := by
      decide +kernel
    intro b hb
    obtain ⟨hsingle, hdouble, hback⟩ := hbytes b hb
    rcases hq with rfl | rfl
    · exact ⟨hsingle, hback⟩
    · exact ⟨hdouble, hback⟩
  have hfilled : mysqlSkip q (z ++ smuggled ++ q :: skipMySQLQuotedText q v) =
      some (skipMySQLQuotedText q v) := by
    rw [hliterals, hz _ _ hinert (skipMySQLQuotedText_head v)]
  generalize skipMySQLQuotedText q v = w at hfilled hskip
  refine ⟨p ++ q :: (z ++ smuggled ++ q :: w), ?_, ?_⟩
  · have halong : mysqlLexing.Along (p ++ q :: v) (p ++ q :: (z ++ smuggled ++ q :: w)) (q :: v)
        (q :: (z ++ smuggled ++ q :: w)) := by
      refine hbare.along (fun h => mysqlSkip_none hq h) fun hc hs => ?_
      obtain ⟨-, -, -, -, hreplace⟩ := (mysqlSkip_eq_some.mp hs).replace hq hc
      exact mysqlSkip_eq_some.mpr (hreplace _)
    exact halong.trans (.region hskip hfilled (.inl hfree) (Alike.refl w))
  · have hscan : (embeddedWriteScanner dbType).Reach .initial (p ++ q :: (z ++ smuggled ++ q :: w))
        s (y ++ q :: (z ++ smuggled ++ q :: w)) :=
      hreach.replace (fun hs => embeddedWriteScanner_replace hq hs) hy.symm
    have hback : (embeddedWriteScanner dbType).Reach s (y ++ q :: (z ++ smuggled ++ q :: w)) s
        (smuggled ++ q :: w) := by
      rw [append_assoc]
      exact hreturn (smuggled.tail ++ q :: w)
    obtain ⟨g, x, hwrite, hg⟩ := @smuggled_found dbType s (found_of_step hstep) (q :: w)
    have hall := (hscan.trans hback).trans hwrite
    simpa [containsEmbeddedWriteStatement] using firstEmbeddedWriteKeyword_of_reach hall hg

end filled

/-! ### The main theorem -/

section select

variable {L : Lexing UInt8} {v v' : Text}

theorem alike_select (hL : ∀ c t, c ∉ openers → L.skip c t = none)
    (hfree : L.free singleQuote = true) (h : L.skip singleQuote v = some [])
    (h' : L.skip singleQuote v' = some []) :
    L.Alike (bytes "SELECT " ++ singleQuote :: v) (bytes "SELECT " ++ singleQuote :: v') := by
  have hletters : ∀ c ∈ bytes "SELECT ", c ∉ openers := by decide +kernel
  exact Alike.symbols (fun c hc t => hL c t (hletters c hc)) (.over h h' (.inl hfree))

theorem MySQLRegion.mem_openers (h : MySQLRegion c t u) : c ∈ openers := by
  cases h with
  | literal hq => rcases hq with rfl | rfl <;> decide
  | _ => decide

theorem mysql_select (h : mysqlSkip singleQuote v = some [])
    (h' : mysqlSkip singleQuote v' = some []) : mysqlLexing.Alike
      (bytes "SELECT " ++ singleQuote :: v) (bytes "SELECT " ++ singleQuote :: v') :=
  alike_select (fun _ _ hc => mysqlSkip_eq_none.mpr fun _ hu => hc hu.mem_openers) rfl h h'

theorem seenAlike_select (hversion : versionSkip singleQuote v = some [])
    (hversion' : versionSkip singleQuote v' = some []) (hcode : skipSQLDelimited singleQuote v = [])
    (hcode' : skipSQLDelimited singleQuote v' = []) :
    SeenAlike dbType (bytes "SELECT " ++ singleQuote :: v)
      (bytes "SELECT " ++ singleQuote :: v') where
  version _ := by
    refine alike_select (fun c t hc => ?_) rfl hversion hversion'
    simp only [mem_cons, not_mem_nil, or_false, not_or] at hc
    obtain ⟨hdash, hhash, hslash, hsingle, hdouble, hback, -⟩ := hc
    simp [versionLexing, versionSkip, hdash, hhash, hslash, hsingle, hdouble, hback]
  code _ := by
    have hregion : ∀ t, skipSQLQuotedOrComment dbType singleQuote t =
        some (skipSQLDelimited singleQuote t) :=
      fun t => skipSQLQuotedOrComment_eq_some.mpr (.quote (.inl rfl) t)
    refine alike_select (fun c t hc => ?_) rfl ?_ ?_
    · exact skipSQLQuotedOrComment_eq_none.mpr fun u hu => hc hu.mem_openers
    · exact (hregion v).trans (by rw [hcode])
    · exact (hregion v').trans (by rw [hcode'])

end select

end GoNavi.Sql
