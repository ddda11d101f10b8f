import GoNavi.Sql.Block

/-! # Keywords of a statement

The part of `sql_sanitize.go` that finds the operation of a statement: how quotes and
comments are passed over (`skipSQLQuotedOrComment`), the search for a keyword outside them,
and the keyword behind a leading `WITH` (`sqlKeywordAfterLeadingWith`), whose common table
expressions are classified in turn.

The source nests calls along the parentheses of the text; here `sqlDataOperationInfo` counts
the nesting down from a bound, and `sqlDataOperationInfo_eq` is the equation without it. -/

namespace GoNavi.Sql

open Scan List Option

abbrev leftParen : UInt8 := 0x28
abbrev rightParen : UInt8 := 0x29
abbrev comma : UInt8 := 0x2C

/-! ### Quotes and comments -/

/-- `skipSQLDelimited`: the text behind the closing delimiter of a quote that is open; a
doubled delimiter does not close it. -/
def skipSQLDelimited (delimiter : UInt8) : Text → Text
  | [] => []
  | [_] => []
  | c :: d :: t =>
    if c = delimiter then
      if d = delimiter then skipSQLDelimited delimiter t else d :: t
    else skipSQLDelimited delimiter (d :: t)

/-- `skipSQLBracketIdentifier` closes at a `]` that is not doubled, in every dialect. -/
def skipSQLBracketIdentifier (t : Text) : Text := skipSQLDelimited rightBracket t

/-- `sqlDollarQuoteTag`: the tag that starts at a `$` with `t` behind it; empty if none. -/
def sqlDollarQuoteTag (t : Text) : Text :=
  let isTagByte := fun c => isSQLKeywordByte c || c == dash
  if (t.dropWhile isTagByte).head? = some dollar then
    dollar :: t.takeWhile isTagByte ++ [dollar]
  else []

/-- `skipSQLQuotedOrComment`: the text behind the quote or comment that starts here. -/
def skipSQLQuotedOrComment (dbType : Text) (c : UInt8) (t : Text) : Option Text :=
  if c = dash ∧ t.head? = some dash then some (afterLine t.tail)
  else if c = hash then some (afterLine t)
  else if c = slash ∧ t.head? = some star then some (afterBlock t.tail)
  else if c = singleQuote ∨ c = doubleQuote ∨ c = backtick then some (skipSQLDelimited c t)
  else if c = leftBracket ∧ supportsSQLBracketIdentifier dbType then
    some (skipSQLBracketIdentifier t)
  else if c = dollar ∧ sqlDollarQuoteTag t ≠ [] then
    let tag := sqlDollarQuoteTag t
    some ((afterFirst tag (t.drop (tag.length - 1))).getD [])
  else none

theorem skipSQLDelimited_suffix (q : UInt8) : ∀ t : Text, skipSQLDelimited q t <:+ t
  | [] => suffix_refl _
  | [_] => List.nil_suffix
  | c :: d :: t => by
    rw [skipSQLDelimited]
    split_ifs
    · exact ((skipSQLDelimited_suffix q t).trans (suffix_cons _ _)).trans
        (suffix_cons _ _)
    · exact suffix_cons _ _
    · exact (skipSQLDelimited_suffix q (d :: t)).trans (suffix_cons _ _)

variable {dbType t u : Text}

theorem skipSQLQuotedOrComment_suffix {c : UInt8} (h : skipSQLQuotedOrComment dbType c t = some u) :
    u <:+ t := by
  simp only [skipSQLQuotedOrComment] at h
  split_ifs at h <;> cases h
  · exact (afterLine_suffix _).trans (List.tail_suffix _)
  · exact afterLine_suffix _
  · exact (afterBlock_suffix _).trans (List.tail_suffix _)
  · exact skipSQLDelimited_suffix _ _
  · exact skipSQLDelimited_suffix _ _
  · cases hu : afterFirst (sqlDollarQuoteTag t) (t.drop ((sqlDollarQuoteTag t).length - 1)) with
    | none => exact List.nil_suffix
    | some u => exact (afterFirst_suffix hu).trans (List.drop_suffix _ _)

/-! ### Searching for keywords -/

/-- A search outside quotes and comments: the depth of parentheses, and the text behind what
was looked for, once it is found. -/
structure Search where
  depth : ℕ
  found : Option Text

/-- A loop that passes over quotes and comments and calls `visit` in front of every other
byte; it ends when something is found. -/
def searcher (dbType : Text) (visit : Search → UInt8 → Text → Search × Text)
    (hvisit : ∀ s c t, (visit s c t).2 <:+ t) : Scanner UInt8 Search where
  step s c t :=
    if s.found.isSome then none
    else
      match skipSQLQuotedOrComment dbType c t with
      | some u => some (s, u)
      | none => some (visit s c t)
  step_suffix := by
    intro s c t s' t' h
    split_ifs at h
    split at h
    · next u hu =>
      cases h
      exact skipSQLQuotedOrComment_suffix hu
    · obtain ⟨rfl, rfl⟩ := Prod.mk.inj (some.inj h)
      exact hvisit _ _ _

/-- `findTopLevelSQLKeyword`: the text behind the first `want` outside parentheses. -/
def visitTopLevel (want : Text) (s : Search) (c : UInt8) (t : Text) : Search × Text :=
  if c = leftParen then ({ s with depth := s.depth + 1 }, t)
  else if c = rightParen then ({ s with depth := s.depth - 1 }, t)
  else if s.depth = 0 ∧ isSQLKeywordByte c then
    if toLower (c :: t.takeWhile isSQLKeywordByte) = want then
      ({ s with found := some (t.dropWhile isSQLKeywordByte) }, t.dropWhile isSQLKeywordByte)
    else (s, t.dropWhile isSQLKeywordByte)
  else (s, t)

/-- `skipBalancedSQLParens`: the text behind the parenthesis that closes the first one. -/
def visitParens (s : Search) (c : UInt8) (t : Text) : Search × Text :=
  if c = leftParen then ({ s with depth := s.depth + 1 }, t)
  else if c = rightParen then
    if s.depth = 1 then (⟨0, some t⟩, t) else ({ s with depth := s.depth - 1 }, t)
  else (s, t)

/-- `sqlContainsKeyword`: the first `want` outside quotes and comments. -/
def visitKeyword (want : Text) (s : Search) (c : UInt8) (t : Text) : Search × Text :=
  if isSQLKeywordByte c then
    if toLower (c :: t.takeWhile isSQLKeywordByte) = want then
      ({ s with found := some (t.dropWhile isSQLKeywordByte) }, t.dropWhile isSQLKeywordByte)
    else (s, t.dropWhile isSQLKeywordByte)
  else (s, t)

theorem visitTopLevel_suffix (want : Text) (s : Search) (c : UInt8) (t : Text) :
    (visitTopLevel want s c t).2 <:+ t := by
  unfold visitTopLevel
  split_ifs <;> first | exact suffix_refl _ | exact List.dropWhile_suffix _

theorem visitParens_suffix (s : Search) (c : UInt8) (t : Text) : (visitParens s c t).2 <:+ t := by
  unfold visitParens
  split_ifs <;> exact suffix_refl _

theorem visitKeyword_suffix (want : Text) (s : Search) (c : UInt8) (t : Text) :
    (visitKeyword want s c t).2 <:+ t := by
  unfold visitKeyword
  split_ifs <;> first | exact suffix_refl _ | exact List.dropWhile_suffix _

def findTopLevelSQLKeyword (dbType want t : Text) : Option Text :=
  ((searcher dbType (visitTopLevel want) (visitTopLevel_suffix want)).run ⟨0, none⟩ t).1.found

def skipBalancedSQLParens (dbType t : Text) : Option Text :=
  if t.head? = some leftParen then
    ((searcher dbType visitParens visitParens_suffix).run ⟨0, none⟩ t).1.found
  else none

def sqlContainsKeyword (dbType want t : Text) : Bool :=
  ((searcher dbType (visitKeyword want) (visitKeyword_suffix want)).run ⟨0, none⟩ t).1.found.isSome

/-- What a search finds is behind the position it starts from. -/
theorem searcher_found_suffix {visit : Search → UInt8 → Text → Search × Text}
    {hvisit : ∀ s c t, (visit s c t).2 <:+ t}
    (hfound : ∀ {s c t u}, (visit s c t).1.found = some u → s.found = some u ∨ u <:+ t) {n : ℕ}
    (h : ((searcher dbType visit hvisit).run ⟨n, none⟩ t).1.found = some u) :
    u.length < t.length := by
  refine (Scanner.run_induction (M := searcher dbType visit hvisit)
    (P := fun s v => v <:+ t ∧ ∀ u, s.found = some u → u.length < t.length) ?_
    ⟨suffix_refl _, by simp⟩).2 u h
  rintro s c v s' v' ⟨hv, hs⟩ hstep
  have hlen := hv.length_le
  rw [length_cons] at hlen
  simp only [searcher] at hstep
  split_ifs at hstep with hf
  split at hstep
  · next w hw =>
    cases hstep
    exact ⟨(skipSQLQuotedOrComment_suffix hw).trans ((suffix_cons _ _).trans hv), hs⟩
  · obtain ⟨rfl, rfl⟩ := Prod.mk.inj (some.inj hstep)
    refine ⟨(hvisit _ _ _).trans ((suffix_cons _ _).trans hv), fun u hu => ?_⟩
    rcases hfound hu with hu | hu
    · exact hs u hu
    · have := hu.length_le
      omega

theorem findTopLevelSQLKeyword_length {want : Text}
    (h : findTopLevelSQLKeyword dbType want t = some u) : u.length < t.length := by
  refine searcher_found_suffix (fun {s c t u} hu => ?_) h
  unfold visitTopLevel at hu
  split_ifs at hu
  · exact .inl hu
  · exact .inl hu
  · cases hu
    exact .inr (List.dropWhile_suffix _)
  · exact .inl hu
  · exact .inl hu

theorem skipBalancedSQLParens_length (h : skipBalancedSQLParens dbType t = some u) :
    u.length < t.length := by
  unfold skipBalancedSQLParens at h
  split_ifs at h
  refine searcher_found_suffix (fun {s c t u} hu => ?_) h
  unfold visitParens at hu
  split_ifs at hu
  · exact .inl hu
  · cases hu
    exact .inr (suffix_refl _)
  · exact .inl hu
  · exact .inl hu

/-- `skipSQLIdentifierToken`: the text behind the plain or quoted identifier that starts
here. -/
def skipSQLIdentifierToken (dbType : Text) : Text → Option Text
  | [] => none
  | c :: t =>
    if c = doubleQuote ∨ c = backtick then some (skipSQLDelimited c t)
    else if c = leftBracket then
      if supportsSQLBracketIdentifier dbType then some (skipSQLBracketIdentifier t) else none
    else if isSQLKeywordByte c then some (t.dropWhile isSQLKeywordByte)
    else none

theorem skipSQLIdentifierToken_length (h : skipSQLIdentifierToken dbType t = some u) :
    u.length < t.length := by
  cases t with
  | nil => cases h
  | cons c t =>
    simp only [skipSQLIdentifierToken] at h
    rw [length_cons]
    split_ifs at h <;> cases h
    · exact Nat.lt_succ_of_le (skipSQLDelimited_suffix _ _).length_le
    · exact Nat.lt_succ_of_le (skipSQLDelimited_suffix _ _).length_le
    · exact Nat.lt_succ_of_le (List.dropWhile_suffix _).length_le

/-! ### The operation of a statement -/

def isSQLDataWriteKeyword (keyword : Text) : Bool :=
  keyword ∈ [bytes "insert", bytes "update", bytes "delete", bytes "replace", bytes "merge",
    bytes "upsert"]

/-- The position behind `[NOT] MATERIALIZED`, or this one. -/
def skipMaterialized (pos : Text) : Text :=
  let keyword := nextSQLKeyword pos
  if keyword.1 = bytes "not" then
    let next := nextSQLKeyword keyword.2
    if next.1 = bytes "materialized" then next.2 else pos
  else if keyword.1 = bytes "materialized" then keyword.2
  else pos

/-- The position behind the column list of a table expression, if it has one. -/
def skipCteColumns (dbType pos : Text) : Option Text :=
  if pos.head? = some leftParen then (skipBalancedSQLParens dbType pos).map skipSQLTrivia
  else some pos

/-- The position of the `(` that opens the body of the table expression that starts at
`pos`. -/
def cteBodyStart (dbType pos : Text) : Option Text := do
  let next ← skipSQLIdentifierToken dbType (skipSQLTrivia pos)
  let pos ← skipCteColumns dbType (skipSQLTrivia next)
  let asEnd ← findTopLevelSQLKeyword dbType (bytes "as") pos
  let pos := skipSQLTrivia (skipMaterialized (skipSQLTrivia asEnd))
  if pos.head? = some leftParen then some pos else none

/-- The loop over the table expressions of a `WITH`: the keyword behind them, whether one of
them writes, and whether there is a keyword.  `info` classifies a body. -/
def cteLoop (dbType : Text) (info : Text → Text × Bool) : ℕ → Bool → Text → Text × Bool × Bool
  | 0, hasWriteCTE, _ => ([], hasWriteCTE, false)
  | n + 1, hasWriteCTE, pos =>
    match cteBodyStart dbType pos with
    | none => ([], hasWriteCTE, false)
    | some bodyStart =>
      match skipBalancedSQLParens dbType bodyStart with
      | none => ([], hasWriteCTE, false)
      | some next =>
        let body := bodyStart.tail.take (bodyStart.tail.length - next.length - 1)
        let bodyInfo := info body
        let hasWriteCTE := hasWriteCTE || bodyInfo.2 || isSQLDataWriteKeyword bodyInfo.1
        let pos := skipSQLTrivia next
        if pos.head? = some comma then cteLoop dbType info n hasWriteCTE pos.tail
        else
          let keyword := (nextSQLKeyword pos).1
          (keyword, hasWriteCTE, keyword ≠ [])

/-- `sqlKeywordAfterLeadingWith`, behind the `WITH`. -/
def sqlKeywordAfterLeadingWith (dbType : Text) (info : Text → Text × Bool) (t : Text) :
    Text × Bool × Bool :=
  let pos := skipSQLTrivia t
  let keyword := nextSQLKeyword pos
  let pos := if keyword.1 = bytes "recursive" then keyword.2 else pos
  cteLoop dbType info (t.length + 1) false pos

/-- `sqlDataOperationInfo` with a bound on the nesting of bodies. -/
def operationInfo (dbType : Text) : ℕ → Text → Text × Bool
  | 0, _ => ([], false)
  | n + 1, query =>
    let keyword := nextSQLKeyword query
    if keyword.1 ≠ bytes "with" then (keyword.1, false)
    else
      let after := sqlKeywordAfterLeadingWith dbType (operationInfo dbType n) keyword.2
      if after.2.2 then (after.1, after.2.1) else (keyword.1, false)

/-- The keyword of a statement, behind a leading `WITH` if there is one, and whether that
`WITH` writes. -/
def sqlDataOperationInfo (dbType query : Text) : Text × Bool :=
  operationInfo dbType (query.length + 1) query

theorem skipMaterialized_suffix (t : Text) : skipMaterialized t <:+ t := by
  simp only [skipMaterialized]
  split_ifs
  · exact (nextSQLKeyword_suffix _).trans (nextSQLKeyword_suffix t)
  · exact suffix_refl _
  · exact nextSQLKeyword_suffix t
  · exact suffix_refl _

theorem cteBodyStart_length {pos start : Text} (h : cteBodyStart dbType pos = some start) :
    start.length < pos.length ∧ start.head? = some leftParen := by
  simp only [cteBodyStart, bind_eq_bind, bind_eq_some_iff] at h
  obtain ⟨next, hnext, args, hargs, asEnd, has, hstart⟩ := h
  split_ifs at hstart with hparen
  obtain rfl := some.inj hstart
  refine ⟨?_, hparen⟩
  have h₁ := skipSQLIdentifierToken_length hnext
  have h₂ := (skipSQLTrivia_suffix pos).length_le
  have h₃ := (skipSQLTrivia_suffix next).length_le
  have h₄ : args.length ≤ (skipSQLTrivia next).length := by
    unfold skipCteColumns at hargs
    split_ifs at hargs
    · obtain ⟨u, hu, rfl⟩ := map_eq_some_iff.mp hargs
      exact (skipSQLTrivia_suffix u).length_le.trans (skipBalancedSQLParens_length hu).le
    · obtain rfl := some.inj hargs
      exact le_rfl
  have h₅ := findTopLevelSQLKeyword_length has
  have h₆ := (skipSQLTrivia_suffix (skipMaterialized (skipSQLTrivia asEnd))).length_le
  have h₇ := (skipMaterialized_suffix (skipSQLTrivia asEnd)).length_le
  have h₈ := (skipSQLTrivia_suffix asEnd).length_le
  omega

variable {info info' : Text → Text × Bool}

/-- The loop over the table expressions classifies bodies that are shorter than its text,
and ends before its bound. -/
theorem cteLoop_congr :
    ∀ {m n : ℕ} {w : Bool} {pos : Text}, pos.length < m → pos.length < n →
      (∀ body : Text, body.length < pos.length → info body = info' body) →
      cteLoop dbType info m w pos = cteLoop dbType info' n w pos
  | 0, _, _, _, hm, _, _ => absurd hm (Nat.not_lt_zero _)
  | _ + 1, 0, _, _, _, hn, _ => absurd hn (Nat.not_lt_zero _)
  | m + 1, n + 1, w, pos, hm, hn, hinfo => by
    rw [cteLoop, cteLoop]
    cases hstart : cteBodyStart dbType pos with
    | none => simp only
    | some start =>
      obtain ⟨hlen, -⟩ := cteBodyStart_length hstart
      cases hclose : skipBalancedSQLParens dbType start with
      | none => simp only [hclose]
      | some next =>
        have hnext := skipBalancedSQLParens_length hclose
        have hbody : info (start.tail.take (start.tail.length - next.length - 1)) =
            info' (start.tail.take (start.tail.length - next.length - 1)) := by
          refine hinfo _ ?_
          rw [length_take, length_tail]
          omega
        have hpos : (skipSQLTrivia next).tail.length < pos.length := by
          have := (skipSQLTrivia_suffix next).length_le
          rw [length_tail]
          omega
        simp only [hclose, hbody]
        split
        · exact cteLoop_congr (by omega) (by omega) fun body h => hinfo body (h.trans hpos)
        · rfl

theorem sqlKeywordAfterLeadingWith_congr
    (h : ∀ body : Text, body.length < t.length → info body = info' body) :
    sqlKeywordAfterLeadingWith dbType info t = sqlKeywordAfterLeadingWith dbType info' t := by
  have hloop : ∀ u : Text, u <:+ t →
      cteLoop dbType info (t.length + 1) false u = cteLoop dbType info' (t.length + 1) false u :=
    fun u hu => by
      have := hu.length_le
      exact cteLoop_congr (by omega) (by omega) fun body hbody => h body (by omega)
  simp only [sqlKeywordAfterLeadingWith]
  split_ifs
  · exact hloop _ ((nextSQLKeyword_suffix _).trans (skipSQLTrivia_suffix _))
  · exact hloop _ (skipSQLTrivia_suffix _)

theorem operationInfo_eq_of_lt : ∀ {m n : ℕ} {query : Text},
    query.length < m → query.length < n → operationInfo dbType m query = operationInfo dbType n query
  | 0, _, _, hm, _ => absurd hm (Nat.not_lt_zero _)
  | _ + 1, 0, _, _, hn => absurd hn (Nat.not_lt_zero _)
  | m + 1, n + 1, query, hm, hn => by
    rw [operationInfo, operationInfo]
    split
    · rfl
    · next hwith =>
      have hkey : (nextSQLKeyword query).2.length < query.length :=
        nextSQLKeyword_length (by rw [not_not.mp hwith]; decide)
      have hafter : sqlKeywordAfterLeadingWith dbType (operationInfo dbType m)
          (nextSQLKeyword query).2 = sqlKeywordAfterLeadingWith dbType (operationInfo dbType n)
          (nextSQLKeyword query).2 :=
        sqlKeywordAfterLeadingWith_congr fun body hbody =>
          operationInfo_eq_of_lt (by omega) (by omega)
      rw [hafter]

def isSQLSelectIntoStatement (dbType query : Text) : Bool :=
  (sqlDataOperationInfo dbType query).1 = bytes "select" &&
    (findTopLevelSQLKeyword dbType (bytes "into") query).isSome

end GoNavi.Sql
