import GoNavi.Sql.Lookahead
import GoNavi.Sql.Stream

/-! # A step of `Feed` in a longer text

Where `Feed` takes a step in front of a chunk, it takes the same step in front of that chunk
and more text (`StreamSplitter.action_append`).  The exceptions are the places where a cut
changes what a byte means.

* `DollarSeam`: a dollar tag at the start of a chunk, behind a byte of a word in the chunk
  before.
* `KeywordSeam`: a keyword whose look-ahead stops at the end of the chunk without being
  deferred, and which more text gives another meaning.
* `WordSeam`: a word that the chunk cuts. -/

namespace GoNavi.Sql

open Scan List

variable {dbType : Text} {m : Mode} {s : StreamSplitter} {before older t r : Text} {c : UInt8}

/-! ### Comments and quotes -/

/-- The tag of an open dollar quote starts with a dollar. -/
def Mode.TagStarts (m : Mode) : Prop := m.dollarTag ≠ [] → m.dollarTag.head? = some dollar

theorem Mode.dollarTag_append (hm : m.TagStarts) (hd : m.dollarTag ≠ [])
    (h : ¬ (c = dollar ∧ (c :: t).length < m.dollarTag.length ∧
      (c :: t).isPrefixOf m.dollarTag = true)) :
    m.dollarTag.isPrefixOf (c :: (t ++ r)) = m.dollarTag.isPrefixOf (c :: t) ∧
      ¬ (c = dollar ∧ (c :: (t ++ r)).length < m.dollarTag.length ∧
        (c :: (t ++ r)).isPrefixOf m.dollarTag = true) := by
  have hpartial : ¬ ((c :: t).length < m.dollarTag.length ∧
      (c :: t).isPrefixOf m.dollarTag = true) := by
    rintro ⟨hlt, hp⟩
    obtain ⟨u, hu⟩ := List.isPrefixOf_iff_prefix.mp hp
    have hc := hm hd
    rw [← hu] at hc
    exact h ⟨Option.some.inj hc, hlt, hp⟩
  obtain ⟨h₁, h₂⟩ := isPrefixOf_append_of_not_partial (r := r) hpartial
  exact ⟨h₁, fun h => h₂ h.2⟩

theorem Mode.feedComment_append (hm : m.TagStarts) (h : m.feedComment dbType c t ≠ .wait) :
    m.feedComment dbType c (t ++ r) = m.feedComment dbType c t := by
  by_cases hd : m.dollarTag ≠ [] ∧ m.inLineComment = false ∧ m.inBlockComment = false ∧
      ¬ (supportsSQLBracketIdentifier dbType = true ∧ m.inBracket = true)
  · obtain ⟨hd, hl, hb, hbr⟩ := hd
    simp only [feedComment, hl, hb, hbr, Bool.false_eq_true, if_false] at h ⊢
    rw [if_pos hd] at h
    rw [if_pos hd, if_pos hd]
    by_cases hp : m.dollarTag.isPrefixOf (c :: t) = true
    · have hlong := isPrefixOf_append_of_length (r := r) (List.isPrefixOf_iff_prefix.mp hp).length_le
      rw [cons_append] at hlong
      rw [hlong, if_pos hp, if_pos hp]
    · rw [if_neg hp] at h
      obtain ⟨h₁, h₂⟩ := dollarTag_append (r := r) hm hd fun hw => h (if_pos hw)
      rw [h₁, if_neg hp, if_neg hp, if_neg h₂, if_neg fun hw => h (if_pos hw)]
  · by_cases ht : t = []
    · subst ht
      simp only [feedComment] at h ⊢
      split_ifs at h ⊢ <;> simp_all
    · simp only [feedComment, head?_append_of_ne_nil _ ht, append_eq_nil_iff, ht,
        false_and]
      split_ifs <;> simp_all

theorem Mode.feedLiteral_append (h : m.feedLiteral dbType c t ≠ .wait) :
    m.feedLiteral dbType c (t ++ r) = m.feedLiteral dbType c t := by
  by_cases ht : t = []
  · subst ht
    simp only [feedLiteral] at h ⊢
    split_ifs at h ⊢ <;> simp_all
  · simp only [feedLiteral, head?_append_of_ne_nil _ ht, append_eq_nil_iff, ht, false_and]

theorem Mode.feedQuoted_append (hm : m.TagStarts) (h : m.feedQuoted dbType c t ≠ .wait) :
    m.feedQuoted dbType c (t ++ r) = m.feedQuoted dbType c t := by
  unfold feedQuoted at h ⊢
  cases hc : m.feedComment dbType c t with
  | wait => simp [hc] at h
  | take m' k => rw [feedComment_append hm (by simp [hc]), hc]
  | pass =>
    rw [feedComment_append hm (by simp [hc]), hc]
    rw [hc] at h
    exact feedLiteral_append h

/-- What is taken is there, and the tag of an open dollar quote is kept or closed. -/
theorem Mode.feedQuoted_take {m' : Mode} {k : ℕ} (h : m.feedQuoted dbType c t = .take m' k) :
    k ≤ t.length ∧ (m'.dollarTag = m.dollarTag ∨ m'.dollarTag = []) := by
  have hnext : ∀ {d : UInt8}, t.head? = some d → 1 ≤ t.length := by
    intro d hd
    cases t with
    | nil => cases hd
    | cons _ _ => simp
  unfold feedQuoted at h
  cases hc : m.feedComment dbType c t with
  | wait => simp [hc] at h
  | take m₁ k₁ =>
    rw [hc] at h
    cases h
    simp only [feedComment] at hc
    split_ifs at hc <;> cases hc <;> refine ⟨?_, by simp⟩
    all_goals first | exact Nat.zero_le _ | exact hnext (And.right ‹_›) | skip
    have hlen := (List.isPrefixOf_iff_prefix.mp ‹m.dollarTag.isPrefixOf (c :: t) = true›).length_le
    rw [length_cons] at hlen
    omega
  | pass =>
    rw [hc] at h
    simp only [feedLiteral] at h
    split_ifs at h <;> cases h <;> refine ⟨?_, by simp⟩
    all_goals first | exact Nat.zero_le _ | exact hnext (And.right ‹_›)

theorem Mode.tagStarts_of_feedQuoted {m' : Mode} {k : ℕ} (hm : m.TagStarts)
    (h : m.feedQuoted dbType c t = .take m' k) : m'.TagStarts := by
  intro hne
  rcases (feedQuoted_take h).2 with htag | htag
  · rw [htag] at hne ⊢
    exact hm hne
  · exact absurd htag hne

/-! ### Client directives -/

theorem afterLine_append_of_mem (h : (t.takeWhile (· != newline)).length ≠ t.length) :
    (t ++ r).takeWhile (· != newline) = t.takeWhile (· != newline) ∧
      afterLine (t ++ r) = afterLine t ++ r := by
  have hne : t.dropWhile (· != newline) ≠ [] := by
    intro hnil
    have hsplit := congrArg List.length
      (takeWhile_append_dropWhile (p := (· != newline)) (l := t))
    rw [hnil, append_nil] at hsplit
    exact h hsplit
  exact ⟨takeWhile_append_of_dropWhile hne, afterLine_append hne⟩

/-- The directive with more text behind its line. -/
def Directive.append {α : Type} (r : Text) : Directive α → Directive α
  | .matched value lineEnd => .matched value (lineEnd ++ r)
  | d => d

/-- A text that does not start as the keyword does not start so in a longer text. -/
theorem keyword_not_isPrefixOf_append {keyword : Text}
    (h : (toLower (t.take keyword.length)).isPrefixOf keyword = false) :
    (toLower ((t ++ r).take keyword.length)).isPrefixOf keyword = false := by
  rw [Bool.eq_false_iff, ne_eq, List.isPrefixOf_iff_prefix] at h ⊢
  intro hp
  refine h (List.IsPrefix.trans ?_ hp)
  rw [take_append, toLower, toLower, map_append]
  exact List.prefix_append _ _

/-- A text that is longer than the keyword starts so in a longer text too. -/
theorem keyword_append {n : ℕ} (h : n < t.length) :
    (t ++ r).take n = t.take n ∧ ((t ++ r).drop n).head? = (t.drop n).head? := by
  refine ⟨take_append_of_le_length h.le, ?_⟩
  rw [drop_append_of_le_length h.le, head?_append_of_ne_nil]
  simpa using h

theorem line_lt (h : (t.takeWhile (· != newline)).length ≠ t.length) :
    ¬ ((t.takeWhile (· != newline)).length = (t ++ r).length ∧ false = false) := by
  rintro ⟨hc, -⟩
  have hle := (List.takeWhile_prefix (· != newline) (l := t)).length_le
  rw [length_append] at hc
  omega

theorem scanSQLStreamDelimiterDirective_append
    (h : scanSQLStreamDelimiterDirective false t ≠ .incomplete) :
    scanSQLStreamDelimiterDirective false (t ++ r) =
      (scanSQLStreamDelimiterDirective false t).append r := by
  unfold scanSQLStreamDelimiterDirective at h ⊢
  generalize bytes "delimiter" = keyword at h ⊢
  dsimp only at h ⊢
  by_cases hk : (toLower (t.take keyword.length)).isPrefixOf keyword = false
  · rw [if_pos (keyword_not_isPrefixOf_append hk), if_pos hk]
    rfl
  rw [if_neg hk] at h
  rw [if_neg hk]
  by_cases hlen : t.length ≤ keyword.length
  · rw [if_pos hlen, if_neg (by decide)] at h
    exact absurd rfl h
  rw [if_neg hlen] at h
  rw [if_neg hlen]
  obtain ⟨htake, hhead⟩ := keyword_append (r := r) (Nat.lt_of_not_le hlen)
  have hlong : ¬ (t ++ r).length ≤ keyword.length := by
    rw [length_append]
    omega
  rw [htake, if_neg hk, if_neg hlong, hhead]
  by_cases hblank : (t.drop keyword.length).head?.any isSQLHorizontalWhitespace = false
  · rw [if_pos hblank, if_pos hblank]
    rfl
  rw [if_neg hblank] at h
  rw [if_neg hblank, if_neg hblank]
  by_cases hline : (t.takeWhile (· != newline)).length = t.length
  · rw [if_pos ⟨hline, rfl⟩] at h
    exact absurd rfl h
  obtain ⟨hline', hafter⟩ := afterLine_append_of_mem (r := r) hline
  have hno : ¬ ((t.takeWhile (· != newline)).length = t.length ∧ false = false) :=
    fun hc => hline hc.1
  rw [hline', hafter, if_neg (line_lt hline), if_neg hno]
  split_ifs <;> rfl

theorem scanSQLStreamGoDirective_append
    (h : scanSQLStreamGoDirective false t ≠ .incomplete) :
    scanSQLStreamGoDirective false (t ++ r) = (scanSQLStreamGoDirective false t).append r := by
  have hkeyword : newline ∉ bytes "go" := by decide
  unfold scanSQLStreamGoDirective at h ⊢
  generalize bytes "go" = keyword at h hkeyword ⊢
  dsimp only at h ⊢
  by_cases hk : (toLower (t.take keyword.length)).isPrefixOf keyword = false
  · rw [if_pos (keyword_not_isPrefixOf_append hk), if_pos hk]
    rfl
  rw [if_neg hk] at h
  rw [if_neg hk]
  by_cases hlen : t.length < keyword.length
  · rw [if_pos hlen, if_neg (by decide)] at h
    exact absurd rfl h
  rw [if_neg hlen] at h
  rw [if_neg hlen]
  have hlt : keyword.length < t.length := by
    -- the keyword alone is incomplete
    refine lt_of_le_of_ne (Nat.not_lt.mp hlen) fun heq => h ?_
    rw [heq, take_length, Bool.not_eq_false, List.isPrefixOf_iff_prefix] at hk
    have hmem : newline ∉ t := fun hm => hkeyword (hk.subset (mem_map.mpr ⟨_, hm, rfl⟩))
    have hall : t.takeWhile (· != newline) = t :=
      takeWhile_eq_self_iff.mpr fun c hc => by
        simpa using fun hn : c = newline => hmem (hn ▸ hc)
    rw [heq, drop_length, hall, if_neg (by simp), if_pos ⟨rfl, rfl⟩]
  obtain ⟨htake, hhead⟩ := keyword_append (r := r) hlt
  have hlong : ¬ (t ++ r).length < keyword.length := by
    rw [length_append]
    omega
  rw [htake, if_neg hk, if_neg hlong, hhead]
  by_cases hblank : (t.drop keyword.length).head?.any (fun c => !isSQLBlankByte c) = true
  · rw [if_pos hblank, if_pos hblank]
    rfl
  rw [if_neg hblank] at h
  rw [if_neg hblank, if_neg hblank]
  by_cases hline : (t.takeWhile (· != newline)).length = t.length
  · rw [if_pos ⟨hline, rfl⟩] at h
    exact absurd rfl h
  obtain ⟨hline', hafter⟩ := afterLine_append_of_mem (r := r) hline
  have hno : ¬ ((t.takeWhile (· != newline)).length = t.length ∧ false = false) :=
    fun hc => hline hc.1
  rw [hline', hafter, if_neg (line_lt hline), if_neg hno]
  split_ifs
  · rfl
  · split <;> rfl

namespace StreamSplitter

theorem delimiterDirective_append (h : s.delimiterDirective dbType t ≠ .incomplete) :
    s.delimiterDirective dbType (t ++ r) = (s.delimiterDirective dbType t).append r := by
  unfold delimiterDirective at h ⊢
  split_ifs at h ⊢
  · exact scanSQLStreamDelimiterDirective_append h
  · rfl

theorem goDirective_append (h : s.goDirective dbType t ≠ .incomplete) :
    s.goDirective dbType (t ++ r) = (s.goDirective dbType t).append r := by
  unfold goDirective at h ⊢
  split_ifs at h ⊢
  · exact scanSQLStreamGoDirective_append h
  · rfl

theorem customDelimiter_append (h : s.customDelimiter t ≠ some false) :
    s.customDelimiter (t ++ r) = s.customDelimiter t := by
  unfold customDelimiter at h ⊢
  by_cases hsemi : s.activeDelimiter = [semicolon]
  · rw [if_pos hsemi, if_pos hsemi]
  rw [if_neg hsemi] at h
  rw [if_neg hsemi, if_neg hsemi]
  by_cases hp : s.activeDelimiter.isPrefixOf t = true
  · have hlen := (List.isPrefixOf_iff_prefix.mp hp).length_le
    rw [isPrefixOf_append_of_length hlen, if_pos hp, if_pos hp]
  · rw [if_neg hp] at h
    have hpartial : ¬ (t.length < s.activeDelimiter.length ∧ t.isPrefixOf s.activeDelimiter = true) :=
      fun hw => h (if_pos hw)
    obtain ⟨h₁, h₂⟩ := isPrefixOf_append_of_not_partial (r := r) hpartial
    rw [h₁, if_neg hp, if_neg hp, if_neg h₂, if_neg hpartial]

end StreamSplitter

/-! ### Code -/

theorem slashLineSuffix_append : ∀ {seen : Bool} {t : Text},
    (∀ e, slashLineSuffix seen t ≠ some (e, false)) →
    slashLineSuffix seen (t ++ r) =
      (slashLineSuffix seen t).map fun p => (p.1 ++ r, p.2)
  | _, [], h => absurd rfl (h [])
  | seen, c :: t, h => by
    rw [slashLineSuffix] at h
    rw [cons_append, slashLineSuffix, slashLineSuffix]
    by_cases hn : c = newline
    · rw [if_pos hn, if_pos hn]
      rfl
    rw [if_neg hn] at h
    rw [if_neg hn, if_neg hn]
    by_cases hs : c = semicolon ∧ seen = false
    · rw [if_pos hs] at h
      rw [if_pos hs, if_pos hs, slashLineSuffix_append h]
    rw [if_neg hs] at h
    rw [if_neg hs, if_neg hs]
    by_cases hd : c = dash
    · have ht : t ≠ [] := by
        rintro rfl
        exact h [] (if_pos ⟨hd, rfl⟩)
      have hnil : ¬ (c = dash ∧ t = []) := fun hc => ht hc.2
      have hnil' : ¬ (c = dash ∧ t ++ r = []) := fun hc => ht (append_eq_nil_iff.mp hc.2).1
      rw [if_neg hnil] at h
      rw [if_neg hnil, if_neg hnil', head?_append_of_ne_nil _ ht,
        tail_append_of_ne_nil ht]
      by_cases hdd : c = dash ∧ t.head? = some dash
      · rw [if_pos hdd] at h
        have hend : scanSQLLineCommentEnd (List.tail t) ≠ [] := fun he => h [] (by rw [he]; rfl)
        obtain ⟨e, v, hv⟩ := exists_cons_of_ne_nil hend
        rw [if_pos hdd, if_pos hdd, scanSQLLineCommentEnd_append hend, hv]
        rfl
      · have hblank : isSQLHorizontalWhitespace c = false := by rw [hd]; decide
        rw [if_neg hdd, if_neg hdd, if_neg (by simp [hblank]), if_neg (by simp [hblank])]
        rfl
    · simp only [hd, false_and, if_false] at h ⊢
      split_ifs at h ⊢
      · exact slashLineSuffix_append h
      · rfl

theorem slashLineSuffix_complete {e : Text} : ∀ {seen : Bool} {t : Text},
    slashLineSuffix seen t = some (e, true) → e ≠ []
  | _, [], h => by
    simp [slashLineSuffix] at h
  | seen, d :: t, h => by
    rw [slashLineSuffix] at h
    split_ifs at h
    · cases h
      simp
    · exact slashLineSuffix_complete h
    · cases h
    · obtain ⟨rfl, hend⟩ := Prod.mk.inj (Option.some.inj h)
      simpa using hend
    · exact slashLineSuffix_complete h

theorem isSQLDashLineCommentStart_append (h : isMySQLDashDialect dbType = true → t ≠ []) :
    isSQLDashLineCommentStart dbType (t ++ r) = isSQLDashLineCommentStart dbType t := by
  unfold isSQLDashLineCommentStart
  split_ifs with hmysql
  · obtain ⟨c, u, rfl⟩ := exists_cons_of_ne_nil (h hmysql)
    rfl
  · rfl

/-- A chunk that starts with a dollar tag, behind a byte of a word in the chunk before. -/
def DollarSeam (dbType before older : Text) (c : UInt8) (t : Text) : Prop :=
  before = [] ∧ older.head?.any isSQLIdentifierPart = true ∧ c = dollar ∧
    supportsSQLDollarQuote dbType = true ∧ parseSQLDollarTagAt [] t ≠ []

instance : Decidable (DollarSeam dbType before older c t) :=
  inferInstanceAs (Decidable (_ ∧ _ ∧ _ ∧ _ ∧ _))

theorem dropWhile_dollarName (h : ¬ t.all isSQLKeywordByte = true) :
    t.dropWhile isDollarNameByte ≠ [] := by
  intro hnil
  rw [dropWhile_eq_nil_iff] at hnil
  refine h (all_eq_true.mpr fun c hc => ?_)
  have hname := hnil c hc
  simp only [isDollarNameByte, isSQLIdentifierPart, Bool.and_eq_true, Bool.or_eq_true, bne_iff_ne,
    beq_iff_eq] at hname
  simp only [isSQLKeywordByte, Bool.or_eq_true]
  grind

/-- A dollar tag that the text decides, a longer text decides in the same way. -/
theorem parseSQLDollarTag_append (ht : ¬ t.all isSQLKeywordByte = true) :
    parseSQLDollarTagAt before (t ++ r) = parseSQLDollarTagAt before t := by
  unfold parseSQLDollarTagAt
  cases t with
  | nil => exact absurd rfl ht
  | cons d u =>
    rw [cons_append]
    dsimp only
    by_cases hd : isSQLIdentifierStart d = true
    · have hu : u.dropWhile isDollarNameByte ≠ [] := by
        refine dropWhile_dollarName fun hall => ht ?_
        rw [all_cons, isSQLKeywordByte_of_start hd, hall]
        rfl
      rw [dropWhile_append_of_ne_nil hu, takeWhile_append_of_dropWhile hu,
        head?_append_of_ne_nil _ hu]
    · simp only [hd, Bool.false_eq_true, if_false]

theorem not_all_of_parseSQLDollarTag (h : parseSQLDollarTagAt before t ≠ []) :
    ¬ t.all isSQLKeywordByte = true := by
  have hmem : dollar ∈ t := by
    unfold parseSQLDollarTagAt at h
    by_cases hb : before.head?.any isSQLIdentifierPart = true
    · exact absurd (if_pos hb) h
    rw [if_neg hb] at h
    cases t with
    | nil => exact absurd rfl h
    | cons d u =>
      dsimp only at h
      split_ifs at h with h₁ h₂ h₃
      · simp [h₁]
      · refine mem_cons_of_mem _ ((List.dropWhile_suffix isDollarNameByte).subset ?_)
        exact mem_of_mem_head? h₃
      · exact absurd rfl h
      · exact absurd rfl h
  intro hall
  exact absurd (all_eq_true.mp hall _ hmem) (by decide)

/-- What `Feed` decides about a `$`, it decides in a longer text. -/
theorem dollar_append (hseam : ¬ (before = [] ∧ older.head?.any isSQLIdentifierPart = true ∧
      parseSQLDollarTagAt [] t ≠ []))
    (h : parseSQLDollarTagAt before t ≠ [] ∨ isIncompleteSQLDollarTagAt before t = false) :
    parseSQLDollarTagAt (before ++ older) (t ++ r) = parseSQLDollarTagAt before t ∧
      isIncompleteSQLDollarTagAt (before ++ older) (t ++ r) = false := by
  have hword : ∀ {b x : Text}, b.head?.any isSQLIdentifierPart = true →
      parseSQLDollarTagAt b x = [] ∧ isIncompleteSQLDollarTagAt b x = false := by
    intro b x hb
    simp [parseSQLDollarTagAt, isIncompleteSQLDollarTagAt, hb]
  by_cases hb : before.head?.any isSQLIdentifierPart = true
  · have hne : before ≠ [] := by rintro rfl; cases hb
    have hlong : (before ++ older).head?.any isSQLIdentifierPart = true := by
      rwa [head?_append_of_ne_nil _ hne]
    rw [(hword hb).1, (hword hlong).1, (hword hlong).2]
    exact ⟨rfl, rfl⟩
  · have hall : ¬ t.all isSQLKeywordByte = true := by
      rcases h with h | h
      · exact not_all_of_parseSQLDollarTag h
      · simpa [isIncompleteSQLDollarTagAt, hb] using h
    by_cases hlong : (before ++ older).head?.any isSQLIdentifierPart = true
    · -- the byte in front is in the chunk before
      obtain rfl : before = [] := by
        by_contra hne
        rw [head?_append_of_ne_nil _ hne] at hlong
        exact hb hlong
      have htag : parseSQLDollarTagAt [] t = [] := not_not.mp fun hne => hseam ⟨rfl, hlong, hne⟩
      rw [(hword hlong).1, (hword hlong).2, htag]
      exact ⟨rfl, rfl⟩
    · have hsame : parseSQLDollarTagAt (before ++ older) (t ++ r) =
          parseSQLDollarTagAt before (t ++ r) := by
        unfold parseSQLDollarTagAt
        rw [if_neg hb, if_neg hlong]
      rw [hsame, parseSQLDollarTag_append hall]
      refine ⟨rfl, ?_⟩
      simp only [isIncompleteSQLDollarTagAt, all_append, Bool.and_eq_false_iff]
      exact .inr (.inl (by simpa using hall))

namespace StreamSplitter

variable {a : StreamAction}

theorem slashLine_append (h : ∀ e, s.slashLine c t ≠ some (e, false)) :
    s.slashLine c (t ++ r) = (s.slashLine c t).map fun p => (p.1 ++ r, p.2) := by
  unfold slashLine at h ⊢
  split_ifs at h ⊢
  · exact slashLineSuffix_append h
  · rfl

theorem punctuation_append (hseam : ¬ DollarSeam dbType before older c t)
    (h : s.punctuation dbType before c t = some a) :
    s.punctuation dbType (before ++ older) c (t ++ r) = some a := by
  unfold punctuation at h ⊢
  by_cases hs : c = slash
  · have ht : t ≠ [] := by
      rintro rfl
      rw [if_pos ⟨hs, rfl⟩] at h
      cases h
    have hne : c ≠ dollar ∧ c ≠ semicolon ∧ c ≠ 0xEF := by rw [hs]; decide
    have hnil : ¬ (c = slash ∧ t ++ r = []) := fun hc => ht (append_eq_nil_iff.mp hc.2).1
    have hfull : ∀ u, fullWidthSemicolon.isPrefixOf (c :: u) = false := fun u =>
      fullWidthSemicolon_isPrefixOf_of_ne hne.2.2
    rw [if_neg fun hc => ht hc.2] at h
    rw [if_neg hnil, head?_append_of_ne_nil _ ht]
    simp only [hne, hfull, false_and, if_false, Bool.false_eq_true] at h ⊢
    exact h
  simp only [hs, false_and, if_false] at h ⊢
  by_cases hd : c = dollar ∧ supportsSQLDollarQuote dbType = true
  · obtain ⟨rfl, hdialect⟩ := hd
    have hdecided : parseSQLDollarTagAt before t ≠ [] ∨
        isIncompleteSQLDollarTagAt before t = false := by
      by_contra hnot
      rw [not_or, not_not, Bool.not_eq_false] at hnot
      simp [hnot, hdialect] at h
    have hkept : parseSQLDollarTagAt (before ++ older) (t ++ r) = parseSQLDollarTagAt before t ∧
        isIncompleteSQLDollarTagAt (before ++ older) (t ++ r) = false :=
      dollar_append (fun hc => hseam ⟨hc.1, hc.2.1, rfl, hdialect, hc.2.2⟩) hdecided
    obtain ⟨htag, hincomplete⟩ := hkept
    have hfull : ∀ u, fullWidthSemicolon.isPrefixOf (dollar :: u) = false := fun u => rfl
    have hne : dollar ≠ semicolon ∧ dollar ≠ 0xEF := by decide
    rw [htag, hincomplete]
    simp only [hdialect, hne, hfull, true_and, false_and, Bool.false_eq_true, if_false] at h ⊢
    split_ifs at h ⊢
    · exact h
    · exact h
  · have htag : ∀ p : Prop, ¬ (c = dollar ∧ supportsSQLDollarQuote dbType = true ∧ p) :=
      fun p hc => hd ⟨hc.1, hc.2.1⟩
    rw [if_neg (htag _), if_neg (htag _)] at h
    rw [if_neg (htag _), if_neg (htag _)]
    by_cases hef : c = 0xEF
    · have ht : ¬ t.length < 2 := fun ht => by
        rw [if_neg (by rw [hef]; decide), if_pos ⟨hef, ht⟩] at h
        cases h
      have hlong : ¬ (t ++ r).length < 2 := by
        rw [length_append]
        omega
      have hfull : fullWidthSemicolon.isPrefixOf (c :: t ++ r) =
          fullWidthSemicolon.isPrefixOf (c :: t) := by
        refine isPrefixOf_append_of_length ?_
        have hlen : fullWidthSemicolon.length = 3 := rfl
        rw [hlen, length_cons]
        omega
      rw [cons_append] at hfull
      have hsemi : c ≠ semicolon := by rw [hef]; decide
      rw [if_neg hsemi, if_neg fun hc => ht hc.2] at h
      rw [if_neg hsemi, if_neg fun hc => hlong hc.2, hfull]
      exact h
    · have hfull : ∀ u, fullWidthSemicolon.isPrefixOf (c :: u) = false := fun u =>
        fullWidthSemicolon_isPrefixOf_of_ne hef
      simp only [hef, hfull, false_and, if_false, Bool.false_eq_true] at h ⊢
      exact h

theorem code_append (hseam : ¬ DollarSeam dbType before older c t)
    (h : s.code dbType before c t = some a) :
    s.code dbType (before ++ older) c (t ++ r) = some a := by
  unfold code at h ⊢
  by_cases hd : c = dash
  · have ht : t ≠ [] := by
      rintro rfl
      rw [if_pos ⟨hd, rfl⟩] at h
      cases h
    have hnil : ¬ (c = dash ∧ t ++ r = []) := fun hc => ht (append_eq_nil_iff.mp hc.2).1
    rw [if_neg fun hc => ht hc.2] at h
    rw [if_neg hnil, head?_append_of_ne_nil _ ht, tail_append_of_ne_nil ht]
    have hline : ∀ u, s.slashLine c u = none := fun u =>
      if_neg fun hc => absurd (hd ▸ hc.1) (by decide)
    have hhash : ¬ (c = hash ∧ supportsSQLHashLineComment dbType = true) :=
      fun hc => absurd (hd ▸ hc.1) (by decide)
    by_cases hdd : t.head? = some dash
    · have htail : isMySQLDashDialect dbType = true → List.tail t ≠ [] := fun hm htail => by
        rw [if_pos ⟨hd, hdd, hm, htail⟩] at h
        cases h
      have hwait : ∀ u : Text, (isMySQLDashDialect dbType = true → u ≠ []) →
          ¬ (c = dash ∧ t.head? = some dash ∧ isMySQLDashDialect dbType = true ∧ u = []) :=
        fun u hu hc => hu hc.2.2.1 hc.2.2.2
      have htail' : isMySQLDashDialect dbType = true → List.tail t ++ r ≠ [] :=
        fun hm hc => htail hm (append_eq_nil_iff.mp hc).1
      rw [if_neg (hwait _ htail)] at h
      rw [if_neg (hwait _ htail'), isSQLDashLineCommentStart_append htail]
      split_ifs at h ⊢
      · exact h
      · rw [hline] at h ⊢
        exact punctuation_append hseam h
    · have hno : ∀ p : Prop, ¬ (c = dash ∧ t.head? = some dash ∧ p) := fun p hc => hdd hc.2.1
      rw [if_neg (hno _), if_neg (hno _), if_neg hhash, hline] at h
      rw [if_neg (hno _), if_neg (hno _), if_neg hhash, hline]
      exact punctuation_append hseam h
  · simp only [hd, false_and, if_false] at h ⊢
    split_ifs at h ⊢ with hhash
    · exact h
    · cases hl : s.slashLine c t with
      | none =>
        rw [hl] at h
        rw [slashLine_append (by simp [hl]), hl]
        exact punctuation_append hseam h
      | some p =>
        obtain ⟨e, complete⟩ := p
        rw [hl] at h
        cases complete with
        | false => cases h
        | true =>
          have he : e ≠ [] := by
            unfold slashLine at hl
            split_ifs at hl
            exact slashLineSuffix_complete hl
          rw [slashLine_append (by simp [hl]), hl]
          have hlen : (t ++ r).length - (List.tail (e ++ r)).length =
              t.length - (List.tail e).length := by
            rw [tail_append_of_ne_nil he, length_append, length_append]
            omega
          dsimp only [Option.map_some] at h ⊢
          rw [hlen]
          exact h

end StreamSplitter

/-! ### Words -/

theorem shouldDeferPLSQLKeywordInStream_append {token : Text} (hopen : ¬ LookaheadOpen token t)
    (h : shouldDeferPLSQLKeywordInStream token t = false) :
    shouldDeferPLSQLKeywordInStream token (t ++ r) = false := by
  simp only [LookaheadOpen, TokenOpen, not_or, not_and] at hopen
  obtain ⟨⟨hne, hlone, -⟩, hbegin⟩ := hopen
  have ht : t ≠ [] := by
    rintro rfl
    exact hne rfl
  unfold shouldDeferPLSQLKeywordInStream at h ⊢
  rw [skipSQLTrivia_append hne hlone]
  rw [if_neg ht] at h
  rw [if_neg fun hc => ht (append_eq_nil_iff.mp hc).1]
  obtain ⟨d, u, hu⟩ := exists_cons_of_ne_nil hne
  rw [hu] at h hbegin ⊢
  rw [cons_append]
  by_cases hmem : token ∈ blockKeywords
  swap
  · rw [if_pos hmem]
  rw [if_neg (not_not.mpr hmem)] at h ⊢
  dsimp only at h ⊢
  by_cases hd : isSQLIdentifierStart d = true
  · rw [if_pos hd] at h ⊢
    have hend : u.dropWhile isSQLIdentifierPart ≠ [] := fun hnil => by
      rw [if_pos hnil] at h
      cases h
    rw [if_neg hend] at h
    rw [dropWhile_append_of_ne_nil hend, takeWhile_append_of_dropWhile hend,
      if_neg fun hc => hend (append_eq_nil_iff.mp hc).1]
    split_ifs at h ⊢ with hb
    · -- a `BEGIN` looks at one more token
      have hspan : (tokenSpan isSQLIdentifierStart isSQLIdentifierPart (d :: u)).2 =
          u.dropWhile isSQLIdentifierPart := by rw [tokenSpan, if_pos hd]
      obtain ⟨-, hne', hlone', hall⟩ := hbegin hb.1
      rw [hspan] at hne' hlone' hall
      rw [skipSQLTrivia_append hne' hlone']
      obtain ⟨e, v, hv⟩ := exists_cons_of_ne_nil hne'
      rw [hv] at h hall ⊢
      rw [cons_append]
      dsimp only at h ⊢
      by_cases he : isSQLIdentifierStart e = true
      · have hve : v.dropWhile isSQLIdentifierPart ≠ [] := by
          refine dropWhile_ne_nil (fun _ => id) fun hc => hall ?_
          rw [all_cons, isSQLIdentifierPart_of_start he, hc]
          rfl
        rw [dropWhile_append_of_ne_nil hve]
        simp [hve]
      · simp [he]
    · rfl
  · rw [if_neg hd]

/-- A delimiter that does not start in a text does not start there in a longer one. -/
theorem delimiterStartsAt_append {delimiter : Text} (ht : t ≠ [])
    (h : delimiterStartsAt delimiter t = false) : delimiterStartsAt delimiter (t ++ r) = false := by
  unfold delimiterStartsAt at h ⊢
  by_cases hsemi : delimiter = [semicolon]
  · rw [if_pos (.inl hsemi)]
  rw [if_neg (by simp [hsemi, ht]), Bool.or_eq_false_iff] at h
  rw [if_neg (by simp [hsemi, ht]), Bool.or_eq_false_iff]
  have hpartial : ¬ (t.length < delimiter.length ∧ t.isPrefixOf delimiter = true) := by
    rintro ⟨h₁, h₂⟩
    simp [h₁, h₂] at h
  obtain ⟨h₁, h₂⟩ := isPrefixOf_append_of_not_partial (r := r) hpartial
  refine ⟨h₁ ▸ h.1, ?_⟩
  rw [Bool.and_eq_false_iff, decide_eq_false_iff_not]
  rcases not_and_or.mp h₂ with h₂ | h₂
  · exact .inl h₂
  · exact .inr (Bool.not_eq_true _ ▸ h₂)

theorem wordTail_isPrefix (delimiter : Text) : ∀ t : Text, wordTail delimiter t <+: t
  | [] => List.nil_prefix
  | c :: t => by
    rw [wordTail]
    split_ifs
    · exact (List.cons_prefix_cons).mpr ⟨rfl, wordTail_isPrefix delimiter t⟩
    · exact List.nil_prefix

theorem wordTail_part (delimiter : Text) : ∀ {t : Text}, ∀ c ∈ wordTail delimiter t,
    isSQLIdentifierPart c = true
  | [], c, h => nomatch h
  | d :: t, c, h => by
    rw [wordTail] at h
    split_ifs at h with hd
    · rcases mem_cons.mp h with rfl | h
      · exact hd.1
      · exact wordTail_part delimiter c h
    · cases h

theorem wordTail_append (delimiter : Text) : ∀ t : Text,
    wordTail delimiter t <+: wordTail delimiter (t ++ r)
  | [] => List.nil_prefix
  | c :: t => by
    rw [cons_append, wordTail, wordTail]
    split_ifs with h₁ h₂ h₂
    · exact (List.cons_prefix_cons).mpr ⟨rfl, wordTail_append delimiter t⟩
    · exact absurd ⟨h₁.1, delimiterStartsAt_append (cons_ne_nil _ _) h₁.2⟩ h₂
    · exact List.nil_prefix
    · exact List.nil_prefix

theorem wordTail_drop (delimiter : Text) : ∀ {t x w : Text}, wordTail delimiter t = x ++ w →
    wordTail delimiter (t.drop x.length) = w
  | t, [], w, h => h
  | [], _ :: _, w, h => nomatch h
  | c :: t, d :: x, w, h => by
    rw [wordTail] at h
    split_ifs at h
    · rw [length_cons, drop_succ_cons]
      exact wordTail_drop delimiter (List.cons.inj h).2
    · cases h

/-- A keyword whose look-ahead touches the end of the chunk without being deferred, and which
the text `r` behind the chunk gives another meaning, or defers. -/
def KeywordSeam (dbType : Text) (s : StreamSplitter) (c : UInt8) (t r : Text) : Prop :=
  let tail := wordTail s.activeDelimiter t
  let token := toLower (c :: tail)
  let rest := t.drop tail.length
  token ∈ blockKeywords ∧ LookaheadOpen token rest ∧
    ¬ (shouldDeferPLSQLKeywordInStream token (rest ++ r) = false ∧
      s.block.word dbType s.cur token (rest ++ r) = s.block.word dbType s.cur token rest)

instance : Decidable (KeywordSeam dbType s c t r) :=
  inferInstanceAs (Decidable (_ ∧ _ ∧ ¬ (_ ∧ _)))

namespace StreamSplitter

variable {a : StreamAction}

theorem word_append (hcut : wordTail s.activeDelimiter (t ++ r) = wordTail s.activeDelimiter t)
    (hseam : ¬ KeywordSeam dbType s c t r) (h : s.word dbType before c t = some a) :
    s.word dbType (before ++ older) c (t ++ r) = some a := by
  have hdrop : (t ++ r).drop (wordTail s.activeDelimiter t).length =
      t.drop (wordTail s.activeDelimiter t).length ++ r :=
    drop_append_of_le_length (wordTail_isPrefix _ t).length_le
  unfold word at h ⊢
  dsimp only at h ⊢
  rw [hcut, hdrop]
  unfold KeywordSeam at hseam
  dsimp only at hseam
  generalize toLower (c :: wordTail s.activeDelimiter t) = token at h hseam ⊢
  generalize t.drop (wordTail s.activeDelimiter t).length = rest at h hseam ⊢
  split_ifs at h with hprefix hdefer
  have hprefix' : shouldDeferPLSQLKeywordPrefixInStream (before ++ older) token (rest ++ r) =
      false := by
    by_cases hnil : rest ++ r = []
    · obtain ⟨rfl, rfl⟩ := append_eq_nil_iff.mp hnil
      have hhead : before.head?.any isSQLIdentifierPart = true →
          (before ++ older).head?.any isSQLIdentifierPart = true := by
        intro hb
        rwa [head?_append_of_ne_nil]
        rintro rfl
        cases hb
      simp only [shouldDeferPLSQLKeywordPrefixInStream, ne_eq, append_nil, not_true_eq_false,
        if_false] at hprefix ⊢
      split_ifs at hprefix ⊢
      · rw [hhead (by simpa using hprefix)]
        rfl
      · rfl
    · exact if_pos hnil
  have hmeaning : shouldDeferPLSQLKeywordInStream token (rest ++ r) = false ∧
      s.block.word dbType s.cur token (rest ++ r) = s.block.word dbType s.cur token rest := by
    by_cases hmem : token ∈ blockKeywords
    · by_cases hopen : LookaheadOpen token rest
      · by_contra hnot
        exact hseam ⟨hmem, hopen, hnot⟩
      · exact ⟨shouldDeferPLSQLKeywordInStream_append hopen (by simpa using hdefer),
          Block.word_append hopen⟩
    · have hblock : [bytes "begin", bytes "declare", bytes "end", bytes "is", bytes "as"] ⊆
          blockKeywords := by decide
      exact ⟨by rw [shouldDeferPLSQLKeywordInStream, if_pos hmem],
        Block.word_eq_of_not_mem (fun hfive => hmem (hblock hfive)) _⟩
  rw [hprefix', hmeaning.1, hmeaning.2]
  exact h

/-- `Feed` stands in code, in front of no directive and no delimiter of the client. -/
def AtCode (dbType : Text) (s : StreamSplitter) (c : UInt8) (t : Text) : Prop :=
  s.mode.feedQuoted dbType c t = .pass ∧ s.delimiterDirective dbType (c :: t) = .no ∧
    s.goDirective dbType (c :: t) = .no ∧ s.customDelimiter (c :: t) = none

instance : Decidable (s.AtCode dbType c t) := inferInstanceAs (Decidable (_ ∧ _ ∧ _ ∧ _))

theorem AtCode.action_eq (h : s.AtCode dbType c t) :
    s.action dbType before c t = s.wordOrCode dbType before c t := by
  obtain ⟨hq, hd, hg, hc⟩ := h
  simp only [action, hq, plain, hd, hg, hc]

theorem AtCode.append (hm : s.mode.TagStarts) (h : s.AtCode dbType c t) :
    s.AtCode dbType c (t ++ r) := by
  obtain ⟨hq, hd, hg, hc⟩ := h
  refine ⟨?_, ?_, ?_, ?_⟩
  · rw [Mode.feedQuoted_append hm (by simp [hq]), hq]
  · rw [← cons_append, delimiterDirective_append (by simp [hd]), hd]
    rfl
  · rw [← cons_append, goDirective_append (by simp [hg]), hg]
    rfl
  · rw [← cons_append, customDelimiter_append (by simp [hc]), hc]

/-- A step in front of a chunk is taken in front of the chunk and more text. -/
theorem action_append (hm : s.mode.TagStarts) (hdollar : ¬ DollarSeam dbType before older c t)
    (hcut : s.AtCode dbType c t → isSQLIdentifierStart c = true →
      wordTail s.activeDelimiter (t ++ r) = wordTail s.activeDelimiter t ∧
        ¬ KeywordSeam dbType s c t r)
    (h : s.action dbType before c t = some a) :
    s.action dbType (before ++ older) c (t ++ r) = some a := by
  unfold action at h ⊢
  cases hq : s.mode.feedQuoted dbType c t with
  | wait => simp [hq] at h
  | take m k =>
    rw [Mode.feedQuoted_append hm (by simp [hq]), hq]
    rwa [hq] at h
  | pass =>
    rw [Mode.feedQuoted_append hm (by simp [hq]), hq]
    rw [hq] at h
    unfold plain at h ⊢
    rw [← cons_append]
    have hlen : ∀ e : Text, (t ++ r).length - (e ++ r).length = t.length - e.length := fun e => by
      rw [length_append, length_append]
      omega
    cases hd : s.delimiterDirective dbType (c :: t) with
    | incomplete => simp [hd] at h
    | matched v e =>
      rw [delimiterDirective_append (by simp [hd]), hd]
      rw [hd] at h
      dsimp only [Directive.append] at h ⊢
      rw [hlen]
      exact h
    | no =>
      rw [delimiterDirective_append (by simp [hd]), hd]
      rw [hd] at h
      dsimp only [Directive.append] at h ⊢
      cases hg : s.goDirective dbType (c :: t) with
      | incomplete => simp [hg] at h
      | matched v e =>
        rw [goDirective_append (by simp [hg]), hg]
        rw [hg] at h
        dsimp only [Directive.append] at h ⊢
        rw [hlen]
        exact h
      | no =>
        rw [goDirective_append (by simp [hg]), hg]
        rw [hg] at h
        dsimp only [Directive.append] at h ⊢
        rw [customDelimiter_append (by rintro hcustom; simp [hcustom] at h)]
        cases hcustom : s.customDelimiter (c :: t) with
        | some b =>
          rw [hcustom] at h
          cases b <;> exact h
        | none =>
          rw [hcustom] at h
          unfold wordOrCode at h ⊢
          split_ifs at h ⊢ with hs
          · obtain ⟨hcut, hseam⟩ := hcut ⟨hq, hd, hg, hcustom⟩ hs
            exact word_append hcut hseam h
          · exact code_append hdollar h

end StreamSplitter

/-! ### What an action takes -/

theorem parseSQLDollarTag_spec (h : parseSQLDollarTagAt before t ≠ []) :
    (parseSQLDollarTagAt before t).head? = some dollar ∧
      (parseSQLDollarTagAt before t).length ≤ t.length + 1 := by
  unfold parseSQLDollarTagAt at h ⊢
  by_cases hb : before.head?.any isSQLIdentifierPart = true
  · exact absurd (if_pos hb) h
  rw [if_neg hb] at h ⊢
  cases t with
  | nil => exact absurd rfl h
  | cons d u =>
    dsimp only at h ⊢
    split_ifs at h ⊢ with h₁ h₂ h₃
    · simp
    · refine ⟨rfl, ?_⟩
      have hsplit := congrArg List.length
        (takeWhile_append_dropWhile (p := isDollarNameByte) (l := u))
      have hpos : 0 < (u.dropWhile isDollarNameByte).length := by
        cases hu : u.dropWhile isDollarNameByte with
        | nil => simp [hu] at h₃
        | cons _ _ => simp
      rw [length_append] at hsplit
      simp only [cons_append, length_cons, length_append, length_nil]
      omega
    · exact absurd rfl h
    · exact absurd rfl h

/-- An action takes bytes that are there, and keeps the form of dollar tags. -/
def StreamAction.Fits (a : StreamAction) (t : Text) : Prop :=
  a.mode.TagStarts ∧ a.extra ≤ t.length

namespace StreamSplitter

variable {a : StreamAction} {d : Text}

theorem semicolonAction_fits {k : ℕ} (hm : s.mode.TagStarts) (hk : k ≤ t.length) :
    (s.semicolonAction k).Fits t ∧ (s.semicolonAction k).effect ≠ .setDelimiter d := by
  unfold semicolonAction
  split_ifs <;> exact ⟨⟨hm, hk⟩, by simp⟩

theorem punctuation_fits (hm : s.mode.TagStarts) (h : s.punctuation dbType before c t = some a) :
    a.Fits t ∧ a.effect ≠ .setDelimiter d := by
  unfold punctuation at h
  split_ifs at h with _ hstar htag _ _ _ hfull <;> cases h
  · refine ⟨⟨hm, ?_⟩, by simp⟩
    cases t with
    | nil => cases hstar.2
    | cons _ _ => simp
  · obtain ⟨hhead, hlen⟩ := parseSQLDollarTag_spec htag.2.2
    refine ⟨⟨fun _ => hhead, ?_⟩, by simp⟩
    dsimp only
    omega
  · exact semicolonAction_fits hm (Nat.zero_le _)
  · refine semicolonAction_fits hm ?_
    have hlen := (List.isPrefixOf_iff_prefix.mp hfull).length_le
    simp only [length_cons, length_nil] at hlen
    omega
  · exact ⟨⟨hm, Nat.zero_le _⟩, by simp⟩

theorem code_fits (hm : s.mode.TagStarts) (h : s.code dbType before c t = some a) :
    a.Fits t ∧ a.effect ≠ .setDelimiter d := by
  unfold code at h
  dsimp only at h
  split_ifs at h
  · cases h
    exact ⟨⟨hm, Nat.zero_le _⟩, by simp⟩
  · cases h
    exact ⟨⟨hm, Nat.zero_le _⟩, by simp⟩
  · cases hl : s.slashLine c t with
    | none =>
      rw [hl] at h
      exact punctuation_fits hm h
    | some p =>
      obtain ⟨e, complete⟩ := p
      rw [hl] at h
      cases complete <;> cases h
      exact ⟨⟨hm, Nat.sub_le _ _⟩, by simp⟩

theorem isPrefixOf_of_customDelimiter (h : s.customDelimiter t = some true) :
    s.activeDelimiter.isPrefixOf t = true := by
  unfold customDelimiter at h
  split_ifs at h with _ hp
  · exact hp
  · cases h

theorem action_spec (hm : s.mode.TagStarts) (h : s.action dbType before c t = some a) :
    a.Fits t ∧ (a.effect = .setDelimiter d → isSQLStreamMySQLClientDialect dbType = true) := by
  unfold action at h
  cases hq : s.mode.feedQuoted dbType c t with
  | wait => simp [hq] at h
  | take m k =>
    rw [hq] at h
    cases h
    exact ⟨⟨Mode.tagStarts_of_feedQuoted hm hq, (Mode.feedQuoted_take hq).1⟩, by simp⟩
  | pass =>
    rw [hq] at h
    dsimp only at h
    unfold plain at h
    split at h
    · cases h
    · next hdirective =>
      cases h
      unfold delimiterDirective at hdirective
      split_ifs at hdirective with hmysql
      exact ⟨⟨hm, Nat.sub_le _ _⟩, fun _ => hmysql.1⟩
    · split at h
      · cases h
      · cases h
        exact ⟨⟨hm, Nat.sub_le _ _⟩, by simp⟩
      · split at h
        · next hcustom =>
          cases h
          have hlen := (List.isPrefixOf_iff_prefix.mp (isPrefixOf_of_customDelimiter hcustom)).length_le
          rw [length_cons] at hlen
          exact ⟨⟨hm, by dsimp only; omega⟩, by simp⟩
        · cases h
        · unfold wordOrCode at h
          split_ifs at h
          · unfold word at h
            dsimp only at h
            split_ifs at h
            cases h
            exact ⟨⟨hm, (wordTail_isPrefix _ t).length_le⟩, by simp⟩
          · obtain ⟨hfits, hset⟩ := code_fits (d := d) hm h
            exact ⟨hfits, fun hd => absurd hd hset⟩

theorem apply_mode (taken : Text) : (s.apply dbType a taken).1.mode = a.mode := by
  unfold apply
  cases a.effect <;> rfl

theorem apply_pending (taken : Text) : (s.apply dbType a taken).1.pending = s.pending := by
  unfold apply
  cases a.effect <;> rfl

theorem apply_delimiter {taken : Text} (h : ∀ d, a.effect ≠ .setDelimiter d) :
    (s.apply dbType a taken).1.delimiter = s.delimiter := by
  unfold apply
  cases he : a.effect with
  | setDelimiter d => exact absurd he (h d)
  | _ => rfl

end StreamSplitter

end GoNavi.Sql
