import GoNavi.Sql.LimitBounds

/-! # The size limit and chunks

A run on chunks that meets a statement that is too large reports what the run on the whole text
reports, as long as no cut up to there matters (`CutsHarmlessWithin`,
`streamSQLFileWithOptions_limit`).  The run on the whole text is ahead at the end of a word that a
chunk has cut; what its builder has taken then is what the other will have written of the word
(`Accompanies`). -/

namespace GoNavi.Sql

open Scan List StreamSplitter Option

/-! ### Cuts that do not matter -/

section Cuts

/-- The loop of `Feed`, which counts what is still to be read of a word that a chunk has cut. -/
def limitCutFeeder (dbType : Text) (maxBytes textSourceOffset statementIndex : ℕ) (later : Text) :
    Scanner UInt8 (LimitState × ℕ) where
  step s c t :=
    ((limitFeeder dbType maxBytes textSourceOffset statementIndex).step s.1 c t).map fun p =>
      ((p.1, if s.2 = 0 then cutOff dbType later s.1.feed.core c t
        else s.2 - ((c :: t).length - p.2.length)), p.2)
  step_suffix := by
    intro s c t s' t' h
    obtain ⟨p, hp, h⟩ := map_eq_some_iff.mp h
    cases h
    exact (limitFeeder dbType maxBytes textSourceOffset statementIndex).step_suffix hp

/-- No cut between the chunks matters that a splitter with a limit comes to. -/
def CutsHarmlessWithin (dbType : Text) (maxBytes : ℕ) :
    LimitedSplitter → Text → ℕ → List Text → Prop
  | s, _, cut, [] => cut = 0 ∨ s.splitter.pending.length ≤ cut
  | s, older, cut, chunk :: chunks =>
    let start : LimitState := ⟨⟨{ s.splitter with pending := [] }, [], []⟩, none⟩
    let scanner := limitCutFeeder dbType maxBytes (s.inputBytes - s.splitter.pending.length)
      s.statementIndex chunks.flatten
    let p := scanner.run (start, cut) (s.splitter.pending ++ chunk)
    (∀ q c t, scanner.Reach (start, cut) (s.splitter.pending ++ chunk) q (c :: t) →
      q.1.limitErr = none → StepHarmless dbType older chunks.flatten q.1.feed q.2 c t) ∧
    (p.1.1.limitErr = none → CutsHarmlessWithin dbType maxBytes (s.feed dbType maxBytes chunk).1
      (p.1.1.feed.before ++ older) p.1.2 chunks)

instance decidableCutsHarmlessWithin (dbType : Text) (maxBytes : ℕ) : ∀ (s : LimitedSplitter)
    (older : Text) (cut : ℕ) (chunks : List Text),
    Decidable (CutsHarmlessWithin dbType maxBytes s older cut chunks)
  | _, _, _, [] => inferInstanceAs (Decidable (_ ∨ _))
  | s, older, cut, chunk :: chunks =>
    let start : LimitState := ⟨⟨{ s.splitter with pending := [] }, [], []⟩, none⟩
    let scanner := limitCutFeeder dbType maxBytes (s.inputBytes - s.splitter.pending.length)
      s.statementIndex chunks.flatten
    let p := scanner.run (start, cut) (s.splitter.pending ++ chunk)
    have := decidableCutsHarmlessWithin dbType maxBytes (s.feed dbType maxBytes chunk).1
      (p.1.1.feed.before ++ older) p.1.2 chunks
    have : Decidable (∀ q c t, scanner.Reach (start, cut) (s.splitter.pending ++ chunk) q (c :: t) →
        q.1.limitErr = none → StepHarmless dbType older chunks.flatten q.1.feed q.2 c t) :=
      decidable_of_iff (scanner.check (fun q c t => decide (q.1.limitErr = none →
          StepHarmless dbType older chunks.flatten q.1.feed q.2 c t))
        (start, cut) (s.splitter.pending ++ chunk) = true)
        (Scanner.check_iff.trans (by simp only [decide_eq_true_eq]))
    inferInstanceAs (Decidable (_ ∧ _))

end Cuts

/-! ### The run on the chunks and the run on the whole text -/

section Accompanies

variable {dbType : Text} {maxBytes : ℕ} {done : List Text} {older later : Text}
  {f f' f₁ : FeedState} {w : LimitState} {v z t t₁ : Text} {c : UInt8} {a : StreamAction}

/-- The builder in front of a step, behind the statements and the text of the calls before. -/
def FeedState.builder (f : FeedState) (older : Text) (done : List Text) : SqlStatementBuilder :=
  f.core.builder (older.length + f.before.length) (done.length + f.statements.length)

/-- The run on the whole text stands where the run on the chunks will stand, and its builder is
full if the rest of the word that the chunk has cut does not fit. -/
def Accompanies (dbType : Text) (maxBytes : ℕ) (done : List Text) (older : Text) (f : FeedState)
    (w : LimitState) (v z : Text) : Prop :=
  ∃ f', Follows dbType done older f f' v z ∧ w.feed.statements = f'.statements ∧
    w.limitErr = ((f.builder older done).writeString maxBytes v).limitErr ∧
    (w.limitErr = none → w.feed = f')

theorem Accompanies.level (h : Accompanies dbType maxBytes done older f w [] z) :
    ∃ f', Follows dbType done older f f' [] z ∧ w = ⟨f', none⟩ := by
  obtain ⟨f', hfollows, _, hlimit, hfeed⟩ := h
  rw [SqlStatementBuilder.writeString_nil] at hlimit
  obtain ⟨feed, limitErr⟩ := w
  have hnone : limitErr = none := hlimit
  subst hnone
  have hghost : feed = f' := hfeed rfl
  exact ⟨f', hfollows, by rw [hghost]⟩

theorem FeedState.builder_keep {x : Text}
    (h : ((f.builder older done).writeString maxBytes x).limitErr = none)
    (hcur : f₁.core.cur = f.core.cur ++ x) (hbefore : f₁.before = x.reverse ++ f.before)
    (hstatements : f₁.statements = f.statements) :
    f₁.builder older done = (f.builder older done).writeString maxBytes x := by
  rw [SqlStatementBuilder.writeString_of_none h]
  unfold FeedState.builder StreamSplitter.builder
  dsimp only
  rw [hcur, hbefore, hstatements, length_append, length_reverse]
  congr 1
  omega

theorem Follows.builder_eq (h : Follows dbType done older f f' [] z) :
    f'.builder [] [] = f.builder older done := by
  rw [h.eq]
  unfold FeedState.builder builder
  rw [length_append, length_append, length_nil, length_nil]
  congr 1 <;> omega

variable (maxBytes done older) in
theorem limitFeeder_step (ha : f.core.action dbType f.before c t = some a) :
    (limitFeeder dbType maxBytes older.length done.length).step ⟨f, none⟩ c t =
      some (⟨⟨(f.core.applyLimited dbType maxBytes (f.builder older done) a
          (c :: t.take a.extra)).1.1, (c :: t.take a.extra).reverse ++ f.before,
        f.statements ++ (f.core.applyLimited dbType maxBytes (f.builder older done) a
          (c :: t.take a.extra)).1.2⟩, (f.core.applyLimited dbType maxBytes
            (f.builder older done) a (c :: t.take a.extra)).2⟩, t.drop a.extra) := by
  simp only [limitFeeder, isSome_none, Bool.false_eq_true, if_false, ha, map_some,
    FeedState.builder]

variable (maxBytes done older) in
/-- A step that keeps bytes is a step without a limit, as long as they fit. -/
theorem limitFeeder_keep (ha : f.core.action dbType f.before c t = some a)
    (hkeep : a.effect = .keep) (hst : (feeder dbType).step f c t = some (f₁, t₁)) :
    ∃ x g, c :: t = x ++ t₁ ∧
      (limitFeeder dbType maxBytes older.length done.length).step ⟨f, none⟩ c t =
        some (⟨g, ((f.builder older done).writeString maxBytes x).limitErr⟩, t₁) ∧
      f₁.core = { f.core with cur := f.core.cur ++ x, mode := a.mode, block := a.block } ∧
      f₁.before = x.reverse ++ f.before ∧ f₁.statements = f.statements ∧
      g.statements = f.statements ∧
      (((f.builder older done).writeString maxBytes x).limitErr = none → g = f₁) := by
  rw [feeder_step ha] at hst
  have hlimited := limitFeeder_step maxBytes done older ha
  have htaken : c :: t = (c :: t.take a.extra) ++ t.drop a.extra := by
    rw [cons_append, take_append_drop]
  cases hst
  generalize hx : c :: t.take a.extra = x at *
  have happly : f.core.apply dbType a x =
      ({ f.core with cur := f.core.cur ++ x, mode := a.mode, block := a.block }, []) := by
    unfold apply
    rw [hkeep]
  have happly' : f.core.applyLimited dbType maxBytes (f.builder older done) a x =
      (({ f.core with
        cur := ((f.builder older done).writeString maxBytes x).text
        mode := a.mode, block := a.block }, []),
        ((f.builder older done).writeString maxBytes x).limitErr) := by
    unfold applyLimited
    rw [hkeep]
  rw [happly'] at hlimited
  rw [happly]
  refine ⟨x, _, htaken, hlimited, rfl, rfl, append_nil _, append_nil _, ?_⟩
  intro hnone
  rw [SqlStatementBuilder.writeString_of_none hnone]
  rfl

variable (dbType maxBytes a) in
theorem applyLimited_keeps (s : StreamSplitter) (builder : SqlStatementBuilder) (taken : Text) :
    (s.applyLimited dbType maxBytes builder a taken).1.1.mode = a.mode ∧
      (s.applyLimited dbType maxBytes builder a taken).1.1.pending = s.pending ∧
      ((∀ d, a.effect ≠ .setDelimiter d) →
        (s.applyLimited dbType maxBytes builder a taken).1.1.delimiter = s.delimiter) := by
  unfold applyLimited
  split
  · exact ⟨rfl, rfl, fun _ => rfl⟩
  · exact ⟨rfl, rfl, fun _ => rfl⟩
  · exact ⟨apply_mode _, apply_pending _,
      apply_delimiter⟩

variable (maxBytes) in
theorem Follows.limited_same (h : Follows dbType done older f f' [] z)
    (ha : f.core.action dbType f.before c t = some a)
    (ha' : f.core.action dbType (f.before ++ older) c (t ++ later) = some a) :
    ∃ g g' limitErr, (limitFeeder dbType maxBytes older.length done.length).step ⟨f, none⟩ c t =
        some (⟨g, limitErr⟩, t.drop a.extra) ∧
      (limitFeeder dbType maxBytes 0 0).step ⟨f', none⟩ c (t ++ later) =
        some (⟨g', limitErr⟩, t.drop a.extra ++ later) ∧
      Follows dbType done older g g' [] (t.drop a.extra ++ later) := by
  obtain ⟨htag, hextra⟩ := (action_spec (d := []) h.tag ha).1
  have hdelimiter := h.delimiter
  have hpending := h.pending
  have hstep := limitFeeder_step maxBytes done older ha
  have hbuilder := h.builder_eq
  have heq := h.eq
  have hact' : f'.core.action dbType f'.before c (t ++ later) = some a := by
    rw [heq]
    exact ha'
  have hstep' := limitFeeder_step maxBytes [] [] hact'
  rw [hbuilder, take_append_of_le_length hextra, drop_append_of_le_length hextra]
    at hstep'
  subst heq
  obtain ⟨hmode, hkept, hset⟩ := applyLimited_keeps dbType maxBytes a f.core
    (f.builder older done) (c :: t.take a.extra)
  refine ⟨_, _, _, hstep, hstep', ⟨?_, ?_, ?_, ?_, ?_, ?_, ?_, ?_, ?_, ?_⟩⟩
  · simp only [append_nil]
  · simp only [reverse_nil, nil_append, append_assoc]
  · simp only [append_assoc]
  · exact hkept.trans hpending
  · rw [hmode]
    exact htag
  · intro hne
    by_cases hdirective : ∃ d, a.effect = .setDelimiter d
    · obtain ⟨d, hd⟩ := hdirective
      exact (action_spec h.tag ha).2 hd
    · rw [hset (not_exists.mp hdirective)] at hne
      exact hdelimiter hne
  all_goals exact fun hne => absurd rfl hne

theorem word_keep {s : StreamSplitter} {before : Text} (h : s.word dbType before c t = some a) :
    a.effect = .keep := by
  unfold word at h
  dsimp only at h
  split_ifs at h
  cases h
  rfl

theorem Accompanies.of_keep {x : Text} {g : FeedState}
    (hfollows : Follows dbType done older f₁ f' v z)
    (hstatements' : w.feed.statements = f'.statements)
    (hlimit : w.limitErr = ((f.builder older done).writeString maxBytes (x ++ v)).limitErr)
    (hfeed : w.limitErr = none → w.feed = f')
    (hcur : f₁.core.cur = f.core.cur ++ x) (hbefore : f₁.before = x.reverse ++ f.before)
    (hstatements : f₁.statements = f.statements) (hg : g.statements = f.statements)
    (hnone : ((f.builder older done).writeString maxBytes x).limitErr = none → g = f₁) :
    (((f.builder older done).writeString maxBytes x).limitErr = none ∧
        Accompanies dbType maxBytes done older g w v z) ∨
      ∃ err, ((f.builder older done).writeString maxBytes x).limitErr = some err ∧
        w.limitErr = some err ∧ w.feed.statements = done ++ g.statements := by
  rw [SqlStatementBuilder.writeString_append] at hlimit
  cases hfull : ((f.builder older done).writeString maxBytes x).limitErr with
  | none =>
    have heq := hnone hfull
    subst heq
    rw [← FeedState.builder_keep hfull hcur hbefore hstatements] at hlimit
    exact .inl ⟨rfl, f', hfollows, hstatements', hlimit, hfeed⟩
  | some err =>
    refine .inr ⟨err, rfl, ?_, ?_⟩
    · rw [hlimit]
      exact SqlStatementBuilder.limitErr_writeString_full hfull
    · rw [hstatements', hfollows.statements, hstatements, hg]

/-- What the run on the whole text has come to when the run on the chunks takes a step to `p` in
front of `t₁`, with `cut` bytes of a word still to be read. -/
def Follower (dbType : Text) (maxBytes : ℕ) (done : List Text) (older later : Text) (w : LimitState)
    (z : Text) (p : LimitState) (t₁ : Text) (cut : ℕ) : Prop :=
  ∃ w₁ v₁ z₁, (limitFeeder dbType maxBytes 0 0).Reach w z w₁ z₁ ∧
    ((p.limitErr = none ∧ Accompanies dbType maxBytes done older p.feed w₁ v₁ z₁ ∧
        t₁ ++ later = v₁ ++ z₁ ∧ v₁.length = cut) ∨
      ∃ err, p.limitErr = some err ∧ w₁.limitErr = some err ∧
        w₁.feed.statements = done ++ p.feed.statements)

theorem exists_action {p : LimitState} {offset index : ℕ}
    (h : (limitFeeder dbType maxBytes offset index).step ⟨f, none⟩ c t = some (p, t₁)) :
    ∃ a, f.core.action dbType f.before c t = some a := by
  obtain ⟨a, ha, _⟩ := map_eq_some_iff.mp h
  exact ⟨a, ha⟩

/-- A step that no cut touches, and the next of the run on the whole text. -/
theorem Follows.follower_same {p : LimitState} (h : Follows dbType done older f f' [] z)
    (htext : c :: t ++ later = z)
    (hst : (limitFeeder dbType maxBytes older.length done.length).step ⟨f, none⟩ c t =
      some (p, t₁))
    (ha : f.core.action dbType f.before c t = some a)
    (ha' : f.core.action dbType (f.before ++ older) c (t ++ later) = some a) :
    Follower dbType maxBytes done older later ⟨f', none⟩ z p t₁ 0 := by
  obtain ⟨g, g', limitErr, hchunk, hwhole, hnext⟩ := h.limited_same maxBytes ha ha'
  rw [hchunk] at hst
  cases hst
  subst htext
  refine ⟨⟨g', limitErr⟩, [], _, .single hwhole, ?_⟩
  cases limitErr with
  | none =>
    refine .inl ⟨rfl, ⟨g', hnext, rfl, ?_, fun _ => rfl⟩, rfl, rfl⟩
    rw [SqlStatementBuilder.writeString_nil]
    rfl
  | some err => exact .inr ⟨err, rfl, rfl, hnext.statements⟩

/-- A step on a word that the chunk cuts: the run on the whole text takes all of it. -/
theorem Follows.follower_cut {p : LimitState} (h : Follows dbType done older f f' [] z)
    (htext : c :: t ++ later = z)
    (hst : (limitFeeder dbType maxBytes older.length done.length).step ⟨f, none⟩ c t =
      some (p, t₁))
    (ha : f.core.action dbType f.before c t = some a)
    (hcode : f.core.AtCode dbType c t) (hs : isSQLIdentifierStart c = true)
    (hplain : PlainWord dbType f.core c t) (hplain' : PlainWord dbType f.core c (t ++ later))
    (hword : (f.core.word dbType (f.before ++ older) c (t ++ later)).isSome = true) :
    Follower dbType maxBytes done older later ⟨f', none⟩ z p t₁
      (cutOff dbType later f.core c t) := by
  obtain ⟨f₁', v₁, z₁, hst', hnext, hrest, hlen⟩ :=
    h.step_cut hcode hs hplain hplain' hword (feeder_step ha)
  have hkeep : a.effect = .keep := by
    rw [hcode.action_eq, wordOrCode, if_pos hs] at ha
    exact word_keep ha
  obtain ⟨x, g, hx, hchunk, hcore, hbefore, hstatements, hg, hnone⟩ :=
    limitFeeder_keep maxBytes done older ha hkeep (feeder_step ha)
  obtain ⟨a', ha', _⟩ := map_eq_some_iff.mp hst'
  have hkeep' : a'.effect = .keep := by
    have hcore : f'.core = f.core := by rw [h.eq]
    rw [hcore, (hcode.append h.tag).action_eq, wordOrCode, if_pos hs] at ha'
    exact word_keep ha'
  obtain ⟨x', g', hx', hwhole, _, _, hstatements', hg', hnone'⟩ :=
    limitFeeder_keep maxBytes [] [] ha' hkeep' hst'
  rw [hchunk] at hst
  cases hst
  subst htext
  have hread : x' ++ z₁ = x ++ v₁ ++ z₁ := by
    rw [← hx', append_assoc, ← hrest, ← append_assoc, ← hx]
    rfl
  have htaken : x' = x ++ v₁ := append_cancel_right hread
  subst htaken
  rw [h.builder_eq] at hwhole hnone'
  refine ⟨_, v₁, z₁, .single hwhole, ?_⟩
  have hkept := Accompanies.of_keep (w := ⟨g', _⟩) hnext (hg'.trans hstatements'.symm) rfl hnone'
    (congrArg cur hcore) hbefore hstatements hg hnone
  cases hkept with
  | inl hroom => exact .inl ⟨hroom.1, hroom.2, hrest, hlen⟩
  | inr hfull => exact .inr hfull

/-- A step on bytes of a word that a chunk before has cut: the run on the whole text waits. -/
theorem Accompanies.follower_part {p : LimitState}
    (h : Accompanies dbType maxBytes done older f w v z) (hv : v ≠ [])
    (htext : c :: t ++ later = v ++ z) (hsafe : StepHarmless dbType older later f v.length c t)
    (hst : (limitFeeder dbType maxBytes older.length done.length).step ⟨f, none⟩ c t =
      some (p, t₁))
    (ha : f.core.action dbType f.before c t = some a) :
    Follower dbType maxBytes done older later w z p t₁
      (v.length - ((c :: t).length - t₁.length)) := by
  obtain ⟨f', hfollows, hstatements', hlimit, hfeed⟩ := h
  obtain ⟨v₁, hnext, hrest, hlen⟩ := hfollows.step_part hv htext hsafe (feeder_step ha)
  have hkeep : a.effect = .keep := by
    obtain ⟨d, v, rfl⟩ := exists_cons_of_ne_nil hv
    obtain ⟨rfl, hrest⟩ := List.cons.inj htext
    obtain ⟨k, rfl, _⟩ := hfollows.keepWord_of_part hrest hsafe ha
    rfl
  obtain ⟨x, g, hx, hchunk, hcore, hbefore, hstatements, hg, hnone⟩ :=
    limitFeeder_keep maxBytes done older ha hkeep (feeder_step ha)
  rw [hchunk] at hst
  cases hst
  have hread : v ++ z = x ++ v₁ ++ z := by
    rw [← htext, append_assoc, ← hrest, ← append_assoc, ← hx]
  rw [append_cancel_right hread] at hlimit
  refine ⟨w, v₁, z, .refl, ?_⟩
  have hkept := Accompanies.of_keep hnext hstatements' hlimit hfeed
    (congrArg cur hcore) hbefore hstatements hg hnone
  cases hkept with
  | inl hroom => exact .inl ⟨hroom.1, hroom.2, hrest, hlen⟩
  | inr hfull => exact .inr hfull

/-- **One step**: where no cut matters, the run on the whole text accompanies every step of the
run on the chunks, or both have a builder that is full. -/
theorem Accompanies.step (h : Accompanies dbType maxBytes done older f w v z)
    (htext : c :: t ++ later = v ++ z) (hsafe : StepHarmless dbType older later f v.length c t)
    {q : LimitState × ℕ}
    (hst : (limitCutFeeder dbType maxBytes older.length done.length later).step
      (⟨f, none⟩, v.length) c t = some (q, t₁)) :
    Follower dbType maxBytes done older later w z q.1 t₁ q.2 := by
  obtain ⟨⟨p, u⟩, hlst, hq⟩ := map_eq_some_iff.mp hst
  cases hq
  obtain ⟨a, ha⟩ := exists_action hlst
  by_cases hv : v = []
  · subst hv
    obtain ⟨f', hfollows, hw⟩ := h.level
    subst hw
    rw [length_nil, if_pos rfl]
    by_cases hcut : f.core.AtCode dbType c t ∧ isSQLIdentifierStart c = true ∧
        wordTail f.core.activeDelimiter (t ++ later) ≠ wordTail f.core.activeDelimiter t
    · obtain ⟨hcode, hs, hne⟩ := hcut
      obtain ⟨hplain, hplain', hword⟩ := hsafe.word rfl hcode hs hne
      exact hfollows.follower_cut htext hlst ha hcode hs hplain hplain' hword
    · have hword : f.core.AtCode dbType c t → isSQLIdentifierStart c = true →
          wordTail f.core.activeDelimiter (t ++ later) = wordTail f.core.activeDelimiter t :=
        fun hcode hs => not_not.mp fun hne => hcut ⟨hcode, hs, hne⟩
      have ha' := action_append (r := later) hfollows.tag hsafe.dollar
        (fun hcode hs => ⟨hword hcode hs, hsafe.keyword rfl hcode hs (hword hcode hs)⟩) ha
      have hzero : cutOff dbType later f.core c t = 0 := by
        unfold cutOff
        split
        · rename_i hcode
          rw [hword hcode.1 hcode.2, Nat.sub_self]
        · rfl
      rw [hzero]
      exact hfollows.follower_same htext hlst ha ha'
  · have hne : v.length ≠ 0 := fun h0 => hv (length_eq_zero_iff.mp h0)
    rw [if_neg hne]
    exact h.follower_part hv htext hsafe hlst ha

/-- **One chunk**: the run on the whole text accompanies the loop of `Feed`. -/
theorem Accompanies.reach {f₀ : FeedState} {w₀ : LimitState} {v₀ z₀ t₀ : Text}
    (h : Accompanies dbType maxBytes done older f₀ w₀ v₀ z₀) (htext : t₀ ++ later = v₀ ++ z₀)
    (hsafe : ∀ q c t, (limitCutFeeder dbType maxBytes older.length done.length later).Reach
      (⟨f₀, none⟩, v₀.length) t₀ q (c :: t) → q.1.limitErr = none →
        StepHarmless dbType older later q.1.feed q.2 c t) {q : LimitState × ℕ}
    (hreach : (limitCutFeeder dbType maxBytes older.length done.length later).Reach
      (⟨f₀, none⟩, v₀.length) t₀ q t) :
    Follower dbType maxBytes done older later w₀ z₀ q.1 t q.2 := by
  induction hreach with
  | refl => exact ⟨w₀, v₀, z₀, .refl, .inl ⟨rfl, h, htext, rfl⟩⟩
  | @tail q q₁ c t t₁ hr hst ih =>
    obtain ⟨w, v, z, hreach', hstate⟩ := ih
    obtain ⟨⟨f, limitErr⟩, n⟩ := q
    cases hstate with
    | inl hroom =>
      obtain ⟨hnone, haccompanies, hrest, hlen⟩ := hroom
      subst hnone
      subst hlen
      obtain ⟨w₁, v₁, z₁, hreach₁, hnext⟩ := haccompanies.step hrest (hsafe _ _ _ hr rfl) hst
      exact ⟨w₁, v₁, z₁, hreach'.trans hreach₁, hnext⟩
    | inr hfull =>
      obtain ⟨err, herr, _⟩ := hfull
      subst herr
      cases hst

/-- A new call of `Feed`. -/
theorem Accompanies.restart (h : Accompanies dbType maxBytes done older f w v z) :
    Accompanies dbType maxBytes (done ++ f.statements) (f.before ++ older) ⟨f.core, [], []⟩ w v
      z := by
  obtain ⟨f', hfollows, hstatements, hlimit, hfeed⟩ := h
  have hbuilder : (⟨f.core, [], []⟩ : FeedState).builder (f.before ++ older)
      (done ++ f.statements) = f.builder older done := by
    unfold FeedState.builder builder
    rw [length_append, length_append, length_nil, length_nil]
    congr 1
    omega
  refine ⟨f', hfollows.restart, hstatements, ?_, hfeed⟩
  rw [hbuilder]
  exact hlimit

end Accompanies

/-! ### The end of the file -/

section Flush

variable {dbType : Text} {maxBytes total : ℕ} {done : List Text} {older : Text} {f : FeedState}
  {w : LimitState} {v z p t : Text} {c : UInt8}

/-- What comes of the last statement when its builder has taken the pending bytes. -/
def StreamSplitter.settle (dbType : Text) (s : StreamSplitter) (written : SqlStatementBuilder) :
    Option SQLStatementTooLargeError × List Text :=
  if written.limitErr.isSome then (written.limitErr, [])
  else (none, flushCur dbType { s with cur := written.text, pending := [] })

/-- What a run reports that stands in a state with some bytes pending. -/
def conclude (dbType : Text) (maxBytes total : ℕ) (q : LimitState × Text) :
    Option SQLStatementTooLargeError × List Text :=
  if q.1.limitErr.isSome then (q.1.limitErr, q.1.feed.statements)
  else
    let last := LimitedSplitter.flushStatements dbType maxBytes
      ⟨{ q.1.feed.core with pending := q.2 }, total, q.1.feed.statements.length, none⟩
    (last.1.limitErr, q.1.feed.statements ++ last.2)

theorem StreamSplitter.settle_of_full {s : StreamSplitter} {written : SqlStatementBuilder}
    {err : SQLStatementTooLargeError} (h : written.limitErr = some err) :
    s.settle dbType written = (some err, []) := by
  unfold settle
  rw [h]
  rfl

theorem conclude_of_full {g : LimitState} {y : Text} {err : SQLStatementTooLargeError}
    (h : g.limitErr = some err) :
    conclude dbType maxBytes total (g, y) = (some err, g.feed.statements) := by
  unfold conclude
  rw [h]
  rfl

theorem conclude_of_room {g : LimitState} {y : Text} (h : g.limitErr = none) :
    conclude dbType maxBytes total (g, y) =
      ((LimitedSplitter.flushStatements dbType maxBytes ⟨{ g.feed.core with pending := y }, total,
          g.feed.statements.length, none⟩).1.limitErr,
        g.feed.statements ++ (LimitedSplitter.flushStatements dbType maxBytes
          ⟨{ g.feed.core with pending := y }, total, g.feed.statements.length, none⟩).2) := by
  unfold conclude
  rw [h]
  rfl

variable (dbType maxBytes) in
/-- At the end of the file, pending bytes of a word are written to the last statement. -/
theorem LimitedSplitter.flushStatements_of_part (s : LimitedSplitter) (hroom : s.limitErr = none)
    (hpart : ∀ x ∈ s.splitter.pending, isSQLIdentifierPart x = true)
    (hd : s.splitter.pending ≠ [] →
      s.splitter.delimiterDirective dbType s.splitter.pending = .no)
    (hg : s.splitter.pending ≠ [] → s.splitter.goDirective dbType s.splitter.pending = .no) :
    ((s.flushStatements dbType maxBytes).1.limitErr, (s.flushStatements dbType maxBytes).2) =
      s.splitter.settle dbType ((s.splitter.builder
        (s.inputBytes - s.splitter.pending.length) s.statementIndex).writeString maxBytes
          s.splitter.pending) := by
  unfold LimitedSplitter.flushStatements settle
  by_cases hp : s.splitter.pending = []
  · rw [if_pos hp, hp, SqlStatementBuilder.writeString_nil]
    have hcur : s.splitter.flushCur dbType = flushCur dbType
        { s.splitter with cur := s.splitter.cur, pending := [] } := flushCur_congr rfl rfl rfl
    rw [hcur]
    exact Prod.ext hroom rfl
  rw [if_neg hp]
  obtain ⟨hgo, hdel, hline⟩ := noDirective_of_part hp hpart (hd hp) (hg hp)
  rw [hgo]
  rw [hdel]
  dsimp only
  rw [hline, if_neg Bool.false_ne_true]
  split
  · rfl
  · exact Prod.ext hroom rfl

/-- What a run reports when its builder has taken `x`, and `y` is pending, of the end of a word. -/
theorem conclude_of_word {builder : SqlStatementBuilder} {s : StreamSplitter} {g : LimitState}
    {x y : Text}
    (hlimit : g.limitErr = (builder.writeString maxBytes x).limitErr)
    (hindex : builder.statementIndex = g.feed.statements.length)
    (hroom : g.limitErr = none → g.feed.core.cur = builder.text ++ x ∧
      g.feed.core.preserveSQLServerBatch = s.preserveSQLServerBatch ∧
      g.feed.core.sqlServerGoSeen = s.sqlServerGoSeen ∧
      total = builder.sourceOffset + x.length + y.length ∧
      (∀ d ∈ y, isSQLIdentifierPart d = true) ∧ (y ≠ [] → g.feed.core.InWord dbType)) :
    conclude dbType maxBytes total (g, y) =
      ((s.settle dbType (builder.writeString maxBytes (x ++ y))).1, g.feed.statements ++
        (s.settle dbType (builder.writeString maxBytes (x ++ y))).2) := by
  rw [SqlStatementBuilder.writeString_append]
  cases hfull : g.limitErr with
  | some err =>
    rw [hfull] at hlimit
    rw [conclude_of_full hfull, settle_of_full
      (SqlStatementBuilder.limitErr_writeString_full hlimit.symm), append_nil]
  | none =>
    obtain ⟨hcur, hbatch, hgo, htotal, hpart, hin⟩ := hroom hfull
    rw [hfull] at hlimit
    have hword : y ≠ [] → StreamSplitter.InWord dbType { g.feed.core with pending := y } :=
      fun hy => ⟨(hin hy).mode, (hin hy).last⟩
    have hflush := LimitedSplitter.flushStatements_of_part dbType maxBytes
      ⟨{ g.feed.core with pending := y }, total, g.feed.statements.length, none⟩ rfl hpart
      (fun hy => (hword hy).delimiterDirective) (fun hy => (hword hy).goDirective)
    have hbuilder : StreamSplitter.builder { g.feed.core with pending := y } (total - y.length)
        g.feed.statements.length = builder.writeString maxBytes x := by
      rw [SqlStatementBuilder.writeString_of_none hlimit.symm, htotal, Nat.add_sub_cancel]
      unfold StreamSplitter.builder
      rw [hcur, hindex]
    have hsettle : ∀ written, settle dbType { g.feed.core with pending := y }
        written = s.settle dbType written := by
      intro written
      have hflushCur : flushCur dbType
          { ({ g.feed.core with pending := y } : StreamSplitter) with
            cur := written.text, pending := [] } =
          flushCur dbType { s with cur := written.text, pending := [] } :=
        flushCur_congr rfl hbatch hgo
      unfold settle
      rw [hflushCur]
    rw [hbuilder, hsettle] at hflush
    rw [conclude_of_room hfull, ← hflush]

/-- A run with a limit has written `x` of the bytes of a word, and `y` is left. -/
def WritingWord (dbType : Text) (maxBytes : ℕ) (f : FeedState) (x y : Text) (g : LimitState) :
    Prop :=
  g.limitErr = ((f.builder [] []).writeString maxBytes x).limitErr ∧
    g.feed.statements = f.statements ∧
    (g.limitErr = none → g.feed.core.InWord dbType ∧ g.feed.core.delimiter = [] ∧
      y.all isSQLKeywordByte = true ∧ g.feed.core.cur = f.core.cur ++ x ∧
      g.feed.before = x.reverse ++ f.before ∧
      g.feed.core.preserveSQLServerBatch = f.core.preserveSQLServerBatch ∧
      g.feed.core.sqlServerGoSeen = f.core.sqlServerGoSeen)

theorem WritingWord.step {x : Text} {g g' : LimitState} {t' : Text}
    (h : WritingWord dbType maxBytes f x (c :: t) g)
    (hst : (limitFeeder dbType maxBytes 0 0).step g c t = some (g', t')) :
    ∃ x', x ++ c :: t = x' ++ t' ∧ WritingWord dbType maxBytes f x' t' g' := by
  obtain ⟨hlimit, hstatements, hword⟩ := h
  obtain ⟨g, limitErr⟩ := g
  cases limitErr with
  | some err => cases hst
  | none =>
    obtain ⟨hin, hdelimiter, hall, hcur, hbefore, hbatch, hgo⟩ := hword rfl
    rw [all_cons, Bool.and_eq_true] at hall
    obtain ⟨a, ha⟩ := exists_action hst
    obtain ⟨b, k, rfl⟩ := action_keywordByte hin hdelimiter hall.1 ha
    obtain ⟨u, g₁, hu, hstep, hcore₁, hbefore₁, _, hg₁, hnone⟩ :=
      limitFeeder_keep maxBytes [] [] ha rfl (feeder_step ha)
    rw [length_nil, length_nil] at hstep
    rw [hstep] at hst
    cases hst
    have hcur₁ := congrArg cur hcore₁
    have hbuilder : g.builder [] [] = (f.builder [] []).writeString maxBytes x :=
      FeedState.builder_keep hlimit.symm hcur hbefore hstatements
    refine ⟨x ++ u, by rw [append_assoc, hu], ?_, hg₁.trans hstatements, ?_⟩
    · dsimp only
      rw [hbuilder, SqlStatementBuilder.writeString_append]
    · intro hroom
      obtain rfl := hnone hroom
      have hkept : ∀ d ∈ c :: t.take k, isSQLIdentifierPart d = true := by
        intro d hd
        apply isSQLIdentifierPart_of_keywordByte
        cases mem_cons.mp hd with
        | inl hd => exact hd ▸ hall.1
        | inr hd => exact all_eq_true.mp hall.2 d (mem_of_mem_take hd)
      refine ⟨.of_append hin.mode (cons_ne_nil _ _) hkept rfl, hdelimiter, ?_, ?_, ?_, hbatch,
        hgo⟩
      · exact all_eq_true.mpr fun d hd =>
          all_eq_true.mp hall.2 d (mem_of_mem_drop hd)
      · rw [hcur₁, hcur, append_assoc]
      · rw [hbefore₁, hbefore, reverse_append, append_assoc]

/-- What is reported of a word that ends the file, which the run on the whole text goes into. -/
theorem conclude_of_stopsInWord
    (hdelimiter : f.core.delimiter ≠ [] → isSQLStreamMySQLClientDialect dbType = true)
    (hstop : StopsInWord dbType f.core f.before c t)
    (hact : f.core.action dbType f.before c t ≠ none)
    (htotal : total = f.before.length + (c :: t).length) :
    conclude dbType maxBytes total ((limitFeeder dbType maxBytes 0 0).run ⟨f, none⟩ (c :: t)) =
      ((f.core.settle dbType ((f.builder [] []).writeString maxBytes (c :: t))).1,
        f.statements ++
          (f.core.settle dbType ((f.builder [] []).writeString maxBytes (c :: t))).2) := by
  obtain ⟨a, ha⟩ := ne_none_iff_exists'.mp hact
  have hm := Mode.inCode_of_feedQuoted_pass hstop.atCode.1
  have hcode := ha
  rw [hstop.atCode.action_eq, wordOrCode] at hcode
  have hoffset : (f.builder [] []).sourceOffset = f.before.length := Nat.zero_add _
  have hindex : (f.builder [] []).statementIndex = f.statements.length := Nat.zero_add _
  cases hstop.word with
  | inl hword =>
    obtain ⟨hs, htail⟩ := hword
    rw [if_pos hs] at hcode
    have hrest : t.drop a.extra = [] := by
      unfold word at hcode
      dsimp only at hcode
      split_ifs at hcode
      cases hcode
      rw [htail, drop_length]
    obtain ⟨x, g, hx, hstep, hcore, _, _, hg, hnone⟩ :=
      limitFeeder_keep maxBytes [] [] ha (word_keep hcode) (feeder_step ha)
    rw [hrest, append_nil] at hx
    subst hx
    rw [length_nil, length_nil, hrest] at hstep
    rw [Scanner.run_step hstep, Scanner.run_nil, conclude_of_word (s := f.core) rfl
      (hindex.trans (congrArg List.length hg.symm)), append_nil, hg]
    intro hroom
    obtain rfl := hnone hroom
    have hcur := congrArg cur hcore
    have hbatch := congrArg preserveSQLServerBatch hcore
    have hgo := congrArg sqlServerGoSeen hcore
    refine ⟨hcur, hbatch, hgo, ?_, List.forall_mem_nil _, fun hne => absurd rfl hne⟩
    rw [htotal, hoffset, length_nil]
    rfl
  | inr hdollar =>
    obtain ⟨rfl, hdialect, hall, hhead⟩ := hdollar
    have htag : parseSQLDollarTagAt f.before t = [] ∧
        isIncompleteSQLDollarTagAt f.before t = false := by
      simp [parseSQLDollarTagAt, isIncompleteSQLDollarTagAt, hhead]
    rw [if_neg (by decide), code_part (by decide) (fun h => absurd h (by decide))
      fun _ _ => htag] at hcode
    obtain rfl := some.inj hcode
    have hdel : f.core.delimiter = [] := by
      by_contra hne
      rw [not_mysqlClient_of_dollarQuote hdialect] at hdelimiter
      cases hdelimiter hne
    obtain ⟨x, g, hx, hstep, hcore, hbefore, _, hg, hnone⟩ :=
      limitFeeder_keep maxBytes [] [] ha rfl (feeder_step ha)
    rw [length_nil, length_nil] at hstep
    have hread : x ++ t = [dollar] ++ t := hx.symm
    obtain rfl := append_cancel_right hread
    have hstart : WritingWord dbType maxBytes f [dollar] t
        ⟨g, ((f.builder [] []).writeString maxBytes [dollar]).limitErr⟩ := by
      refine ⟨rfl, hg, ?_⟩
      intro hroom
      obtain rfl := hnone hroom
      exact ⟨.of_append hm (cons_ne_nil dollar []) (by simp; decide) rfl, hdel, hall, rfl,
        hbefore, rfl, rfl⟩
    have hend := Scanner.run_induction (M := limitFeeder dbType maxBytes 0 0)
      (P := fun q y => ∃ x, dollar :: t = x ++ y ∧ WritingWord dbType maxBytes f x y q)
      (s := ⟨g, ((f.builder [] []).writeString maxBytes [dollar]).limitErr⟩) (t := t) ?_
      ⟨[dollar], rfl, hstart⟩
    · rw [Scanner.run_step hstep, drop_zero]
      generalize (limitFeeder dbType maxBytes 0 0).run
        ⟨g, ((f.builder [] []).writeString maxBytes [dollar]).limitErr⟩ t = q at hend ⊢
      obtain ⟨q, y⟩ := q
      obtain ⟨x, htext, hlimit, hstatements, hword⟩ := hend
      rw [conclude_of_word (s := f.core) hlimit (hindex.trans (congrArg List.length
        hstatements.symm)), ← htext, hstatements]
      intro hroom
      obtain ⟨hin, _, hally, hcur, _, hbatch, hgo⟩ := hword hroom
      refine ⟨hcur, hbatch, hgo, ?_, ?_, fun _ => hin⟩
      · rw [htotal, hoffset, htext, length_append, Nat.add_assoc]
      · intro d hd
        exact isSQLIdentifierPart_of_keywordByte (all_eq_true.mp hally d hd)
    · intro q d u q' u' hwriting hst
      obtain ⟨x, htext, hword⟩ := hwriting
      obtain ⟨x', htext', hword'⟩ := hword.step hst
      exact ⟨x', htext.trans htext', hword'⟩

/-- **The end of the file**: both runs report the same, where the run on the chunks has stopped in
front of `p`. -/
theorem Accompanies.flush (h : Accompanies dbType maxBytes done older f w v z) (htext : p = v ++ z)
    (hcut : v = [] ∨ z = [])
    (hstop : ∀ c t, p = c :: t → f.core.action dbType f.before c t = none)
    (htotal : total = (f.before ++ older).length + p.length) {s : LimitedSplitter}
    (hs : s = ⟨{ f.core with pending := p }, total, (done ++ f.statements).length, none⟩) :
    ((s.flushStatements dbType maxBytes).1.limitErr,
        done ++ f.statements ++ (s.flushStatements dbType maxBytes).2) =
      conclude dbType maxBytes total ((limitFeeder dbType maxBytes 0 0).run w z) := by
  have hbuilder : s.splitter.builder (s.inputBytes - s.splitter.pending.length)
      s.statementIndex = f.builder older done := by
    rw [hs, htotal]
    unfold FeedState.builder builder
    rw [Nat.add_sub_cancel, length_append, length_append, Nat.add_comm f.before.length]
  -- where the pending bytes are the end of a word, they are written
  have hwritten : (∀ x ∈ p, isSQLIdentifierPart x = true) →
      (p ≠ [] → f.core.delimiterDirective dbType p = .no) →
      (p ≠ [] → f.core.goDirective dbType p = .no) →
      ((s.flushStatements dbType maxBytes).1.limitErr, (s.flushStatements dbType maxBytes).2) =
        f.core.settle dbType ((f.builder older done).writeString maxBytes p) := by
    intro hpart hd hg
    rw [LimitedSplitter.flushStatements_of_part dbType maxBytes s (by rw [hs])
      (by rw [hs]; exact hpart) (by rw [hs]; exact hd) (by rw [hs]; exact hg), hbuilder, hs]
    rfl
  by_cases hv : v = []
  · subst hv
    obtain ⟨f', hfollows, hw⟩ := h.level
    rw [nil_append] at htext
    subst hw
    subst htext
    have heq := hfollows.eq
    cases p with
    | nil =>
      rw [Scanner.run_nil, conclude_of_room rfl, hs, heq]
    | cons c t =>
      by_cases hact : f'.core.action dbType f'.before c t = none
      · have hstep : (limitFeeder dbType maxBytes 0 0).step ⟨f', none⟩ c t = none := by
          simp only [limitFeeder, isSome_none, Bool.false_eq_true, if_false, hact,
            map_none]
        rw [Scanner.run_stop hstep, conclude_of_room rfl, hs, heq]
      · have hcore : f'.core = f.core := by rw [heq]
        have hnone : f'.core.action dbType f.before c t = none := by
          rw [hcore]
          exact hstop c t rfl
        have hstops : StopsInWord dbType f'.core f'.before c t := stopsInWord hnone hact
        have hbefore : f'.before = f.before ++ older := by rw [heq]
        rw [conclude_of_stopsInWord (by rw [hcore]; exact hfollows.delimiter) hstops hact
          (by rw [hbefore]; exact htotal)]
        have hcode := hstops.atCode
        rw [hcore] at hcode
        rw [hfollows.builder_eq, hcore, ← hwritten hstops.part (fun _ => hcode.2.1)
          (fun _ => hcode.2.2.1), hfollows.statements]
  · obtain ⟨f', hfollows, hstatements, hlimit, hfeed⟩ := h
    obtain rfl := hcut.resolve_left hv
    rw [append_nil] at htext
    subst htext
    have hin := hfollows.inWord hv
    have hpart : ∀ x ∈ p, isSQLIdentifierPart x = true := by
      intro x hx
      have htail := hfollows.tail hv
      rw [append_nil] at htail
      exact wordTail_part f.core.activeDelimiter x (t := p) (by rwa [htail])
    have hwhole := hstatements.trans hfollows.statements
    rw [Scanner.run_nil, conclude_of_word (s := f.core) hlimit ?_ ?_, append_nil,
      ← hwritten hpart (fun _ => hin.delimiterDirective) (fun _ => hin.goDirective), hwhole]
    · rw [hwhole, length_append]
      rfl
    · intro hroom
      rw [hfeed hroom, hfollows.core]
      refine ⟨rfl, rfl, rfl, ?_, List.forall_mem_nil _, fun hne => absurd rfl hne⟩
      rw [htotal, length_append, Nat.add_comm f.before.length]
      rfl

end Flush

/-! ### Chunks -/

section Chunks

variable {dbType : Text} {maxBytes total : ℕ} {done : List Text} {older : Text} {f : FeedState}
  {w : LimitState} {v z : Text}

/-- The loop that counts runs as `Feed` does. -/
theorem limitCutFeeder_run (offset index : ℕ) (later : Text) (s : LimitState) (n : ℕ) (t : Text) :
    (limitFeeder dbType maxBytes offset index).run s t =
      (((limitCutFeeder dbType maxBytes offset index later).run (s, n) t).1.1,
        ((limitCutFeeder dbType maxBytes offset index later).run (s, n) t).2) := by
  refine Scanner.run_image Prod.fst (fun q c u => ?_) (s, n) t
  simp [limitCutFeeder, Function.comp_def]

theorem limitFeeder_length (offset index : ℕ) (s : LimitState) (t : Text) :
    ((limitFeeder dbType maxBytes offset index).run s t).1.feed.before.length +
      ((limitFeeder dbType maxBytes offset index).run s t).2.length =
        s.feed.before.length + t.length := by
  refine Scanner.run_induction (M := limitFeeder dbType maxBytes offset index)
    (P := fun q y => q.feed.before.length + y.length = s.feed.before.length + t.length) ?_ rfl
  intro q c u q' u' hlength hst
  rw [← hlength]
  unfold limitFeeder at hst
  dsimp only at hst
  split at hst
  · cases hst
  · obtain ⟨a, _, ha⟩ := map_eq_some_iff.mp hst
    cases ha
    simp only [length_append, length_reverse, length_cons, length_take,
      length_drop]
    omega

theorem limitFeeder_full {offset index : ℕ} {err : SQLStatementTooLargeError}
    (h : w.limitErr = some err) : (limitFeeder dbType maxBytes offset index).run w z = (w, z) := by
  cases z with
  | nil => exact Scanner.run_nil _
  | cons c t =>
    apply Scanner.run_stop
    simp only [limitFeeder, h, isSome_some, if_true]

theorem LimitedSplitter.feed_of_feedRun {s : LimitedSplitter} {chunk u : Text} {g : LimitState}
    (h : s.feedRun dbType maxBytes chunk = (g, u)) : s.feed dbType maxBytes chunk =
      (⟨{ g.feed.core with pending := if g.limitErr.isSome then [] else u },
        s.inputBytes + chunk.length, s.statementIndex + g.feed.statements.length, g.limitErr⟩,
        g.feed.statements) := by
  unfold feed
  rw [h]

/-- The run on the whole text reports what the run on the chunks reports, from any call of `Feed`
on. -/
theorem accompanies_chunks {chunks : List Text} : ∀ {done : List Text} {older : Text}
    {f : FeedState} {w : LimitState} {v z p : Text} {s : LimitedSplitter},
    CutsHarmlessWithin dbType maxBytes s (f.before ++ older) v.length chunks →
    Accompanies dbType maxBytes done older f w v z → p ++ chunks.flatten = v ++ z →
    (∀ c t, p = c :: t → f.core.action dbType f.before c t = none) →
    s = ⟨{ f.core with pending := p }, (f.before ++ older).length + p.length,
      (done ++ f.statements).length, none⟩ →
    total = (f.before ++ older).length + p.length + chunks.flatten.length →
    ((s.readAll dbType maxBytes chunks).1.limitErr,
        done ++ f.statements ++ (s.readAll dbType maxBytes chunks).2) =
      conclude dbType maxBytes total ((limitFeeder dbType maxBytes 0 0).run w z) := by
  induction chunks with
  | nil =>
    intro done older f w v z p s hharmless h htext hstop hs htotal
    rw [flatten_nil, append_nil] at htext
    have hcut : v = [] ∨ z = [] := by
      cases hharmless with
      | inl h0 => exact .inl (length_eq_zero_iff.mp h0)
      | inr hle =>
        rw [hs] at hle
        rw [htext, length_append] at hle
        exact .inr (length_eq_zero_iff.mp (by omega))
    exact h.flush htext hcut hstop htotal (by rw [hs, htotal]; rfl)
  | cons chunk chunks ih =>
    intro done older f w v z p s hharmless h htext hstop hs htotal
    have hpending : ({ ({ f.core with pending := p } : StreamSplitter) with pending := [] } :
        StreamSplitter) = f.core := by
      obtain ⟨_, hfollows, _⟩ := h
      rw [← hfollows.pending]
    subst hs
    rw [CutsHarmlessWithin] at hharmless
    rw [hpending, Nat.add_sub_cancel] at hharmless
    obtain ⟨hsafe, hnext⟩ := hharmless
    rw [flatten_cons, ← append_assoc] at htext
    have hfeedRun : LimitedSplitter.feedRun dbType maxBytes ⟨{ f.core with pending := p },
        (f.before ++ older).length + p.length, (done ++ f.statements).length, none⟩ chunk =
          (limitFeeder dbType maxBytes (f.before ++ older).length (done ++ f.statements).length).run
            ⟨⟨f.core, [], []⟩, none⟩ (p ++ chunk) := by
      unfold LimitedSplitter.feedRun
      rw [hpending, Nat.add_sub_cancel]
    have hrun := @limitCutFeeder_run dbType maxBytes (f.before ++ older).length
      (done ++ f.statements).length chunks.flatten ⟨⟨f.core, [], []⟩, none⟩ v.length (p ++ chunk)
    have hlength := @limitFeeder_length dbType maxBytes (f.before ++ older).length
      (done ++ f.statements).length ⟨⟨f.core, [], []⟩, none⟩ (p ++ chunk)
    have hstuck := @Scanner.run_stuck _ _ (limitFeeder dbType maxBytes (f.before ++ older).length
      (done ++ f.statements).length) ⟨⟨f.core, [], []⟩, none⟩ (p ++ chunk)
    have hreach := Scanner.run_reach (M := limitCutFeeder dbType maxBytes
      (f.before ++ older).length (done ++ f.statements).length chunks.flatten)
      (⟨⟨f.core, [], []⟩, none⟩, v.length) (p ++ chunk)
    obtain ⟨w₁, v₁, z₁, hreach₁, hstate⟩ := h.restart.reach htext hsafe hreach
    rw [hreach₁.run_eq]
    rw [hrun] at hfeedRun hlength hstuck
    generalize (limitCutFeeder dbType maxBytes (f.before ++ older).length
      (done ++ f.statements).length chunks.flatten).run (⟨⟨f.core, [], []⟩, none⟩, v.length)
        (p ++ chunk) = q at *
    obtain ⟨⟨⟨g, limitErr⟩, n⟩, u⟩ := q
    have hfeed := LimitedSplitter.feed_of_feedRun hfeedRun
    cases hstate with
    | inl hroom =>
      obtain ⟨hnone, haccompanies, hrest, hlen⟩ := hroom
      subst hnone
      rw [LimitedSplitter.readAll_of_room (by rw [hfeed]), hfeed]
      rw [hfeed] at hnext
      subst hlen
      have hstop₁ : ∀ c t, u = c :: t → g.core.action dbType g.before c t = none := by
        intro c t hu
        have hstep := hstuck hu
        exact map_eq_none_iff.mp hstep
      simp only [length_append, length_nil] at hlength
      have hrest' := ih (hnext rfl) haccompanies hrest hstop₁ ?_ ?_
      · rw [← hrest']
        simp only [append_assoc]
      · simp only [length_append]
        congr 1
        omega
      · simp only [htotal, flatten_cons, length_append]
        omega
    | inr hfull =>
      obtain ⟨err, herr, herr', hstatements⟩ := hfull
      subst herr
      rw [LimitedSplitter.readAll_of_full (by rw [hfeed]), hfeed, limitFeeder_full herr',
        conclude_of_full herr', hstatements]

theorem readAll_singleton (s : StreamSplitter) (hpending : s.pending = []) (text : Text) :
    let p := LimitedSplitter.readAll dbType maxBytes ⟨s, 0, 0, none⟩ [text]
    (p.1.limitErr, p.2) = conclude dbType maxBytes text.length
      ((limitFeeder dbType maxBytes 0 0).run ⟨⟨s, [], []⟩, none⟩ text) := by
  intro p
  have hfeedRun : LimitedSplitter.feedRun dbType maxBytes ⟨s, 0, 0, none⟩ text =
      (limitFeeder dbType maxBytes 0 0).run ⟨⟨s, [], []⟩, none⟩ text := by
    have hsplitter : ({ s with pending := [] } : StreamSplitter) = s := by rw [← hpending]
    unfold LimitedSplitter.feedRun
    rw [hsplitter, hpending]
    rfl
  generalize (limitFeeder dbType maxBytes 0 0).run ⟨⟨s, [], []⟩, none⟩ text = q at hfeedRun ⊢
  obtain ⟨⟨g, limitErr⟩, u⟩ := q
  have hfeed := LimitedSplitter.feed_of_feedRun hfeedRun
  cases limitErr with
  | some err =>
    have hp : p = _ := LimitedSplitter.readAll_of_full (by rw [hfeed])
    rw [conclude_of_full rfl, hp, hfeed]
  | none =>
    have hp : p = _ := LimitedSplitter.readAll_of_room (by rw [hfeed])
    rw [conclude_of_room rfl, hp, hfeed]
    rw [Nat.zero_add, Nat.zero_add]
    rfl

/-- **Chunks do not matter to the limit**, as long as no cut does. -/
theorem readAll_chunks {s : StreamSplitter} (hs : s = .initial s.preserveSQLServerBatch)
    {chunks : List Text}
    (hharmless : CutsHarmlessWithin dbType maxBytes ⟨s, 0, 0, none⟩ [] 0 chunks) :
    let p := LimitedSplitter.readAll dbType maxBytes ⟨s, 0, 0, none⟩ chunks
    let q := LimitedSplitter.readAll dbType maxBytes ⟨s, 0, 0, none⟩ [chunks.flatten]
    (p.1.limitErr, p.2) = (q.1.limitErr, q.2) := by
  intro p q
  have hpending : s.pending = [] := by
    rw [hs]
    rfl
  have hdelimiter : s.delimiter = [] := by
    rw [hs]
    rfl
  have htag : s.mode.dollarTag = [] := by
    rw [hs]
    rfl
  have hfollows : Follows dbType [] [] ⟨s, [], []⟩ ⟨s, [], []⟩ [] chunks.flatten :=
    ⟨by rw [append_nil], rfl, rfl, hpending, fun h => absurd htag h,
      fun h => absurd hdelimiter h, fun h => absurd rfl h, fun h => absurd rfl h,
      fun h => absurd rfl h, fun h => absurd rfl h⟩
  have haccompanies : Accompanies dbType maxBytes [] [] ⟨s, [], []⟩ ⟨⟨s, [], []⟩, none⟩ []
      chunks.flatten := by
    refine ⟨_, hfollows, rfl, ?_, fun _ => rfl⟩
    rw [SqlStatementBuilder.writeString_nil]
    rfl
  have hstart : (⟨s, 0, 0, none⟩ : LimitedSplitter) = ⟨{ s with pending := [] }, 0, 0, none⟩ := by
    rw [← hpending]
  have htotal : chunks.flatten.length = (([] : Text) ++ []).length + ([] : Text).length +
      chunks.flatten.length := by simp
  have hchunks := accompanies_chunks hharmless haccompanies rfl nofun hstart htotal
  rw [← readAll_singleton s hpending] at hchunks
  exact hchunks

end Chunks

/-! ### Main result -/

/-- No cut matters that the reader of a file makes. -/
def FileCutsHarmless (dbType : Text) (maxBytes : ℕ) (chunks : List Text) : Prop :=
  CutsHarmlessWithin (normalizeSQLClassifierDBType dbType) maxBytes (fileSplitter dbType) [] 0
    chunks

instance (dbType : Text) (maxBytes : ℕ) (chunks : List Text) :
    Decidable (FileCutsHarmless dbType maxBytes chunks) :=
  decidableCutsHarmlessWithin _ _ _ _ _ _

theorem readFile_chunks {dbType : Text} {maxBytes : ℕ} {chunks : List Text}
    (h : FileCutsHarmless dbType maxBytes chunks) :
    ((readFile dbType maxBytes chunks).1.limitErr, (readFile dbType maxBytes chunks).2) =
      ((readFile dbType maxBytes [chunks.flatten]).1.limitErr,
        (readFile dbType maxBytes [chunks.flatten]).2) := by
  unfold FileCutsHarmless at h
  unfold readFile
  unfold fileSplitter LimitedSplitter.initial at h ⊢
  generalize normalizeSQLClassifierDBType dbType = dialect at h ⊢
  generalize isSQLServerLexical dialect = batch at h ⊢
  exact readAll_chunks rfl h

end GoNavi.Sql
