import GoNavi.Sql.Limit

/-! # Statements within the limit

What a splitter with a limit completes is within the limit, and when its builder is full, the error
names the first byte of the file that the builder did not take (`readFile_reports`). -/

namespace GoNavi.Sql

open Scan List

/-! ### Lengths -/

theorem length_trimSpace_le (t : Text) : (trimSpace t).length ≤ t.length := by
  obtain ⟨v, w, _, _, ht⟩ := trimSpace_spec t
  have hlength := congrArg List.length ht
  rw [length_append, length_append] at hlength
  omega

theorem length_of_mem_piece {dbType cur x : Text} (h : x ∈ Splitter.piece dbType cur) :
    x.length ≤ cur.length := by
  unfold Splitter.piece at h
  dsimp only at h
  split at h
  · rw [mem_singleton.mp h]
    exact length_trimSpace_le cur
  · cases h

/-- The statements of a text are no longer than the part of it that has been read. -/
theorem Segmented.length_le {dbType text before t : Text} {ss : List Text}
    (h : Segmented dbType text before t ss) : ∀ x ∈ ss, x.length ≤ before.length := by
  induction h with
  | start => nofun
  | gap _ _ ih =>
    intro x hx
    have hle := ih x hx
    rw [length_append]
    omega
  | @statement before s t ss _ ih =>
    intro x hx
    rw [length_append, length_reverse]
    cases mem_append.mp hx with
    | inl hx =>
      have hle := ih x hx
      omega
    | inr hx =>
      rw [mem_singleton.mp hx]
      omega

theorem length_normalizeLineEnds_le : ∀ t : Text, (normalizeLineEnds t).length ≤ t.length
  | [] => le_rfl
  | [_] => le_rfl
  | c :: d :: t => by
    have htail := length_normalizeLineEnds_le t
    have hnext := length_normalizeLineEnds_le (d :: t)
    rw [normalizeLineEnds]
    split
    · simp only [length_cons]
      omega
    · rw [length_cons, length_cons]
      omega

theorem length_of_mem_splitSQLStatementsForDialect {dbType sql x : Text}
    (h : x ∈ splitSQLStatementsForDialect dbType sql) : x.length ≤ sql.length := by
  have hle := (splitSQLStatementsForDialect_segmented dbType sql).length_le x h
  rw [length_reverse] at hle
  exact hle.trans (length_normalizeLineEnds_le sql)

/-! ### Steps -/

section bounded

variable {dbType : Text} {maxBytes : ℕ} {s : StreamSplitter} {builder : SqlStatementBuilder}
  {a : StreamAction} {taken : Text}

/-- The statement under construction and those of the batch are within the limit. -/
structure StreamSplitter.Bounded (maxBytes : ℕ) (s : StreamSplitter) : Prop where
  cur : s.cur.length ≤ maxBytes
  batch : ∀ x ∈ s.sqlServerBatch, x.length ≤ maxBytes

/-- Statements within the limit. -/
def AllWithin (maxBytes : ℕ) (statements : List Text) : Prop :=
  ∀ x ∈ statements, x.length ≤ maxBytes

theorem AllWithin.append {statements statements' : List Text} (h : AllWithin maxBytes statements)
    (h' : AllWithin maxBytes statements') : AllWithin maxBytes (statements ++ statements') := by
  intro x hx
  cases mem_append.mp hx with
  | inl hx => exact h x hx
  | inr hx => exact h' x hx

theorem allWithin_piece {cur : Text} (h : cur.length ≤ maxBytes) :
    AllWithin maxBytes (Splitter.piece dbType cur) :=
  fun _ hx => (length_of_mem_piece hx).trans h

namespace StreamSplitter.Bounded

theorem batchAfter (h : s.Bounded maxBytes) {completed : List Text}
    (hcompleted : AllWithin maxBytes completed) :
    AllWithin maxBytes (s.batchAfter dbType completed) := by
  unfold StreamSplitter.batchAfter
  split
  · exact .append h.batch hcompleted
  · exact h.batch

/-- What a `GO` line completes. -/
theorem goStatements (h : s.Bounded maxBytes) (times : ℕ) :
    AllWithin maxBytes (Splitter.piece dbType s.cur ++ (List.replicate times
      (s.batchAfter dbType (Splitter.piece dbType s.cur))).flatten) := by
  apply AllWithin.append (allWithin_piece h.cur)
  intro x hx
  obtain ⟨batch, hbatch, hx⟩ := mem_flatten.mp hx
  rw [eq_of_mem_replicate hbatch] at hx
  exact h.batchAfter (allWithin_piece h.cur) x hx

theorem apply (h : s.Bounded maxBytes) (ha : a.effect ≠ .keep) (ha' : a.effect ≠ .keepPush) :
    (s.apply dbType a taken).1.cur = [] ∧ (s.apply dbType a taken).1.Bounded maxBytes ∧
      AllWithin maxBytes (s.apply dbType a taken).2 := by
  unfold StreamSplitter.apply
  cases heffect : a.effect with
  | keep => exact absurd heffect ha
  | keepPush => exact absurd heffect ha'
  | push =>
    exact ⟨rfl, ⟨Nat.zero_le _, h.batchAfter (allWithin_piece h.cur)⟩, allWithin_piece h.cur⟩
  | setDelimiter delimiter => exact ⟨rfl, ⟨Nat.zero_le _, h.batch⟩, nofun⟩
  | go times => exact ⟨rfl, ⟨Nat.zero_le _, nofun⟩, h.goStatements (times - 1)⟩

/-- **An action keeps the limit.** -/
theorem applyLimited (h : s.Bounded maxBytes) (hpos : 0 < maxBytes)
    (hbuilder : builder.text = s.cur) :
    (s.applyLimited dbType maxBytes builder a taken).1.1.Bounded maxBytes ∧
      AllWithin maxBytes (s.applyLimited dbType maxBytes builder a taken).1.2 := by
  have hwritten : (builder.writeString maxBytes taken).text.length ≤ maxBytes :=
    SqlStatementBuilder.length_writeString (by rw [hbuilder]; exact h.cur) hpos
  unfold StreamSplitter.applyLimited
  split
  · exact ⟨⟨hwritten, h.batch⟩, nofun⟩
  · exact ⟨⟨Nat.zero_le _, h.batchAfter (allWithin_piece hwritten)⟩, allWithin_piece hwritten⟩
  · rename_i hkeep hkeepPush
    exact (h.apply hkeep hkeepPush).2

end StreamSplitter.Bounded

end bounded

/-! ### Where the builder is full -/

section located

variable {dbType source later : Text} {maxBytes offset index : ℕ}

/-- **The builder is full**: it holds as many bytes as it may, and the error names the offset of
the byte of the source behind them. -/
def FullBuilder (source : Text) (maxBytes : ℕ) (cur : Text) (index : ℕ)
    (err : SQLStatementTooLargeError) : Prop :=
  ∃ read b rest, source = read ++ (cur ++ b :: rest) ∧ cur.length = maxBytes ∧
    err = ⟨index, (read ++ cur).length + 1, maxBytes⟩

/-- The statement under construction is the end of what has been read. -/
def LimitState.Located (source later : Text) (maxBytes offset index : ℕ) (s : LimitState)
    (t : Text) : Prop :=
  match s.limitErr with
  | none => ∃ read, source = read ++ (s.feed.core.cur ++ (t ++ later)) ∧
      offset + s.feed.before.length = (read ++ s.feed.core.cur).length
  | some err => FullBuilder source maxBytes s.feed.core.cur (index + s.feed.statements.length) err

/-- Everything is within the limit. -/
structure LimitState.Bounded (maxBytes : ℕ) (s : LimitState) : Prop where
  core : s.feed.core.Bounded maxBytes
  statements : AllWithin maxBytes s.feed.statements

/-- The invariant of the loop of `Feed`. -/
structure LimitState.Sound (source later : Text) (maxBytes offset index : ℕ) (s : LimitState)
    (t : Text) : Prop where
  bounded : 0 < maxBytes → s.Bounded maxBytes
  located : s.Located source later maxBytes offset index t

theorem LimitState.Bounded.step {s s' : LimitState} {c : UInt8} {t t' : Text}
    (h : s.Bounded maxBytes) (hpos : 0 < maxBytes)
    (hstep : (limitFeeder dbType maxBytes offset index).step s c t = some (s', t')) :
    s'.Bounded maxBytes := by
  unfold limitFeeder at hstep
  dsimp only at hstep
  split at hstep
  · cases hstep
  · obtain ⟨a, _, ha⟩ := Option.map_eq_some_iff.mp hstep
    cases ha
    obtain ⟨hcore, hstatements⟩ : (s.feed.core.applyLimited dbType maxBytes
        (s.feed.core.builder (offset + s.feed.before.length) (index + s.feed.statements.length)) a
          (c :: t.take a.extra)).1.1.Bounded maxBytes ∧ _ := h.core.applyLimited hpos rfl
    exact ⟨hcore, .append h.statements hstatements⟩

/-- **A step of `Feed` keeps the place**: what it keeps stands behind the statement under
construction, and the statement begins anew behind what it completes. -/
theorem LimitState.Located.step {s s' : LimitState} {c : UInt8} {t t' : Text}
    (h : s.Located source later maxBytes offset index (c :: t))
    (hfits : 0 < maxBytes → s.feed.core.cur.length ≤ maxBytes)
    (hstep : (limitFeeder dbType maxBytes offset index).step s c t = some (s', t')) :
    s'.Located source later maxBytes offset index t' := by
  unfold limitFeeder at hstep
  dsimp only at hstep
  split at hstep
  · cases hstep
  rename_i hroom
  rw [Option.not_isSome_iff_eq_none] at hroom
  unfold LimitState.Located at h
  rw [hroom] at h
  obtain ⟨read, hsource, hoffset⟩ := h
  obtain ⟨a, _, ha⟩ := Option.map_eq_some_iff.mp hstep
  have htaken : c :: t = (c :: t.take a.extra) ++ t.drop a.extra := by
    rw [cons_append, take_append_drop]
  rw [htaken] at hsource
  cases ha
  generalize hbuilder : s.feed.core.builder (offset + s.feed.before.length)
    (index + s.feed.statements.length) = builder
  generalize c :: t.take a.extra = taken at hsource ⊢
  generalize t.drop a.extra = rest at hsource ⊢
  have htext : builder.text = s.feed.core.cur := by rw [← hbuilder]; rfl
  have hread : ∀ cur : Text, cur = s.feed.core.cur ++ taken →
      source = read ++ (cur ++ (rest ++ later)) ∧
        offset + (taken.reverse ++ s.feed.before).length = (read ++ cur).length := by
    intro cur hcur
    subst hcur
    constructor
    · rw [hsource]
      simp only [append_assoc]
    · simp only [length_append, length_reverse] at hoffset ⊢
      omega
  have hfresh : ∀ s' : StreamSplitter, s'.cur = [] → ∀ statements, LimitState.Located source later
      maxBytes offset index ⟨⟨s', taken.reverse ++ s.feed.before, statements⟩, none⟩ rest := by
    intro s' hcur statements
    obtain ⟨hsource', hoffset'⟩ := hread _ rfl
    refine ⟨read ++ (s.feed.core.cur ++ taken), ?_, ?_⟩
    · dsimp only
      rw [hcur, nil_append, append_assoc]
      exact hsource'
    · dsimp only
      rw [hcur, append_nil]
      exact hoffset'
  unfold StreamSplitter.applyLimited
  dsimp only
  split
  · cases hfull : (builder.writeString maxBytes taken).limitErr with
    | none =>
      have hwritten := SqlStatementBuilder.writeString_of_none hfull
      refine ⟨read, ?_⟩
      apply hread
      rw [hwritten, htext]
    | some err =>
      obtain ⟨y, b, z, hy, hcur, hlength, herr⟩ := SqlStatementBuilder.writeString_of_some
        (by rw [← hbuilder]; rfl) (by rw [htext]; exact hfits) hfull
      refine ⟨read, b, z ++ (rest ++ later), ?_, ?_, ?_⟩
      · dsimp only
        rw [hsource, hcur, htext, hy]
        simp only [append_assoc, cons_append]
      · dsimp only
        rw [hcur, hlength]
      · dsimp only
        rw [herr, hcur, htext, ← hbuilder]
        dsimp only [StreamSplitter.builder]
        rw [hoffset]
        simp only [length_append, append_nil, Nat.add_assoc]
  · exact hfresh _ rfl _
  · rename_i hkeep hkeepPush
    apply hfresh
    unfold StreamSplitter.apply
    cases heffect : a.effect with
    | keep => exact absurd heffect hkeep
    | keepPush => exact absurd heffect hkeepPush
    | push => rfl
    | setDelimiter => rfl
    | go => rfl

theorem LimitState.Sound.step {s s' : LimitState} {c : UInt8} {t t' : Text}
    (h : s.Sound source later maxBytes offset index (c :: t))
    (hstep : (limitFeeder dbType maxBytes offset index).step s c t = some (s', t')) :
    s'.Sound source later maxBytes offset index t' where
  bounded hpos := (h.bounded hpos).step hpos hstep
  located := h.located.step (fun hpos => (h.bounded hpos).core.cur) hstep

end located

/-! ### Files -/

namespace LimitedSplitter

variable {dbType source later chunk : Text} {maxBytes : ℕ} {s : LimitedSplitter}

/-- Where a splitter stands between two calls. -/
structure Stands (source later : Text) (maxBytes : ℕ) (s : LimitedSplitter) : Prop where
  bounded : 0 < maxBytes → s.splitter.Bounded maxBytes
  located : ∃ read, source = read ++ (s.splitter.cur ++ (s.splitter.pending ++ later)) ∧
    s.inputBytes = (read ++ s.splitter.cur).length + s.splitter.pending.length

/-- What the splitter has completed, from an index on, is within the limit, and when its builder
is full the error says where. -/
structure Reports (source : Text) (maxBytes index : ℕ) (p : LimitedSplitter × List Text) :
    Prop where
  bounded : 0 < maxBytes → AllWithin maxBytes p.2
  full : ∀ err, p.1.limitErr = some err →
    FullBuilder source maxBytes p.1.splitter.cur (index + p.2.length) err

/-- **A call of `Feed`.** -/
theorem Stands.feed (h : s.Stands source (chunk ++ later) maxBytes) :
    Reports source maxBytes s.statementIndex (s.feed dbType maxBytes chunk) ∧
      (s.feed dbType maxBytes chunk).1.statementIndex =
        s.statementIndex + (s.feed dbType maxBytes chunk).2.length ∧
      ((s.feed dbType maxBytes chunk).1.limitErr = none →
        (s.feed dbType maxBytes chunk).1.Stands source later maxBytes) := by
  obtain ⟨read, hsource, hinput⟩ := h.located
  have hstart : LimitState.Sound source later maxBytes
      (s.inputBytes - s.splitter.pending.length) s.statementIndex
      ⟨⟨{ s.splitter with pending := [] }, [], []⟩, none⟩ (s.splitter.pending ++ chunk) := by
    refine ⟨fun hpos => ⟨⟨(h.bounded hpos).cur, (h.bounded hpos).batch⟩, nofun⟩, read, ?_, ?_⟩
    · rw [hsource]
      simp only [append_assoc]
    · dsimp only
      rw [hinput, Nat.add_sub_cancel]
      rfl
  have hend : (s.feedRun dbType maxBytes chunk).1.Sound source later maxBytes
      (s.inputBytes - s.splitter.pending.length) s.statementIndex
      (s.feedRun dbType maxBytes chunk).2 :=
    Scanner.run_induction (fun hsound hstep => hsound.step hstep) hstart
  have hlocated := hend.located
  unfold LimitState.Located at hlocated
  refine ⟨⟨fun hpos => (hend.bounded hpos).statements, ?_⟩, rfl, ?_⟩
  · intro err herr
    have hfull : (s.feedRun dbType maxBytes chunk).1.limitErr = some err := herr
    rw [hfull] at hlocated
    exact hlocated
  · intro hnone
    have hroom : (s.feedRun dbType maxBytes chunk).1.limitErr = none := hnone
    rw [hroom] at hlocated
    obtain ⟨read', hsource', _⟩ := hlocated
    have hpending : (s.feed dbType maxBytes chunk).1.splitter.pending =
        (s.feedRun dbType maxBytes chunk).2 := by
      unfold LimitedSplitter.feed
      dsimp only
      rw [hroom]
      rfl
    refine ⟨fun hpos => ⟨(hend.bounded hpos).core.cur, (hend.bounded hpos).core.batch⟩, read',
      ?_, ?_⟩
    · rw [hpending]
      exact hsource'
    · rw [hpending]
      show s.inputBytes + chunk.length =
        (read' ++ (s.feedRun dbType maxBytes chunk).1.feed.core.cur).length + _
      have hlength := congrArg List.length (hsource.symm.trans hsource')
      simp only [length_append] at hlength hinput ⊢
      omega

/-- A `flushStatements` that completes statements. -/
theorem reports_complete {index : ℕ} {statements : List Text} (hroom : s.limitErr = none)
    (hbounded : 0 < maxBytes → AllWithin maxBytes statements) :
    Reports source maxBytes index (s.complete statements) where
  bounded := hbounded
  full := by
    intro err herr
    have hfull : s.limitErr = some err := herr
    rw [hroom] at hfull
    cases hfull

theorem allWithin_flushCur {splitter : StreamSplitter} (h : splitter.cur.length ≤ maxBytes) :
    AllWithin maxBytes (splitter.flushCur dbType) := by
  unfold StreamSplitter.flushCur
  split
  · intro x hx
    exact (length_of_mem_splitSQLStatementsForDialect hx).trans
      ((length_trimSpace_le _).trans h)
  · intro x hx
    exact allWithin_piece h x (mem_filter.mp hx).1

/-- **The end of the file.** -/
theorem Stands.flushStatements (h : s.Stands source [] maxBytes) (hroom : s.limitErr = none) :
    Reports source maxBytes s.statementIndex (s.flushStatements dbType maxBytes) := by
  unfold LimitedSplitter.flushStatements
  dsimp only
  split
  · exact reports_complete hroom fun hpos => allWithin_flushCur (h.bounded hpos).cur
  split
  · rename_i times _ _
    exact reports_complete hroom fun hpos => (h.bounded hpos).goStatements (times - 1)
  split
  · exact reports_complete hroom fun _ => nofun
  split
  · exact reports_complete hroom fun hpos => allWithin_piece (h.bounded hpos).cur
  obtain ⟨read, hsource, hinput⟩ := h.located
  split
  · rename_i hfull
    refine ⟨fun _ => nofun, ?_⟩
    intro err herr
    obtain ⟨y, b, z, hy, hcur, hlength, herr⟩ := SqlStatementBuilder.writeString_of_some rfl
      (fun hpos => (h.bounded hpos).cur) herr
    refine ⟨read, b, z, ?_, ?_, ?_⟩
    · dsimp only
      rw [hsource, hcur, append_nil, hy]
      simp only [StreamSplitter.builder, append_assoc]
    · dsimp only
      rw [hcur, hlength]
    · dsimp only
      rw [herr, hcur]
      dsimp only [StreamSplitter.builder]
      rw [hinput, Nat.add_sub_cancel]
      simp only [length_append, length_nil, Nat.add_assoc, Nat.add_zero]
  · refine reports_complete hroom fun hpos => allWithin_flushCur ?_
    exact SqlStatementBuilder.length_writeString (h.bounded hpos).cur hpos

/-- **A whole file.** -/
theorem Stands.readAll {chunks : List Text} (h : s.Stands source chunks.flatten maxBytes)
    (hroom : s.limitErr = none) :
    Reports source maxBytes s.statementIndex (s.readAll dbType maxBytes chunks) := by
  induction chunks generalizing s with
  | nil => exact h.flushStatements hroom
  | cons chunk chunks ih =>
    have hreports : Reports source maxBytes s.statementIndex (s.feed dbType maxBytes chunk) :=
      h.feed.1
    obtain ⟨hindex, hnext⟩ := h.feed.2
    cases hfull : (s.feed dbType maxBytes chunk).1.limitErr with
    | some err =>
      rw [readAll_of_full hfull]
      exact hreports
    | none =>
      rw [readAll_of_room hfull]
      have hrest := ih (hnext hfull) hfull
      refine ⟨fun hpos => .append (hreports.bounded hpos) (hrest.bounded hpos), ?_⟩
      intro err herr
      have hlast := hrest.full err herr
      rw [hindex, Nat.add_assoc, ← length_append] at hlast
      exact hlast

end LimitedSplitter

/-- **The statements of a file are within the limit**, and an error stands behind them. -/
theorem readFile_reports (dbType : Text) (maxBytes : ℕ) (chunks : List Text) :
    LimitedSplitter.Reports chunks.flatten maxBytes 0 (readFile dbType maxBytes chunks) := by
  have hstart : (fileSplitter dbType).Stands chunks.flatten chunks.flatten maxBytes :=
    ⟨fun _ => ⟨Nat.zero_le _, nofun⟩, [], rfl, rfl⟩
  exact hstart.readAll rfl

end GoNavi.Sql
