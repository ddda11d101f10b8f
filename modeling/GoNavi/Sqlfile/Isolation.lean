import GoNavi.Sqlfile.Counted

/-! # Batches that fail

**A statement that runs alone goes as it does in a plain run** (`executeSingle_goes`), and so do
the statements of a batch, also of one that fails and is split (`isolateFailedBatch_goes`,
`flushBatch_goes`). -/

namespace GoNavi.Sqlfile

open Scan GoNavi.Sql List

variable {S : Type} {server : FileServer S} {o : StreamOptions} {texts : TransactionSQL}
  {step : S → Text → S × Bool} {pre : Prop}

/-! ### One statement -/

theorem recordError_executed (s : FileRun S) (item : PendingStatement) :
    (s.recordError item).result.executed = s.result.executed :=
  (appendErrorDetail_counts { s.result with failed := s.result.failed + 1 } _).1

theorem recordError_outcomeUnknown (s : FileRun S) (item : PendingStatement) :
    (s.recordError item).result.outcomeUnknown = s.result.outcomeUnknown :=
  (appendErrorDetail_counts { s.result with failed := s.result.failed + 1 } _).2.2

theorem Halted.of_unknown {t : Tally S} {s : FileRun S}
    (hexecuted : s.result.executed = t.done.length) (hlog : KnownUpToLast s.log)
    (hunknown : s.result.outcomeUnknown = true) : Halted t s :=
  ⟨hexecuted, fun h => absurd (hunknown.symm.trans h) (by decide), hlog, fun _ => hunknown⟩

theorem Counted.beforeSingle {t : Tally S} {s : FileRun S} (h : Counted t s)
    (item : PendingStatement) : Counted t (beforeSingle o item s) := by
  unfold Sqlfile.beforeSingle
  split
  · exact { h with }
  · exact h

theorem failSingle_unknown (texts : TransactionSQL) (server : FileServer S)
    (item : PendingStatement) (s : FileRun S) :
    ∃ s' e, failSingle o item true s = (s', some e) ∧ s'.starts = s.starts ∧
      s'.log = s.log ∧ s'.result.executed = s.result.executed ∧
        s'.result.outcomeUnknown = true ∧ Explained server o texts s' e := by
  unfold failSingle FileRun.markIf
  rw [Bool.true_or, if_pos rfl]
  by_cases hcancelled : o.cancelled s.markUnknown.checks = true
  · rw [if_pos hcancelled]
    exact ⟨_, _, rfl, rfl, rfl, rfl, rfl, .cancelled hcancelled⟩
  · rw [if_neg hcancelled, Bool.true_or, if_pos rfl]
    have hunknown := recordError_outcomeUnknown s.markUnknown.tick item
    exact ⟨_, _, rfl, rfl, rfl, recordError_executed _ item, hunknown, .onError (.inr hunknown)⟩

theorem Counted.markIf_at {t : Tally S} {s : FileRun S} {x : S}
    (h : Counted t { s with session := x }) (unknown : Bool) :
    Counted t { s.markIf unknown with session := x } := by
  unfold FileRun.markIf
  split
  · exact { h with }
  · exact h

theorem markIf_starts (unknown : Bool) (s : FileRun S) :
    (s.markIf unknown).starts = s.starts := by
  unfold FileRun.markIf
  split <;> rfl

theorem markIf_batch (unknown : Bool) (s : FileRun S) : (s.markIf unknown).batch = s.batch := by
  unfold FileRun.markIf
  split <;> rfl

theorem markIf_session (unknown : Bool) (s : FileRun S) :
    (s.markIf unknown).session = s.session := by
  unfold FileRun.markIf
  split <;> rfl

/-- An error of a statement that changed nothing in the run that is counted but the session. -/
theorem failSingle_goes {item : PendingStatement} {s s' : FileRun S}
    (hstarts : s'.starts = s.starts) (hbatch : s'.batch = s.batch)
    (h : ∀ t, Counted t s → Counted t { s' with session := s.session } ∧
      step t.state item.sql = (s'.session, false)) :
    Goes server o texts step pre [item] s (failSingle o item false s') := by
  unfold failSingle
  rw [Bool.false_or, Bool.false_or]
  generalize sqlFileStatementFinishesTransaction item.sql = unknown
  have hcounted : ∀ t, Counted t s →
      Counted (t.next step item) ((s'.markIf unknown).tick.recordError item) := by
    intro t ht
    obtain ⟨hrun, hstep⟩ := h t ht
    refine Counted.recordError (hrun.markIf_at unknown).tick ?_
    show step t.state item.sql = ((s'.markIf unknown).session, false)
    rw [markIf_session]
    exact hstep
  have hsub : s.starts ⊆ (s'.markIf unknown).starts := by
    rw [markIf_starts, hstarts]
    exact List.Subset.refl _
  by_cases hcancelled : o.cancelled (s'.markIf unknown).checks = true
  · rw [if_pos hcancelled]
    refine Goes.stop hsub ?_
    intro _ _ _ t ht
    have hrun := (h t ht).1.markIf_at unknown
    exact ⟨.of_unknown hrun.executed hrun.known.upToLast rfl, .cancelled hcancelled⟩
  · rw [if_neg hcancelled]
    by_cases hgo : o.continueOnError = true
    · rw [if_neg (by simp [hgo])]
      exact .go_on hsub ((markIf_batch unknown s').trans hbatch) (fun _ _ _ => hcounted)
    · rw [if_pos (by simp [hgo])]
      exact .stop_behind hsub (.onError (.inl (by simpa using hgo))) (fun _ _ _ => hcounted)

theorem beforeSingle_starts (item : PendingStatement) (s : FileRun S) :
    (beforeSingle o item s).starts = s.starts := by
  unfold beforeSingle
  split <;> rfl

theorem beforeSingle_batch (item : PendingStatement) (s : FileRun S) :
    (beforeSingle o item s).batch = s.batch := by
  unfold beforeSingle
  split <;> rfl

/-- A call of the driver with one statement: it is made, or cancelled before. -/
theorem execSQLFileStatement_item (server : FileServer S) (o : StreamOptions)
    (item : PendingStatement) (s : FileRun S) : ∃ session r log sent,
      execSQLFileStatement server o [item] item.sql s =
        ({ s.moved session (s.checks + 1) log with sent }, r) ∧
      (server.exec s.session item.sql = (session, r) ∧ log = s.log ++ [([item], r)] ∧
          sent = s.sent ++ [(s.session, item.sql)] ∨
        r = .error true ∧ log = s.log ∧ sent = s.sent) := by
  unfold execSQLFileStatement
  by_cases hcancelled : o.cancelled s.checks = true
  · rw [if_pos hcancelled]
    exact ⟨s.session, .error true, s.log, s.sent, rfl, .inr ⟨rfl, rfl, rfl⟩⟩
  · rw [if_neg hcancelled]
    exact ⟨_, _, s.log ++ [([item], _)], _, rfl, .inl ⟨rfl, rfl, rfl⟩⟩

theorem executeSingle_goes (hlaw : StatementLaw server step) (item : PendingStatement)
    (s : FileRun S) : Goes server o texts step pre [item] s (executeSingle server o item s).1 := by
  have hbefore : Goes server o texts step pre [item] (beforeSingle o item s)
      (executeSingle server o item s).1 := by
    unfold executeSingle
    generalize beforeSingle o item s = s
    by_cases hcancelled : o.cancelled s.checks = true
    · rw [if_pos hcancelled]
      exact .stop (List.Subset.refl _) (fun _ _ _ t ht => ⟨ht.tick.halted, .cancelled hcancelled⟩)
    · rw [if_neg hcancelled]
      obtain ⟨session, r, log, sent, hrun, hmade⟩ := execSQLFileStatement_item server o item s.tick
      rw [hrun]
      cases r with
      | error unknown =>
        cases unknown with
        | true =>
          obtain ⟨s', e, hfail, hstarts, hlog, hexecuted, hunknown, hwhy⟩ :=
            failSingle_unknown (o := o) texts server item
              { s.tick.moved session (s.tick.checks + 1) log with sent }
          dsimp only
          rw [hfail]
          refine .stop (hstarts ▸ List.Subset.refl _) (fun _ _ _ t ht => ?_)
          refine ⟨.of_unknown (hexecuted.trans ht.executed) ?_ hunknown, hwhy⟩
          rw [hlog]
          show KnownUpToLast log
          rcases hmade with ⟨_, rfl, _⟩ | ⟨_, rfl, _⟩
          · exact ht.known.append_upToLast _
          · exact ht.known.upToLast
        | false =>
          rcases hmade with ⟨hexec, rfl, _⟩ | ⟨hreply, _⟩
          · refine failSingle_goes rfl rfl (fun t ht => ⟨?_, ?_⟩)
            · exact ⟨ht.session, ht.executed, ht.failed, ht.errors, ht.known.append (by simp)⟩
            · rw [← ht.session]
              exact hlaw.error _ _ _ hexec
          · cases hreply
      | ok =>
        rcases hmade with ⟨hexec, rfl, _⟩ | ⟨hreply, _⟩
        · refine .go_on (List.Subset.refl _) rfl (fun _ _ _ t ht => ?_)
          have hstep : step t.state item.sql = (session, true) := by
            rw [← ht.session]
            exact hlaw.ok _ _ _ hexec
          show Counted ([item].foldl (Tally.next step) t) (FileRun.countExecuted _ [item].length)
          refine Counted.countExecuted (x := s.session) ?_ ?_
          · exact ⟨ht.session, ht.executed, ht.failed, ht.errors, ht.known.append (by simp)⟩
          · show runAll step t.state [item.sql] = some session
            rw [runAll, hstep]
            rfl
        · cases hreply
  exact hbefore.of_later (beforeSingle_starts item s ▸ List.Subset.refl _)
    (beforeSingle_batch item s) (fun _ _ hpre _ ht => ⟨ht.beforeSingle item, hpre⟩)

/-! ### What is tracked -/

/-- All that is counted and recorded is the same in `s'` as in `s`. -/
structure SameCounts (s s' : FileRun S) : Prop where
  session : s'.session = s.session
  result : s'.result = s.result
  batch : s'.batch = s.batch
  log : s'.log = s.log
  starts : s'.starts = s.starts
  sent : s'.sent = s.sent

theorem SameCounts.trans {s s' s'' : FileRun S} (h : SameCounts s s') (h' : SameCounts s' s'') :
    SameCounts s s'' :=
  ⟨h'.session.trans h.session, h'.result.trans h.result, h'.batch.trans h.batch,
    h'.log.trans h.log, h'.starts.trans h.starts, h'.sent.trans h.sent⟩

theorem SameCounts.counted {s s' : FileRun S} (h : SameCounts s s') {t : Tally S}
    (ht : Counted t s) : Counted t s' :=
  ⟨h.session.trans ht.session, (congrArg (·.executed) h.result).trans ht.executed,
    (congrArg (·.failed) h.result).trans ht.failed,
    (congrArg (·.errors) h.result).trans ht.errors, h.log ▸ ht.known⟩

theorem track_same (stmt : Text) (s : FileRun S) : SameCounts s (track o stmt s) := by
  have hdepth : SameCounts s (trackDepth o stmt s) := by
    unfold trackDepth
    split <;> exact ⟨rfl, rfl, rfl, rfl, rfl, rfl⟩
  have hautocommit : ∀ s : FileRun S, SameCounts s (trackAutocommit o stmt s) := by
    intro s
    unfold trackAutocommit
    split
    · dsimp only
      split <;> exact ⟨rfl, rfl, rfl, rfl, rfl, rfl⟩
    · split <;> exact ⟨rfl, rfl, rfl, rfl, rfl, rfl⟩
  have hlocks : ∀ s : FileRun S, SameCounts s (trackTableLocks o stmt s) := by
    intro s
    unfold trackTableLocks
    split
    · exact ⟨rfl, rfl, rfl, rfl, rfl, rfl⟩
    · split <;> exact ⟨rfl, rfl, rfl, rfl, rfl, rfl⟩
  exact (hdepth.trans (hautocommit _)).trans (hlocks _)

/-! ### Batches -/

/-- The statements of a batch, one by one; induction on them. -/
theorem executeBatchSequentially_goes (hlaw : StatementLaw server step)
    (items : List PendingStatement) (s : FileRun S) :
    Goes server o texts step pre items s (executeBatchSequentially server o items s) := by
  induction items generalizing s pre with
  | nil => exact .go_on (List.Subset.refl _) rfl (fun _ _ _ _ ht => ht)
  | cons item items ih =>
    rw [executeBatchSequentially]
    exact (executeSingle_goes hlaw item s).andThen id ih

/-- The run behind a batch. -/
def FileRun.behind (s : FileRun S) (session : S) (checks : ℕ)
    (log : List (List PendingStatement × Reply)) (outcome : BatchOutcome) : FileRun S :=
  { s.moved session checks log with starts := s.starts ++ [s.session] }.markIf
    outcome.outcomeUnknown

section

variable {items : List PendingStatement} {t : Tally S} {s : FileRun S} {session : S} {checks : ℕ}
  {log : List (List PendingStatement × Reply)} {outcome : BatchOutcome}

@[simp] theorem behind_session : (s.behind session checks log outcome).session = session :=
  markIf_session _ _

@[simp] theorem behind_starts :
    (s.behind session checks log outcome).starts = s.starts ++ [s.session] :=
  markIf_starts _ _

@[simp] theorem behind_batch : (s.behind session checks log outcome).batch = s.batch :=
  markIf_batch _ _

theorem behind_outcomeUnknown (h : outcome.outcomeUnknown = true) :
    (s.behind session checks log outcome).result.outcomeUnknown = true := by
  unfold FileRun.behind FileRun.markIf
  rw [h, if_pos rfl]
  rfl

theorem starts_subset_behind : s.starts ⊆ (s.behind session checks log outcome).starts := by
  rw [behind_starts]
  exact subset_append_left _ _

theorem session_mem_behind : s.session ∈ (s.behind session checks log outcome).starts := by
  rw [behind_starts]
  exact mem_append_right _ (mem_singleton_self _)

theorem BatchEnds.counted_ran (h : BatchEnds server texts step items s session log outcome)
    (ht : Counted t s) (hfailed : outcome.failed = false) :
    Counted (items.foldl (Tally.next step) t)
      ((s.behind session checks log outcome).countExecuted items.length) := by
  obtain ⟨_, hlog, hran⟩ := h.ran hfailed
  refine Counted.countExecuted (x := s.session) ?_ ?_
  · exact Counted.markIf_at (s := { s.moved session checks log with
      starts := s.starts ++ [s.session] }) ⟨ht.session, ht.executed, ht.failed, ht.errors, hlog⟩ _
  · rw [behind_session, ← ht.session]
    exact hran

theorem BatchEnds.counted_undone (h : BatchEnds server texts step items s session log outcome)
    (ht : Counted t s) (hfallback : outcome.canFallback = true) :
    Counted t (s.behind session checks log outcome) := by
  obtain ⟨_, hlog, hsession, _⟩ := h.undone hfallback
  refine Counted.markIf ?_ _
  exact ⟨hsession.trans ht.session, ht.executed, ht.failed, ht.errors, hlog⟩

theorem BatchEnds.halted (h : BatchEnds server texts step items s session log outcome)
    (ht : Counted t s) (hfailed : outcome.failed = true) : Halted t (s.behind session checks log outcome) := by
  cases hfallback : outcome.canFallback with
  | true => exact (h.counted_undone ht hfallback).halted
  | false =>
    obtain ⟨hlog, hmarked, hsession⟩ := h.refused hfailed hfallback
    cases hunknown : outcome.outcomeUnknown with
    | true =>
      unfold FileRun.behind FileRun.markIf
      rw [hunknown, if_pos rfl]
      exact .of_unknown ht.executed hlog rfl
    | false =>
      unfold FileRun.behind FileRun.markIf
      rw [hunknown, if_neg Bool.false_ne_true]
      refine ⟨ht.executed, fun _ => (hsession hunknown).1.trans ht.session, hlog, fun hlost => ?_⟩
      exact Bool.noConfusion ((hmarked hlost).symm.trans hunknown)

/-- What a run has changed that stops behind a batch: no more than what it reports. -/
structure StopsAs (s s' : FileRun S) : Prop where
  session : s'.session = s.session
  starts : s'.starts = s.starts
  sent : s'.sent = s.sent
  log : s'.log = s.log
  executed : s'.result.executed = s.result.executed
  marked : s.result.outcomeUnknown = true → s'.result.outcomeUnknown = true

theorem StopsAs.tick_markIf (unknown : Bool) (s : FileRun S) :
    StopsAs s (s.tick.markIf unknown) := by
  unfold FileRun.markIf
  split
  · exact ⟨rfl, rfl, rfl, rfl, rfl, fun _ => rfl⟩
  · exact ⟨rfl, rfl, rfl, rfl, rfl, id⟩

theorem StopsAs.halted {s' : FileRun S} (hs : StopsAs s s') (h : Halted t s) : Halted t s' := by
  refine ⟨hs.executed.trans h.executed, fun hknown => ?_, hs.log ▸ h.inFlight, fun hlost => ?_⟩
  · cases hunknown : s.result.outcomeUnknown with
    | true => exact Bool.noConfusion ((hs.marked hunknown).symm.trans hknown)
    | false => exact hs.session.trans (h.session hunknown)
  · exact hs.marked (h.marked (hs.log ▸ hlost))

/-- Why a run stops behind a batch. -/
inductive BatchStop (o : StreamOptions) (outcome : BatchOutcome) : StreamStop → Prop where
  | cancelled {n : ℕ} (h : o.cancelled n = true) : BatchStop o outcome .cancelled
  | onError (h : o.continueOnError = false) : BatchStop o outcome .stoppedOnError
  | refused (h : outcome.outcomeUnknown = true ∨ outcome.canFallback = false) :
    BatchStop o outcome .batchFailed

/-- What is made of a batch behind which the run is `s`.  The batch of the run is `b` then, and
`fallback` goes on with one that was rolled back. -/
inductive BatchTurn (o : StreamOptions) (items b : List PendingStatement) (outcome : BatchOutcome)
    (s : FileRun S) (fallback : FileRun S → FileRun S × Option StreamStop) :
    FileRun S × Option StreamStop → Prop where
  | ran (h : outcome.failed = false) (batchBytes : ℕ) : BatchTurn o items b outcome s fallback
      ({ s.countExecuted items.length with batch := b, batchBytes }, none)
  | stopped {s' : FileRun S} {e : StreamStop} (hfailed : outcome.failed = true)
    (hs : StopsAs s s') (hwhy : BatchStop o outcome e) :
    BatchTurn o items b outcome s fallback (s', some e)
  | fell (h : outcome.canFallback = true) (batchBytes : ℕ) :
    BatchTurn o items b outcome s fallback (fallback { s.tick with batch := b, batchBytes })

/-- Whether a batch succeeds, stops the run or is rolled back, the run goes as a plain one. -/
theorem BatchTurn.goes {b : List PendingStatement}
    {fallback : FileRun S → FileRun S × Option StreamStop} {r : FileRun S × Option StreamStop}
    (hturn : BatchTurn o items b outcome (s.behind session checks log outcome) fallback r)
    (hends : BatchLaw server o texts step s.session → Rejoins o.dbType items →
      AllWrites o (items.map (·.sql)) → Known s.log →
        BatchEnds server texts step items s session log outcome)
    (hfallback : ∀ s, Goes server o texts step (AllWrites o (items.map (·.sql)) ∧
      ∀ item, items = [item] → step s.session item.sql = (s.session, false)) items s
      (fallback s)) :
    Goes server o texts step (AllWrites o (items.map (·.sql))) items { s with batch := b } r := by
  have hsame : ∀ {t : Tally S}, Counted t { s with batch := b } → Counted t s :=
    fun ht => { ht with }
  have hsub : s.starts ⊆ (s.behind session checks log outcome).starts := starts_subset_behind
  cases hturn with
  | ran hran batchBytes =>
    refine .go_on hsub rfl (fun hlaw hread hwrites t ht => ?_)
    have hcounted : Counted _ ((s.behind session checks log outcome).countExecuted _) :=
      (hends (hlaw _ session_mem_behind) hread hwrites ht.known).counted_ran (hsame ht) hran
    exact { hcounted with }
  | stopped hfailed hs hwhy =>
    refine .stop (hs.starts ▸ hsub) (fun hlaw hread hwrites t ht => ?_)
    rw [hs.starts] at hlaw
    have hbatch := hends (hlaw _ session_mem_behind) hread hwrites ht.known
    refine ⟨hs.halted (hbatch.halted (hsame ht) hfailed), ?_⟩
    cases hwhy with
    | cancelled hcancelled => exact .cancelled hcancelled
    | onError hstop => exact .onError (.inl hstop)
    | refused hrefused =>
      cases hunknown : outcome.outcomeUnknown with
      | true => exact .unknown (hs.marked (behind_outcomeUnknown hunknown))
      | false =>
        -- The error is known and nothing was rolled back: the transaction was not begun.
        have hfallback := hrefused.resolve_left (by rw [hunknown]; exact Bool.false_ne_true)
        obtain ⟨_, _, hbegin⟩ := hbatch.refused hfailed hfallback
        exact .notBegun (hs.starts ▸ session_mem_behind) (hbegin hunknown).2
  | fell hundone batchBytes =>
    refine (hfallback _).of_later hsub rfl (fun hlaw hread hwrites t ht => ?_)
    have hbatch := hends (hlaw _ session_mem_behind) hread hwrites ht.known
    have hcounted : Counted t (s.behind session checks log outcome) :=
      hbatch.counted_undone (hsame ht) hundone
    obtain ⟨_, _, hsession, hfails⟩ := hbatch.undone hundone
    refine ⟨⟨hcounted.session, hcounted.executed, hcounted.failed, hcounted.errors,
      hcounted.known⟩, hwrites, fun item hitem => ?_⟩
    show step (s.behind session checks log outcome).session item.sql =
      ((s.behind session checks log outcome).session, false)
    rw [behind_session, hsession]
    exact hfails item hitem

end

section

variable {items : List PendingStatement} {s r : FileRun S} {outcome : BatchOutcome}

theorem executeIsolationBatch_turn
    (hrun : executeSQLFileBatchWithOutcome server o items s.tick = (r, outcome))
    (isolate : List PendingStatement → FileRun S → FileRun S × Option StreamStop) :
    ∃ r', executeIsolationBatch server o isolate items s =
        (if o.cancelled s.checks then (s.tick, some .cancelled) else r') ∧
      BatchTurn o items (r.markIf outcome.outcomeUnknown).batch outcome
        (r.markIf outcome.outcomeUnknown) (isolate items) r' := by
  refine ⟨_, rfl, ?_⟩
  rw [hrun]
  dsimp only
  generalize r.markIf outcome.outcomeUnknown = s'
  split_ifs with hlost hran hcancelled hrefused
  · rw [Bool.and_eq_true] at hlost
    exact .stopped hlost.1 ⟨rfl, rfl, rfl, rfl, rfl, id⟩ (.refused (.inl hlost.2))
  · exact .ran hran s'.batchBytes
  · exact .stopped (Bool.of_not_eq_false hran) (.tick_markIf _ s') (.cancelled hcancelled)
  · exact .stopped (Bool.of_not_eq_false hran) (.tick_markIf false s') (.refused (.inr hrefused))
  · exact .fell (Bool.of_not_eq_false hrefused) s'.batchBytes

theorem flushBatch_turn (hne : s.batch ≠ [])
    (hrun : executeSQLFileBatchWithOutcome server o s.batch s.tick = (r, outcome)) :
    ∃ r', flushBatch server o s =
        (if o.cancelled s.checks then (s.tick, some .cancelled) else r') ∧
      BatchTurn o s.batch [] outcome (r.markIf outcome.outcomeUnknown)
        (isolateFailedBatch server o s.batch.length s.batch) r' := by
  refine ⟨_, if_neg hne, ?_⟩
  rw [hrun]
  dsimp only
  generalize r.markIf outcome.outcomeUnknown = s'
  unfold failBatch
  split_ifs with hfailed hcancelled hrefused hstop
  · exact .stopped hfailed (.tick_markIf _ s') (.cancelled hcancelled)
  · exact .stopped hfailed ⟨rfl, rfl, rfl, rfl, rfl, id⟩ (.refused (.inr hrefused))
  · obtain ⟨hexecuted, _, hunknown⟩ := appendErrorDetail_counts
      { s'.result with failed := s'.result.failed + 1 }
      (.batch ((s.batch.head?.map (·.index)).getD 0 + 1))
    exact .stopped hfailed ⟨rfl, rfl, rfl, rfl, hexecuted, fun h => hunknown.trans h⟩
      (.onError hstop)
  · exact .fell (Bool.of_not_eq_false hrefused) 0
  · exact .ran (Bool.of_not_eq_true hfailed) 0

theorem executeOversized_turn {item : PendingStatement}
    (hrun : executeSQLFileBatchWithOutcome server o [item] s = (r, outcome)) :
    BatchTurn o [item] (r.markIf outcome.outcomeUnknown).batch outcome
      (r.markIf outcome.outcomeUnknown)
      (fun s => (s.recordError item, if o.continueOnError then none else some .stoppedOnError))
      (executeOversized server o item s) := by
  unfold executeOversized
  rw [hrun]
  dsimp only
  generalize r.markIf outcome.outcomeUnknown = s'
  generalize (if o.continueOnError = true then none else some StreamStop.stoppedOnError) = e
  split_ifs with hran hcancelled hrefused
  · exact .ran hran s'.batchBytes
  · exact .stopped (Bool.of_not_eq_false hran) (.tick_markIf false s') (.cancelled hcancelled)
  · exact .stopped (Bool.of_not_eq_false hran) (.tick_markIf false s') (.refused (.inr hrefused))
  · exact .fell (Bool.of_not_eq_false hrefused) s'.batchBytes

end

section

variable (hpinned : o.useTransactionalBatch = true)
  (htexts : sqlFileBatchTransactionSQL o.dbType = some texts)

include hpinned htexts

theorem executeSQLFileBatchWithOutcome_ends (server : FileServer S)
    (step : S → Text → S × Bool) (items : List PendingStatement) (s : FileRun S) :
    ∃ session checks log outcome, executeSQLFileBatchWithOutcome server o items s =
        ({ s.moved session checks log with starts := s.starts ++ [s.session] }, outcome) ∧
      (BatchLaw server o texts step s.session → Rejoins o.dbType items →
        AllWrites o (items.map (·.sql)) → Known s.log →
        BatchEnds server texts step items s session log outcome) := by
  obtain ⟨session, checks, reply, outcome, hrun, hbatch⟩ :=
    runBatch_run hpinned htexts server items { s with starts := s.starts ++ [s.session] }
  exact ⟨session, checks, _, outcome, hrun, BatchRun.ends (s := s) hbatch⟩

omit hpinned htexts in
theorem AllWrites.sublist {items part : List PendingStatement}
    (h : AllWrites o (items.map (·.sql))) (hpart : part.Sublist items) :
    AllWrites o (part.map (·.sql)) :=
  fun sql hsql => h sql ((hpart.map _).subset hsql)

theorem executeIsolationBatch_goes {items : List PendingStatement}
    {isolate : List PendingStatement → FileRun S → FileRun S × Option StreamStop}
    (hisolate : ∀ s, Goes server o texts step (AllWrites o (items.map (·.sql)) ∧
      ∀ item, items = [item] → step s.session item.sql = (s.session, false)) items s
      (isolate items s)) (s : FileRun S) :
    Goes server o texts step (AllWrites o (items.map (·.sql))) items s
      (executeIsolationBatch server o isolate items s) := by
  obtain ⟨session, checks, log, outcome, hrun, hends⟩ :=
    executeSQLFileBatchWithOutcome_ends hpinned htexts server step items s.tick
  obtain ⟨r, heq, hturn⟩ := executeIsolationBatch_turn hrun isolate
  change BatchTurn o items (s.tick.behind session checks log outcome).batch outcome _ _ r at hturn
  rw [heq]
  exact .checked ((hturn.goes hends hisolate).of_later (List.Subset.refl _) behind_batch
    (fun _ _ hwrites t ht => ⟨{ ht with }, hwrites⟩))

/-- A batch that failed and was rolled back is split until the statements that fail are found;
induction on the bound. -/
theorem isolateFailedBatch_goes (hlaw : StatementLaw server step) (n : ℕ)
    {items : List PendingStatement} (hn : items.length ≤ n) (s : FileRun S) :
    Goes server o texts step (AllWrites o (items.map (·.sql)) ∧
      ∀ item, items = [item] → step s.session item.sql = (s.session, false)) items s
      (isolateFailedBatch server o n items s) := by
  induction n generalizing items s with
  | zero =>
    rw [eq_nil_of_length_eq_zero (Nat.le_zero.mp hn)]
    exact .go_on (List.Subset.refl _) rfl (fun _ _ _ _ ht => ht)
  | succ n ih =>
    match items with
    | [] => exact .go_on (List.Subset.refl _) rfl (fun _ _ _ _ ht => ht)
    | [item] =>
      unfold isolateFailedBatch
      refine .checked (.go_on (List.Subset.refl _) rfl (fun _ _ hfails t ht => ?_))
      refine Counted.recordError (x := s.session) ht.tick ?_
      rw [← ht.session]
      exact hfails.2 item rfl
    | first :: second :: rest =>
      unfold isolateFailedBatch
      dsimp only
      have hlength : 2 ≤ (first :: second :: rest).length := by simp
      generalize first :: second :: rest = items at hlength hn ⊢
      refine .checked ?_
      by_cases hfew : items.length ≤ isolationSequentialThreshold
      · rw [if_pos hfew]
        have hone : Goes server o texts step True items s.tick
            (executeBatchSequentially server o items s.tick) :=
          executeBatchSequentially_goes hlaw items s.tick
        exact hone.of_later (List.Subset.refl _) rfl (fun _ _ _ t ht => ⟨ht.tick, trivial⟩)
      rw [if_neg hfew]
      have htake : (items.take (items.length / 2)).length ≤ n := by
        rw [length_take]
        omega
      have hdrop : (items.drop (items.length / 2)).length ≤ n := by
        rw [length_drop]
        omega
      have hfirst : Goes server o texts step (AllWrites o (items.map (·.sql)))
          (items.take (items.length / 2)) s.tick
          (executeIsolationBatch server o (isolateFailedBatch server o n)
            (items.take (items.length / 2)) s.tick) :=
        (executeIsolationBatch_goes hpinned htexts (ih htake) s.tick).of_later
          (List.Subset.refl _) rfl
          (fun _ _ hwrites t ht => ⟨ht, hwrites.sublist (take_sublist _ _)⟩)
      have hhalves := hfirst.andThen (fun hwrites => hwrites.sublist (drop_sublist _ _))
        (executeIsolationBatch_goes hpinned htexts (ih hdrop))
      rw [take_append_drop] at hhalves
      exact hhalves.of_later (List.Subset.refl _) rfl
        (fun _ _ hpre t ht => ⟨ht.tick, hpre.1⟩)

theorem flushBatch_goes (hlaw : StatementLaw server step) (s : FileRun S) :
    Goes server o texts step (AllWrites o (s.batch.map (·.sql))) s.batch { s with batch := [] }
      (flushBatch server o s) := by
  have hsame : ∀ {t : Tally S}, Counted t { s with batch := [] } → Counted t s :=
    fun ht => { ht with }
  by_cases hempty : s.batch = []
  · unfold flushBatch
    rw [if_pos hempty, hempty]
    exact .go_on (List.Subset.refl _) hempty (fun _ _ _ t ht => hsame ht)
  obtain ⟨session, checks, log, outcome, hrun, hends⟩ :=
    executeSQLFileBatchWithOutcome_ends hpinned htexts server step s.batch s.tick
  obtain ⟨r, heq, hturn⟩ := flushBatch_turn hempty hrun
  rw [heq]
  by_cases hcancelled : o.cancelled s.checks = true
  · rw [if_pos hcancelled]
    exact .stop (List.Subset.refl _)
      (fun _ _ _ t ht => ⟨(hsame ht).tick.halted, .cancelled hcancelled⟩)
  · rw [if_neg hcancelled]
    have hisolate := isolateFailedBatch_goes hpinned htexts hlaw s.batch.length le_rfl
    exact (hturn.goes hends hisolate).of_later (List.Subset.refl _) rfl
      (fun _ _ hwrites t ht => ⟨ht.tick, hwrites⟩)

theorem executeOversized_goes (item : PendingStatement) (s : FileRun S) :
    Goes server o texts step (AllWrites o [item.sql]) [item] s
      (executeOversized server o item s) := by
  obtain ⟨session, checks, log, outcome, hrun, hends⟩ :=
    executeSQLFileBatchWithOutcome_ends hpinned htexts server step [item] s
  have hturn := executeOversized_turn hrun
  change BatchTurn o [item] (s.behind session checks log outcome).batch outcome _ _ _ at hturn
  refine (hturn.goes hends (fun s' => ?_)).of_later (List.Subset.refl _) behind_batch
    (fun _ _ hwrites t ht => ⟨{ ht with }, hwrites⟩)
  have hcounted : ∀ t, (∀ item', [item] = [item'] →
      step s'.session item'.sql = (s'.session, false)) → Counted t s' →
        Counted (t.next step item) (s'.recordError item) :=
    fun t hfails ht => Counted.recordError ht (ht.session ▸ hfails item rfl)
  by_cases hcontinue : o.continueOnError = true
  · rw [if_pos hcontinue]
    exact .go_on (List.Subset.refl _) rfl (fun _ _ hpre t => hcounted t hpre.2)
  · rw [if_neg hcontinue]
    exact .stop_behind (List.Subset.refl _) (.onError (.inl (by simpa using hcontinue)))
      (fun _ _ hpre t => hcounted t hpre.2)

end

end GoNavi.Sqlfile
