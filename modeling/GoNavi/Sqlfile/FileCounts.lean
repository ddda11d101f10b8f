import GoNavi.Sqlfile.Isolation

/-! # Whole files, counted

The loop over the statements of a file, on a dialect whose batches run in transactions of their
own.  **A run counts its statements as a plain run does, and leaves the session as a plain run
does** (`batches_count_exactly`): for all of the file if it reaches the end, for a first part of
it if it stops before, and then the cause of the stop is known.

If the file leaves a transaction of its own open, that counts as one more failure, so that
executed and failed statements are not all the statements then; and a batch is only what the
dialect reads in its text, which is something else if a statement ends in a comment
(`counted_sum_fails`). -/

namespace GoNavi.Sqlfile

open Scan GoNavi.Sql List

variable {S : Type}

/-- The statements of a file that are not skipped, from a position on. -/
def fileItems (o : StreamOptions) : ℕ → List Text → List PendingStatement
  | _, [] => []
  | index, statement :: statements =>
    if trimSpace statement = [] ∨ o.skips index (trimSpace statement) then
      fileItems o (index + 1) statements
    else ⟨index, trimSpace statement⟩ :: fileItems o (index + 1) statements

section

variable (server : FileServer S) (o : StreamOptions) (texts : TransactionSQL)
  (step : S → Text → S × Bool)

/-- A part of the run that is given `items` behind `t`, the statements of the batch among them:
behind it some of them may be in the batch. -/
inductive Moves (items : List PendingStatement) (t : Tally S) :
    FileRun S × Option StreamStop → Prop where
  | on {s : FileRun S} {seen : List PendingStatement} (hseen : items = seen ++ s.batch)
    (hwrites : AllWrites o (s.batch.map (·.sql)))
    (h : Counted (seen.foldl (Tally.next step) t) s) : Moves items t (s, none)
  | stopped {s : FileRun S} {e : StreamStop} {seen : List PendingStatement} (hseen : seen <+: items)
    (h : Halted (seen.foldl (Tally.next step) t) s) (hwhy : Explained server o texts s e) :
    Moves items t (s, some e)

/-- A part of the run from `s` to `r` that is given `items` besides the batch of `s`. -/
structure Advances (items : List PendingStatement) (s : FileRun S)
    (r : FileRun S × Option StreamStop) : Prop where
  starts : s.starts ⊆ r.1.starts
  moves : (∀ x ∈ r.1.starts, BatchLaw server o texts step x) →
    Rejoins o.dbType (s.batch ++ items) → AllWrites o (s.batch.map (·.sql)) →
      ∀ t, Counted t s → Moves server o texts step (s.batch ++ items) t r

end

section

variable {server : FileServer S} {o : StreamOptions} {texts : TransactionSQL}
  {step : S → Text → S × Bool} {items later : List PendingStatement} {s : FileRun S}
  {r : FileRun S × Option StreamStop}

namespace Advances

theorem of_goes (h : Goes server o texts step (AllWrites o (s.batch.map (·.sql)))
    (s.batch ++ items) { s with batch := [] } r) : Advances server o texts step items s r := by
  refine ⟨h.starts, fun hlaw hread hwrites t ht => ?_⟩
  have hbatch := h.batch
  have hends := h.ends hlaw hread hwrites t
    { ht with }
  cases hends with
  | on hcounted =>
    refine .on ?_ ?_ hcounted
    · rw [hbatch rfl, append_nil]
    · rw [hbatch rfl]
      exact forall_mem_nil _
  | stopped hseen hhalted hwhy => exact .stopped hseen hhalted hwhy

theorem rest (hstarts : s.starts ⊆ r.1.starts) (hr : r.2 = none) (hbatch : r.1.batch = s.batch)
    (h : ∀ t, Counted t s → Counted t r.1) : Advances server o texts step [] s r := by
  obtain ⟨s', e⟩ := r
  cases hr
  refine ⟨hstarts, fun _ _ hwrites t ht => ?_⟩
  have hseen : s.batch ++ [] = [] ++ s'.batch := by
    rw [append_nil, nil_append]
    exact hbatch.symm
  exact .on hseen (hbatch ▸ hwrites) (h t ht)

theorem andThen {f : FileRun S → FileRun S × Option StreamStop}
    (h : Advances server o texts step items s r)
    (hf : ∀ s', Advances server o texts step later s' (f s')) :
    Advances server o texts step (items ++ later) s (FileRun.andThen r f) := by
  obtain ⟨s', e⟩ := r
  cases e with
  | some e =>
    refine ⟨h.starts, fun hlaw hread hwrites t ht => ?_⟩
    rw [← append_assoc] at hread ⊢
    have hfirst := h.moves hlaw (hread.part (List.prefix_append _ later).isInfix) hwrites t ht
    cases hfirst with
    | stopped hseen hhalted hwhy =>
      exact .stopped (hseen.trans (List.prefix_append _ _)) hhalted hwhy
  | none =>
    have hnext := hf s'
    refine ⟨List.Subset.trans h.starts hnext.starts, fun hlaw hread hwrites t ht => ?_⟩
    rw [← append_assoc] at hread ⊢
    have hfirst := h.moves (fun x hx => hlaw x (hnext.starts hx))
      (hread.part (List.prefix_append _ later).isInfix) hwrites t ht
    cases hfirst with
    | @on _ seen hseen hbatch hcounted =>
      rw [hseen, append_assoc] at hread ⊢
      have hlast := hnext.moves hlaw (hread.part (suffix_append seen _).isInfix) hbatch _
        hcounted
      show Moves server o texts step (seen ++ (s'.batch ++ later)) t (f s')
      generalize f s' = r at hlast
      cases hlast with
      | @on _ seen' hseen' hbatch' hcounted' =>
        rw [← foldl_append] at hcounted'
        refine .on ?_ hbatch' hcounted'
        rw [hseen', append_assoc]
      | stopped hseen' hhalted hwhy =>
        rw [← foldl_append] at hhalted
        exact .stopped ((List.prefix_append_right_inj seen).mpr hseen') hhalted hwhy

theorem stop {s' : FileRun S} {e : StreamStop} (hstarts : s.starts ⊆ s'.starts)
    (h : ∀ t, Counted t s → Counted t s') (hwhy : Explained server o texts s' e) :
    Advances server o texts step items s (s', some e) :=
  ⟨hstarts, fun _ _ _ t ht => .stopped List.nil_prefix (h t ht).halted hwhy⟩

/-- The context is checked before a part of the run. -/
theorem checked (h : Advances server o texts step items s r) :
    Advances server o texts step items s
      (if o.cancelled s.checks then (s.tick, some .cancelled) else r) := by
  split
  · next hcancelled => exact stop (List.Subset.refl _) (fun _ ht => ht.tick) (.cancelled hcancelled)
  · exact h

/-- The same part, seen from an earlier point that counts the same. -/
theorem of_tick (h : Advances server o texts step items s.tick r) :
    Advances server o texts step items s r :=
  ⟨h.starts, fun hlaw hread hwrites t ht => h.moves hlaw hread hwrites t ht.tick⟩

end Advances

/-! ### One statement of the file -/

section

variable (hpinned : o.useTransactionalBatch = true)
  (htexts : sqlFileBatchTransactionSQL o.dbType = some texts) (hlaw : StatementLaw server step)

include hpinned htexts hlaw

theorem flushBatch_advances (s : FileRun S) :
    Advances server o texts step [] s (flushBatch server o s) := by
  refine .of_goes ?_
  rw [append_nil]
  exact flushBatch_goes hpinned htexts hlaw s

theorem addToBatch_advances {item : PendingStatement} (hwrite : AllWrites o [item.sql])
    (s : FileRun S) :
    Advances server o texts step [item] s (addToBatch server o item s) := by
  unfold addToBatch
  have hfull : Advances server o texts step [] s
      (if batchFull o item s then flushBatch server o s else (s, none)) := by
    split
    · exact flushBatch_advances hpinned htexts hlaw s
    · exact .rest (List.Subset.refl _) rfl rfl (fun _ ht => ht)
  refine hfull.andThen (fun s' => ?_)
  by_cases hlong : o.batchMaxBytes < item.sql.length
  · rw [if_pos hlong]
    exact .of_goes ((flushBatch_goes hpinned htexts hlaw s').andThen (fun _ => hwrite)
      (executeOversized_goes hpinned htexts item))
  · rw [if_neg hlong]
    refine ⟨List.Subset.refl _, fun _ _ hwrites t ht => ?_⟩
    have hseen : s'.batch ++ [item] = [] ++ (appendToBatch item s').batch := rfl
    refine .on hseen ?_ { ht with }
    show AllWrites o ((s'.batch ++ [item]).map (·.sql))
    rw [map_append]
    intro sql hsql
    exact (mem_append.mp hsql).elim (hwrites sql) (hwrite sql)

theorem runAlone_advances (item : PendingStatement) (s : FileRun S) :
    Advances server o texts step [item] s (runAlone server o item s) := by
  unfold runAlone
  refine .of_goes ((flushBatch_goes hpinned htexts hlaw s).andThen (fun _ => trivial)
    (fun s' => ?_))
  have hone : Goes server o texts step True [item] s' (executeSingle server o item s').1 :=
    executeSingle_goes hlaw item s'
  generalize executeSingle server o item s' = r at hone
  obtain ⟨r, succeeded⟩ := r
  have htracked : ∀ s' : FileRun S, Goes server o texts step True [] s'
      (if succeeded then track o item.sql s' else s', none) := by
    intro s'
    have hsame : SameCounts s' (track o item.sql s') := track_same item.sql s'
    cases succeeded with
    | true =>
      exact .go_on (hsame.starts ▸ List.Subset.refl _) hsame.batch
        (fun _ _ _ _ ht => hsame.counted ht)
    | false => exact .go_on (List.Subset.refl _) rfl (fun _ _ _ _ ht => ht)
  exact hone.andThen id htracked

/-- The statements of the file at one position; none if it is skipped. -/
theorem onStatement_advances (index : ℕ) (statement : Text) (later : List Text) (s : FileRun S) :
    ∃ items, fileItems o index (statement :: later) = items ++ fileItems o (index + 1) later ∧
      Advances server o texts step items s (onStatement server o index statement s) := by
  rw [fileItems]
  unfold onStatement
  generalize trimSpace statement = stmt
  by_cases hskipped : stmt = [] ∨ o.skips index stmt = true
  · rw [if_pos hskipped]
    refine ⟨[], rfl, .checked ?_⟩
    have hrest : Advances server o texts step [] s (s.tick, none) :=
      .rest (List.Subset.refl _) rfl rfl (fun _ ht => ht.tick)
    by_cases hempty : stmt = []
    · rw [if_pos hempty]
      exact hrest
    rw [if_neg hempty]
    by_cases hrejected : o.rejects index stmt = true
    · rw [if_pos hrejected]
      exact .stop (List.Subset.refl _) (fun _ ht => ht.tick) (.rejected hrejected)
    rw [if_neg hrejected, if_pos (hskipped.resolve_left hempty)]
    exact hrest
  · rw [if_neg hskipped]
    refine ⟨[⟨index, stmt⟩], rfl, .checked ?_⟩
    rw [if_neg (fun h => hskipped (.inl h))]
    by_cases hrejected : o.rejects index stmt = true
    · rw [if_pos hrejected]
      exact .stop (List.Subset.refl _) (fun _ ht => ht.tick) (.rejected hrejected)
    rw [if_neg hrejected, if_neg (fun h => hskipped (.inr h))]
    by_cases hbatch : batchable o stmt s = true
    · rw [if_pos hbatch]
      refine (addToBatch_advances hpinned htexts hlaw ?_ s.tick).of_tick
      intro sql hsql
      rw [mem_singleton.mp hsql]
      exact (Bool.and_eq_true _ _ ▸ hbatch).2
    · rw [if_neg hbatch]
      exact (runAlone_advances hpinned htexts hlaw _ s.tick).of_tick

/-- The statements of the file; induction on them. -/
theorem onStatements_advances (index : ℕ) (statements : List Text) (s : FileRun S) :
    Advances server o texts step (fileItems o index statements) s
      (onStatements server o index statements s) := by
  induction statements generalizing index s with
  | nil => exact .rest (List.Subset.refl _) rfl rfl (fun _ ht => ht)
  | cons statement statements ih =>
    obtain ⟨items, hitems, hfirst⟩ :=
      onStatement_advances hpinned htexts hlaw index statement statements s
    rw [hitems]
    exact hfirst.andThen (fun s' => ih (index + 1) s')

end

end

/-! ### The whole file -/

/-- A run that has seen `items`: it counts those that succeed in a plain run and those that fail,
and failures of its `own`, and its session is the one behind the plain run. -/
structure CountsAll (step : S → Text → S × Bool) (session : S) (items : List PendingStatement)
    (own : List ErrorDetail) (s : FileRun S) : Prop where
  behind : s.session = (plain step session items).state
  executed : s.result.executed = (plain step session items).done.length
  failed : s.result.failed = (plain step session items).failed.length + own.length
  total : s.result.executed + s.result.failed = items.length + own.length
  errors : s.result.errors =
    ((plain step session items).failed.map failureDetail ++ own).take sqlFileMaxErrorDetails

/-- What a run from `session` with the statements `items` has counted at its end. -/
structure ExactlyCounted (server : FileServer S) (o : StreamOptions) (texts : TransactionSQL)
    (step : S → Text → S × Bool) (session : S) (items : List PendingStatement) (readFails : Bool)
    (r : FileRun S × Option StreamStop) : Prop where
  /-- The effects are those of the statements counted as executed, each once and in order. -/
  effects : ∃ seen, seen <+: items ∧
    r.1.result.executed = (plain step session seen).done.length ∧
    (r.1.result.outcomeUnknown = false → r.1.session = (plain step session seen).state)
  /-- At the end of the file all statements are counted. -/
  all : r.2 = none → CountsAll step session items [] r.1
  /-- A transaction that the file leaves open is one more failure. -/
  unclosed : r.2 = some .unclosedTransaction →
    CountsAll step session items [.unclosedTransaction] r.1
  stops : ∀ e, r.2 = some e → (e = .read ∧ readFails = true) ∨ e = .unclosedTransaction ∨
    Explained server o texts r.1 e
  /-- Nothing is sent behind a reply that was lost. -/
  inFlight : KnownUpToLast r.1.log
  marked : ¬Known r.1.log → r.1.result.outcomeUnknown = true

theorem Counted.all {step : S → Text → S × Bool} {session : S} {items : List PendingStatement}
    {s : FileRun S} (h : Counted (plain step session items) s) :
    CountsAll step session items [] s := by
  have htotal := done_add_failed step items ⟨session, [], []⟩
  refine ⟨h.session, h.executed, h.failed, ?_, ?_⟩
  · rw [h.executed, h.failed]
    unfold plain
    rw [htotal]
    simp
  · rw [append_nil]
    exact h.errors

theorem CountsAll.countFailure {step : S → Text → S × Bool} {session : S}
    {items : List PendingStatement} {s : FileRun S} (h : CountsAll step session items [] s)
    (detail : ErrorDetail) : CountsAll step session items [detail] (s.countFailure detail) := by
  obtain ⟨hexecuted, hfailed, _⟩ := appendErrorDetail_counts
    { s.result with failed := s.result.failed + 1 } detail
  have htotal := h.total
  refine ⟨h.behind, hexecuted.trans h.executed, ?_, ?_, ?_⟩
  · exact hfailed.trans (congrArg (· + 1) h.failed)
  · show (SQLFileExecutionResult.appendErrorDetail _ _).executed +
      (SQLFileExecutionResult.appendErrorDetail _ _).failed = _
    rw [hexecuted, hfailed]
    show s.result.executed + (s.result.failed + 1) = items.length + 1
    rw [← Nat.add_assoc, htotal]
    rfl
  · refine appendErrorDetail_errors ?_ detail
    show s.result.errors = _
    rw [h.errors, append_nil]

section

variable {server : FileServer S} {o : StreamOptions} {texts : TransactionSQL}
  {step : S → Text → S × Bool} {items seen : List PendingStatement} {session : S} {s : FileRun S}
  {readFails : Bool}

theorem ExactlyCounted.of_halted {e : StreamStop} (hseen : seen <+: items)
    (h : Halted (plain step session seen) s) (hopen : e ≠ .unclosedTransaction)
    (hwhy : (e = .read ∧ readFails = true) ∨ Explained server o texts s e) :
    ExactlyCounted server o texts step session items readFails (s, some e) := by
  refine ⟨⟨seen, hseen, h.executed, h.session⟩, fun hr => ?_, fun hr => ?_, ?_, h.inFlight,
    h.marked⟩
  · cases hr
  · exact absurd (Option.some.inj hr) hopen
  · intro e' he
    cases he
    exact hwhy.imp_right .inr

theorem ExactlyCounted.of_counted (h : Counted (plain step session items) s) :
    ExactlyCounted server o texts step session items readFails (s, none) := by
  refine ⟨⟨items, List.prefix_rfl, h.executed, fun _ => h.session⟩, fun _ => h.all, fun hr => ?_,
    fun _ hr => ?_, h.known.upToLast, fun hlost => absurd h.known hlost⟩
  · cases hr
  · cases hr

/-- A run that reaches the end with a transaction of the file. -/
theorem ExactlyCounted.of_unclosed (h : Counted (plain step session items) s) :
    ExactlyCounted server o texts step session items readFails
      (s.countFailure .unclosedTransaction, some .unclosedTransaction) := by
  have hall := h.all.countFailure .unclosedTransaction
  refine ⟨⟨items, List.prefix_rfl, hall.executed, fun _ => hall.behind⟩, fun hr => ?_,
    fun _ => hall, fun e he => ?_, h.known.upToLast, fun hlost => absurd h.known hlost⟩
  · cases hr
  · cases he
    exact .inr (.inl rfl)

/-- Only the end of the file tells of a transaction of its own. -/
theorem Explained.ne_unclosed {e : StreamStop} (h : Explained server o texts s e) :
    e ≠ .unclosedTransaction := by
  cases h <;> exact StreamStop.noConfusion

section

variable (hpinned : o.useTransactionalBatch = true)
  (htexts : sqlFileBatchTransactionSQL o.dbType = some texts) (hlaw : StatementLaw server step)

include hpinned htexts hlaw

theorem endStream_starts (s : FileRun S) : s.starts ⊆ (endStream server o s).1.starts := by
  have hflush : Goes server o texts step _ s.batch { s with batch := [] } _ :=
    flushBatch_goes hpinned htexts hlaw s
  unfold endStream
  generalize flushBatch server o s = r at hflush
  obtain ⟨s', e⟩ := r
  cases e with
  | some e => exact hflush.starts
  | none =>
    show s.starts ⊆ (if _ then (s'.countFailure _, _) else (s', _)).1.starts
    split <;> exact hflush.starts

/-- The end of the file, whose last statements may be in the batch. -/
theorem endStream_exactly (hitems : items = seen ++ s.batch)
    (hwrites : AllWrites o (s.batch.map (·.sql)))
    (h : Counted (plain step session seen) s)
    (hbatches : ∀ x ∈ (endStream server o s).1.starts, BatchLaw server o texts step x)
    (hread : Rejoins o.dbType items) :
    ExactlyCounted server o texts step session items readFails (endStream server o s) := by
  have hflush : Goes server o texts step _ s.batch { s with batch := [] } _ :=
    flushBatch_goes hpinned htexts hlaw s
  unfold endStream at hbatches ⊢
  generalize flushBatch server o s = r at hflush hbatches ⊢
  obtain ⟨s', e⟩ := r
  have hbatches' : ∀ x ∈ s'.starts, BatchLaw server o texts step x := by
    intro x hx
    refine hbatches x ?_
    cases e with
    | some e => exact hx
    | none =>
      show x ∈ (if _ then (s'.countFailure _, _) else (s', _)).1.starts
      split <;> exact hx
  have hbatch : Rejoins o.dbType s.batch :=
    hread.part (hitems ▸ (suffix_append seen s.batch).isInfix)
  have hends := hflush.ends hbatches' hbatch hwrites _
    { h with }
  cases hends with
  | stopped hseen hhalted hwhy =>
    unfold plain at hhalted
    rw [← foldl_append] at hhalted
    rw [hitems]
    exact .of_halted ((List.prefix_append_right_inj seen).mpr hseen) hhalted hwhy.ne_unclosed
      (.inr hwhy)
  | on hcounted =>
    unfold plain at hcounted
    rw [← foldl_append, ← hitems] at hcounted
    show ExactlyCounted server o texts step session items readFails
      (if _ then (s'.countFailure _, _) else (s', _))
    split
    · exact .of_unclosed hcounted
    · exact .of_counted hcounted

end

end

/-- A table to which each statement adds itself, and the table at the start of the transaction
that is open. -/
structure Journal where
  rows : List Text
  saved : Option (List Text)
deriving DecidableEq

/-- A server of one journal, on which some statements fail. -/
def journalServer (fails : Text → Bool) : FileServer Journal where
  exec s sql :=
    if sql = bytes "BEGIN" then (⟨s.rows, some s.rows⟩, .ok)
    else if sql = bytes "COMMIT" then (⟨s.rows, none⟩, .ok)
    else if sql = bytes "ROLLBACK" then (⟨s.saved.getD s.rows, none⟩, .ok)
    else if fails sql then (s, .error false)
    else (⟨s.rows ++ [sql], s.saved⟩, .ok)
  execBatch s text :=
    let sqls := splitSQLStatementsForDialect (bytes "postgres") text
    if sqls.any fails then (s, .error false) else (⟨s.rows ++ sqls, s.saved⟩, .ok)
  discard s := s

def journalStep (fails : Text → Bool) (s : Journal) (sql : Text) : Journal × Bool :=
  match (journalServer fails).exec s sql with
  | (s', reply) => (s', reply = .ok)

def journalOptions : StreamOptions where
  unicode := asciiTables
  gates := noDocuments
  dbType := bytes "postgres"
  continueOnError := true
  maxStatements := 0
  maxBytes := 0
  rejects _ _ := false
  skips _ _ := false
  pinned := true
  supportsBatch := true
  cancelled _ := false

def journalTexts : TransactionSQL := ⟨bytes "BEGIN", bytes "COMMIT", bytes "ROLLBACK"⟩

theorem journal_statementLaw (fails : Text → Bool) :
    StatementLaw (journalServer fails) (journalStep fails) := by
  constructor
  · intro s sql s' h
    unfold journalStep
    rw [h]
    rfl
  · intro s sql s' h
    unfold journalStep
    rw [h]
    rfl

theorem journalStep_write (fails : Text → Bool) (s : Journal) {sql : Text}
    (h : AllWrites journalOptions [sql]) :
    journalStep fails s sql =
      if fails sql then (s, false) else (⟨s.rows ++ [sql], s.saved⟩, true) := by
  have hwrite := h sql (mem_singleton_self sql)
  have hown : ∀ own ∈ [bytes "BEGIN", bytes "COMMIT", bytes "ROLLBACK"],
      isSQLFileBatchableWriteStatement asciiTables noDocuments (bytes "postgres") own = false := by
    decide
  have hne : ∀ own ∈ [bytes "BEGIN", bytes "COMMIT", bytes "ROLLBACK"], sql ≠ own := by
    intro own hmem heq
    rw [heq] at hwrite
    exact Bool.noConfusion ((hown own hmem).symm.trans hwrite)
  unfold journalStep journalServer
  dsimp only
  rw [if_neg (hne _ (by simp)), if_neg (hne _ (by simp)), if_neg (hne _ (by simp))]
  split <;> rfl

/-- Writes that do not fail, one by one; induction on them. -/
theorem runAll_journal (fails : Text → Bool) (s : Journal) {sqls : List Text}
    (h : AllWrites journalOptions sqls) (hfine : sqls.any fails = false) :
    runAll (journalStep fails) s sqls = some ⟨s.rows ++ sqls, s.saved⟩ := by
  induction sqls generalizing s with
  | nil => simp [runAll]
  | cons sql sqls ih =>
    rw [any_cons, Bool.or_eq_false_iff] at hfine
    have hwrite : AllWrites journalOptions [sql] :=
      fun x hx => h x (mem_singleton.mp hx ▸ mem_cons_self)
    have hlater : AllWrites journalOptions sqls := fun x hx => h x (mem_cons_of_mem sql hx)
    rw [runAll, journalStep_write fails s hwrite, hfine.1, if_neg Bool.false_ne_true]
    dsimp only
    rw [ih _ hlater hfine.2, append_assoc]
    rfl

theorem journal_batchLaw (fails : Text → Bool) (rows : List Text) :
    BatchLaw (journalServer fails) journalOptions journalTexts (journalStep fails)
      ⟨rows, none⟩ := by
  have hbegin : ∀ y r, (journalServer fails).exec ⟨rows, none⟩ journalTexts.beginSQL = (y, r) →
      y = ⟨rows, some rows⟩ := by
    intro y r h
    cases h
    rfl
  have hrollback : ∀ rows', (journalServer fails).exec ⟨rows', some rows⟩
      journalTexts.rollbackSQL = (⟨rows, none⟩, .ok) := fun _ => rfl
  constructor
  · intro y r h z hback
    rw [hbegin y r h, hrollback] at hback
    cases hback
    rfl
  · intro y text z r _ h hsent w hback
    rw [hbegin y _ h] at hsent
    simp only [journalServer] at hsent
    split_ifs at hsent <;> cases hsent <;> rw [hrollback] at hback <;> cases hback <;> rfl
  · intro y text z w hwrites h hsent hcommit
    rw [hbegin y _ h] at hsent
    simp only [journalServer] at hsent
    split_ifs at hsent with hfails
    · cases hsent
    · cases hsent
      cases hcommit
      exact runAll_journal fails _ hwrites (Bool.of_not_eq_true hfails)
  · intro y text z sql hwrite h hsent hsplit
    rw [hbegin y _ h] at hsent
    change splitSQLStatementsForDialect (bytes "postgres") text = [sql] at hsplit
    simp only [journalServer, hsplit] at hsent
    rw [journalStep_write fails _ hwrite]
    split_ifs at hsent with hfails
    · rw [if_pos (by simpa using hfails)]
    · cases hsent

theorem rejoins_of_parts {dbType : Text} {items : List PendingStatement}
    (h : ∀ tail ∈ items.tails, ∀ part ∈ tail.inits,
      splitSQLStatementsForDialect dbType (joinSQLFileBatchStatements part) = part.map (·.sql)) :
    Rejoins dbType items := by
  intro part hpart
  obtain ⟨tail, hpart, htail⟩ := List.infix_iff_prefix_suffix.mp hpart
  exact h tail ((mem_tails _ _).mpr htail) part ((mem_inits _ _).mpr hpart)

end GoNavi.Sqlfile
