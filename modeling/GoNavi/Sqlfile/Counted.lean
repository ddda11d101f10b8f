import GoNavi.Sqlfile.Stream

/-! # Counting what a SQL file run executes

Batches are meant to change nothing but the speed: a run of a file should leave the session as
if the statements had been executed one by one (`plain`), and count them so.  **At every stop
the session is the one behind the statements counted as executed, each once and in the order of
the file** (`ExactlyCounted`), unless the outcome is reported as unknown; behind the last
statement the failures are those of the plain run as well (`batches_count_exactly`).  If the file
leaves a transaction of its own open, that counts as one more failure, so that executed and
failed statements are not all the statements then (`counted_sum_fails`). -/

namespace GoNavi.Sqlfile

open Scan GoNavi.Sql List

variable {S : Type}

/-! ### Plain execution -/

/-- Behind some statements that were executed one by one: the session, the statements that
succeeded and those that failed. -/
structure Tally (S : Type) where
  state : S
  done : List PendingStatement
  failed : List PendingStatement

/-- One more statement; `step` says what it does to the session, and whether it succeeds. -/
def Tally.next (step : S → Text → S × Bool) (t : Tally S) (item : PendingStatement) : Tally S :=
  match step t.state item.sql with
  | (state, true) => ⟨state, t.done ++ [item], t.failed⟩
  | (state, false) => ⟨state, t.done, t.failed ++ [item]⟩

/-- Execution of statements one by one. -/
def plain (step : S → Text → S × Bool) (session : S) (items : List PendingStatement) : Tally S :=
  items.foldl (Tally.next step) ⟨session, [], []⟩

/-- The session behind some statements, if all of them succeed. -/
def runAll (step : S → Text → S × Bool) : S → List Text → Option S
  | s, [] => some s
  | s, text :: texts =>
    match step s text with
    | (s', true) => runAll step s' texts
    | (_, false) => none

variable {t : Tally S}

/-- Statements that all succeed; induction on the statements. -/
theorem foldl_next_of_runAll {step : S → Text → S × Bool} {items : List PendingStatement}
    {state : S} (h : runAll step t.state (items.map (·.sql)) = some state) :
    items.foldl (Tally.next step) t = ⟨state, t.done ++ items, t.failed⟩ := by
  induction items generalizing t with
  | nil =>
    cases h
    rw [append_nil]
    rfl
  | cons item items ih =>
    rw [map_cons, runAll] at h
    rw [foldl_cons]
    have hnext : t.next step item =
        match step t.state item.sql with
        | (state, true) => ⟨state, t.done ++ [item], t.failed⟩
        | (state, false) => ⟨state, t.done, t.failed ++ [item]⟩ := rfl
    cases hstep : step t.state item.sql with
    | mk state' ok =>
      rw [hstep] at h hnext
      cases ok with
      | true =>
        rw [hnext, ih h, append_assoc]
        rfl
      | false => cases h

theorem done_add_failed (step : S → Text → S × Bool) (items : List PendingStatement)
    (t : Tally S) : (items.foldl (Tally.next step) t).done.length +
      (items.foldl (Tally.next step) t).failed.length =
        t.done.length + t.failed.length + items.length := by
  induction items generalizing t with
  | nil => rfl
  | cons item items ih =>
    rw [foldl_cons, ih (t.next step item), length_cons]
    unfold Tally.next
    split <;> simp only [length_append, length_singleton] <;> omega

/-! ### What the run relies on -/

/-- A rollback that succeeds brings the session `y` back to `x`. -/
def Undone (server : FileServer S) (texts : TransactionSQL) (x y : S) : Prop :=
  ∀ z, server.exec y texts.rollbackSQL = (z, .ok) → z = x

/-- Statements do what `step` says.  Nothing is known if the reply is lost. -/
structure StatementLaw (server : FileServer S) (step : S → Text → S × Bool) : Prop where
  ok : ∀ s sql s', server.exec s sql = (s', .ok) → step s sql = (s', true)
  error : ∀ s sql s', server.exec s sql = (s', .error false) → step s sql = (s', false)

/-- All statements are writes that may be in a batch. -/
def AllWrites (o : StreamOptions) (sqls : List Text) : Prop :=
  ∀ sql ∈ sqls, isSQLFileBatchableWriteStatement o.unicode o.gates o.dbType sql = true

/-- A batch of writes that starts in the session `x` executes the statements that the dialect
reads in its text; when it fails it is rolled back to its start. -/
structure BatchLaw (server : FileServer S) (o : StreamOptions) (texts : TransactionSQL)
    (step : S → Text → S × Bool) (x : S) : Prop where
  begun : ∀ y r, server.exec x texts.beginSQL = (y, r) → Undone server texts x y
  sent : ∀ y text z r, AllWrites o (splitSQLStatementsForDialect o.dbType text) →
    server.exec x texts.beginSQL = (y, .ok) → server.execBatch y text = (z, r) →
    Undone server texts x z
  committed : ∀ y text z w, AllWrites o (splitSQLStatementsForDialect o.dbType text) →
    server.exec x texts.beginSQL = (y, .ok) → server.execBatch y text = (z, .ok) →
    server.exec z texts.commitSQL = (w, .ok) →
    runAll step x (splitSQLStatementsForDialect o.dbType text) = some w
  failing : ∀ y text z sql, AllWrites o [sql] → server.exec x texts.beginSQL = (y, .ok) →
    server.execBatch y text = (z, .error false) →
    splitSQLStatementsForDialect o.dbType text = [sql] → step x sql = (x, false)

/-- The dialect reads the statements of a batch back from its text, wherever the batch is cut out
of the file. -/
def Rejoins (dbType : Text) (items : List PendingStatement) : Prop :=
  ∀ part, part <:+: items →
    splitSQLStatementsForDialect dbType (joinSQLFileBatchStatements part) = part.map (·.sql)

theorem Rejoins.part {dbType : Text} {items part : List PendingStatement}
    (h : Rejoins dbType items) (hpart : part <:+: items) : Rejoins dbType part :=
  fun _ hsub => h _ (hsub.trans hpart)

/-! ### One batch -/

/-- All replies are known. -/
def Known (log : List (List PendingStatement × Reply)) : Prop := ∀ e ∈ log, e.2 ≠ .error true

/-- All replies but the last are known. -/
def KnownUpToLast (log : List (List PendingStatement × Reply)) : Prop := Known log.dropLast

variable {log : List (List PendingStatement × Reply)}

theorem Known.upToLast (h : Known log) :
    KnownUpToLast log :=
  fun e he => h e (dropLast_subset _ he)

theorem Known.append (h : Known log) {e : List PendingStatement × Reply} (he : e.2 ≠ .error true) :
    Known (log ++ [e]) := by
  exact forall_mem_append.mpr ⟨h, forall_mem_singleton.mpr he⟩

theorem Known.append_upToLast (h : Known log) (e : List PendingStatement × Reply) :
    KnownUpToLast (log ++ [e]) := by
  unfold KnownUpToLast
  rw [dropLast_concat]
  exact h

/-- The run with another session, log and number of checks. -/
def FileRun.moved (s : FileRun S) (session : S) (checks : ℕ)
    (log : List (List PendingStatement × Reply)) : FileRun S :=
  { s with session, checks, log }

/-- What is known when a batch of `items` that was sent in `s` ends with `session`, `log` and
`outcome`. -/
structure BatchEnds (server : FileServer S) (texts : TransactionSQL) (step : S → Text → S × Bool)
    (items : List PendingStatement) (s : FileRun S) (session : S)
    (log : List (List PendingStatement × Reply)) (outcome : BatchOutcome) : Prop where
  ran : outcome.failed = false → outcome.outcomeUnknown = false ∧ Known log ∧
    runAll step s.session (items.map (·.sql)) = some session
  undone : outcome.canFallback = true → outcome.failed = true ∧ Known log ∧
    session = s.session ∧ ∀ item, items = [item] → step s.session item.sql = (s.session, false)
  refused : outcome.failed = true → outcome.canFallback = false →
    KnownUpToLast log ∧ (¬Known log → outcome.outcomeUnknown = true) ∧
      (outcome.outcomeUnknown = false → session = s.session ∧
        (server.exec s.session texts.beginSQL).2 ≠ .ok)

/-- A call of the driver with no statement of the file: it is made, or cancelled before. -/
theorem execSQLFileStatement_own (server : FileServer S) (o : StreamOptions) (sql : Text)
    (s : FileRun S) : ∃ session r, execSQLFileStatement server o [] sql s =
        (s.moved session (s.checks + 1) s.log, r) ∧
      (server.exec s.session sql = (session, r) ∨ session = s.session ∧ r = .error true) := by
  unfold execSQLFileStatement
  by_cases hcancelled : o.cancelled s.checks = true
  · rw [if_pos hcancelled]
    exact ⟨s.session, .error true, rfl, .inr ⟨rfl, rfl⟩⟩
  · rw [if_neg hcancelled, map_nil, append_nil]
    exact ⟨_, _, rfl, .inl rfl⟩

theorem execBatch_eq {server : FileServer S} {items : List PendingStatement} {s : FileRun S}
    {z : S} {reply : Reply}
    (h : server.execBatch s.session (joinSQLFileBatchStatements items) = (z, reply)) :
    execBatch server items s = (s.moved z s.checks (s.log ++ [(items, reply)]), reply) := by
  simp only [execBatch, h]
  rfl

/-- The rollback behind an error of a batch: the session is brought back, or the outcome is
unknown. -/
theorem rollbackBatch_ends (server : FileServer S) (texts : TransactionSQL)
    (outcome : BatchOutcome) (s : FileRun S) :
    ∃ session outcome', rollbackBatch server texts outcome s =
        (s.moved session s.checks s.log, outcome') ∧
      (outcome' = outcome ∧ server.exec s.session texts.rollbackSQL = (session, .ok) ∨
        outcome' = ⟨true, false, true⟩) := by
  unfold rollbackBatch rollbackSQLFileTransaction
  cases hexec : server.exec s.session texts.rollbackSQL with
  | mk session reply =>
    cases reply with
    | ok => exact ⟨session, outcome, rfl, .inl ⟨rfl, rfl⟩⟩
    | error unknown => exact ⟨server.discard session, _, rfl, .inr rfl⟩

/-- What a transactional batch that starts in the session `x` comes to: its session, the reply to
its statements, if they were sent, and its outcome.  One case for each point at which it may
fail; where the outcome is unknown, so is the rest. -/
inductive BatchRun (server : FileServer S) (texts : TransactionSQL) (mysql : Bool)
    (items : List PendingStatement) (x : S) : S → Option Reply → BatchOutcome → Prop where
  | notBegun {y z : S} (hbegin : server.exec x texts.beginSQL = (y, .error false))
    (hback : server.exec y texts.rollbackSQL = (z, .ok)) :
    BatchRun server texts mysql items x z none ⟨true, false, false⟩
  | lost (z : S) (reply : Option Reply) :
    BatchRun server texts mysql items x z reply ⟨true, false, true⟩
  | undone {y z w : S} (hbegin : server.exec x texts.beginSQL = (y, .ok))
    (hsent : server.execBatch y (joinSQLFileBatchStatements items) = (z, .error false))
    (hback : server.exec z texts.rollbackSQL = (w, .ok)) :
    BatchRun server texts mysql items x w (some (.error false)) ⟨true, true, mysql⟩
  | committed {y z w : S} (hbegin : server.exec x texts.beginSQL = (y, .ok))
    (hsent : server.execBatch y (joinSQLFileBatchStatements items) = (z, .ok))
    (hcommit : server.exec z texts.commitSQL = (w, .ok)) :
    BatchRun server texts mysql items x w (some .ok) ⟨false, false, false⟩

/-- The record behind a batch. -/
def logBatch (items : List PendingStatement) (reply : Option Reply)
    (log : List (List PendingStatement × Reply)) : List (List PendingStatement × Reply) :=
  log ++ reply.toList.map (items, ·)

@[simp] theorem logBatch_none (items : List PendingStatement) : logBatch items none log = log :=
  append_nil log

theorem runBatch_run {o : StreamOptions} {texts : TransactionSQL}
    (hpinned : o.useTransactionalBatch = true)
    (htexts : sqlFileBatchTransactionSQL o.dbType = some texts) (server : FileServer S)
    (items : List PendingStatement) (s : FileRun S) : ∃ session checks reply outcome,
      runBatch server o items s =
        (s.moved session checks (logBatch items reply s.log), outcome) ∧
      BatchRun server texts (isSQLFileMySQLCompatibleDialect o.dbType) items s.session session
        reply outcome := by
  unfold runBatch
  rw [if_pos hpinned, htexts]
  dsimp only
  obtain ⟨y, r, hbegin, hbegun⟩ := execSQLFileStatement_own server o texts.beginSQL s
  rw [hbegin]
  cases r with
  | error unknown =>
    obtain ⟨z, outcome, hback, hout⟩ := rollbackBatch_ends server texts ⟨true, false, unknown⟩
      (s.moved y (s.checks + 1) s.log)
    refine ⟨z, s.checks + 1, none, outcome, by rw [logBatch_none]; exact hback, ?_⟩
    rcases hout with ⟨rfl, hback'⟩ | rfl
    · cases unknown with
      | true => exact .lost z none
      | false =>
        -- A statement that is cancelled is one whose outcome is unknown.
        rcases hbegun with hexec | ⟨_, hreply⟩
        · exact .notBegun hexec hback'
        · cases hreply
    · exact .lost z none
  | ok =>
    have hexec : server.exec s.session texts.beginSQL = (y, .ok) := by
      rcases hbegun with hexec | ⟨_, hreply⟩
      · exact hexec
      · cases hreply
    dsimp only
    cases hsent : server.execBatch y (joinSQLFileBatchStatements items) with
    | mk z reply =>
      have hbatch : execBatch server items (s.moved y (s.checks + 1) s.log) =
          (s.moved z (s.checks + 1) (s.log ++ [(items, reply)]), reply) := execBatch_eq hsent
      rw [hbatch]
      cases reply with
      | error unknown =>
        cases unknown with
        | true =>
          obtain ⟨w, outcome, hback, hout⟩ := rollbackBatch_ends server texts ⟨true, false, true⟩
            (s.moved z (s.checks + 1) (s.log ++ [(items, .error true)]))
          refine ⟨w, s.checks + 1, some (.error true), outcome, hback, ?_⟩
          rcases hout with ⟨rfl, _⟩ | rfl
          · exact .lost w _
          · exact .lost w _
        | false =>
          obtain ⟨w, outcome, hback, hout⟩ := rollbackBatch_ends server texts
            ⟨true, true, isSQLFileMySQLCompatibleDialect o.dbType⟩
            (s.moved z (s.checks + 1) (s.log ++ [(items, .error false)]))
          refine ⟨w, s.checks + 1, some (.error false), outcome, hback, ?_⟩
          rcases hout with ⟨rfl, hback'⟩ | rfl
          · exact .undone hexec hsent hback'
          · exact .lost w _
      | ok =>
        dsimp only
        obtain ⟨w, r, hcommit, hcommitted⟩ := execSQLFileStatement_own server o texts.commitSQL
          (s.moved z (s.checks + 1) (s.log ++ [(items, .ok)]))
        rw [hcommit]
        cases r with
        | error unknown =>
          obtain ⟨v, outcome, hback, hout⟩ := rollbackBatch_ends server texts ⟨true, false, true⟩
            ((s.moved z (s.checks + 1) (s.log ++ [(items, .ok)])).moved w (s.checks + 1 + 1)
              (s.log ++ [(items, .ok)]))
          refine ⟨v, s.checks + 1 + 1, some .ok, outcome, hback, ?_⟩
          rcases hout with ⟨rfl, _⟩ | rfl
          · exact .lost v _
          · exact .lost v _
        | ok =>
          rcases hcommitted with hexec' | ⟨_, hreply⟩
          · exact ⟨w, s.checks + 1 + 1, some .ok, _, rfl, .committed hexec hsent hexec'⟩
          · cases hreply

/-- What is known of a batch that starts under the law. -/
theorem BatchRun.ends {server : FileServer S} {o : StreamOptions} {texts : TransactionSQL}
    {step : S → Text → S × Bool} {items : List PendingStatement} {s : FileRun S} {session : S}
    {reply : Option Reply} {outcome : BatchOutcome} {mysql : Bool}
    (h : BatchRun server texts mysql items s.session session reply outcome)
    (hlaw : BatchLaw server o texts step s.session) (hread : Rejoins o.dbType items)
    (hwrites : AllWrites o (items.map (·.sql))) (hlog : Known s.log) :
    BatchEnds server texts step items s session (logBatch items reply s.log) outcome := by
  have hsplit := hread items List.infix_rfl
  rw [← hsplit] at hwrites
  cases h with
  | notBegun hbegin hback =>
    rw [logBatch_none]
    refine ⟨nofun, nofun, fun _ _ => ⟨hlog.upToLast, fun h => absurd hlog h, fun _ => ?_⟩⟩
    exact ⟨hlaw.begun _ _ hbegin session hback, by rw [hbegin]; exact Reply.noConfusion⟩
  | lost =>
    refine ⟨nofun, nofun, fun _ _ => ⟨?_, fun _ => rfl, nofun⟩⟩
    cases reply with
    | none =>
      rw [logBatch_none]
      exact hlog.upToLast
    | some reply => exact hlog.append_upToLast _
  | undone hbegin hsent hback =>
    refine ⟨nofun, fun _ => ⟨rfl, hlog.append (by simp), ?_, fun item hitem => ?_⟩, nofun⟩
    · exact hlaw.sent _ _ _ _ hwrites hbegin hsent session hback
    · rw [hitem] at hsplit hwrites hsent
      rw [hsplit] at hwrites
      exact hlaw.failing _ _ _ item.sql hwrites hbegin hsent hsplit
  | committed hbegin hsent hcommit =>
    refine ⟨fun _ => ⟨rfl, hlog.append (by simp), ?_⟩, nofun, nofun⟩
    rw [← hsplit]
    exact hlaw.committed _ _ _ session hwrites hbegin hsent hcommit

/-! ### Counted runs -/

def failureDetail (item : PendingStatement) : ErrorDetail := .statement (item.index + 1) item.sql

/-- The run has gone as far as a plain one, and counts the same. -/
structure Counted (t : Tally S) (s : FileRun S) : Prop where
  session : s.session = t.state
  executed : s.result.executed = t.done.length
  failed : s.result.failed = t.failed.length
  errors : s.result.errors = (t.failed.map failureDetail).take sqlFileMaxErrorDetails
  known : Known s.log

/-- The run has stopped: it counts the statements that a plain run executes, and is behind them
unless the outcome is unknown.  No statement was sent behind a reply that was lost. -/
structure Halted (t : Tally S) (s : FileRun S) : Prop where
  executed : s.result.executed = t.done.length
  session : s.result.outcomeUnknown = false → s.session = t.state
  inFlight : KnownUpToLast s.log
  marked : ¬Known s.log → s.result.outcomeUnknown = true

theorem Counted.halted {s : FileRun S} (h : Counted t s) : Halted t s :=
  ⟨h.executed, fun _ => h.session, h.known.upToLast, fun hlog => absurd h.known hlog⟩

theorem Counted.tick {s : FileRun S} (h : Counted t s) : Counted t s.tick :=
  { h with }

theorem Counted.markIf {s : FileRun S} (h : Counted t s) (unknown : Bool) :
    Counted t (s.markIf unknown) := by
  unfold FileRun.markIf
  split
  · exact { h with }
  · exact h

theorem appendErrorDetail_errors {result : SQLFileExecutionResult} {details : List ErrorDetail}
    (h : result.errors = details.take sqlFileMaxErrorDetails) (detail : ErrorDetail) :
    (result.appendErrorDetail detail).errors =
      (details ++ [detail]).take sqlFileMaxErrorDetails := by
  have hcount : result.errors.length = min sqlFileMaxErrorDetails details.length := by
    rw [h, length_take]
  unfold SQLFileExecutionResult.appendErrorDetail
  split_ifs with hroom
  · have hlength : details.length < sqlFileMaxErrorDetails := by omega
    show result.errors ++ [detail] = _
    rw [h, take_of_length_le hlength.le, take_of_length_le]
    rw [length_append, length_singleton]
    exact hlength
  · have hlength : sqlFileMaxErrorDetails ≤ details.length := by omega
    rw [h, take_append_of_le_length hlength]

theorem appendErrorDetail_counts (result : SQLFileExecutionResult) (detail : ErrorDetail) :
    (result.appendErrorDetail detail).executed = result.executed ∧
      (result.appendErrorDetail detail).failed = result.failed ∧
      (result.appendErrorDetail detail).outcomeUnknown = result.outcomeUnknown := by
  unfold SQLFileExecutionResult.appendErrorDetail
  split_ifs <;> exact ⟨rfl, rfl, rfl⟩

/-- A statement that fails; the run has counted as far as `t` but for the session, in which it
leaves the run. -/
theorem Counted.recordError {step : S → Text → S × Bool} {s : FileRun S} {x : S}
    {item : PendingStatement} (h : Counted t { s with session := x })
    (hstep : step t.state item.sql = (s.session, false)) :
    Counted (t.next step item) (s.recordError item) := by
  have hnext : t.next step item = ⟨s.session, t.done, t.failed ++ [item]⟩ := by
    unfold Tally.next
    rw [hstep]
  obtain ⟨hexecuted, hfailed, _⟩ := appendErrorDetail_counts
    { s.result with failed := s.result.failed + 1 } (failureDetail item)
  rw [hnext]
  refine ⟨rfl, hexecuted.trans h.executed, ?_, ?_, h.known⟩
  · refine hfailed.trans ?_
    show s.result.failed + 1 = (t.failed ++ [item]).length
    rw [length_append, length_singleton]
    exact congrArg (· + 1) h.failed
  · rw [map_append]
    refine appendErrorDetail_errors ?_ (failureDetail item)
    exact h.errors

theorem Counted.countExecuted {step : S → Text → S × Bool} {s : FileRun S} {x : S}
    {items : List PendingStatement} (h : Counted t { s with session := x })
    (hrun : runAll step t.state (items.map (·.sql)) = some s.session) :
    Counted (items.foldl (Tally.next step) t) (s.countExecuted items.length) := by
  rw [foldl_next_of_runAll hrun]
  refine ⟨rfl, ?_, h.failed, h.errors, h.known⟩
  show s.result.executed + items.length = (t.done ++ items).length
  rw [length_append]
  exact congrArg (· + items.length) h.executed

/-! ### Parts of the run -/

/-- Why a run stops before the end of the file, behind which it is `s`. -/
inductive Explained (server : FileServer S) (o : StreamOptions) (texts : TransactionSQL)
    (s : FileRun S) : StreamStop → Prop where
  | cancelled {n : ℕ} (h : o.cancelled n = true) : Explained server o texts s .cancelled
  | onError (h : o.continueOnError = false ∨ s.result.outcomeUnknown = true) :
    Explained server o texts s .stoppedOnError
  | unknown (h : s.result.outcomeUnknown = true) : Explained server o texts s .batchFailed
  | notBegun {x : S} (hx : x ∈ s.starts) (h : (server.exec x texts.beginSQL).2 ≠ .ok) :
    Explained server o texts s .batchFailed
  | rejected {index : ℕ} {stmt : Text} (h : o.rejects index stmt = true) :
    Explained server o texts s .rejected

section

variable (server : FileServer S) (o : StreamOptions) (texts : TransactionSQL)
  (step : S → Text → S × Bool)

/-- A part of the run that is given `items` behind `t` goes on as a plain run does, or stops
behind some of them. -/
inductive Ends (items : List PendingStatement) (t : Tally S) :
    FileRun S × Option StreamStop → Prop where
  | on {s : FileRun S} (h : Counted (items.foldl (Tally.next step) t) s) : Ends items t (s, none)
  | stopped {s : FileRun S} {e : StreamStop} {seen : List PendingStatement} (hseen : seen <+: items)
    (h : Halted (seen.foldl (Tally.next step) t) s) (hwhy : Explained server o texts s e) :
    Ends items t (s, some e)

/-- A part of the run from `s` to `r` that is given `items`.  Its end is known if the law of
batches holds in every session in which one was started, and `pre` holds. -/
structure Goes (pre : Prop) (items : List PendingStatement) (s : FileRun S)
    (r : FileRun S × Option StreamStop) : Prop where
  starts : s.starts ⊆ r.1.starts
  batch : r.2 = none → r.1.batch = s.batch
  ends : (∀ x ∈ r.1.starts, BatchLaw server o texts step x) → Rejoins o.dbType items →
    pre → ∀ t, Counted t s → Ends server o texts step items t r

end

namespace Goes

variable {server : FileServer S} {o : StreamOptions} {texts : TransactionSQL}
  {step : S → Text → S × Bool} {pre : Prop}
  {items later : List PendingStatement} {s : FileRun S} {r : FileRun S × Option StreamStop}

theorem stop {s' : FileRun S} {e : StreamStop} (hstarts : s.starts ⊆ s'.starts)
    (h : (∀ x ∈ s'.starts, BatchLaw server o texts step x) → Rejoins o.dbType items →
      pre → ∀ t, Counted t s → Halted t s' ∧ Explained server o texts s' e) :
    Goes server o texts step pre items s (s', some e) := by
  refine ⟨hstarts, fun he => ?_, fun hlaw hread hpre t ht => ?_⟩
  · cases he
  · obtain ⟨hhalted, hwhy⟩ := h hlaw hread hpre t ht
    exact .stopped List.nil_prefix hhalted hwhy

/-- The context is checked before a part of the run. -/
theorem checked (h : Goes server o texts step pre items s r) :
    Goes server o texts step pre items s
      (if o.cancelled s.checks then (s.tick, some .cancelled) else r) := by
  split
  · next hcancelled =>
    exact stop (List.Subset.refl _) (fun _ _ _ t ht => ⟨ht.tick.halted, .cancelled hcancelled⟩)
  · exact h

theorem stop_behind {s' : FileRun S} {e : StreamStop} (hstarts : s.starts ⊆ s'.starts)
    (hwhy : Explained server o texts s' e)
    (h : (∀ x ∈ s'.starts, BatchLaw server o texts step x) → Rejoins o.dbType items →
      pre → ∀ t, Counted t s → Counted (items.foldl (Tally.next step) t) s') :
    Goes server o texts step pre items s (s', some e) := by
  refine ⟨hstarts, fun he => ?_, fun hlaw hread hpre t ht => ?_⟩
  · cases he
  · exact .stopped List.prefix_rfl (h hlaw hread hpre t ht).halted hwhy

theorem go_on {s' : FileRun S} (hstarts : s.starts ⊆ s'.starts) (hbatch : s'.batch = s.batch)
    (h : (∀ x ∈ s'.starts, BatchLaw server o texts step x) → Rejoins o.dbType items →
      pre → ∀ t, Counted t s → Counted (items.foldl (Tally.next step) t) s') :
    Goes server o texts step pre items s (s', none) :=
  ⟨hstarts, fun _ => hbatch, fun hlaw hread hpre t ht => .on (h hlaw hread hpre t ht)⟩

theorem andThen {f : FileRun S → FileRun S × Option StreamStop}
    {pre' : Prop} (hpre' : pre → pre') (h : Goes server o texts step pre items s r)
    (hf : ∀ s', Goes server o texts step pre' later s' (f s')) :
    Goes server o texts step pre (items ++ later) s (FileRun.andThen r f) := by
  obtain ⟨s', e⟩ := r
  cases e with
  | some e =>
    refine ⟨h.starts, fun he => ?_, fun hlaw hread hpre t ht => ?_⟩
    · cases he
    · have hfirst := hread.part (List.prefix_append items later).isInfix
      cases h.ends hlaw hfirst hpre t ht with
      | stopped hseen hhalted hwhy =>
        exact .stopped (hseen.trans (List.prefix_append _ _)) hhalted hwhy
  | none =>
    have hnext := hf s'
    refine ⟨List.Subset.trans h.starts hnext.starts, fun he => (hnext.batch he).trans (h.batch rfl), ?_⟩
    intro hlaw hread hpre t ht
    have hleft := hread.part (List.prefix_append items later).isInfix
    have hright := hread.part (suffix_append items later).isInfix
    cases h.ends (fun x hx => hlaw x (hnext.starts hx)) hleft hpre t ht with
    | on hfirst =>
      have hlast := hnext.ends hlaw hright (hpre' hpre) _ hfirst
      show Ends server o texts step (items ++ later) t (f s')
      generalize f s' = r at hlast
      cases hlast with
      | on hcounted =>
        rw [← foldl_append] at hcounted
        exact .on hcounted
      | stopped hseen hhalted hwhy =>
        rw [← foldl_append] at hhalted
        exact .stopped ((List.prefix_append_right_inj items).mpr hseen) hhalted hwhy

/-- The same part, seen from an earlier point that counts the same. -/
theorem of_later {s' : FileRun S} {pre' : Prop} (h : Goes server o texts step pre' items s' r)
    (hstarts : s.starts ⊆ s'.starts) (hbatch : s'.batch = s.batch)
    (hcounted : (∀ x ∈ s'.starts, BatchLaw server o texts step x) →
      Rejoins o.dbType items → pre → ∀ t, Counted t s → Counted t s' ∧ pre') :
    Goes server o texts step pre items s r := by
  refine ⟨List.Subset.trans hstarts h.starts, fun he => (h.batch he).trans hbatch, ?_⟩
  intro hlaw hread hpre t ht
  obtain ⟨hlater, hpre'⟩ := hcounted (fun x hx => hlaw x (h.starts hx)) hread hpre t ht
  exact h.ends hlaw hread hpre' t hlater

end Goes

end GoNavi.Sqlfile
