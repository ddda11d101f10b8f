import GoNavi.Sqlfile.Covered
import GoNavi.Sqlfile.FileCounts

/-! # Nothing is left open

A run of a file on a session of its own that ends without an error should leave no transaction
open on it, and no batch should start in a transaction of the file (`LeavesNothingOpen`).  The
trackers do not know of `SET IMPLICIT_TRANSACTIONS`, nor of a transaction that a statement opens
in its middle, so that this fails (`nothingOpen_fails`).  **It holds of every run whose statements
are recognised when they are sent** (`nothing_left_open`). -/

namespace GoNavi.Sqlfile

open List

open Scan GoNavi.Sql Dialects

variable {S : Type}

/-- The server follows the rules of its dialect in the commands that it `reads`; `tx` is the
transaction of a session. -/
structure FollowsRules (server : FileServer S) (dbType : Text)
    (reads : Text → List (Command Text)) (tx : S → Tx Text) : Prop where
  ok : ∀ s sql s', server.exec s sql = (s', .ok) →
    tx s' = (tx s).run (familyOf dbType) (reads sql)
  failed : ∀ s sql s' c, server.exec s sql = (s', .error false) → reads sql = [c] →
    Fails (familyOf dbType) c (tx s) (tx s')
  /-- Of a batch that fails a first part may have been executed. -/
  batch : ∀ s text s' r, server.execBatch s text = (s', r) → r ≠ .error true →
    ∃ n, tx s' = (tx s).run (familyOf dbType) ((reads text).take n)
  own : ∀ texts, sqlFileBatchTransactionSQL dbType = some texts →
    reads texts.beginSQL = [.begin none] ∧ reads texts.commitSQL = [.commit false] ∧
      reads texts.rollbackSQL = [.rollback false]

section

variable (o : StreamOptions) (reads : Text → List (Command Text)) (isTran : Text → Prop)
  (tx : S → Tx Text)

/-- Each statement that was sent alone was recognised then, and each batch of writes is read as
work. -/
structure Met (s : FileRun S) : Prop where
  statements : ∀ e ∈ s.sent, ∃ c, reads e.2 = [c] ∧ RecognisedAs o isTran (tx e.1) e.2 c
  batches : ∀ e ∈ s.log, AllWrites o (e.1.map (·.sql)) →
    ∀ c ∈ reads (joinSQLFileBatchStatements e.1), c.quiet = true

/-- No batch was started in a transaction. -/
def StartsIdle (s : FileRun S) : Prop := ∀ x ∈ s.starts, ¬(tx x).Open

/-- A part of the run from `s` to `r` takes `P` to `Q`. -/
structure Keeps (P Q : FileRun S → Prop) (s : FileRun S) (r : FileRun S × Option StreamStop) :
    Prop where
  sent : s.sent ⊆ r.1.sent
  log : s.log ⊆ r.1.log
  keeps : Met o reads isTran tx r.1 → StartsIdle tx s → P s →
    StartsIdle tx r.1 ∧ (r.2 = none → Q r.1)

end

section

variable {server : FileServer S} {o : StreamOptions} {reads : Text → List (Command Text)}
  {isTran : Text → Prop} {tx : S → Tx Text} {P Q R : FileRun S → Prop} {s : FileRun S}

variable {s' : FileRun S}

theorem Met.of_later (h : Met o reads isTran tx s') (hsent : s.sent ⊆ s'.sent)
    (hlog : s.log ⊆ s'.log) : Met o reads isTran tx s :=
  ⟨fun e he => h.statements e (hsent he), fun e he => h.batches e (hlog he)⟩

namespace Keeps

theorem stop {e : StreamStop} (hsent : s.sent ⊆ s'.sent) (hlog : s.log ⊆ s'.log)
    (hstarts : Met o reads isTran tx s' → StartsIdle tx s → P s → StartsIdle tx s') :
    Keeps o reads isTran tx P Q s (s', some e) := by
  refine ⟨hsent, hlog, fun hmet hidle hp => ⟨hstarts hmet hidle hp, fun h => ?_⟩⟩
  cases h

theorem halt {e : StreamStop} (hsent : s'.sent = s.sent := by rfl)
    (hlog : s'.log = s.log := by rfl) (hstarts : s'.starts = s.starts := by rfl) :
    Keeps o reads isTran tx P Q s (s', some e) := by
  refine stop (hsent ▸ List.Subset.refl _) (hlog ▸ List.Subset.refl _) (fun _ hidle _ => ?_)
  unfold StartsIdle
  rw [hstarts]
  exact hidle

/-- The context is checked before a part of the run. -/
theorem checked {r : FileRun S × Option StreamStop} (h : Keeps o reads isTran tx P Q s r) :
    Keeps o reads isTran tx P Q s (if o.cancelled s.checks then (s.tick, some .cancelled) else r) := by
  split
  · exact halt
  · exact h

theorem go_on (hsent : s.sent ⊆ s'.sent) (hlog : s.log ⊆ s'.log)
    (hq : Met o reads isTran tx s' → StartsIdle tx s → P s → StartsIdle tx s' ∧ Q s') :
    Keeps o reads isTran tx P Q s (s', none) :=
  ⟨hsent, hlog, fun hmet hidle hp =>
    ⟨(hq hmet hidle hp).1, fun _ => (hq hmet hidle hp).2⟩⟩

/-- Nothing is sent, and no batch is started. -/
theorem stay (h : P s → Q s') (hsent : s'.sent = s.sent := by rfl) (hlog : s'.log = s.log := by rfl)
    (hstarts : s'.starts = s.starts := by rfl) : Keeps o reads isTran tx P Q s (s', none) := by
  refine go_on (hsent ▸ List.Subset.refl _) (hlog ▸ List.Subset.refl _) (fun _ hidle hp => ?_)
  refine ⟨?_, h hp⟩
  unfold StartsIdle
  rw [hstarts]
  exact hidle

variable {r : FileRun S × Option StreamStop}

theorem weaken {Q' : FileRun S → Prop} (h : Keeps o reads isTran tx P Q s r)
    (hq : ∀ s, Q s → Q' s) :
    Keeps o reads isTran tx P Q' s r :=
  ⟨h.sent, h.log, fun hmet hidle hp =>
    ⟨(h.keeps hmet hidle hp).1, fun he => hq _ ((h.keeps hmet hidle hp).2 he)⟩⟩

theorem of_later {P' : FileRun S → Prop} (h : Keeps o reads isTran tx P' Q s' r)
    (hsent : s.sent ⊆ s'.sent) (hlog : s.log ⊆ s'.log)
    (hstep : Met o reads isTran tx s' → StartsIdle tx s → P s → StartsIdle tx s' ∧ P' s') :
    Keeps o reads isTran tx P Q s r := by
  refine ⟨List.Subset.trans hsent h.sent, List.Subset.trans hlog h.log, ?_⟩
  intro hmet hidle hp
  obtain ⟨hidle', hp'⟩ := hstep (hmet.of_later h.sent h.log) hidle hp
  exact h.keeps hmet hidle' hp'

theorem behind {P' : FileRun S → Prop} (h : Keeps o reads isTran tx P' Q s' r)
    (hstep : P s → P' s') (hsent : s'.sent = s.sent := by rfl) (hlog : s'.log = s.log := by rfl)
    (hstarts : s'.starts = s.starts := by rfl) : Keeps o reads isTran tx P Q s r := by
  refine h.of_later (hsent ▸ List.Subset.refl _) (hlog ▸ List.Subset.refl _) (fun _ hidle hp => ?_)
  refine ⟨?_, hstep hp⟩
  unfold StartsIdle
  rw [hstarts]
  exact hidle

theorem andThen {f : FileRun S → FileRun S × Option StreamStop}
    (h : Keeps o reads isTran tx P Q s r) (hf : ∀ s', Keeps o reads isTran tx Q R s' (f s')) :
    Keeps o reads isTran tx P R s (FileRun.andThen r f) := by
  obtain ⟨s', e⟩ := r
  cases e with
  | some e =>
    refine ⟨h.sent, h.log, fun hmet hidle hp => ⟨(h.keeps hmet hidle hp).1, fun he => ?_⟩⟩
    cases he
  | none =>
    have hnext := hf s'
    refine ⟨List.Subset.trans h.sent hnext.sent, List.Subset.trans h.log hnext.log, ?_⟩
    intro hmet hidle hp
    obtain ⟨hidle', hq⟩ := h.keeps (hmet.of_later hnext.sent hnext.log) hidle hp
    exact hnext.keeps hmet hidle' (hq rfl)

end Keeps

/-! ### What the trackers read is the same -/

structure SameTrackers (s s' : FileRun S) : Prop where
  depth : s'.userTransactionDepth = s.userTransactionDepth
  tracker : s'.sqlServerTransaction = s.sqlServerTransaction
  disabled : s'.mysqlAutocommitDisabled = s.mysqlAutocommitDisabled
  active : s'.mysqlAutocommitTransactionActive = s.mysqlAutocommitTransactionActive
  unknown : s'.mysqlAutocommitStateUnknown = s.mysqlAutocommitStateUnknown

theorem Covers.of_same {family : Family} {committed : Bool} {t : Tx Text}
    (h : Covers family isTran committed s t) (hs : SameTrackers s s') :
    Covers family isTran committed s' t := by
  constructor
  · rw [hs.depth, hs.active]
    exact h.opened
  · rw [hs.disabled]
    exact h.on
  · rw [hs.disabled, hs.unknown]
    exact h.off
  · rw [hs.disabled]
    exact h.mode
  · rw [hs.depth, hs.tracker]
    exact h.counted
  · rw [hs.tracker]
    exact h.outer
  · exact h.names

theorem markIf_trackers (unknown : Bool) (s : FileRun S) : SameTrackers s (s.markIf unknown) := by
  unfold FileRun.markIf
  split <;> exact ⟨rfl, rfl, rfl, rfl, rfl⟩

theorem markIf_log (unknown : Bool) (s : FileRun S) : (s.markIf unknown).log = s.log := by
  unfold FileRun.markIf
  split <;> rfl

theorem markIf_sent (unknown : Bool) (s : FileRun S) : (s.markIf unknown).sent = s.sent := by
  unfold FileRun.markIf
  split <;> rfl

/-! ### One statement -/

/-- All but the result and the number of checks is the same. -/
structure SameButResult (s s' : FileRun S) : Prop where
  session : s'.session = s.session
  starts : s'.starts = s.starts
  batch : s'.batch = s.batch
  sent : s'.sent = s.sent
  log : s'.log = s.log
  trackers : SameTrackers s s'

theorem markIf_same (unknown : Bool) (s : FileRun S) : SameButResult s (s.markIf unknown) :=
  ⟨markIf_session unknown s, markIf_starts unknown s, markIf_batch unknown s,
    markIf_sent unknown s, markIf_log unknown s, markIf_trackers unknown s⟩

theorem failSingle_same (item : PendingStatement) (unknown : Bool) (s : FileRun S) :
    ∃ s' e, failSingle o item unknown s = (s', e) ∧ SameButResult s s' ∧
      (e = none → unknown = false) := by
  unfold failSingle
  dsimp only
  generalize (unknown || sqlFileStatementFinishesTransaction item.sql) = marked
  have hsame := markIf_same marked s
  split_ifs with _ hstop
  · refine ⟨_, _, rfl, ⟨hsame.session, hsame.starts, hsame.batch, hsame.sent, hsame.log,
      ⟨hsame.trackers.depth, hsame.trackers.tracker, hsame.trackers.disabled,
        hsame.trackers.active, hsame.trackers.unknown⟩⟩, fun h => ?_⟩
    cases h
  · refine ⟨_, _, rfl, ⟨hsame.session, hsame.starts, hsame.batch, hsame.sent, hsame.log,
      ⟨hsame.trackers.depth, hsame.trackers.tracker, hsame.trackers.disabled,
        hsame.trackers.active, hsame.trackers.unknown⟩⟩, fun h => ?_⟩
    cases h
  · refine ⟨_, _, rfl, ⟨hsame.session, hsame.starts, hsame.batch, hsame.sent, hsame.log,
      ⟨hsame.trackers.depth, hsame.trackers.tracker, hsame.trackers.disabled,
        hsame.trackers.active, hsame.trackers.unknown⟩⟩, fun _ => ?_⟩
    rw [Bool.or_eq_true, not_or] at hstop
    exact Bool.eq_false_iff.mpr hstop.1

/-- What `executeSingle` makes of a run; `goesOn` if it does not stop. -/
structure SingleMoves (server : FileServer S) (o : StreamOptions) (item : PendingStatement)
    (s s' : FileRun S) (goesOn ok : Bool) : Prop where
  starts : s'.starts = s.starts
  batch : s'.batch = s.batch
  sent : s.sent ⊆ s'.sent
  log : s.log ⊆ s'.log
  made : goesOn = true → (s.session, item.sql) ∈ s'.sent ∧ (∃ r, ([item], r) ∈ s'.log) ∧
    server.exec s.session item.sql = (s'.session, if ok then .ok else .error false) ∧
      SameTrackers (beforeSingle o item s) s'

theorem executeSingle_moves (server : FileServer S) (o : StreamOptions) (item : PendingStatement)
    (s : FileRun S) : ∃ s' e ok, executeSingle server o item s = ((s', e), ok) ∧
      SingleMoves server o item s s' e.isNone ok := by
  have hbefore : (beforeSingle o item s).starts = s.starts ∧
      (beforeSingle o item s).batch = s.batch ∧ (beforeSingle o item s).sent = s.sent ∧
      (beforeSingle o item s).log = s.log ∧ (beforeSingle o item s).session = s.session := by
    unfold beforeSingle
    split <;> exact ⟨rfl, rfl, rfl, rfl, rfl⟩
  obtain ⟨hstarts, hbatch, hsent, hlog, hsession⟩ := hbefore
  unfold executeSingle
  generalize hs : beforeSingle o item s = s₀ at hstarts hbatch hsent hlog hsession ⊢
  by_cases hcancelled : o.cancelled s₀.checks = true
  · rw [if_pos hcancelled]
    refine ⟨_, _, _, rfl, hstarts, hbatch, ?_, ?_, fun h => ?_⟩
    · exact hsent ▸ List.Subset.refl _
    · exact hlog ▸ List.Subset.refl _
    · cases h
  rw [if_neg hcancelled]
  obtain ⟨session, r, log, sent, hrun, hmade⟩ := execSQLFileStatement_item server o item s₀.tick
  rw [hrun]
  have hsent' : s.sent ⊆ sent := by
    rw [← hsent]
    rcases hmade with ⟨_, _, rfl⟩ | ⟨_, _, rfl⟩
    · exact subset_append_left _ _
    · exact List.Subset.refl _
  have hlog' : s.log ⊆ log := by
    rw [← hlog]
    rcases hmade with ⟨_, rfl, _⟩ | ⟨_, rfl, _⟩
    · exact subset_append_left _ _
    · exact List.Subset.refl _
  cases r with
  | error unknown =>
    dsimp only
    obtain ⟨s', e, hfail, hsame, hknown⟩ := failSingle_same (o := o) item unknown
      { s₀.tick.moved session (s₀.tick.checks + 1) log with sent }
    rw [hfail]
    refine ⟨s', e, false, rfl, hsame.starts.trans hstarts, hsame.batch.trans hbatch, ?_, ?_, ?_⟩
    · rw [hsame.sent]
      exact hsent'
    · rw [hsame.log]
      exact hlog'
    · intro hgo
      have hunknown := hknown (Option.isNone_iff_eq_none.mp hgo)
      rw [hunknown] at hmade
      rcases hmade with ⟨hexec, hlogged, hsent⟩ | ⟨hreply, _⟩
      · rw [hsame.sent, hsame.log, hsame.session]
        show (s.session, item.sql) ∈ sent ∧ (∃ r, ([item], r) ∈ log) ∧ _
        rw [hlogged, hsent, ← hsession, hs]
        refine ⟨mem_append_right _ (mem_singleton_self _),
          ⟨_, mem_append_right _ (mem_singleton_self _)⟩, hexec, ?_⟩
        exact ⟨hsame.trackers.depth, hsame.trackers.tracker, hsame.trackers.disabled,
          hsame.trackers.active, hsame.trackers.unknown⟩
      · cases hreply
  | ok =>
    rcases hmade with ⟨hexec, hlogged, hsent⟩ | ⟨hreply, _⟩
    · refine ⟨_, _, _, rfl, hstarts, hbatch, hsent', hlog', fun _ => ?_⟩
      show (s.session, item.sql) ∈ sent ∧ (∃ r, ([item], r) ∈ log) ∧ _
      rw [hlogged, hsent, ← hsession, hs]
      exact ⟨mem_append_right _ (mem_singleton_self _),
        ⟨_, mem_append_right _ (mem_singleton_self _)⟩, hexec, ⟨rfl, rfl, rfl, rfl, rfl⟩⟩
    · cases hreply

/-! ### Batches -/

/-- The transaction `t'` behind a batch that started in `t`. -/
structure Quieted (t t' : Tx Text) : Prop where
  depth : t'.depth = 0
  autocommit : t'.autocommit = true
  savepoints : t'.savepoints ⊆ t.savepoints

theorem Quieted.of_closed {t t' : Tx Text} (h : t'.autocommit = true) : Quieted t t'.closed :=
  ⟨rfl, h, nil_subset _⟩

/-- A run between the statements of a batch: the server is idle, and the trackers know it. -/
structure Calm (o : StreamOptions) (isTran : Text → Prop) (tx : S → Tx Text) (s : FileRun S) :
    Prop where
  covers : Covers (familyOf o.dbType) isTran false s (tx s.session)
  depth : s.userTransactionDepth = 0
  disabled : s.mysqlAutocommitDisabled = false

theorem Calm.autocommit (h : Calm o isTran tx s) : (tx s.session).autocommit = true :=
  h.covers.on h.disabled

theorem Calm.closed (h : Calm o isTran tx s) : (tx s.session).depth = 0 := by
  refine Nat.eq_zero_of_not_pos (fun hopen => ?_)
  rcases h.covers.opened rfl hopen with hdepth | ⟨_, hoff⟩
  · rw [h.depth] at hdepth
    exact absurd hdepth (lt_irrefl 0)
  · exact Bool.noConfusion (h.autocommit.symm.trans hoff)

theorem Calm.of_quieted (h : Calm o isTran tx s) (hdepth : s'.userTransactionDepth = 0)
    (hdisabled : s'.mysqlAutocommitDisabled = s.mysqlAutocommitDisabled)
    (htracker : s'.sqlServerTransaction = s.sqlServerTransaction)
    (hq : Quieted (tx s.session) (tx s'.session)) : Calm o isTran tx s' := by
  have hoff := hdisabled.trans h.disabled
  refine ⟨⟨fun _ hopen => ?_, fun _ => hq.autocommit, fun hon => ?_, fun _ => hoff,
    fun hserver => ⟨?_, ?_⟩, fun hserver => ?_, fun hserver name hname => ?_⟩, hdepth, hoff⟩
  · unfold Tx.Open at hopen
    rw [hq.depth] at hopen
    exact absurd hopen (lt_irrefl 0)
  · exact Bool.noConfusion (hoff.symm.trans hon)
  · rw [hdepth, htracker, ← (h.covers.counted hserver).1, h.depth]
  · rw [hq.depth]
    exact Nat.zero_le _
  · rw [htracker]
    exact h.covers.outer hserver
  · exact h.covers.names hserver name (hq.savepoints hname)

variable (hrules : FollowsRules server o.dbType reads tx)

include hrules

theorem FollowsRules.one {sql : Text} {x y : S} {c : Command Text} (hread : reads sql = [c])
    (h : server.exec x sql = (y, .ok)) : tx y = (tx x).apply (familyOf o.dbType) c := by
  have hrun := hrules.ok x sql y h
  rw [hread] at hrun
  exact hrun

/-- A batch, and what it leaves if the run may go on behind it. -/
theorem runBatch_quieted (items : List PendingStatement) (s : FileRun S) :
    ∃ session checks log outcome,
      runBatch server o items s = (s.moved session checks log, outcome) ∧ s.log ⊆ log ∧
        ((∀ e ∈ log, e.1 = items → ∀ c ∈ reads (joinSQLFileBatchStatements items),
            c.quiet = true) →
          (tx s.session).depth = 0 → (tx s.session).autocommit = true →
          outcome.failed = false ∨ outcome.canFallback = true →
          Quieted (tx s.session) (tx session)) := by
  cases htexts : (if o.useTransactionalBatch then sqlFileBatchTransactionSQL o.dbType else none) with
  | none =>
    unfold runBatch
    rw [htexts]
    cases hsent : server.execBatch s.session (joinSQLFileBatchStatements items) with
    | mk z reply =>
      rw [execBatch_eq hsent]
      cases reply with
      | error unknown =>
        refine ⟨z, s.checks, _, ⟨true, false, unknown⟩, rfl, subset_append_left _ _, ?_⟩
        intro _ _ _ hgo
        simp at hgo
      | ok =>
        refine ⟨z, s.checks, _, ⟨false, false, false⟩, rfl, subset_append_left _ _, ?_⟩
        intro hquiet hclosed hauto _
        obtain ⟨n, hbatch⟩ := hrules.batch _ _ z .ok hsent (by simp)
        have hquieter := Tx.quieter_run (familyOf o.dbType) (tx s.session)
          (fun c hc => hquiet (items, .ok) (mem_append_right _ (mem_singleton_self _))
            rfl c (mem_of_mem_take (i := n) hc))
        rw [hbatch]
        refine ⟨?_, hquieter.autocommit.trans hauto, hquieter.savepoints⟩
        exact Nat.le_zero.mp (hclosed ▸ hquieter.depth hauto)
  | some texts =>
    have hpinned : o.useTransactionalBatch = true ∧
        sqlFileBatchTransactionSQL o.dbType = some texts := by
      split at htexts
      · exact ⟨‹_›, htexts⟩
      · cases htexts
    obtain ⟨hbeginText, hcommitText, hrollbackText⟩ := hrules.own texts hpinned.2
    obtain ⟨w, checks, reply, outcome, hrun, hbatch⟩ :=
      runBatch_run hpinned.1 hpinned.2 server items s
    refine ⟨w, checks, _, outcome, hrun, subset_append_left _ _, ?_⟩
    intro hquiet hclosed hauto hgo
    cases hbatch with
    | notBegun => simp at hgo
    | lost => simp at hgo
    | @undone y z w hbegin hsent hrollback =>
      obtain ⟨n, hz⟩ := hrules.batch _ _ z _ hsent (by simp)
      have hquieter := Tx.quieter_run (familyOf o.dbType) (tx y)
        (fun c hc => hquiet _ (mem_append_right _ mem_cons_self) rfl c (mem_of_mem_take (i := n) hc))
      rw [hrules.one hrollbackText hrollback, Tx.apply_rollback]
      refine .of_closed ?_
      show (tx z).autocommit = true
      rw [hz, hquieter.autocommit, hrules.one hbeginText hbegin,
        Tx.apply_autocommit _ _ (by simp), hauto]
    | @committed y z w hbegin hsent hcommit =>
      have hy := hrules.one hbeginText hbegin
      obtain ⟨n, hz⟩ := hrules.batch _ _ z _ hsent (by simp)
      have hquiet' : ∀ c ∈ (reads (joinSQLFileBatchStatements items)).take n, c.quiet = true :=
        fun c hc => hquiet _ (mem_append_right _ mem_cons_self) rfl c (mem_of_mem_take hc)
      have hquieter := Tx.quieter_run (familyOf o.dbType) (tx y) hquiet'
      rw [hrules.one hcommitText hcommit, hz, hy, Tx.begin_quiet_commit _ hclosed hauto hquiet']
      refine .of_closed ?_
      rw [← hy, hquieter.autocommit, hy, Tx.apply_autocommit _ _ (by simp), hauto]

/-- What a batch of `items` leaves behind. -/
structure BatchLeaves (o : StreamOptions) (reads : Text → List (Command Text))
    (isTran : Text → Prop) (tx : S → Tx Text) (items : List PendingStatement)
    (outcome : BatchOutcome) (s s' : FileRun S) : Prop where
  batch : s'.batch = s.batch
  sent : s.sent ⊆ s'.sent
  log : s.log ⊆ s'.log
  idle : Calm o isTran tx s → StartsIdle tx s → StartsIdle tx s'
  calm : AllWrites o (items.map (·.sql)) → Met o reads isTran tx s' → Calm o isTran tx s →
    outcome.failed = false ∨ outcome.canFallback = true → Calm o isTran tx s'

theorem executeSQLFileBatchWithOutcome_quieted (isTran : Text → Prop)
    (items : List PendingStatement) (s : FileRun S) :
    ∃ r outcome, executeSQLFileBatchWithOutcome server o items s = (r, outcome) ∧
      BatchLeaves o reads isTran tx items outcome s (r.markIf outcome.outcomeUnknown) := by
  obtain ⟨session, checks, log, outcome, hrun, hlog, hquieted⟩ :=
    runBatch_quieted hrules items { s with starts := s.starts ++ [s.session] }
  refine ⟨_, outcome, hrun, ?_⟩
  have hlogs : (s.behind session checks log outcome).log = log := markIf_log _ _
  have hsents : (s.behind session checks log outcome).sent = s.sent := markIf_sent _ _
  have hsame := markIf_trackers outcome.outcomeUnknown
    { s.moved session checks log with starts := s.starts ++ [s.session] }
  show BatchLeaves o reads isTran tx items outcome s (s.behind session checks log outcome)
  refine ⟨behind_batch, hsents ▸ List.Subset.refl _, by rw [hlogs]; exact hlog,
    fun hcalm hidle => ?_, fun hwrites hmet hcalm hgo => ?_⟩
  · unfold StartsIdle
    rw [behind_starts]
    intro x hx
    rcases mem_append.mp hx with hmem | hmem
    · exact hidle x hmem
    · rw [mem_singleton.mp hmem]
      unfold Tx.Open
      rw [hcalm.closed]
      exact lt_irrefl 0
  · refine hcalm.of_quieted (hsame.depth.trans hcalm.depth) hsame.disabled hsame.tracker ?_
    rw [behind_session]
    refine hquieted (fun e he hitems c hc => ?_) hcalm.closed hcalm.autocommit hgo
    rw [← hlogs] at he
    refine hmet.batches e he ?_ c ?_
    · rw [hitems]
      exact hwrites
    · rw [hitems]
      exact hc

/-! ### Batches that fail -/

/-- A calm run with the batch `b`, where the statements at hand are `writes`. -/
structure Within (o : StreamOptions) (isTran : Text → Prop) (tx : S → Tx Text) (writes : Prop)
    (b : List PendingStatement) (s : FileRun S) : Prop where
  writes : writes
  calm : Calm o isTran tx s
  batch : s.batch = b

omit hrules in
theorem Calm.of_same (h : Calm o isTran tx s)
    (hs : SameTrackers s s' := by exact ⟨rfl, rfl, rfl, rfl, rfl⟩)
    (hsession : s'.session = s.session := by rfl) : Calm o isTran tx s' := by
  refine ⟨?_, hs.depth.trans h.depth, hs.disabled.trans h.disabled⟩
  rw [hsession]
  exact h.covers.of_same hs

omit hrules in
theorem Within.tick {w : Prop} {b : List PendingStatement} (h : Within o isTran tx w b s) :
    Within o isTran tx w b s.tick :=
  ⟨h.writes, h.calm.of_same, h.batch⟩

theorem executeSingle_calm {w : Prop} (b : List PendingStatement)
    {item : PendingStatement} (hwrite : w → AllWrites o [item.sql]) (s : FileRun S) :
    Keeps o reads isTran tx (Within o isTran tx w b) (Within o isTran tx w b) s
      (executeSingle server o item s).1 := by
  obtain ⟨s', e, ok, hrun, hmoves⟩ := executeSingle_moves server o item s
  rw [hrun]
  have hidle' : StartsIdle tx s → StartsIdle tx s' := by
    intro hidle
    unfold StartsIdle
    rw [hmoves.starts]
    exact hidle
  cases e with
  | some e => exact .stop hmoves.sent hmoves.log (fun _ hidle _ => hidle' hidle)
  | none =>
    refine .go_on hmoves.sent hmoves.log (fun hmet hidle hp => ⟨hidle' hidle, hp.writes, ?_, ?_⟩)
    · obtain ⟨hsent, ⟨reply, hlog⟩, hexec, hsame⟩ := hmoves.made rfl
      obtain ⟨c, hread, hc⟩ := hmet.statements _ hsent
      have hquiet : c.quiet = true := by
        refine hmet.batches _ hlog (hwrite hp.writes) c ?_
        rw [show joinSQLFileBatchStatements [item] = item.sql from intercalate_singleton,
          hread]
        exact mem_singleton_self _
      have hbefore : (beforeSingle o item s).userTransactionDepth = 0 ∧
          (beforeSingle o item s).mysqlAutocommitDisabled = s.mysqlAutocommitDisabled ∧
          (beforeSingle o item s).sqlServerTransaction = s.sqlServerTransaction := by
        unfold beforeSingle
        split
        · exact ⟨rfl, rfl, rfl⟩
        · exact ⟨hp.calm.depth, rfl, rfl⟩
      refine hp.calm.of_quieted (hsame.depth.trans hbefore.1) (hsame.disabled.trans hbefore.2.1)
        (hsame.tracker.trans hbefore.2.2) ?_
      have hquieter : Tx.Quieter (tx s.session) (tx s'.session) := by
        cases ok with
        | true =>
          rw [hrules.one hread hexec]
          exact Tx.quieter_apply _ _ hquiet
        | false =>
          have hfails := hrules.failed _ _ _ c hexec hread
          exact ⟨hfails.autocommit, hfails.savepoints, fun _ => hfails.depth⟩
      exact ⟨Nat.le_zero.mp (hp.calm.closed ▸ hquieter.depth hp.calm.autocommit),
        hquieter.autocommit.trans hp.calm.autocommit, hquieter.savepoints⟩
    · exact hmoves.batch.trans hp.batch

variable {items : List PendingStatement}

/-- The statements of a batch, one by one; induction on them. -/
theorem executeBatchSequentially_calm {w : Prop} (b : List PendingStatement)
    (hwrites : w → AllWrites o (items.map (·.sql))) (s : FileRun S) :
    Keeps o reads isTran tx (Within o isTran tx w b) (Within o isTran tx w b) s
      (executeBatchSequentially server o items s) := by
  induction items generalizing s with
  | nil =>
    exact .stay id
  | cons item items ih =>
    rw [executeBatchSequentially]
    have hitem : w → AllWrites o [item.sql] := fun hw =>
      (hwrites hw).sublist (cons_sublist_cons.mpr (nil_sublist items))
    exact (executeSingle_calm hrules b hitem s).andThen
      (ih (fun hw => (hwrites hw).sublist (sublist_cons_self item items)))

omit hrules in
theorem BatchTurn.calm {w : Prop} {b : List PendingStatement} {outcome : BatchOutcome}
    {fallback : FileRun S → FileRun S × Option StreamStop} {r : FileRun S × Option StreamStop}
    (hturn : BatchTurn o items b outcome s' fallback r)
    (hleaves : BatchLeaves o reads isTran tx items outcome s s')
    (hwrites : w → AllWrites o (items.map (·.sql)))
    (hfallback : ∀ s, Keeps o reads isTran tx (Within o isTran tx w b) (Within o isTran tx w b) s
      (fallback s)) :
    Keeps o reads isTran tx (fun s => w ∧ Calm o isTran tx s) (Within o isTran tx w b) s r := by
  have hafter : Met o reads isTran tx s' → w → Calm o isTran tx s →
      outcome.failed = false ∨ outcome.canFallback = true → Calm o isTran tx s' :=
    fun hmet hw hcalm => hleaves.calm (hwrites hw) hmet hcalm
  cases hturn with
  | ran hran batchBytes =>
    refine .go_on hleaves.sent hleaves.log (fun hmet hidle hp => ?_)
    have hcalm := hafter (hmet.of_later (List.Subset.refl _) (List.Subset.refl _)) hp.1 hp.2
      (.inl hran)
    exact ⟨hleaves.idle hp.2 hidle, hp.1, hcalm.of_same, rfl⟩
  | stopped _ hs _ =>
    refine .stop (hs.sent ▸ hleaves.sent) (hs.log ▸ hleaves.log) (fun _ hidle hp => ?_)
    unfold StartsIdle
    rw [hs.starts]
    exact hleaves.idle hp.2 hidle
  | fell hundone batchBytes =>
    refine (hfallback _).of_later hleaves.sent hleaves.log (fun hmet hidle hp => ?_)
    have hcalm := hafter (hmet.of_later (List.Subset.refl _) (List.Subset.refl _)) hp.1 hp.2
      (.inr hundone)
    exact ⟨hleaves.idle hp.2 hidle, hp.1, hcalm.of_same, rfl⟩

theorem executeIsolationBatch_calm {w : Prop} (b : List PendingStatement)
    (hwrites : w → AllWrites o (items.map (·.sql)))
    {isolate : List PendingStatement → FileRun S → FileRun S × Option StreamStop}
    (hisolate : ∀ b s, Keeps o reads isTran tx (Within o isTran tx w b) (Within o isTran tx w b) s
      (isolate items s)) (s : FileRun S) :
    Keeps o reads isTran tx (Within o isTran tx w b) (Within o isTran tx w b) s
      (executeIsolationBatch server o isolate items s) := by
  obtain ⟨r, outcome, hrun, hleaves⟩ :=
    executeSQLFileBatchWithOutcome_quieted hrules isTran items s.tick
  obtain ⟨r', heq, hturn⟩ := executeIsolationBatch_turn hrun isolate
  have hkeeps := hturn.calm hleaves hwrites (hisolate _)
  rw [hleaves.batch] at hkeeps
  rw [heq]
  refine .checked ⟨hkeeps.sent, hkeeps.log, fun hmet hidle hp => ?_⟩
  have hcalm : Calm o isTran tx s.tick := hp.calm.of_same
  exact hp.batch ▸ hkeeps.keeps hmet hidle ⟨hp.writes, hcalm⟩

/-- A batch that failed and was rolled back; induction on the bound. -/
theorem isolateFailedBatch_calm {w : Prop} (b : List PendingStatement) (n : ℕ)
    (hwrites : w → AllWrites o (items.map (·.sql))) (s : FileRun S) :
    Keeps o reads isTran tx (Within o isTran tx w b) (Within o isTran tx w b) s
      (isolateFailedBatch server o n items s) := by
  induction n generalizing b items s with
  | zero =>
    exact .stay id
  | succ n ih =>
    match items with
    | [] => exact .stay id
    | [item] =>
      unfold isolateFailedBatch
      exact .checked (.stay (fun hp =>
        ⟨hp.writes, hp.calm.of_same, hp.batch⟩))
    | first :: second :: rest =>
      unfold isolateFailedBatch
      dsimp only
      generalize first :: second :: rest = items at hwrites ⊢
      refine .checked ?_
      by_cases hfew : items.length ≤ isolationSequentialThreshold
      · rw [if_pos hfew]
        exact (executeBatchSequentially_calm hrules b hwrites s.tick).behind Within.tick
      rw [if_neg hfew]
      have hleft := fun hw => (hwrites hw).sublist (take_sublist (items.length / 2) items)
      have hright := fun hw => (hwrites hw).sublist (drop_sublist (items.length / 2) items)
      have hhalves := (executeIsolationBatch_calm hrules b hleft (fun b => ih b hleft) s.tick).andThen
        (executeIsolationBatch_calm hrules b hright (fun b => ih b hright))
      exact hhalves.behind Within.tick

/-! ### The loop -/

/-- A run between the statements of the file: the trackers cover the server, and there is a batch
only if it is calm. -/
structure Steady (o : StreamOptions) (isTran : Text → Prop) (tx : S → Tx Text) (s : FileRun S) :
    Prop where
  covers : Covers (familyOf o.dbType) isTran false s (tx s.session)
  calm : s.batch ≠ [] → s.userTransactionDepth = 0 ∧ s.mysqlAutocommitDisabled = false
  writes : AllWrites o (s.batch.map (·.sql))

omit hrules in
theorem Steady.tick (h : Steady o isTran tx s) : Steady o isTran tx s.tick :=
  ⟨h.covers.of_same ⟨rfl, rfl, rfl, rfl, rfl⟩, h.calm, h.writes⟩

omit hrules in
theorem Calm.steady (h : Calm o isTran tx s) (hbatch : s.batch = []) : Steady o isTran tx s := by
  refine ⟨h.covers, fun hne => absurd hbatch hne, ?_⟩
  rw [hbatch]
  exact forall_mem_nil _

/-- A calm run with a batch of writes. -/
def Batching (o : StreamOptions) (isTran : Text → Prop) (tx : S → Tx Text) (s : FileRun S) : Prop :=
  Calm o isTran tx s ∧ AllWrites o (s.batch.map (·.sql))

omit hrules in
theorem Batching.steady (h : Batching o isTran tx s) : Steady o isTran tx s :=
  ⟨h.1.covers, fun _ => ⟨h.1.depth, h.1.disabled⟩, h.2⟩

omit hrules in
theorem Steady.batching (h : Steady o isTran tx s) (hdepth : s.userTransactionDepth = 0)
    (hdisabled : s.mysqlAutocommitDisabled = false) : Batching o isTran tx s :=
  ⟨⟨h.covers, hdepth, hdisabled⟩, h.writes⟩

theorem flushBatch_calm (s : FileRun S) :
    Keeps o reads isTran tx (Batching o isTran tx) (Within o isTran tx True []) s
      (flushBatch server o s) := by
  by_cases hempty : s.batch = []
  · unfold flushBatch
    rw [if_pos hempty]
    exact .stay (fun hp => ⟨trivial, hp.1, hempty⟩)
  obtain ⟨r, outcome, hrun, hleaves⟩ :=
    executeSQLFileBatchWithOutcome_quieted hrules isTran s.batch s.tick
  obtain ⟨r', heq, hturn⟩ := flushBatch_turn hempty hrun
  have hkeeps := hturn.calm hleaves id (isolateFailedBatch_calm hrules [] s.batch.length id)
  rw [heq]
  refine .checked ((hkeeps.weaken (fun s'' hin => ⟨trivial, hin.calm, hin.batch⟩)).behind
    (fun hp => ⟨hp.2, ?_⟩))
  exact hp.1.of_same

theorem executeOversized_calm {item : PendingStatement} (hwrite : AllWrites o [item.sql])
    (s : FileRun S) :
    Keeps o reads isTran tx (Within o isTran tx True []) (Within o isTran tx True []) s
      (executeOversized server o item s) := by
  obtain ⟨r, outcome, hrun, hleaves⟩ :=
    executeSQLFileBatchWithOutcome_quieted hrules isTran [item] s
  have hkeeps := (executeOversized_turn hrun).calm hleaves (fun _ : True => hwrite) (fun s' => ?_)
  · rw [hleaves.batch] at hkeeps
    refine ⟨hkeeps.sent, hkeeps.log, fun hmet hidle hp => ?_⟩
    exact hp.batch ▸ hkeeps.keeps hmet hidle ⟨trivial, hp.calm⟩
  · split_ifs
    · exact .stay (fun hp => ⟨trivial, hp.calm.of_same, hp.batch⟩)
    · exact .halt

theorem flushBatch_steady (s : FileRun S) :
    Keeps o reads isTran tx (Steady o isTran tx)
      (fun s => Steady o isTran tx s ∧ s.batch = []) s (flushBatch server o s) := by
  by_cases hempty : s.batch = []
  · unfold flushBatch
    rw [if_pos hempty]
    exact .stay (fun hp => ⟨hp, hempty⟩)
  · exact ((flushBatch_calm hrules s).weaken
      (fun s hin => ⟨hin.calm.steady hin.batch, hin.batch⟩)).behind
        (fun hp => hp.batching (hp.calm hempty).1 (hp.calm hempty).2)

theorem addToBatch_steady {item : PendingStatement} (hwrite : AllWrites o [item.sql])
    (s : FileRun S) :
    Keeps o reads isTran tx (Batching o isTran tx) (Steady o isTran tx) s
      (addToBatch server o item s) := by
  unfold addToBatch
  have hfull : Keeps o reads isTran tx (Batching o isTran tx) (Batching o isTran tx) s
      (if batchFull o item s then flushBatch server o s else (s, none)) := by
    split
    · refine (flushBatch_calm hrules s).weaken (fun s hin => ⟨hin.calm, ?_⟩)
      rw [hin.batch]
      exact forall_mem_nil _
    · exact .stay id
  refine hfull.andThen (fun s' => ?_)
  by_cases hlong : o.batchMaxBytes < item.sql.length
  · rw [if_pos hlong]
    exact ((flushBatch_calm hrules s').andThen (executeOversized_calm hrules hwrite)).weaken
      (fun s hin => hin.calm.steady hin.batch)
  · rw [if_neg hlong]
    refine .stay (fun hp => ?_)
    refine Batching.steady ⟨hp.1.of_same, ?_⟩
    show AllWrites o ((s'.batch ++ [item]).map (·.sql))
    rw [map_append]
    intro sql hsql
    exact (mem_append.mp hsql).elim (hp.2 sql) (hwrite sql)

/-- A statement that runs alone, and what is tracked behind it. -/
theorem executeSingle_steady (item : PendingStatement) (s : FileRun S) :
    Keeps o reads isTran tx (fun s => Steady o isTran tx s ∧ s.batch = []) (Steady o isTran tx) s
      (match executeSingle server o item s with
      | (r, succeeded) =>
        FileRun.andThen r fun s => (if succeeded then track o item.sql s else s, none)) := by
  obtain ⟨s', e, ok, hrun, hmoves⟩ := executeSingle_moves server o item s
  rw [hrun]
  have hidle' : StartsIdle tx s → StartsIdle tx s' := by
    intro hidle
    unfold StartsIdle
    rw [hmoves.starts]
    exact hidle
  cases e with
  | some e => exact .stop hmoves.sent hmoves.log (fun _ hidle _ => hidle' hidle)
  | none =>
    obtain ⟨hsent, _, hexec, hsame⟩ := hmoves.made rfl
    have hempty : s.batch = [] → ∀ s'' : FileRun S, s''.batch = s'.batch →
        Covers (familyOf o.dbType) isTran false s'' (tx s''.session) → Steady o isTran tx s'' := by
      intro hempty s'' hbatch hcovers
      rw [hmoves.batch, hempty] at hbatch
      refine ⟨hcovers, fun hne => absurd hbatch hne, ?_⟩
      rw [hbatch]
      exact forall_mem_nil _
    cases ok with
    | true =>
      have htrack : SameCounts s' (track o item.sql s') := track_same item.sql s'
      have hsent' : s.sent ⊆ (track o item.sql s').sent := by
        rw [htrack.sent]
        exact hmoves.sent
      have hlog' : s.log ⊆ (track o item.sql s').log := by
        rw [htrack.log]
        exact hmoves.log
      show Keeps o reads isTran tx _ _ s (track o item.sql s', none)
      refine .go_on hsent' hlog' (fun hmet hidle hp => ⟨?_, ?_⟩)
      · unfold StartsIdle
        rw [htrack.starts]
        exact hidle' hidle
      · obtain ⟨c, hread, hc⟩ := hmet.statements _ (htrack.sent ▸ hsent)
        refine hempty hp.2 _ htrack.batch ?_
        have hbefore : Covers _ isTran _ s' (tx s.session) :=
          (hp.1.covers.beforeSingle item).of_same hsame
        rw [htrack.session, hrules.one hread hexec]
        exact hbefore.track hc
    | false =>
      refine .go_on hmoves.sent hmoves.log (fun hmet hidle hp => ⟨hidle' hidle, ?_⟩)
      obtain ⟨c, hread, hc⟩ := hmet.statements _ hsent
      refine hempty hp.2 s' rfl ?_
      have hbefore : Covers _ isTran _ s' (tx s.session) :=
        (hp.1.covers.beforeSingle item).of_same hsame
      exact hbefore.fails hc (hrules.failed _ _ _ c hexec hread)

/-! ### The whole file -/

theorem runAlone_steady (item : PendingStatement) (s : FileRun S) :
    Keeps o reads isTran tx (Steady o isTran tx) (Steady o isTran tx) s
      (runAlone server o item s) :=
  (flushBatch_steady hrules s).andThen (executeSingle_steady hrules item)

omit hrules in
/-- What goes into a batch is a write, and the trackers know of no transaction then. -/
theorem batchable_idle {stmt : Text} {s : FileRun S} (h : batchable o stmt s = true) :
    s.userTransactionDepth = 0 ∧ s.mysqlAutocommitDisabled = false ∧ AllWrites o [stmt] := by
  unfold batchable at h
  simp only [Bool.and_eq_true, decide_eq_true_eq, Bool.not_eq_true'] at h
  obtain ⟨⟨⟨⟨_, hdepth⟩, hdisabled⟩, _⟩, hwrite⟩ := h
  refine ⟨hdepth, hdisabled, fun sql hsql => ?_⟩
  rw [mem_singleton.mp hsql]
  exact hwrite

theorem onStatement_steady (index : ℕ) (statement : Text) (s : FileRun S) :
    Keeps o reads isTran tx (Steady o isTran tx) (Steady o isTran tx) s
      (onStatement server o index statement s) := by
  unfold onStatement
  dsimp only
  split_ifs with _ _ _ _ hbatch
  · exact .halt
  · exact .stay Steady.tick
  · exact .halt
  · exact .stay Steady.tick
  · obtain ⟨hdepth, hdisabled, hwrite⟩ := batchable_idle hbatch
    exact (addToBatch_steady hrules hwrite s.tick).behind
      (fun hs => hs.tick.batching hdepth hdisabled)
  · exact (runAlone_steady hrules _ s.tick).behind Steady.tick

/-- Induction on the statements. -/
theorem onStatements_steady (statements : List Text) (index : ℕ) (s : FileRun S) :
    Keeps o reads isTran tx (Steady o isTran tx) (Steady o isTran tx) s
      (onStatements server o index statements s) := by
  induction statements generalizing index s with
  | nil =>
    exact .stay id
  | cons statement statements ih =>
    exact (onStatement_steady hrules index statement s).andThen (ih (index + 1))

/-- At the end of the file what the trackers know of is an error. -/
theorem endStream_closed (s : FileRun S) :
    Keeps o reads isTran tx (Steady o isTran tx) (fun s => ¬(tx s.session).Open) s
      (endStream server o s) := by
  refine (flushBatch_steady hrules s).andThen (fun s' => ?_)
  split
  · exact .halt
  · next hknown =>
    refine .stay (fun hs => ?_)
    intro hopen
    rcases hs.1.covers.opened rfl hopen with hdepth | ⟨hactive, _⟩
    · exact hknown (.inl hdepth)
    · exact hknown (.inr hactive)

theorem executeSQLFileStream_closed (statements : List Text) (readFails : Bool) (session : S) :
    Keeps o reads isTran tx (Steady o isTran tx) (fun s => ¬(tx s.session).Open)
      (.initial session) (executeSQLFileStream server o statements readFails session) := by
  refine (onStatements_steady hrules statements 0 _).andThen (fun s => ?_)
  split
  · exact .halt
  · exact endStream_closed hrules s

end

/-- A run that ends without an error leaves no transaction open on its session, and no batch was
started in a transaction. -/
def LeavesNothingOpen (tx : S → Tx Text) (r : FileRun S × Option StreamStop) : Prop :=
  (r.2 = none → ¬(tx r.1.session).Open) ∧ StartsIdle tx r.1

/-- On a session of its own, a file of which each statement is recognised when it is sent leaves
nothing open. -/
theorem nothing_left_open (server : FileServer S) (o : StreamOptions)
    (reads : Text → List (Command Text)) (isTran : Text → Prop) (tx : S → Tx Text)
    (statements : List Text) (readFails : Bool) (session : S)
    (hrules : FollowsRules server o.dbType reads tx) (hsession : tx session = .fresh)
    (hmet : Met o reads isTran tx
      (executeSQLFileStream server o statements readFails session).1) :
    LeavesNothingOpen tx (executeSQLFileStream server o statements readFails session) := by
  have hcovers : Covers (familyOf o.dbType) isTran false (FileRun.initial session)
      (tx session) := by
    rw [hsession]
    refine ⟨fun _ hopen => absurd hopen (Nat.lt_irrefl 0), fun _ => rfl, fun h => ?_, fun _ => rfl,
      fun _ => ⟨rfl, le_rfl⟩, fun _ hne => absurd rfl hne, fun _ _ hmem => ?_⟩
    · cases h
    · exact absurd hmem not_mem_nil
  have hrun : Keeps o reads isTran tx (Steady o isTran tx) (fun s => ¬(tx s.session).Open) _ _ :=
    executeSQLFileStream_closed hrules statements readFails session
  obtain ⟨hidle, hclosed⟩ := hrun.keeps hmet (forall_mem_nil _)
    ⟨hcovers, fun hne => absurd rfl hne, forall_mem_nil _⟩
  exact ⟨hclosed, hidle⟩

/-! ### A server that reads from a table -/

/-- A server that reads the commands of a table, of which each succeeds. -/
def tableServer (family : Family) (reads : Text → List (Command Text)) : FileServer (Tx Text) where
  exec tx sql := (tx.run family (reads sql), .ok)
  execBatch tx text := (tx.run family (reads text), .ok)
  discard tx := tx

/-- What a table has for a text. -/
def readsIn (table : List (Text × Command Text)) (sql : Text) : List (Command Text) :=
  ((table.find? (·.1 = sql)).map (·.2)).toList

theorem tableServer_follows {dbType : Text} {reads : Text → List (Command Text)}
    (h : ∀ texts, sqlFileBatchTransactionSQL dbType = some texts →
      reads texts.beginSQL = [.begin none] ∧ reads texts.commitSQL = [.commit false] ∧
        reads texts.rollbackSQL = [.rollback false]) :
    FollowsRules (tableServer (familyOf dbType) reads) dbType reads id := by
  constructor
  · intro s sql s' hexec
    cases hexec
    rfl
  · intro s sql s' c hexec
    cases hexec
  · intro s text s' r hexec _
    cases hexec
    refine ⟨(reads text).length, ?_⟩
    rw [take_length]
    rfl
  · exact h

/-- Statements with what servers read in them. -/
def commandTable : List (Text × Command Text) :=
  [(bytes "BEGIN", .begin none), (bytes "BEGIN TRANSACTION", .begin none),
    (bytes "START TRANSACTION", .begin none), (bytes "COMMIT", .commit false),
    (bytes "COMMIT TRANSACTION", .commit false), (bytes "ROLLBACK", .rollback false),
    (bytes "ROLLBACK TRANSACTION", .rollback false),
    (bytes "LOCK TABLES t WRITE", .lockTables), (bytes "UNLOCK TABLES", .unlockTables),
    (bytes "SET IMPLICIT_TRANSACTIONS ON", .autocommit false),
    (bytes "INSERT INTO t VALUES (1)", .work)]

theorem commandTable_follows (dbType : Text) :
    FollowsRules (tableServer (familyOf dbType) (readsIn commandTable)) dbType
      (readsIn commandTable) id := by
  refine tableServer_follows (fun texts htexts => ?_)
  unfold sqlFileBatchTransactionSQL at htexts
  dsimp only at htexts
  split_ifs at htexts
  all_goals
    cases htexts
    decide

def tableOptions (dbType : Text) : StreamOptions :=
  { journalOptions with dbType := dbType, continueOnError := false }

/-- A transaction and a write behind it, which is a batch. -/
theorem nothing_left_open_insert :
    LeavesNothingOpen id (executeSQLFileStream
      (tableServer (familyOf (bytes "postgres")) (readsIn commandTable))
      (tableOptions (bytes "postgres"))
      [bytes "BEGIN", bytes "INSERT INTO t VALUES (1)", bytes "COMMIT",
        bytes "INSERT INTO t VALUES (1)"] false .fresh) := by
  refine nothing_left_open _ _ (readsIn commandTable) (fun _ => True) id _ _ _
    (commandTable_follows (bytes "postgres")) rfl ⟨?_, ?_⟩
  · have hsent : (executeSQLFileStream
        (tableServer (familyOf (bytes "postgres")) (readsIn commandTable))
        (tableOptions (bytes "postgres"))
        [bytes "BEGIN", bytes "INSERT INTO t VALUES (1)", bytes "COMMIT",
          bytes "INSERT INTO t VALUES (1)"] false .fresh).1.sent =
        [(.fresh, bytes "BEGIN"), (⟨1, [], false, true, false⟩, bytes "INSERT INTO t VALUES (1)"),
          (⟨1, [], false, true, false⟩, bytes "COMMIT")] := by decide
    rw [hsent]
    simp only [forall_mem_cons]
    refine ⟨⟨.begin none, by decide, ?_⟩, ⟨.work, by decide, ?_⟩,
      ⟨.commit false, by decide, ?_⟩, forall_mem_nil _⟩
    · refine ⟨by decide, by decide, ?_, fun _ => by decide,
        by decide, ?_, ?_, ?_, ?_⟩ <;> intros <;> trivial
    · refine ⟨by decide, by decide, ?_, fun _ => by decide,
        by decide, ?_, ?_, ?_, ?_⟩ <;> intros <;> trivial
    · refine ⟨by decide, by decide, ?_, fun _ => by decide,
        by decide, ?_, ?_, ?_, ?_⟩ <;> intros <;> trivial
  · have hlog : ∀ e ∈ (executeSQLFileStream
        (tableServer (familyOf (bytes "postgres")) (readsIn commandTable))
        (tableOptions (bytes "postgres"))
        [bytes "BEGIN", bytes "INSERT INTO t VALUES (1)", bytes "COMMIT",
          bytes "INSERT INTO t VALUES (1)"] false .fresh).1.log,
        AllWrites (tableOptions (bytes "postgres")) (e.1.map (·.sql)) →
          ∀ c ∈ readsIn commandTable (joinSQLFileBatchStatements e.1), c.quiet = true := by
      unfold AllWrites
      decide
    exact hlog

/-- `START TRANSACTION` unlocks the tables of a MySQL session, so that `UNLOCK TABLES` commits
nothing behind it; and with `SET IMPLICIT_TRANSACTIONS ON` the batch of SQL Server counts as an
inner transaction. -/
theorem nothingOpen_fails :
    (¬∀ (server : FileServer (Tx Text)) (o : StreamOptions) (reads : Text → List (Command Text))
      (statements : List Text), o.dbType = bytes "mysql" → o.pinned = true →
      FollowsRules server o.dbType reads id →
      LeavesNothingOpen id (executeSQLFileStream server o statements false .fresh)) ∧
    (¬∀ (server : FileServer (Tx Text)) (o : StreamOptions) (reads : Text → List (Command Text))
      (statements : List Text), o.dbType = bytes "sqlserver" → o.pinned = true →
      FollowsRules server o.dbType reads id →
      LeavesNothingOpen id (executeSQLFileStream server o statements false .fresh)) := by
  constructor
  · intro h
    have hopen := (h (tableServer (familyOf (bytes "mysql")) (readsIn commandTable))
      (tableOptions (bytes "mysql")) (readsIn commandTable)
      [bytes "LOCK TABLES t WRITE", bytes "START TRANSACTION", bytes "INSERT INTO t VALUES (1)",
        bytes "UNLOCK TABLES"] rfl rfl (commandTable_follows _)).1
    revert hopen
    decide
  · intro h
    have hopen := (h (tableServer (familyOf (bytes "sqlserver")) (readsIn commandTable))
      (tableOptions (bytes "sqlserver")) (readsIn commandTable)
      [bytes "SET IMPLICIT_TRANSACTIONS ON", bytes "INSERT INTO t VALUES (1)"] rfl rfl
      (commandTable_follows _)).1
    revert hopen
    decide

end GoNavi.Sqlfile
