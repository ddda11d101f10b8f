import GoNavi.Machine.Dialects
import GoNavi.Sqlfile.Stream

/-! # What the trackers know

The run of a file follows the transactions of its statements by their first keywords.  The server
follows them by the rules of its dialect (`FollowsRules`), in the commands that it reads.  Where
both read a statement alike (`Recognised`), **the trackers cover the server**: no transaction is
open that they do not know of (`Covers.track`). -/

namespace GoNavi.Sqlfile

open Scan GoNavi.Sql Dialects

variable {S : Type}

/-! ### What is read -/

def familyOf (dbType : Text) : Family :=
  if normalizeSQLClassifierDBType dbType = bytes "sqlserver" then .sqlServer
  else if isSQLFileMySQLCompatibleDialect dbType then .mySQL
  else if normalizeSQLClassifierDBType dbType = bytes "sqlite" then .sqlite
  else .plain

/-- What the depth tracker takes a statement for; it tells no savepoints. -/
def depthControl (dbType stmt : Text) : Command Text :=
  let keyword := nextSQLKeyword stmt
  if keyword.1 = bytes "begin" then
    if sqlBeginStartsTransactionForDialect dbType keyword.2 then .begin none else .idle
  else if keyword.1 = bytes "start" then
    if (nextSQLKeyword keyword.2).1 = bytes "transaction" then .begin none else .idle
  else if keyword.1 = bytes "commit" then .commit (sqlFileTransactionCommandUsesChain keyword.2)
  else if keyword.1 = bytes "rollback" then
    if sqlFileRollbackTargetsSavepoint keyword.2 then .rollbackTo []
    else .rollback (sqlFileTransactionCommandUsesChain keyword.2)
  else if keyword.1 = bytes "end" then
    if sqlFileStatementIsTransactionEndAlias dbType keyword.2 then
      .commit (sqlFileTransactionCommandUsesChain keyword.2)
    else .idle
  else if keyword.1 = bytes "abort" then
    if normalizeSQLClassifierDBType dbType ∈ postgresFamily ++ [bytes "duckdb"] then
      .rollback (sqlFileTransactionCommandUsesChain keyword.2)
    else .idle
  else .idle

/-- What the tracker for SQL Server takes a statement for. -/
def namedControl (stmt : Text) : Command Text :=
  let keyword := nextSQLKeyword stmt
  if keyword.1 = bytes "begin" then
    if sqlBeginStartsTransactionForDialect (bytes "sqlserver") keyword.2 then
      let name := sqlFileSQLServerBeginTransactionName keyword.2
      .begin (if name = [] then none else some name)
    else .idle
  else if keyword.1 = bytes "save" then
    let name := sqlFileSQLServerTransactionNameAfterCommand keyword.2
    if name = [] then .idle else .savepoint name
  else if keyword.1 = bytes "commit" then .commit false
  else if keyword.1 = bytes "rollback" then
    let name := sqlFileSQLServerTransactionNameAfterCommand keyword.2
    if name = [] then .rollback false else .rollbackTo name
  else .idle

/-- What a tracker makes of a depth. -/
def depthBehind (depth : ℕ) : Command Text → ℕ
  | .begin _ => 1
  | .commit chain | .rollback chain => if chain then 1 else 0
  | _ => depth

theorem updateSQLFileTransactionDepth_eq {dbType : Text}
    (h : normalizeSQLClassifierDBType dbType ≠ bytes "sqlserver") (depth : ℕ) (stmt : Text) :
    updateSQLFileTransactionDepth dbType depth stmt =
      depthBehind depth (depthControl dbType stmt) := by
  have hnamed : ∀ t, sqlFileSQLServerRollbackHasNamedTarget dbType t = false := by
    intro t
    unfold sqlFileSQLServerRollbackHasNamedTarget
    rw [decide_eq_false h]
    rfl
  unfold updateSQLFileTransactionDepth depthControl
  dsimp only
  split_ifs <;> first | rfl | simp_all [depthBehind]

/-- What the tracker for SQL Server makes of what it knows. -/
def trackerBehind (tracker : SQLServerTransactionTracker) :
    Command Text → SQLServerTransactionTracker
  | .begin name =>
    if tracker.depth = 0 then ⟨1, name.getD [], []⟩ else { tracker with depth := tracker.depth + 1 }
  | .savepoint name =>
    if tracker.depth = 0 then tracker
    else { tracker with savepointNames := name :: tracker.savepointNames }
  | .commit _ => if tracker.depth ≤ 1 then .reset else { tracker with depth := tracker.depth - 1 }
  | .rollback _ => .reset
  | .rollbackTo name =>
    if tracker.outerTransactionName ≠ [] ∧ name = tracker.outerTransactionName then .reset
    else if name ∈ tracker.savepointNames then tracker
    else if tracker.depth = 0 then { tracker with depth := 1 }
    else tracker
  | _ => tracker

theorem updateSQLFileSQLServerTransactionTracker_eq (tracker : SQLServerTransactionTracker)
    (stmt : Text) : updateSQLFileSQLServerTransactionTracker tracker stmt =
      trackerBehind tracker (namedControl stmt) := by
  unfold updateSQLFileSQLServerTransactionTracker namedControl
  dsimp only
  split_ifs <;> first | rfl | simp_all [trackerBehind]

/-- What the trackers of a run take a statement for. -/
def control (dbType stmt : Text) : Command Text :=
  if familyOf dbType = .sqlServer then namedControl stmt else depthControl dbType stmt

/-- What the trackers have to take a command for. -/
def seen (family : Family) : Command Text → Command Text
  | .begin name => if family = .sqlServer then .begin name else .begin none
  | .savepoint name => if family = .sqlServer then .savepoint name else .idle
  | .commit chain => .commit chain
  | .rollback chain => .rollback chain
  | .rollbackTo name => if family = .sqlServer then .rollbackTo name else .rollbackTo []
  | .autocommit on => if family = .mySQL then .idle else .autocommit on
  | _ => .idle

/-- The trackers take a statement for the command `c` that the server reads in it, and it comes at
a time at which they can follow it; `isTran` are the names of transactions. -/
structure RecognisedAs (o : StreamOptions) (isTran : Text → Prop) (tx : Tx Text) (stmt : Text)
    (c : Command Text) : Prop where
  control : control o.dbType stmt = seen (familyOf o.dbType) c
  commits : sqlFileMySQLImplicitCommitBeforeStatement o.dbType stmt = true →
    c.commitsBefore .mySQL = true
  assigns : ∀ on, c = .autocommit on → ∃ mode,
    sqlFileMySQLAutocommitAssignment o.dbType stmt = some mode ∧
      mode ≠ (if on then .disabled else .enabled)
  assignsNot : (∀ on, c ≠ .autocommit on) →
    sqlFileMySQLAutocommitAssignment o.dbType stmt = none
  /-- Tables are unlocked while they are locked, or outside of a transaction. -/
  unlocks : (sqlFileMySQLTableLockCommand o.dbType stmt).2 = true →
    c = .unlockTables ∧ (tx.tablesLocked = true ∨ ¬tx.Open)
  /-- Without autocommit only writes that could be in a batch open a transaction. -/
  opens : c = .work → tx.autocommit = false → ¬tx.Open →
    isBatchableWriteSQLStatement o.gates o.dbType stmt = true
  /-- On SQLite a savepoint is inside of a transaction. -/
  inside : ∀ name, c = .savepoint name → familyOf o.dbType = .sqlite → tx.Open
  tranNames : ∀ name, c = .begin (some name) → isTran name
  savepointNames : ∀ name, c = .savepoint name → ¬isTran name

/-! ### What the trackers cover -/

/-- No transaction is open on the server that the trackers do not know of.  If a statement has
been recognised before which the server commits, the trackers are ahead (`committed`). -/
structure Covers (family : Family) (isTran : Text → Prop) (committed : Bool) (s : FileRun S)
    (tx : Tx Text) : Prop where
  opened : committed = false → tx.Open → 0 < s.userTransactionDepth ∨
    (s.mysqlAutocommitTransactionActive = true ∧ tx.autocommit = false)
  on : s.mysqlAutocommitDisabled = false → tx.autocommit = true
  off : s.mysqlAutocommitDisabled = true → s.mysqlAutocommitStateUnknown = false →
    tx.autocommit = false
  mode : family ≠ .mySQL → s.mysqlAutocommitDisabled = false
  counted : family = .sqlServer → s.userTransactionDepth = s.sqlServerTransaction.depth ∧
    tx.depth ≤ s.sqlServerTransaction.depth
  outer : family = .sqlServer → s.sqlServerTransaction.outerTransactionName ≠ [] →
    isTran s.sqlServerTransaction.outerTransactionName
  names : family = .sqlServer → ∀ name ∈ tx.savepoints, ¬isTran name

theorem familyOf_mySQL {dbType : Text} (h : isSQLFileMySQLCompatibleDialect dbType = true) :
    familyOf dbType = .mySQL := by
  unfold familyOf
  by_cases hserver : normalizeSQLClassifierDBType dbType = bytes "sqlserver"
  · unfold isSQLFileMySQLCompatibleDialect at h
    rw [hserver] at h
    exact absurd h (by decide)
  · rw [if_neg hserver, if_pos h]

theorem familyOf_sqlServer {dbType : Text} :
    familyOf dbType = .sqlServer ↔ normalizeSQLClassifierDBType dbType = bytes "sqlserver" := by
  unfold familyOf
  split_ifs with h <;> simp [h]

theorem track_eq_trackDepth {o : StreamOptions} (h : familyOf o.dbType ≠ .mySQL) {s : FileRun S}
    (hmode : s.mysqlAutocommitDisabled = false) (stmt : Text) :
    track o stmt s = trackDepth o stmt s := by
  have hdialect : isSQLFileMySQLCompatibleDialect o.dbType = false :=
    Bool.eq_false_iff.mpr (fun hmysql => h (familyOf_mySQL hmysql))
  have hassigns : sqlFileMySQLAutocommitAssignment o.dbType stmt = none := by
    unfold sqlFileMySQLAutocommitAssignment
    simp [hdialect]
  have hlocks : sqlFileMySQLTableLockCommand o.dbType stmt = (false, false) := by
    unfold sqlFileMySQLTableLockCommand
    simp [hdialect]
  have hdepth : (trackDepth o stmt s).mysqlAutocommitDisabled = false := by
    unfold trackDepth
    split <;> exact hmode
  unfold track trackTableLocks trackAutocommit
  rw [hassigns, hlocks]
  rw [hdepth]
  rfl

/-- Commands that are seen, on SQL Server: the depth is not less than the one of the server. -/
theorem trackerBehind_covers {isTran : Text → Prop} {tracker : SQLServerTransactionTracker}
    {tx : Tx Text} {c : Command Text} (hdepth : tx.depth ≤ tracker.depth)
    (houter : tracker.outerTransactionName ≠ [] → isTran tracker.outerTransactionName)
    (hnames : ∀ name ∈ tx.savepoints, ¬isTran name) (hauto : tx.autocommit = true)
    (htran : ∀ name, c = .begin (some name) → isTran name) :
    (tx.apply .sqlServer c).depth ≤ (trackerBehind tracker (seen .sqlServer c)).depth ∧
      ((trackerBehind tracker (seen .sqlServer c)).outerTransactionName ≠ [] →
        isTran (trackerBehind tracker (seen .sqlServer c)).outerTransactionName) := by
  have hworks : tx.works = tx := by
    unfold Tx.works
    rw [if_neg (by simp [hauto])]
  cases c with
  | begin name =>
    show tx.works.depth + 1 ≤ (trackerBehind tracker (.begin name)).depth ∧
      ((trackerBehind tracker (.begin name)).outerTransactionName ≠ [] →
        isTran (trackerBehind tracker (.begin name)).outerTransactionName)
    rw [hworks]
    unfold trackerBehind
    dsimp only
    by_cases hzero : tracker.depth = 0
    · rw [if_pos hzero]
      refine ⟨by show _ ≤ 1; omega, fun hne => ?_⟩
      cases name with
      | none => exact absurd rfl hne
      | some name => exact htran name rfl
    · rw [if_neg hzero]
      exact ⟨Nat.succ_le_succ hdepth, houter⟩
  | savepoint name =>
    show tx.depth ≤ (trackerBehind tracker (.savepoint name)).depth ∧
      ((trackerBehind tracker (.savepoint name)).outerTransactionName ≠ [] →
        isTran (trackerBehind tracker (.savepoint name)).outerTransactionName)
    unfold trackerBehind
    dsimp only
    split <;> exact ⟨hdepth, houter⟩
  | release name =>
    refine ⟨?_, houter⟩
    show (Tx.apply .sqlServer tx (.release name)).depth ≤ tracker.depth
    simp only [Tx.apply]
    split
    · exact Nat.zero_le _
    · exact hdepth
  | commit chain =>
    show (if tx.depth ≤ 1 then tx.closed else { tx with depth := tx.depth - 1 }).depth ≤
        (trackerBehind tracker (.commit chain)).depth ∧
      ((trackerBehind tracker (.commit chain)).outerTransactionName ≠ [] →
        isTran (trackerBehind tracker (.commit chain)).outerTransactionName)
    unfold trackerBehind
    by_cases hlast : tracker.depth ≤ 1
    · rw [if_pos hlast, if_pos (hdepth.trans hlast)]
      exact ⟨le_rfl, fun h => absurd rfl h⟩
    · rw [if_neg hlast]
      refine ⟨?_, houter⟩
      split
      · exact Nat.zero_le _
      · exact Nat.sub_le_sub_right hdepth 1
  | rollback chain => exact ⟨le_rfl, fun h => absurd rfl h⟩
  | rollbackTo name =>
    have hserver : (tx.apply .sqlServer (.rollbackTo name)).depth ≤ tx.depth := by
      simp only [Tx.apply]
      split
      · exact le_rfl
      · exact Nat.zero_le _
    have hclosed : name ∉ tx.savepoints → tx.apply .sqlServer (.rollbackTo name) = tx.closed := by
      intro hmem
      simp only [Tx.apply]
      rw [if_neg hmem]
    show (tx.apply .sqlServer (.rollbackTo name)).depth ≤
        (trackerBehind tracker (.rollbackTo name)).depth ∧
      ((trackerBehind tracker (.rollbackTo name)).outerTransactionName ≠ [] →
        isTran (trackerBehind tracker (.rollbackTo name)).outerTransactionName)
    unfold trackerBehind
    dsimp only
    by_cases hname : tracker.outerTransactionName ≠ [] ∧ name = tracker.outerTransactionName
    · -- The name is one of a transaction, so it is none of a savepoint.
      have htran := houter hname.1
      rw [← hname.2] at htran
      rw [if_pos hname, hclosed (fun hmem => hnames name hmem htran)]
      exact ⟨le_rfl, fun h => absurd rfl h⟩
    rw [if_neg hname]
    split_ifs
    · exact ⟨hserver.trans hdepth, houter⟩
    · exact ⟨by show _ ≤ 1; omega, houter⟩
    · exact ⟨hserver.trans hdepth, houter⟩
  | autocommit on => exact ⟨hdepth, houter⟩
  | lockTables => exact ⟨hdepth, houter⟩
  | unlockTables => exact ⟨hdepth, houter⟩
  | definition =>
    refine ⟨?_, houter⟩
    show tx.works.depth ≤ _
    rw [hworks]
    exact hdepth
  | work =>
    refine ⟨?_, houter⟩
    show tx.works.depth ≤ _
    rw [hworks]
    exact hdepth
  | idle => exact ⟨hdepth, houter⟩

theorem finished_open {tx : Tx Text} {chain : Bool} (h : (tx.finished chain).Open) :
    chain = true := by
  cases chain with
  | true => rfl
  | false => exact absurd h (lt_irrefl 0)

theorem works_open {tx : Tx Text} (h : tx.works.Open) : tx.Open ∨ tx.autocommit = false := by
  unfold Tx.works at h
  split at h
  · next hopens => exact .inr hopens.1
  · exact .inl h

/-- Commands that are seen, in the dialects with one transaction at a time. -/
theorem depthBehind_covers {family : Family} (hfamily : family ≠ .sqlServer) {tx : Tx Text} {c : Command Text} (hauto : family ≠ .mySQL → tx.autocommit = true)
    (hinside : ∀ name, c = .savepoint name → family = .sqlite → tx.Open)
    (h : (tx.apply family c).Open) :
    (∀ depth, 0 < depthBehind depth (seen family c)) ∨
      (∀ depth, depthBehind depth (seen family c) = depth) ∧
        (tx.Open ∨ c = .work ∧ tx.autocommit = false) := by
  have hbegin : ∀ name, seen family (.begin name) = .begin none := fun _ => if_neg hfamily
  cases c with
  | begin name =>
    rw [hbegin]
    exact .inl (fun _ => Nat.one_pos)
  | commit chain =>
    have hchain : chain = true := by
      cases family with
      | sqlServer => exact absurd rfl hfamily
      | plain => exact finished_open h
      | sqlite => exact finished_open h
      | mySQL => exact finished_open h
    rw [hchain]
    exact .inl (fun _ => Nat.one_pos)
  | rollback chain =>
    have hchain : chain = true := by
      cases family with
      | sqlServer => exact absurd rfl hfamily
      | plain => exact finished_open h
      | sqlite => exact finished_open h
      | mySQL => exact finished_open h
    rw [hchain]
    exact .inl (fun _ => Nat.one_pos)
  | rollbackTo name =>
    have hseen : seen family (.rollbackTo name) = .rollbackTo [] := if_neg hfamily
    rw [hseen]
    refine .inr ⟨fun _ => rfl, .inl ?_⟩
    cases family with
    | sqlServer => exact absurd rfl hfamily
    | plain => exact h
    | sqlite => exact h
    | mySQL => exact h
  | savepoint name =>
    have hseen : seen family (.savepoint name) = .idle := if_neg hfamily
    rw [hseen]
    refine .inr ⟨fun _ => rfl, .inl ?_⟩
    cases family with
    | sqlServer => exact absurd rfl hfamily
    | plain => exact h
    | sqlite => exact hinside name rfl rfl
    | mySQL => exact h
  | release name =>
    refine .inr ⟨fun _ => rfl, .inl ?_⟩
    simp only [Tx.apply] at h
    split at h
    · exact absurd h (lt_irrefl 0)
    · exact h
  | autocommit on =>
    refine .inr ⟨?_, .inl ?_⟩
    · intro depth
      show depthBehind depth (if family = .mySQL then .idle else .autocommit on) = depth
      split <;> rfl
    · cases family with
      | sqlServer => exact h
      | plain => exact h
      | sqlite => exact h
      | mySQL =>
        simp only [Tx.apply] at h
        split at h
        · exact absurd h (lt_irrefl 0)
        · exact h
  | lockTables =>
    refine .inr ⟨fun _ => rfl, .inl ?_⟩
    cases family with
    | mySQL => exact absurd h (lt_irrefl 0)
    | plain => exact h
    | sqlite => exact h
    | sqlServer => exact h
  | unlockTables =>
    refine .inr ⟨fun _ => rfl, .inl ?_⟩
    cases family with
    | mySQL =>
      simp only [Tx.apply] at h
      split at h
      · exact absurd h (lt_irrefl 0)
      · exact h
    | plain => exact h
    | sqlite => exact h
    | sqlServer => exact h
  | definition =>
    refine .inr ⟨fun _ => rfl, .inl ?_⟩
    cases family with
    | mySQL => exact absurd h (lt_irrefl 0)
    | plain =>
      refine (works_open h).resolve_right (fun hoff => ?_)
      exact Bool.noConfusion ((hauto (by decide)).symm.trans hoff)
    | sqlite =>
      refine (works_open h).resolve_right (fun hoff => ?_)
      exact Bool.noConfusion ((hauto (by decide)).symm.trans hoff)
    | sqlServer => exact absurd rfl hfamily
  | work =>
    exact .inr ⟨fun _ => rfl, (works_open h).imp_right (fun hoff => ⟨rfl, hoff⟩)⟩
  | idle => exact .inr ⟨fun _ => rfl, .inl h⟩

/-! ### One statement -/

theorem control_ne_autocommit (dbType stmt : Text) (on : Bool) :
    control dbType stmt ≠ .autocommit on := by
  intro h
  unfold control at h
  split at h
  · unfold namedControl at h
    dsimp only at h
    split_ifs at h
  · unfold depthControl at h
    dsimp only at h
    split_ifs at h

/-- Where the trackers cover the server, a statement that succeeds and is recognised leaves it so
outside of the MySQL family. -/
theorem Covers.trackDepth {o : StreamOptions} {isTran : Text → Prop} {s : FileRun S} {tx : Tx Text}
    {stmt : Text} {c : Command Text} (hfamily : familyOf o.dbType ≠ .mySQL)
    (h : Covers (familyOf o.dbType) isTran false s tx) (hc : RecognisedAs o isTran tx stmt c) :
    Covers (familyOf o.dbType) isTran false (trackDepth o stmt s)
      (tx.apply (familyOf o.dbType) c) := by
  have hmode := h.mode hfamily
  have hauto := h.on hmode
  have hset : ∀ on, c ≠ .autocommit on := by
    intro on hon
    have hcontrol := hc.control
    rw [hon] at hcontrol
    exact control_ne_autocommit _ _ _ (hcontrol.trans (if_neg hfamily))
  have hauto' := Tx.apply_autocommit (familyOf o.dbType) tx hset
  unfold Sqlfile.trackDepth
  by_cases hserver : familyOf o.dbType = .sqlServer
  · rw [if_pos (familyOf_sqlServer.mp hserver), updateSQLFileSQLServerTransactionTracker_eq]
    have hcontrol := hc.control
    unfold control at hcontrol
    rw [if_pos hserver] at hcontrol
    rw [hcontrol]
    rw [hserver] at h hauto' ⊢
    obtain ⟨hcount, hdepth⟩ := h.counted rfl
    obtain ⟨hdepth', houter'⟩ := trackerBehind_covers (c := c) hdepth (h.outer rfl) (h.names rfl)
      hauto hc.tranNames
    refine ⟨fun _ hopen => .inl (Nat.lt_of_lt_of_le hopen hdepth'), fun _ => hauto'.trans hauto,
      fun hdisabled => ?_, fun _ => hmode, fun _ => ⟨rfl, hdepth'⟩, fun _ => houter',
      fun _ name hname => ?_⟩
    · exact Bool.noConfusion (hmode.symm.trans hdisabled)
    · exact (Tx.mem_apply_savepoints hname).elim (h.names rfl name) (hc.savepointNames name)
  · have hdialect := fun heq => hserver (familyOf_sqlServer.mpr heq)
    rw [if_neg hdialect, updateSQLFileTransactionDepth_eq hdialect]
    have hcontrol := hc.control
    unfold control at hcontrol
    rw [if_neg hserver] at hcontrol
    rw [hcontrol]
    refine ⟨fun _ hopen => .inl ?_, fun _ => hauto'.trans hauto, fun hdisabled => ?_,
      fun _ => hmode, fun hfalse => absurd hfalse hserver, fun hfalse => absurd hfalse hserver,
      fun hfalse => absurd hfalse hserver⟩
    · rcases depthBehind_covers hserver (fun _ => hauto) hc.inside hopen with
        hpos | ⟨hsame, hbefore⟩
      · exact hpos _
      · rcases hbefore with hbefore | ⟨_, hoff⟩
        · show 0 < depthBehind s.userTransactionDepth _
          rw [hsame]
          refine (h.opened rfl hbefore).resolve_right (fun hactive => ?_)
          exact Bool.noConfusion (hauto.symm.trans hactive.2)
        · exact Bool.noConfusion (hauto.symm.trans hoff)
    · exact Bool.noConfusion (hmode.symm.trans hdisabled)

section

variable {o : StreamOptions} {isTran : Text → Prop} {s : FileRun S} {tx : Tx Text} {stmt : Text}
  {c : Command Text}

theorem trackDepth_mySQL (hfamily : familyOf o.dbType = .mySQL)
    (hc : RecognisedAs o isTran tx stmt c) :
    trackDepth o stmt s =
      { s with userTransactionDepth := depthBehind s.userTransactionDepth (seen .mySQL c) } := by
  have hdialect : normalizeSQLClassifierDBType o.dbType ≠ bytes "sqlserver" := by
    intro h
    rw [familyOf_sqlServer.mpr h] at hfamily
    cases hfamily
  have hcontrol := hc.control
  unfold control at hcontrol
  rw [hfamily, if_neg (by decide)] at hcontrol
  unfold trackDepth
  rw [if_neg hdialect, updateSQLFileTransactionDepth_eq hdialect, hcontrol]

/-- What table locks change is covered: tables are unlocked only where that commits. -/
theorem Covers.trackTableLocks
    (hunlocks : (sqlFileMySQLTableLockCommand o.dbType stmt).2 = true → ¬tx.Open)
    (h : Covers .mySQL isTran false s tx) :
    Covers .mySQL isTran false (trackTableLocks o stmt s) tx := by
  unfold Sqlfile.trackTableLocks
  split
  · exact { h with }
  · next unlocks hcommand =>
    rw [hcommand] at hunlocks
    split
    · next hreset =>
      rw [Bool.and_eq_true] at hreset
      refine ⟨fun _ hopen => absurd hopen (hunlocks hreset.1), h.on, h.off, h.mode,
        fun hfalse => ?_, fun hfalse => ?_, h.names⟩
      · cases hfalse
      · cases hfalse
    · exact h

theorem Covers.trackAutocommit (hfamily : familyOf o.dbType = .mySQL)
    (h : Covers .mySQL isTran (sqlFileMySQLImplicitCommitBeforeStatement o.dbType stmt) s tx)
    (hc : RecognisedAs o isTran tx stmt c) (hset : ∀ on, c ≠ .autocommit on) :
    Covers .mySQL isTran false (trackAutocommit o stmt (Sqlfile.trackDepth o stmt s))
      (tx.apply .mySQL c) := by
  have hauto := Tx.apply_autocommit .mySQL tx hset
  have hdialect : normalizeSQLClassifierDBType o.dbType ≠ bytes "sqlserver" := by
    intro heq
    rw [familyOf_sqlServer.mpr heq] at hfamily
    cases hfamily
  have hcontrol : depthControl o.dbType stmt = seen .mySQL c := by
    have hcontrol := hc.control
    unfold control at hcontrol
    rw [hfamily, if_neg (by decide)] at hcontrol
    exact hcontrol
  -- An open transaction is one that was open before, or one that the statement has opened.
  have hopen : (tx.apply .mySQL c).Open →
      0 < depthBehind s.userTransactionDepth (seen .mySQL c) ∨
        s.mysqlAutocommitDisabled = true ∧ tx.autocommit = false ∧
          (s.mysqlAutocommitTransactionActive = true ∧
              updateSQLFileTransactionState o.dbType true stmt = true ∨
            isBatchableWriteSQLStatement o.gates o.dbType stmt = true) := by
    intro hopen
    have hdisabled : tx.autocommit = false → s.mysqlAutocommitDisabled = true := by
      intro hoff
      refine Bool.of_not_eq_false (fun hon => ?_)
      exact Bool.noConfusion ((h.on hon).symm.trans hoff)
    rcases depthBehind_covers (by decide) (fun hne => absurd rfl hne)
      (fun _ _ hne => Family.noConfusion hne) hopen with hpos | ⟨hsame, hbefore⟩
    · exact .inl (hpos _)
    have hplain : sqlFileMySQLImplicitCommitBeforeStatement o.dbType stmt = false := by
      refine Bool.eq_false_iff.mpr (fun hcommits => ?_)
      have hbefore := hc.commits hcommits
      cases c with
      | begin name => exact absurd (hsame 0) Nat.one_ne_zero
      | lockTables => exact absurd hopen (lt_irrefl 0)
      | definition => exact absurd hopen (lt_irrefl 0)
      | _ => exact Bool.noConfusion hbefore
    by_cases hwas : tx.Open
    · rcases h.opened hplain hwas with hdepth | ⟨hactive, hoff⟩
      · rw [hsame]
        exact .inl hdepth
      · refine .inr ⟨hdisabled hoff, hoff, .inl ⟨hactive, ?_⟩⟩
        unfold updateSQLFileTransactionState
        rw [updateSQLFileTransactionDepth_eq hdialect, hcontrol, hsame]
        rfl
    · obtain ⟨hwork, hoff⟩ := hbefore.resolve_left hwas
      exact .inr ⟨hdisabled hoff, hoff, .inr (hc.opens hwork hoff hwas)⟩
  unfold Sqlfile.trackAutocommit
  rw [hc.assignsNot hset, trackDepth_mySQL hfamily hc]
  cases hmode : s.mysqlAutocommitDisabled with
  | true =>
    rw [if_pos rfl]
    refine ⟨fun _ htx => ?_, fun hon => ?_, fun _ hknown => ?_, fun hne => absurd rfl hne,
      fun hne => Family.noConfusion hne, fun hne => Family.noConfusion hne,
      fun hne => Family.noConfusion hne⟩
    · rcases hopen htx with hdepth | ⟨_, hoff, hactive⟩
      · exact .inl hdepth
      · refine .inr ⟨?_, hauto.trans hoff⟩
        rw [Bool.or_eq_true, Bool.and_eq_true]
        exact hactive
    · cases hon
    · exact hauto.trans (h.off hmode hknown)
  | false =>
    rw [if_neg Bool.false_ne_true]
    refine ⟨fun _ htx => ?_, fun _ => hauto.trans (h.on hmode), fun hoff => ?_,
      fun hne => absurd rfl hne, fun hne => Family.noConfusion hne,
      fun hne => Family.noConfusion hne, fun hne => Family.noConfusion hne⟩
    · refine .inl ((hopen htx).resolve_right (fun hactive => ?_))
      exact Bool.noConfusion (hmode.symm.trans hactive.1)
    · cases hoff

theorem Covers.trackMode (hfamily : familyOf o.dbType = .mySQL) {on : Bool}
    (h : Covers .mySQL isTran (sqlFileMySQLImplicitCommitBeforeStatement o.dbType stmt) s tx)
    (hc : RecognisedAs o isTran tx stmt (.autocommit on)) :
    Covers .mySQL isTran false (Sqlfile.trackAutocommit o stmt (Sqlfile.trackDepth o stmt s))
      (tx.apply .mySQL (.autocommit on)) := by
  have hopened : tx.Open → 0 < s.userTransactionDepth ∨
      (s.mysqlAutocommitTransactionActive = true ∧ tx.autocommit = false) := by
    refine h.opened (Bool.eq_false_iff.mpr (fun hcommits => ?_))
    exact Bool.noConfusion (hc.commits hcommits)
  have hwas : tx.Open → tx.autocommit = true → 0 < s.userTransactionDepth := fun hopen hon =>
    (hopened hopen).resolve_right (fun hactive => Bool.noConfusion (hon.symm.trans hactive.2))
  obtain ⟨mode, hassigns, hmode⟩ := hc.assigns on rfl
  unfold Sqlfile.trackAutocommit
  rw [hassigns, trackDepth_mySQL hfamily hc]
  cases on with
  | true =>
    -- The transaction is still open only if the mode was on before.
    have hafter : (tx.apply .mySQL (.autocommit true)).autocommit = true := by
      simp only [Tx.apply]
      split <;> rfl
    have hstays : (tx.apply .mySQL (.autocommit true)).Open → tx.Open ∧ tx.autocommit = true := by
      intro hopen
      simp only [Tx.apply] at hopen
      split at hopen
      · exact absurd hopen (lt_irrefl 0)
      · next hon => exact ⟨hopen, by simpa using hon⟩
    cases mode with
    | disabled => exact absurd rfl hmode
    | enabled =>
      refine ⟨fun _ hopen => .inl ?_, fun _ => hafter, fun hoff => ?_, fun hne => absurd rfl hne,
        fun hne => Family.noConfusion hne, fun hne => Family.noConfusion hne,
        fun hne => Family.noConfusion hne⟩
      · obtain ⟨hopen, hon⟩ := hstays hopen
        show 0 < if (s.mysqlAutocommitDisabled && !s.mysqlAutocommitStateUnknown) = true then 0
          else s.userTransactionDepth
        rw [if_neg]
        · exact hwas hopen hon
        · intro hknown
          rw [Bool.and_eq_true, Bool.not_eq_true'] at hknown
          exact Bool.noConfusion (hon.symm.trans (h.off hknown.1 hknown.2))
      · cases hoff
    | unknown =>
      refine ⟨fun _ hopen => ?_, fun hon => ?_, fun _ hknown => ?_, fun hne => absurd rfl hne,
        fun hne => Family.noConfusion hne, fun hne => Family.noConfusion hne,
        fun hne => Family.noConfusion hne⟩
      · obtain ⟨hopen, hon⟩ := hstays hopen
        exact .inl (hwas hopen hon)
      · cases hon
      · cases hknown
  | false =>
    cases mode with
    | enabled => exact absurd rfl hmode
    | disabled =>
      refine ⟨fun _ hopen => ?_, fun hon => ?_, fun _ _ => rfl, fun hne => absurd rfl hne,
        fun hne => Family.noConfusion hne, fun hne => Family.noConfusion hne,
        fun hne => Family.noConfusion hne⟩
      · exact (hopened hopen).imp_right (fun hactive => ⟨hactive.1, rfl⟩)
      · cases hon
    | unknown =>
      refine ⟨fun _ hopen => ?_, fun hon => ?_, fun _ _ => rfl, fun hne => absurd rfl hne,
        fun hne => Family.noConfusion hne, fun hne => Family.noConfusion hne,
        fun hne => Family.noConfusion hne⟩
      · exact (hopened hopen).imp_right (fun hactive => ⟨hactive.1, rfl⟩)
      · cases hon

/-- **The trackers cover the server** behind every statement that succeeds and is recognised. -/
theorem Covers.track
    (h : Covers (familyOf o.dbType) isTran
      (sqlFileMySQLImplicitCommitBeforeStatement o.dbType stmt) s tx)
    (hc : RecognisedAs o isTran tx stmt c) :
    Covers (familyOf o.dbType) isTran false (track o stmt s) (tx.apply (familyOf o.dbType) c) := by
  by_cases hfamily : familyOf o.dbType = .mySQL
  · have hunlocks : (sqlFileMySQLTableLockCommand o.dbType stmt).2 = true →
        ¬(tx.apply .mySQL c).Open := by
      intro hunlocks hopen
      obtain ⟨rfl, hlocked⟩ := hc.unlocks hunlocks
      simp only [Tx.apply] at hopen
      split at hopen
      · exact absurd hopen (lt_irrefl 0)
      · next hfree => exact hlocked.elim hfree (fun hclosed => hclosed hopen)
    rw [hfamily] at h ⊢
    unfold Sqlfile.track
    refine Covers.trackTableLocks hunlocks ?_
    by_cases hset : ∃ on, c = .autocommit on
    · obtain ⟨on, rfl⟩ := hset
      exact h.trackMode hfamily hc
    · exact h.trackAutocommit hfamily hc (fun on hon => hset ⟨on, hon⟩)
  · have hplain : sqlFileMySQLImplicitCommitBeforeStatement o.dbType stmt = false := by
      have hdialect : isSQLFileMySQLCompatibleDialect o.dbType = false :=
        Bool.eq_false_iff.mpr (fun hmySQL => hfamily (familyOf_mySQL hmySQL))
      unfold sqlFileMySQLImplicitCommitBeforeStatement
      exact if_pos hdialect
    rw [hplain] at h
    rw [track_eq_trackDepth hfamily (h.mode hfamily)]
    exact h.trackDepth hfamily hc

theorem Covers.beforeSingle (h : Covers (familyOf o.dbType) isTran false s tx)
    (item : PendingStatement) :
    Covers (familyOf o.dbType) isTran
      (sqlFileMySQLImplicitCommitBeforeStatement o.dbType item.sql) (beforeSingle o item s) tx := by
  unfold Sqlfile.beforeSingle
  cases hcommits : sqlFileMySQLImplicitCommitBeforeStatement o.dbType item.sql with
  | false => exact h
  | true =>
    have hfamily : familyOf o.dbType = .mySQL := by
      refine familyOf_mySQL (Bool.of_not_eq_false (fun hdialect => ?_))
      unfold sqlFileMySQLImplicitCommitBeforeStatement at hcommits
      simp [hdialect] at hcommits
    rw [if_pos rfl]
    rw [hfamily] at h ⊢
    exact ⟨fun hfalse => Bool.noConfusion hfalse, h.on, h.off, h.mode,
      fun hne => Family.noConfusion hne, fun hne => Family.noConfusion hne,
      fun hne => Family.noConfusion hne⟩

/-- Behind a statement that fails the trackers cover the server again. -/
theorem Covers.fails {tx' : Tx Text}
    (h : Covers (familyOf o.dbType) isTran
      (sqlFileMySQLImplicitCommitBeforeStatement o.dbType stmt) s tx)
    (hc : RecognisedAs o isTran tx stmt c) (hfails : Fails (familyOf o.dbType) c tx tx') :
    Covers (familyOf o.dbType) isTran false s tx' := by
  refine ⟨fun _ hopen => ?_, fun hon => hfails.autocommit.trans (h.on hon),
    fun hoff hknown => hfails.autocommit.trans (h.off hoff hknown), h.mode, fun hserver => ?_,
    h.outer, fun hserver name hname => h.names hserver name (hfails.savepoints hname)⟩
  · cases hcommits : sqlFileMySQLImplicitCommitBeforeStatement o.dbType stmt with
    | false =>
      rw [hfails.autocommit]
      exact h.opened hcommits (Nat.lt_of_lt_of_le hopen hfails.depth)
    | true =>
      have hfamily : familyOf o.dbType = .mySQL := by
        refine familyOf_mySQL (Bool.of_not_eq_false (fun hdialect => ?_))
        unfold sqlFileMySQLImplicitCommitBeforeStatement at hcommits
        simp [hdialect] at hcommits
      have hzero := hfails.committed (hfamily ▸ hc.commits hcommits)
      unfold Tx.Open at hopen
      omega
  · exact ⟨(h.counted hserver).1, hfails.depth.trans (h.counted hserver).2⟩

end

end GoNavi.Sqlfile
