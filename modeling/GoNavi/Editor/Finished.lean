import GoNavi.Editor.Finishing
import GoNavi.Machine.Custody

/-! # Released sessions

A session should not be released with a transaction open on it (`Settled`), and a transaction
that was registered should be committed or rolled back once, and then closed.

A first text whose values do not bind closes the session of a text transaction without a
`ROLLBACK` (`settled_fails`).  **Every other first text settles its session, and a registered
transaction is pending, or is being finished, or is finished once** (`sessions_released`), in
every state of every run.

Who finishes a transaction is a matter of custody: it is in the map, or some thread owes to finish
it, or it is closed, and it is in one of these places once (`Inv.custody`). -/

namespace GoNavi.Editor

open Scan GoNavi.Sql GoNavi.Sqlparam GoNavi.Sqlfile Custody List Option

variable {γ F T : Type}

/-! ### Logs -/

/-- The session is still in use. -/
def Unfinished (log : List (SessionEvent F T)) : Prop := ∀ e ∈ log, e.isWork = true

/-- The call ends the transaction. -/
def SessionEvent.isEnd : SessionEvent F T → Bool
  | .commit | .rollback => true
  | _ => false

def SessionEvent.isClose : SessionEvent F T → Bool
  | .close => true
  | _ => false

/-- A `ROLLBACK` was issued before the session was closed; `Close` of a transaction handle rolls
back what is not finished before it gives the connection back. -/
def rolledBack (mode : BoundaryMode) : List (SessionEvent F T) → Bool
  | [] => false
  | .rollback :: _ => true
  | .close :: _ => mode = .driverAPI
  | _ :: rest => rolledBack mode rest

/-- The transaction was begun: by a `BEGIN` that succeeded, or by its first statement. -/
def begun (log : List (SessionEvent F T)) : Bool := log.any SessionEvent.isWork

/-- A transaction that was begun has been registered, or was rolled back before its session was
closed. -/
def ManagedTransaction.Settled (tx : ManagedTransaction F T) : Prop :=
  begun tx.log = true → tx.registered = true ∨ rolledBack tx.mode tx.log = true

/-- A text transaction is begun, and then the values do not bind. -/
def TransactionStart.LeavesOpen (env : AuditEnvironment γ F T) (input : TransactionStart F T) :
    Prop :=
  (input.opened env).map (·.1) = some .textSQL ∧ input.opening.beginEnding = .success ∧
    (input.statements env).isOk = false

variable {log : List (SessionEvent F T)}

theorem Unfinished.append {log' : List (SessionEvent F T)} (h : Unfinished log)
    (h' : Unfinished log') : Unfinished (log ++ log') :=
  forall_mem_append.mpr ⟨h, h'⟩

theorem Unfinished.rolledBack_append {work : List (SessionEvent F T)} (h : Unfinished work)
    (mode : BoundaryMode) (log : List (SessionEvent F T)) :
    rolledBack mode (work ++ log) = rolledBack mode log := by
  induction work with
  | nil => rfl
  | cons e work ih =>
    have hrest := ih fun e' he' => h e' (mem_cons_of_mem _ he')
    have he := h e mem_cons_self
    cases e with
    | begin => exact hrest
    | call c => exact hrest
    | commit => cases he
    | rollback => cases he
    | close => cases he

theorem Unfinished.closes (h : Unfinished log) :
    log.countP SessionEvent.isClose = 0 := by
  rw [countP_eq_zero]
  intro e he
  have hwork := h e he
  cases e <;> simp_all [SessionEvent.isWork, SessionEvent.isClose]

/-! ### The first text -/

variable {input : TransactionStart F T}

/-- Without a handle there are texts that end the transaction. -/
theorem endEvents_of_opened {env : AuditEnvironment γ F T} {mode : BoundaryMode}
    {texts : TransactionSQL} (h : input.opened env = some (mode, texts)) (finish : Finish) :
    ∃ e : SessionEvent F T, endEvents mode texts finish = [e] ∧
      e.isEnd = true ∧ (finish = .rollback → e = .rollback) := by
  have hfilled : mode = .driverAPI ∨
      (trimSpace texts.commitSQL ≠ [] ∧ trimSpace texts.rollbackSQL ≠ []) := by
    unfold TransactionStart.opened at h
    dsimp only at h
    cases hprovider : input.opening.provider with
    | neither =>
      rw [hprovider] at h
      split_ifs at h
    | transaction begins =>
      rw [hprovider] at h
      dsimp only at h
      split_ifs at h
      cases h
      exact .inl rfl
    | session =>
      rw [hprovider] at h
      right
      split_ifs at h with hadmitted himplicit hbatch
      · obtain ⟨implicitTexts, hsome⟩ := isSome_iff_exists.mp himplicit
        rw [hsome] at h
        cases h
        exact texts_filled (.inr hsome)
      · obtain ⟨batchTexts, hsome⟩ := isSome_iff_exists.mp hbatch
        rw [not_isSome_iff_eq_none.mp himplicit, hsome] at h
        cases h
        exact texts_filled (.inl hsome)
  unfold endEvents
  rcases hfilled with rfl | ⟨hcommit, hrollback⟩
  · cases finish with
    | commit => exact ⟨.commit, rfl, rfl, fun h => by cases h⟩
    | rollback => exact ⟨.rollback, rfl, rfl, fun _ => rfl⟩
  · cases finish with
    | commit =>
      refine ⟨.commit, ?_, rfl, fun h => by cases h⟩
      simp [hcommit]
    | rollback =>
      refine ⟨.rollback, ?_, rfl, fun _ => rfl⟩
      simp [hrollback]

theorem unfinished_calls (calls : List (SessionCall F T)) :
    Unfinished (calls.map SessionEvent.call) := by
  intro e he
  obtain ⟨c, _, rfl⟩ := mem_map.mp he
  rfl

theorem unfinished_begun (b : Bool) :
    Unfinished (if b then [SessionEvent.begin] else [] : List (SessionEvent F T)) := by
  cases b with
  | true => exact fun e he => by rw [mem_singleton.mp he]; rfl
  | false => exact forall_mem_nil _

/-- What a first text does: work on its session that is registered at the end, or calls that
settle the session unless they leave it open. -/
theorem ops_cases (env : AuditEnvironment γ F T) (input : TransactionStart F T) :
    (∃ work, dbQueryMultiTransactionalOps env input = work.map .event ++ [.register] ∧
      Unfinished work ∧ (input.opened env).isSome = true ∧ ¬input.LeavesOpen env) ∨
    ∃ events, dbQueryMultiTransactionalOps env input = events.map .event ∧
      ((begun events = true → rolledBack (ManagedTransaction.fresh env input).mode events = true) ↔
        ¬input.LeavesOpen env) := by
  unfold dbQueryMultiTransactionalOps TransactionStart.LeavesOpen ManagedTransaction.fresh
  cases hopened : input.opened env with
  | none => exact .inr ⟨[], rfl, by simp [begun]⟩
  | some opened =>
    obtain ⟨mode, texts⟩ := opened
    dsimp only
    split
    · rename_i hfails
      exact .inr ⟨[.close], rfl, by simp [begun, SessionEvent.isWork, hfails.2]⟩
    · rename_i hfails
      have hbegin : mode = .textSQL → input.opening.beginEnding = .success :=
        fun hmode => by simpa [hmode] using hfails
      generalize hstarts : begunAtStart mode input.opening.provider = starts
      have hstart := unfinished_begun (F := F) (T := T) starts
      have hevents : (if starts then [.event .begin] else [] : List (StartOp F T)) =
          (if starts then [.begin] else []).map .event := by
        cases starts <;> rfl
      rw [hevents]
      cases hstmts : input.statements env with
      | error e =>
        right
        refine ⟨(if starts then [.begin] else []) ++ [.close], by rw [map_append]; rfl, ?_⟩
        rw [hstart.rolledBack_append]
        cases mode with
        | driverAPI => simp [rolledBack]
        | implicit =>
          obtain rfl : false = starts := hstarts
          simp [begun, SessionEvent.isWork]
        | textSQL =>
          obtain rfl : true = starts := hstarts
          simp [begun, SessionEvent.isWork, rolledBack, hbegin rfl, Except.isOk, Except.toBool]
      | ok stmts =>
        dsimp only
        generalize hexecution : executeManagedSQLTransactionStatementsWithObserver env
          input.transactionID.val input.session input.config.resolvedType
          input.config.resolvedType input.replies (statementCount stmts) id 0 0 stmts = execution
        have hwork := hstart.append (unfinished_calls (execution.sent.flatMap (·.calls)))
        cases execution.ok with
        | true =>
          left
          refine ⟨_, ?_, hwork, rfl, by simp [Except.isOk, Except.toBool]⟩
          simp [Function.comp_def]
        | false =>
          right
          obtain ⟨e, hend, _, hrollback⟩ := endEvents_of_opened (T := T) hopened .rollback
          refine ⟨(if starts then [.begin] else []) ++
            (execution.sent.flatMap (·.calls)).map .call ++ [.rollback] ++ [.close], ?_, ?_⟩
          · rw [hend, hrollback rfl]
            simp [Function.comp_def]
          · rw [append_assoc, hwork.rolledBack_append]
            simp [rolledBack, Except.isOk, Except.toBool]

/-! ### Custody -/

/-- The transactions that a thread has taken and not closed yet. -/
def Thread.owes : Thread F T → List ℕ
  | .finishing taken _ => taken
  | .ending i rest _ | .closing i rest _ => i :: rest
  | .unlocking _ rest _ => rest
  | _ => []

/-- The first text that a thread runs. -/
def Thread.starts : Thread F T → List ℕ
  | .starting i _ => [i]
  | _ => []

/-- How far a transaction in the map has come. -/
inductive Stage where
  | open
  | marked
  | ended
  | closed
deriving DecidableEq

/-- A registered transaction that has come so far. -/
structure ManagedTransaction.At (tx : ManagedTransaction F T) (stage : Stage) : Prop where
  registered : tx.registered = true
  finished : tx.finished = decide (stage ≠ .open)
  log : match stage with
    | .open | .marked => Unfinished tx.log
    | .ended => ∃ work e, tx.log = work ++ [e] ∧ Unfinished work ∧ e.isEnd = true
    | .closed => ∃ work e, tx.log = work ++ [e, .close] ∧ Unfinished work ∧ e.isEnd = true

/-- How far a thread takes the transactions to be that it deals with. -/
def Thread.claims : Thread F T → List (ℕ × Stage)
  | .executing i (_ :: _) => [(i, .open)]
  | .finishing taken _ => taken.map (·, .open)
  | .ending i rest _ => (i, .marked) :: rest.map (·, .open)
  | .closing i rest _ => (i, .ended) :: rest.map (·, .open)
  | .unlocking _ rest _ => rest.map (·, .open)
  | _ => []

variable {i : ℕ} {th : Thread F T} {stage : Stage}

/-- Where a transaction is claimed, it is owed or its mutex is held; beyond `open`, both. -/
theorem Thread.claims_cases (h : (i, stage) ∈ th.claims) :
    (stage = .open ∧ (i ∈ th.owes ∨ i ∈ th.holds)) ∨ (i ∈ th.owes ∧ i ∈ th.holds) := by
  cases th with
  | executing j calls =>
    cases calls with
    | nil => exact absurd h not_mem_nil
    | cons c calls =>
      obtain ⟨rfl, rfl⟩ := Prod.mk.inj (mem_singleton.mp h)
      exact .inl ⟨rfl, .inr (mem_singleton_self _)⟩
  | finishing taken finish =>
    obtain ⟨j, hj, heq⟩ := mem_map.mp h
    obtain ⟨rfl, rfl⟩ := Prod.mk.inj heq
    exact .inl ⟨rfl, .inl hj⟩
  | ending j rest finish =>
    rcases mem_cons.mp h with heq | hrest
    · obtain ⟨rfl, rfl⟩ := Prod.mk.inj heq
      exact .inr ⟨mem_cons_self, mem_singleton_self _⟩
    · obtain ⟨j, hj, heq⟩ := mem_map.mp hrest
      obtain ⟨rfl, rfl⟩ := Prod.mk.inj heq
      exact .inl ⟨rfl, .inl (mem_cons_of_mem _ hj)⟩
  | closing j rest finish =>
    rcases mem_cons.mp h with heq | hrest
    · obtain ⟨rfl, rfl⟩ := Prod.mk.inj heq
      exact .inr ⟨mem_cons_self, mem_singleton_self _⟩
    · obtain ⟨j, hj, heq⟩ := mem_map.mp hrest
      obtain ⟨rfl, rfl⟩ := Prod.mk.inj heq
      exact .inl ⟨rfl, .inl (mem_cons_of_mem _ hj)⟩
  | unlocking j rest finish =>
    obtain ⟨j, hj, heq⟩ := mem_map.mp h
    obtain ⟨rfl, rfl⟩ := Prod.mk.inj heq
    exact .inl ⟨rfl, .inl hj⟩
  | starting j ops => exact absurd h not_mem_nil
  | following j followUp => exact absurd h not_mem_nil
  | returned => exact absurd h not_mem_nil

/-- How often the session of a registered transaction was closed. -/
def ManagedTransaction.closes (tx : ManagedTransaction F T) : ℕ :=
  if tx.registered then tx.log.countP SessionEvent.isClose else 0

/-- A first text that is under way: its session is private, until it has registered the
transaction. -/
def ManagedTransaction.Starting (env : AuditEnvironment γ F T) (tx : ManagedTransaction F T)
    (ops : List (StartOp F T)) : Prop :=
  (tx.registered = false ∧ tx.finished = false ∧
    tx.log.map .event ++ ops = dbQueryMultiTransactionalOps env tx.input) ∨
  (tx.registered = true ∧ ops = [] ∧ ¬tx.input.LeavesOpen env)

/-- The invariant of the pool. -/
structure Inv (env : AuditEnvironment γ F T) (pool : Pool F T) : Prop where
  /-- A transaction keeps its boundary mode and its texts. -/
  fresh : ∀ tx ∈ pool.txs, tx.mode = (ManagedTransaction.fresh env tx.input).mode ∧
    tx.texts = (ManagedTransaction.fresh env tx.input).texts ∧
    (tx.registered = true → (tx.input.opened env).isSome = true)
  /-- A first text runs in one thread. -/
  starts : ∀ i, total Thread.starts pool.threads i = if i < pool.txs.length then 1 else 0
  starting : ∀ i ops, Thread.starting i ops ∈ pool.threads →
    ∃ tx, pool.txs[i]? = some tx ∧ tx.Starting env ops
  /-- A mutex is held by one thread at most. -/
  locks : ∀ i, total Thread.holds pool.threads i ≤ 1
  /-- A registered transaction is in the map, or owed by a thread, or closed. -/
  custody : ∀ i tx, pool.txs[i]? = some tx →
    pool.pending.count i + total Thread.owes pool.threads i + tx.closes =
      if tx.registered then 1 else 0
  pending : ∀ i ∈ pool.pending, ∃ tx, pool.txs[i]? = some tx ∧ tx.At .open
  claims : ∀ th ∈ pool.threads, ∀ c ∈ th.claims, ∃ tx, pool.txs[c.1]? = some tx ∧ tx.At c.2
  /-- A transaction that is closed was ended before. -/
  closed : ∀ tx ∈ pool.txs, tx.closes ≠ 0 → tx.At .closed
  subject : ∀ th ∈ pool.threads, ∀ i ∈ th.subject, i < pool.txs.length
  following : ∀ i followUp, Thread.following i followUp ∈ pool.threads →
    ∃ tx, pool.txs[i]? = some tx ∧ tx.registered = true

theorem Inv.empty (env : AuditEnvironment γ F T) : Inv env (.empty : Pool F T) where
  fresh := forall_mem_nil _
  starts := fun i => rfl
  starting := fun i ops h => absurd h not_mem_nil
  locks := fun i => Nat.zero_le _
  custody := fun i tx h => by cases h
  pending := forall_mem_nil _
  claims := forall_mem_nil _
  closed := forall_mem_nil _
  subject := forall_mem_nil _
  following := fun i f h => absurd h not_mem_nil

theorem Thread.claims_of_owes (h : i ∈ th.owes) :
    ∃ stage, (i, stage) ∈ th.claims := by
  cases th with
  | finishing taken finish => exact ⟨.open, mem_map_of_mem h⟩
  | ending j rest finish =>
    rcases mem_cons.mp h with rfl | hrest
    · exact ⟨.marked, mem_cons_self⟩
    · exact ⟨.open, mem_cons_of_mem _ (mem_map_of_mem hrest)⟩
  | closing j rest finish =>
    rcases mem_cons.mp h with rfl | hrest
    · exact ⟨.ended, mem_cons_self⟩
    · exact ⟨.open, mem_cons_of_mem _ (mem_map_of_mem hrest)⟩
  | unlocking j rest finish => exact ⟨.open, mem_map_of_mem h⟩
  | executing j calls => exact absurd h not_mem_nil
  | starting j ops => exact absurd h not_mem_nil
  | following j followUp => exact absurd h not_mem_nil
  | returned => exact absurd h not_mem_nil

theorem getElem?_lt {α : Type} {l : List α} {a : α} (h : l[i]? = some a) :
    i < l.length :=
  (List.getElem?_eq_some_iff.mp h).1

theorem getElem?_concat {α : Type} {l : List α} {a : α} (b : α) (h : l[i]? = some a) :
    (l ++ [b])[i]? = some a := by
  rw [getElem?_append_left (getElem?_lt h), h]

variable {tx' : ManagedTransaction F T}

/-- Where a transaction was replaced, the others are as they were. -/
theorem exists_set {txs : List (ManagedTransaction F T)} {j : ℕ} {Q : ManagedTransaction F T → Prop}
    (hold : ∃ tx, txs[j]? = some tx ∧ Q tx) (hkeep : j = i → Q tx') :
    ∃ tx, (txs.set i tx')[j]? = some tx ∧ Q tx := by
  obtain ⟨tx, htx, hQ⟩ := hold
  by_cases hj : j = i
  · subst hj
    exact ⟨tx', getElem?_set_self (getElem?_lt htx), hkeep rfl⟩
  · exact ⟨tx, by rw [getElem?_set_ne (Ne.symm hj)]; exact htx, hQ⟩

variable {env : AuditEnvironment γ F T} {pool : Pool F T} {tx : ManagedTransaction F T}

theorem Inv.claimed (h : Inv env pool) (hth : th ∈ pool.threads) (hclaim : (i, stage) ∈ th.claims)
    (htx : pool.txs[i]? = some tx) : tx.At stage := by
  obtain ⟨a, ha, hat⟩ := h.claims th hth _ hclaim
  obtain rfl : tx = a := some.inj (htx.symm.trans ha)
  exact hat

theorem Inv.at_pending (h : Inv env pool) (hi : i ∈ pool.pending) (htx : pool.txs[i]? = some tx) :
    tx.At .open := by
  obtain ⟨a, ha, hopen⟩ := h.pending i hi
  obtain rfl : tx = a := some.inj (htx.symm.trans ha)
  exact hopen

theorem subject_lt (htx : pool.txs[i]? = some tx) (hi : th.subject = some i) :
    ∀ j ∈ th.subject, j < pool.txs.length := by
  intro j hj
  obtain rfl : i = j := some.inj (hi.symm.trans hj)
  exact getElem?_lt htx

theorem Inv.start (h : Inv env pool) (input : TransactionStart F T) :
    Inv env (pool.step env (.start input)) := by
  have hclaimed : ∀ th ∈ pool.threads, pool.txs.length ∉ th.owes := by
    intro th hth howes
    obtain ⟨stage, hclaim⟩ := Thread.claims_of_owes howes
    obtain ⟨tx, htx, _⟩ := h.claims th hth _ hclaim
    exact absurd (getElem?_lt htx) (Nat.lt_irrefl _)
  have hpending : pool.txs.length ∉ pool.pending := by
    intro hmem
    obtain ⟨tx, htx, _⟩ := h.pending _ hmem
    exact absurd (getElem?_lt htx) (Nat.lt_irrefl _)
  have hlast : (pool.txs ++ [ManagedTransaction.fresh env input])[pool.txs.length]? =
      some (.fresh env input) := by simp
  constructor
  · exact forall_mem_append.mpr
      ⟨h.fresh, forall_mem_singleton.mpr ⟨rfl, rfl, fun hregistered => by cases hregistered⟩⟩
  · intro i
    show total Thread.starts (pool.threads ++ [.starting _ _]) i =
      if i < (pool.txs ++ [ManagedTransaction.fresh env input]).length then 1 else 0
    rw [total_concat, h.starts i, length_append]
    show _ + [pool.txs.length].count i = _
    rw [count_singleton, length_singleton]
    by_cases hi : pool.txs.length = i
    · subst hi
      simp
    · have hiff : i < pool.txs.length + 1 ↔ i < pool.txs.length := by omega
      simp [hi, hiff]
  · intro i ops hmem
    rcases mem_append.mp hmem with hold | hnew
    · obtain ⟨tx, htx, hstarting⟩ := h.starting i ops hold
      exact ⟨tx, getElem?_concat _ htx, hstarting⟩
    · obtain ⟨rfl, rfl⟩ := Thread.starting.inj (mem_singleton.mp hnew)
      exact ⟨_, hlast, .inl ⟨rfl, rfl, rfl⟩⟩
  · intro i
    show total Thread.holds (pool.threads ++ [.starting _ _]) i ≤ 1
    rw [total_concat]
    exact h.locks i
  · intro i tx htx
    show pool.pending.count i + total Thread.owes (pool.threads ++ [.starting _ _]) i + _ = _
    rw [total_concat]
    by_cases hi : i < pool.txs.length
    · have happend : (pool.txs ++ [ManagedTransaction.fresh env input])[i]? = pool.txs[i]? :=
        getElem?_append_left hi
      exact h.custody i tx (happend.symm.trans htx)
    · obtain rfl : i = pool.txs.length := by
        have hlt := getElem?_lt htx
        simp only [Pool.step, length_append, length_singleton] at hlt
        omega
      obtain rfl : ManagedTransaction.fresh env input = tx := some.inj (hlast.symm.trans htx)
      rw [count_eq_zero.mpr hpending, total_eq_zero.mpr hclaimed]
      rfl
  · intro i hi
    obtain ⟨tx, htx, hopen⟩ := h.pending i hi
    exact ⟨tx, getElem?_concat _ htx, hopen⟩
  · intro th hth c hc
    rcases mem_append.mp hth with hold | hnew
    · obtain ⟨tx, htx, hat⟩ := h.claims th hold c hc
      exact ⟨tx, getElem?_concat _ htx, hat⟩
    · obtain rfl := mem_singleton.mp hnew
      exact absurd hc not_mem_nil
  · intro tx htx hcloses
    rcases mem_append.mp htx with hold | hnew
    · exact h.closed tx hold hcloses
    · obtain rfl := mem_singleton.mp hnew
      exact absurd rfl hcloses
  · intro th hth i hi
    show i < (pool.txs ++ [_]).length
    rw [length_append]
    rcases mem_append.mp hth with hold | hnew
    · exact Nat.lt_succ_of_lt (h.subject th hold i hi)
    · obtain rfl := mem_singleton.mp hnew
      obtain rfl : pool.txs.length = i := some.inj hi
      exact Nat.lt_succ_self _
  · intro i followUp hmem
    rcases mem_append.mp hmem with hold | hnew
    · obtain ⟨tx, htx, hregistered⟩ := h.following i followUp hold
      exact ⟨tx, getElem?_concat _ htx, hregistered⟩
    · cases mem_singleton.mp hnew

/-- A thread is added that runs no first text and holds no mutex. -/
theorem Inv.spawn (h : Inv env pool) {pending' : List ℕ} (hidle : th.starts = [] ∧ th.holds = [])
    (hcustody : ∀ j, pending'.count j + (th.owes).count j = pool.pending.count j)
    (hpending : pending' ⊆ pool.pending)
    (hclaims : ∀ c ∈ th.claims, ∃ tx, pool.txs[c.1]? = some tx ∧ tx.At c.2)
    (hsubject : ∀ j ∈ th.subject, j < pool.txs.length)
    (hfollowing : ∀ j followUp, th = .following j followUp →
      ∃ tx, pool.txs[j]? = some tx ∧ tx.registered = true) :
    Inv env ⟨pool.txs, pending', pool.threads ++ [th]⟩ := by
  have hthreads : ∀ a ∈ pool.threads ++ [th], a ∈ pool.threads ∨ a = th :=
    fun a ha => (mem_append.mp ha).imp_right mem_singleton.mp
  constructor
  · exact h.fresh
  · intro j
    rw [total_concat, hidle.1, h.starts j]
    rfl
  · intro j ops hmem
    rcases hthreads _ hmem with hold | rfl
    · exact h.starting j ops hold
    · cases hidle.1
  · intro j
    rw [total_concat, hidle.2]
    exact h.locks j
  · intro j tx htx
    have hold := h.custody j tx htx
    have hsame := hcustody j
    rw [total_concat]
    dsimp only
    omega
  · exact fun j hj => h.pending j (hpending hj)
  · intro a ha
    rcases hthreads a ha with hold | rfl
    · exact h.claims a hold
    · exact hclaims
  · exact h.closed
  · intro a ha
    rcases hthreads a ha with hold | rfl
    · exact h.subject a hold
    · exact hsubject
  · intro j followUp hmem
    rcases hthreads _ hmem with hold | hnew
    · exact h.following j followUp hold
    · exact hfollowing j followUp hnew.symm

theorem Inv.followUp (h : Inv env pool) (i : ℕ) (followUp : FollowUp F T) :
    Inv env (pool.step env (.followUp i followUp)) := by
  unfold Pool.step
  dsimp only
  split
  · rename_i hi
    obtain ⟨tx, htx, hopen⟩ := h.pending i hi
    refine h.spawn ⟨rfl, rfl⟩ (fun _ => rfl) (List.Subset.refl _) (forall_mem_nil _)
      (subject_lt htx rfl) ?_
    intro j followUp' heq
    obtain ⟨rfl, rfl⟩ := Thread.following.inj heq
    exact ⟨tx, htx, hopen.registered⟩
  · exact h

theorem count_filter_add {l : List ℕ} (p : ℕ → Bool) (i : ℕ) :
    (l.filter p).count i + (l.filter fun j => !p j).count i = l.count i := by
  rw [← count_append]
  exact (filter_append_perm p l).count_eq i

theorem Inv.take (h : Inv env pool) {fits : ℕ → Bool} {taken : List ℕ} (finish : Finish)
    (htaken : taken.Perm (pool.pending.filter fits)) :
    Inv env { pool with
      pending := pool.pending.filter fun i => !fits i
      threads := pool.threads ++ [.finishing taken finish] } := by
  have hopen : ∀ i ∈ taken, ∃ tx, pool.txs[i]? = some tx ∧ tx.At .open :=
    fun i hi => h.pending i (mem_of_mem_filter (htaken.mem_iff.mp hi))
  refine h.spawn ⟨rfl, rfl⟩ ?_ filter_sublist.subset ?_ ?_ (fun _ _ heq => by cases heq)
  · intro j
    have hsum := count_filter_add (l := pool.pending) fits j
    have hcount : taken.count j = (pool.pending.filter fits).count j := htaken.count_eq j
    show _ + taken.count j = _
    omega
  · intro c hc
    obtain ⟨i, hi, rfl⟩ := mem_map.mp hc
    exact hopen i hi
  · cases taken with
    | nil => exact fun j hj => by cases hj
    | cons i rest =>
      obtain ⟨tx, htx, _⟩ := hopen i mem_cons_self
      exact subject_lt htx rfl

theorem Inv.count_pending (h : Inv env pool) (hi : i ∈ pool.pending) :
    pool.pending.count i = 1 := by
  obtain ⟨tx, htx, hopen⟩ := h.pending i hi
  have hcustody := h.custody i tx htx
  have hpos : 0 < pool.pending.count i := count_pos_iff.mpr hi
  rw [hopen.registered, if_pos rfl] at hcustody
  omega

theorem Inv.finish (h : Inv env pool) (i : ℕ) (finish : Finish) :
    Inv env (pool.step env (.finish i finish)) := by
  unfold Pool.step
  dsimp only
  split
  · rename_i hi
    have htaken : [i].Perm (pool.pending.filter fun j => decide (j = i)) := by
      have hone : pool.pending.filter (fun j => decide (j = i)) = [i] := by
        have hreplicate := filter_beq (l := pool.pending) i
        rw [h.count_pending hi] at hreplicate
        exact hreplicate
      rw [hone]
    have hrest : (pool.pending.filter fun j => !decide (j = i)) =
        pool.pending.filter fun j => decide (j ≠ i) :=
      filter_congr fun j _ => (decide_not).symm
    rw [← hrest]
    exact h.take finish htaken
  · exact h

theorem Inv.rollbackPending (h : Inv env pool) (fits : ℕ → Bool) (taken : List ℕ) :
    Inv env (pool.step env (.rollbackPending fits taken)) := by
  unfold Pool.step
  dsimp only
  split
  · rename_i htaken
    exact h.take .rollback htaken
  · exact h

/-! ### A step of a thread -/

theorem Inv.at_open (h : Inv env pool) (htx : pool.txs[i]? = some tx)
    (hregistered : tx.registered = true) (hfinished : tx.finished = false) : tx.At .open := by
  have hstage {stage : Stage} (hat : tx.At stage) : tx.At .open := by
    have hopen : stage = .open := by
      have hsame := hat.finished
      rw [hfinished] at hsame
      simpa using hsame
    rwa [hopen] at hat
  have hcustody := h.custody i tx htx
  rw [hregistered, if_pos rfl] at hcustody
  by_cases hpending : i ∈ pool.pending
  · exact h.at_pending hpending htx
  · by_cases howed : ∃ th ∈ pool.threads, i ∈ th.owes
    · obtain ⟨th, hth, howes⟩ := howed
      obtain ⟨stage, hclaim⟩ := Thread.claims_of_owes howes
      exact hstage (h.claimed hth hclaim htx)
    · have hnone : total Thread.owes pool.threads i = 0 :=
        total_eq_zero.mpr fun th hth howes => howed ⟨th, hth, howes⟩
      rw [count_eq_zero.mpr hpending, hnone] at hcustody
      exact hstage (h.closed tx (mem_of_getElem? htx) (by omega))

variable {t : ℕ}

/-- What a thread owes is not in the map, and no other thread owes it. -/
theorem Inv.owed (h : Inv env pool) (hth : pool.threads[t]? = some th) (howes : i ∈ th.owes) :
    (th.owes).count i = 1 ∧ i ∉ pool.pending ∧
      ∀ t' th', t' ≠ t → pool.threads[t']? = some th' → i ∉ th'.owes := by
  obtain ⟨stage, hclaim⟩ := Thread.claims_of_owes howes
  obtain ⟨tx, htx, hat⟩ := h.claims th (mem_of_getElem? hth) _ hclaim
  have hcustody := h.custody i tx htx
  rw [hat.registered, if_pos rfl] at hcustody
  have hle : (th.owes).count i ≤ total Thread.owes pool.threads i := count_le_total hth
  have hpos : 0 < (th.owes).count i := count_pos_iff.mpr howes
  refine ⟨by omega, count_eq_zero.mp (by omega), ?_⟩
  intro t' th' hne hth'
  exact exclusive (by omega) hne.symm hth howes hth'

/-- A thread that holds its transaction or finds it free, and owes it, is the only one that
claims it. -/
theorem Inv.unclaimed (h : Inv env pool) (hth : pool.threads[t]? = some th) (howes : i ∈ th.owes)
    (hlock : i ∈ th.holds ∨ pool.free i) :
    ∀ t' th' stage, t' ≠ t → pool.threads[t']? = some th' → (i, stage) ∉ th'.claims := by
  intro t' th' stage hne hth' hclaim
  have hother : i ∉ th'.holds := by
    rcases hlock with hholds | hfree
    · exact exclusive (h.locks i) hne.symm hth hholds hth'
    · intro hholds
      exact hfree (mem_flatMap.mpr ⟨th', mem_of_getElem? hth', hholds⟩)
  have hnot := (h.owed hth howes).2.2 t' th' hne hth'
  rcases Thread.claims_cases hclaim with ⟨_, howes' | hholds'⟩ | ⟨howes', _⟩
  · exact hnot howes'
  · exact hother hholds'
  · exact hnot howes'

variable {th' : Thread F T}

theorem Inv.replace (h : Inv env pool) {pending' : List ℕ}
    (hth : pool.threads[t]? = some th)
    (htx : pool.txs[i]? = some tx)
    (hfresh : tx'.input = tx.input ∧ tx'.mode = tx.mode ∧ tx'.texts = tx.texts ∧
      (tx'.registered = true → (tx.input.opened env).isSome = true))
    (hregistered : tx.registered = true → tx'.registered = true)
    (hstarts : th'.starts = th.starts)
    (hstarting : ∀ j ops, th' = .starting j ops → j = i ∧ tx'.Starting env ops)
    (hother : ∀ ops, i ∉ th.starts → tx.Starting env ops → tx'.Starting env ops)
    (hholds : ∀ j, (th'.holds).count j ≤ (th.holds).count j ∨
      ((th'.holds).count j ≤ 1 ∧ pool.free j))
    (hcustody : ∀ j, j ≠ i →
      pending'.count j + (th'.owes).count j = pool.pending.count j + (th.owes).count j)
    (hcustodyAt : pending'.count i + (th'.owes).count i + tx'.closes +
        (if tx.registered then 1 else 0) =
      pool.pending.count i + (th.owes).count i + tx.closes + if tx'.registered then 1 else 0)
    (hpending : ∀ j ∈ pending', if j = i then tx'.At .open else j ∈ pool.pending)
    (hclaims : ∀ c ∈ th'.claims, if c.1 = i then tx'.At c.2 else c ∈ th.claims)
    (hstable : ∀ t' th'' stage, t' ≠ t → pool.threads[t']? = some th'' →
      (i, stage) ∈ th''.claims → tx.At stage → tx'.At stage)
    (hclosed : tx'.closes ≠ 0 → tx'.At .closed)
    (hsubject : ∀ j ∈ th'.subject, j < pool.txs.length)
    (hfollowing : ∀ j followUp, th' ≠ .following j followUp) :
    Inv env ⟨pool.txs.set i tx', pending', pool.threads.set t th'⟩ := by
  have hlt : i < pool.txs.length := getElem?_lt htx
  have htlt : t < pool.threads.length := getElem?_lt hth
  have hthreads : ∀ a ∈ pool.threads.set t th', a = th' ∨
      ∃ t', t' ≠ t ∧ pool.threads[t']? = some a := by
    intro a ha
    obtain ⟨t', ht'⟩ := mem_iff_getElem?.mp ha
    by_cases heq : t' = t
    · subst heq
      rw [getElem?_set_self htlt, some.injEq] at ht'
      exact .inl ht'.symm
    · rw [getElem?_set_ne (Ne.symm heq)] at ht'
      exact .inr ⟨t', heq, ht'⟩
  constructor
  · intro a ha
    rcases mem_or_eq_of_mem_set ha with hold | rfl
    · exact h.fresh a hold
    · obtain ⟨hmode, htexts, _⟩ := h.fresh tx (mem_of_getElem? htx)
      rw [hfresh.1, hfresh.2.1, hfresh.2.2.1]
      exact ⟨hmode, htexts, hfresh.2.2.2⟩
  · intro j
    have hset := total_set Thread.starts hth th' j
    rw [hstarts] at hset
    rw [length_set, ← h.starts j]
    exact Nat.add_right_cancel hset
  · intro j ops hmem
    rcases hthreads _ hmem with hnew | ⟨t', hne, ht'⟩
    · obtain ⟨rfl, hkeep⟩ := hstarting j ops hnew.symm
      exact ⟨tx', getElem?_set_self hlt, hkeep⟩
    · refine exists_set (h.starting j ops (mem_of_getElem? ht')) ?_
      rintro rfl
      obtain ⟨a, ha, hkeep⟩ := h.starting _ ops (mem_of_getElem? ht')
      obtain rfl : tx = a := some.inj (htx.symm.trans ha)
      have hone : total Thread.starts pool.threads j ≤ 1 := by
        rw [h.starts j]
        split <;> omega
      exact hother ops (exclusive hone hne ht' (mem_singleton_self _) hth) hkeep
  · intro j
    have hset := total_set Thread.holds hth th' j
    have hlocks := h.locks j
    show total Thread.holds (pool.threads.set t th') j ≤ 1
    rcases hholds j with hle | ⟨hle, hfree⟩
    · omega
    · have hzero : total Thread.holds pool.threads j = 0 := count_eq_zero.mpr hfree
      omega
  · intro j a ha
    have hset := total_set Thread.owes hth th' j
    by_cases hj : j = i
    · subst hj
      have hold := h.custody j tx htx
      obtain rfl : tx' = a := some.inj ((getElem?_set_self hlt).symm.trans ha)
      show pending'.count j + total Thread.owes (pool.threads.set t th') j + _ = _
      omega
    · rw [getElem?_set_ne (Ne.symm hj)] at ha
      have hold := h.custody j a ha
      have hsame := hcustody j hj
      show pending'.count j + total Thread.owes (pool.threads.set t th') j + _ = _
      omega
  · intro j hj
    have hcase := hpending j hj
    split_ifs at hcase with heq
    · subst heq
      exact ⟨tx', getElem?_set_self hlt, hcase⟩
    · exact exists_set (h.pending j hcase) fun h => absurd h heq
  · intro a ha c hc
    rcases hthreads a ha with rfl | ⟨t', hne, ht'⟩
    · have hcase := hclaims c hc
      split_ifs at hcase with heq
      · obtain ⟨j, stage⟩ := c
        obtain rfl : j = i := heq
        exact ⟨tx', getElem?_set_self hlt, hcase⟩
      · exact exists_set (h.claims th (mem_of_getElem? hth) c hcase) fun h => absurd h heq
    · refine exists_set (h.claims a (mem_of_getElem? ht') c hc) ?_
      obtain ⟨j, stage⟩ := c
      intro heq
      obtain rfl : j = i := heq
      exact hstable t' a stage hne ht' hc (h.claimed (mem_of_getElem? ht') hc htx)
  · intro a ha
    rcases mem_or_eq_of_mem_set ha with hold | rfl
    · exact h.closed a hold
    · exact hclosed
  · intro a ha j hj
    rw [length_set]
    rcases hthreads a ha with rfl | ⟨t', _, ht'⟩
    · exact hsubject j hj
    · exact h.subject a (mem_of_getElem? ht') j hj
  · intro j followUp hmem
    rcases hthreads _ hmem with hnew | ⟨t', _, ht'⟩
    · exact absurd hnew.symm (hfollowing j followUp)
    · refine exists_set (h.following j followUp (mem_of_getElem? ht')) ?_
      rintro rfl
      obtain ⟨a, ha, hreg⟩ := h.following _ followUp (mem_of_getElem? ht')
      obtain rfl : tx = a := some.inj (htx.symm.trans ha)
      exact hregistered hreg

/-- A transaction that is not registered is claimed by nobody, and not in the map. -/
theorem Inv.not_pending (h : Inv env pool) (htx : pool.txs[i]? = some tx)
    (hregistered : tx.registered = false) : i ∉ pool.pending := by
  intro hi
  rw [(h.at_pending hi htx).registered] at hregistered
  cases hregistered

theorem closes_of_unregistered (h : tx.registered = false) :
    tx.closes = 0 := by
  unfold ManagedTransaction.closes
  rw [h]
  rfl

variable {ops : List (StartOp F T)}

theorem Inv.startingEvent (h : Inv env pool) {e : SessionEvent F T}
    (hth : pool.threads[t]? = some (.starting i (.event e :: ops))) (htx : pool.txs[i]? = some tx) :
    Inv env ⟨pool.txs.set i (tx.tell [e]), pool.pending,
      pool.threads.set t (.starting i ops)⟩ := by
  obtain ⟨a, ha, hstarting⟩ := h.starting i _ (mem_of_getElem? hth)
  obtain rfl : tx = a := some.inj (htx.symm.trans ha)
  rcases hstarting with ⟨hregistered, hfinished, hops⟩ | ⟨_, hnil, _⟩
  · have hprivate {stage : Stage} (hat : tx.At stage) : (tx.tell [e]).At stage := by
      have hreg := hat.registered
      rw [hregistered] at hreg
      cases hreg
    have hcloses : (tx.tell [e]).closes = 0 := closes_of_unregistered hregistered
    refine h.replace hth htx ⟨rfl, rfl, rfl, ?_⟩ id rfl ?_ ?_ (fun _ => .inl le_rfl)
      (fun _ _ => rfl) ?_ ?_ (forall_mem_nil _)
      (fun _ _ _ _ _ _ hat => hprivate hat) (fun hne => absurd hcloses hne) ?_
      (fun _ _ heq => by cases heq)
    · intro hreg
      exact absurd (hregistered.symm.trans hreg) Bool.false_ne_true
    · intro j ops' heq
      obtain ⟨rfl, rfl⟩ := Thread.starting.inj heq
      refine ⟨rfl, .inl ⟨hregistered, hfinished, ?_⟩⟩
      show (tx.log ++ [e]).map _ ++ ops = _
      rw [map_append, append_assoc]
      exact hops
    · exact fun _ hnot => absurd (mem_singleton_self i) hnot
    · rw [hcloses, closes_of_unregistered hregistered]
      rfl
    · intro j hj
      split_ifs with heq
      · exact absurd (heq ▸ hj) (h.not_pending htx hregistered)
      · exact hj
    · exact subject_lt htx rfl
  · cases hnil

theorem map_event_register_inj {l l' : List (SessionEvent F T)} {r r' : List (StartOp F T)}
    (h : l.map .event ++ .register :: r = l'.map .event ++ .register :: r') :
    l = l' ∧ r = r' := by
  induction l generalizing l' with
  | nil =>
    cases l' with
    | nil => exact ⟨rfl, (List.cons.inj h).2⟩
    | cons e l' => cases (List.cons.inj h).1
  | cons e l ih =>
    cases l' with
    | nil => cases (List.cons.inj h).1
    | cons e' l' =>
      obtain ⟨he, hrest⟩ := List.cons.inj h
      obtain ⟨rfl, rfl⟩ := ih hrest
      exact ⟨congrArg (· :: l) (StartOp.event.inj he), rfl⟩

theorem ops_register {env : AuditEnvironment γ F T}
    (h : log.map .event ++ .register :: ops = dbQueryMultiTransactionalOps env input) :
    ops = [] ∧ Unfinished log ∧ (input.opened env).isSome = true ∧ ¬input.LeavesOpen env := by
  rcases ops_cases env input with ⟨work, hops, hwork, hopened, hsettled⟩ | ⟨events, hops, _⟩
  · obtain ⟨rfl, rfl⟩ := map_event_register_inj (h.trans hops)
    exact ⟨rfl, hwork, hopened, hsettled⟩
  · have hmem : StartOp.register ∈ events.map (StartOp.event (F := F) (T := T)) := by
      rw [← hops, ← h]
      exact mem_append_right _ mem_cons_self
    obtain ⟨e, _, heq⟩ := mem_map.mp hmem
    cases heq

theorem Inv.startingRegister (h : Inv env pool)
    (hth : pool.threads[t]? = some (.starting i (.register :: ops)))
    (htx : pool.txs[i]? = some tx) :
    Inv env ⟨pool.txs.set i { tx with registered := true }, i :: pool.pending,
      pool.threads.set t (.starting i ops)⟩ := by
  obtain ⟨a, ha, hstarting⟩ := h.starting i _ (mem_of_getElem? hth)
  obtain rfl : tx = a := some.inj (htx.symm.trans ha)
  rcases hstarting with ⟨hregistered, hfinished, hops⟩ | ⟨_, hnil, _⟩
  · obtain ⟨rfl, hwork, hopened, hsettled⟩ := ops_register hops
    have hopen : ({ tx with registered := true } : ManagedTransaction F T).At .open :=
      ⟨rfl, hfinished, hwork⟩
    have hcloses : ({ tx with registered := true } : ManagedTransaction F T).closes = 0 :=
      hwork.closes
    refine h.replace hth htx ⟨rfl, rfl, rfl, fun _ => hopened⟩ (fun _ => rfl) rfl ?_ ?_
      (fun _ => .inl le_rfl) ?_ ?_ ?_ (forall_mem_nil _) ?_
      (fun hne => absurd hcloses hne) ?_ (fun _ _ heq => by cases heq)
    · intro j ops' heq
      obtain ⟨rfl, rfl⟩ := Thread.starting.inj heq
      exact ⟨rfl, .inr ⟨rfl, rfl, hsettled⟩⟩
    · exact fun _ hnot => absurd (mem_singleton_self i) hnot
    · intro j hj
      rw [count_cons_of_ne (Ne.symm hj)]
      rfl
    · rw [hcloses, closes_of_unregistered hregistered, hregistered, count_cons_self]
      show _ + 0 + 0 + 0 = _ + 0 + 0 + 1
      omega
    · intro j hj
      split_ifs with heq
      · exact hopen
      · exact (mem_cons.mp hj).resolve_left heq
    · intro _ _ _ _ _ _ hat
      have hreg := hat.registered
      rw [hregistered] at hreg
      cases hreg
    · exact subject_lt htx rfl
  · cases hnil

theorem Inv.pass (h : Inv env pool) (hth : pool.threads[t]? = some th)
    (htx : pool.txs[i]? = some tx)
    (hstarts : th'.starts = [] ∧ th.starts = [])
    (hholds : ∀ j, (th'.holds).count j ≤ (th.holds).count j ∨
      ((th'.holds).count j ≤ 1 ∧ pool.free j))
    (howes : th'.owes = th.owes)
    (hclaims : ∀ c ∈ th'.claims, if c.1 = i then tx.At c.2 else c ∈ th.claims)
    (hsubject : ∀ j ∈ th'.subject, j < pool.txs.length)
    (hfollowing : ∀ j followUp, th' ≠ .following j followUp) :
    Inv env ⟨pool.txs.set i tx, pool.pending, pool.threads.set t th'⟩ := by
  refine h.replace hth htx ⟨rfl, rfl, rfl, (h.fresh tx (mem_of_getElem? htx)).2.2⟩ id
    (hstarts.1.trans hstarts.2.symm) ?_ (fun _ _ hkeep => hkeep) hholds ?_ ?_ ?_ hclaims
    (fun _ _ _ _ _ _ hat => hat) (h.closed tx (mem_of_getElem? htx)) hsubject hfollowing
  · rintro j ops rfl
    cases hstarts.1
  · intro j _
    rw [howes]
  · rw [howes]
  · intro j hj
    split_ifs with heq
    · exact h.at_pending (heq ▸ hj) htx
    · exact hj

theorem Inv.enter (h : Inv env pool) {followUp : FollowUp F T}
    (hth : pool.threads[t]? = some (.following i followUp)) (htx : pool.txs[i]? = some tx)
    (hfree : pool.free i) :
    Inv env ⟨pool.txs.set i tx, pool.pending, pool.threads.set t
      (.executing i (if tx.finished then [] else followUp.calls env tx.audited))⟩ := by
  obtain ⟨a, ha, hregistered⟩ := h.following i followUp (mem_of_getElem? hth)
  obtain rfl : tx = a := some.inj (htx.symm.trans ha)
  refine h.pass hth htx ⟨rfl, rfl⟩ ?_ rfl ?_ ?_ (fun _ _ heq => by cases heq)
  · intro j
    by_cases hj : i = j
    · subst hj
      exact .inr ⟨by simp [Thread.holds], hfree⟩
    · left
      show [i].count j ≤ _
      rw [count_singleton]
      simp [hj]
  · cases hfinished : tx.finished with
    | true => exact forall_mem_nil _
    | false =>
      intro c hc
      have hopen := h.at_open htx hregistered hfinished
      cases hcalls : followUp.calls env tx.audited with
      | nil =>
        rw [hcalls] at hc
        exact absurd hc not_mem_nil
      | cons call calls =>
        rw [hcalls] at hc
        obtain rfl := mem_singleton.mp hc
        rw [if_pos rfl]
        exact hopen
  · exact subject_lt htx rfl

theorem ManagedTransaction.At.tell_call (h : tx.At .open) (c : SessionCall F T) :
    (tx.tell [.call c]).At .open := by
  refine ⟨h.registered, h.finished, ?_⟩
  have hcall : Unfinished [SessionEvent.call c] := unfinished_calls [c]
  exact Unfinished.append h.log hcall

theorem ManagedTransaction.At.closes_eq_zero (h : tx.At stage) (hstage : stage ≠ .closed) :
    tx.closes = 0 := by
  unfold ManagedTransaction.closes
  rw [h.registered, if_pos rfl]
  cases stage with
  | «open» => exact Unfinished.closes h.log
  | marked => exact Unfinished.closes h.log
  | ended =>
    obtain ⟨work, e, hlog, hwork, hend⟩ := h.log
    rw [hlog, countP_append, hwork.closes, Nat.zero_add, countP_eq_zero]
    intro e' he'
    obtain rfl := mem_singleton.mp he'
    cases e' <;> simp_all [SessionEvent.isEnd, SessionEvent.isClose]
  | closed => exact absurd rfl hstage

/-- A follow-up makes a call under the mutex of its transaction. -/
theorem Inv.execute (h : Inv env pool) {c : SessionCall F T} {calls : List (SessionCall F T)}
    (hth : pool.threads[t]? = some (.executing i (c :: calls))) (htx : pool.txs[i]? = some tx) :
    Inv env ⟨pool.txs.set i (tx.tell [.call c]), pool.pending,
      pool.threads.set t (.executing i calls)⟩ := by
  have hopen : tx.At .open := h.claimed (mem_of_getElem? hth) (mem_singleton_self _) htx
  have hopen' := hopen.tell_call c
  refine h.replace hth htx ⟨rfl, rfl, rfl, (h.fresh tx (mem_of_getElem? htx)).2.2⟩ id rfl
    (fun _ _ heq => by cases heq) ?_ (fun _ => .inl le_rfl) (fun _ _ => rfl) ?_ ?_ ?_ ?_ ?_ ?_
    (fun _ _ heq => by cases heq)
  · rintro ops _ (⟨hregistered, _⟩ | hdone)
    · rw [hopen.registered] at hregistered
      cases hregistered
    · exact .inr hdone
  · rw [hopen'.closes_eq_zero (by decide), hopen.closes_eq_zero (by decide)]
    rfl
  · intro j hj
    split_ifs
    · exact hopen'
    · exact hj
  · intro claim hclaim
    cases calls with
    | nil => exact absurd hclaim not_mem_nil
    | cons c' calls =>
      obtain rfl := mem_singleton.mp hclaim
      rw [if_pos rfl]
      exact hopen'
  · intro t' th'' stage hne hth' hclaim hat
    rcases Thread.claims_cases hclaim with ⟨rfl, _⟩ | ⟨_, hholds⟩
    · exact hopen'
    · exact absurd hholds (exclusive (h.locks i) hne.symm hth (mem_singleton_self i) hth')
  · exact fun hne => absurd (hopen'.closes_eq_zero (by decide)) hne
  · exact subject_lt htx rfl

variable {rest : List ℕ}

/-- A finisher that is alone with a transaction takes it one stage further. -/
theorem Inv.advance (h : Inv env pool) {stage' : Stage} (hth : pool.threads[t]? = some th)
    (htx : pool.txs[i]? = some tx) (hat : tx.At stage) (hat' : tx'.At stage')
    (hfresh : tx'.input = tx.input ∧ tx'.mode = tx.mode ∧ tx'.texts = tx.texts)
    (hstarts : th'.starts = [] ∧ th.starts = []) (howes : th.owes = i :: rest)
    (howes' : th'.owes = if stage' = .closed then rest else i :: rest)
    (hlock : i ∈ th.holds ∨ pool.free i)
    (hholds : th'.holds = [i] ∧ (th.holds = [i] ∨ th.holds = [])) (hstage : stage ≠ .closed)
    (hcloses : tx'.closes = if stage' = .closed then 1 else 0)
    (hclaims : ∀ c ∈ th'.claims, (c.1 = i → c.2 = stage') ∧ (c.1 ≠ i → c ∈ th.claims))
    (hsubject : ∀ j ∈ th'.subject, j < pool.txs.length)
    (hfollowing : ∀ j followUp, th' ≠ .following j followUp) :
    Inv env ⟨pool.txs.set i tx', pool.pending, pool.threads.set t th'⟩ := by
  have hmem : i ∈ th.owes := by rw [howes]; exact mem_cons_self
  obtain ⟨hone, hpending, _⟩ := h.owed hth hmem
  have hunclaimed := h.unclaimed hth hmem hlock
  refine h.replace hth htx ⟨hfresh.1, hfresh.2.1, hfresh.2.2,
    fun _ => (h.fresh tx (mem_of_getElem? htx)).2.2 hat.registered⟩ (fun _ => hat'.registered)
    (hstarts.1.trans hstarts.2.symm) ?_ ?_ ?_ ?_ ?_ ?_ ?_ ?_ ?_ hsubject hfollowing
  · rintro j ops rfl
    cases hstarts.1
  · rintro ops _ (⟨hregistered, _⟩ | ⟨_, hops, hsettled⟩)
    · rw [hat.registered] at hregistered
      cases hregistered
    · exact .inr ⟨hat'.registered, hops, by rw [hfresh.1]; exact hsettled⟩
  · intro j
    rw [hholds.1]
    rcases hholds.2 with hsame | hnone
    · rw [hsame]
      exact .inl le_rfl
    · by_cases hj : i = j
      · subst hj
        refine .inr ⟨by simp, hlock.resolve_left ?_⟩
        rw [hnone]
        exact not_mem_nil
      · left
        rw [count_singleton]
        simp [hj]
  · intro j hj
    rw [howes, howes']
    split_ifs
    · rw [count_cons_of_ne (Ne.symm hj)]
    · rfl
  · rw [hcloses, hat.closes_eq_zero hstage, hat.registered, hat'.registered, howes, howes',
      if_pos rfl]
    by_cases hclosed : stage' = .closed
    · rw [if_pos hclosed, if_pos hclosed, count_cons_self]
      omega
    · rw [if_neg hclosed, if_neg hclosed]
  · intro j hj
    split_ifs with heq
    · exact absurd (heq ▸ hj) hpending
    · exact hj
  · intro c hc
    obtain ⟨hself, hothers⟩ := hclaims c hc
    split_ifs with heq
    · rw [hself heq]
      exact hat'
    · exact hothers heq
  · intro t' th'' st hne hth' hclaim _
    exact absurd hclaim (hunclaimed t' th'' st hne hth')
  · intro hne
    rw [hcloses] at hne
    by_cases hclosed : stage' = .closed
    · rw [hclosed] at hat'
      exact hat'
    · rw [if_neg hclosed] at hne
      exact absurd rfl hne

theorem Inv.not_mem_rest (h : Inv env pool) (hth : pool.threads[t]? = some th)
    (howes : th.owes = i :: rest) : i ∉ rest := by
  have hmem : i ∈ th.owes := by rw [howes]; exact mem_cons_self
  have hone := (h.owed hth hmem).1
  rw [howes, count_cons_self] at hone
  exact count_eq_zero.mp (by omega)

theorem Inv.subject_mem (h : Inv env pool) (hth : pool.threads[t]? = some th)
    (howes : th.owes = rest) (hi : i ∈ rest) :
    i < pool.txs.length := by
  obtain ⟨stage, hclaim⟩ := Thread.claims_of_owes (howes ▸ hi)
  obtain ⟨tx, htx, _⟩ := h.claims th (mem_of_getElem? hth) _ hclaim
  exact getElem?_lt htx

variable {finish : Finish}

theorem Inv.mark (h : Inv env pool) (hth : pool.threads[t]? = some (.finishing (i :: rest) finish))
    (htx : pool.txs[i]? = some tx) (hfree : pool.free i) :
    tx.finished = false ∧ Inv env ⟨pool.txs.set i { tx with finished := true }, pool.pending,
      pool.threads.set t (.ending i rest finish)⟩ := by
  have hopen : tx.At .open := h.claimed (mem_of_getElem? hth) mem_cons_self htx
  have hmarked : ({ tx with finished := true } : ManagedTransaction F T).At .marked :=
    ⟨hopen.registered, rfl, hopen.log⟩
  refine ⟨hopen.finished, h.advance hth htx hopen hmarked ⟨rfl, rfl, rfl⟩ ⟨rfl, rfl⟩ rfl rfl
    (.inr hfree) ⟨rfl, .inr rfl⟩ (by decide) (hmarked.closes_eq_zero (by decide)) ?_ ?_
    (fun _ _ heq => by cases heq)⟩
  · intro c hc
    rcases mem_cons.mp hc with rfl | hrest
    · exact ⟨fun _ => rfl, fun hne => absurd rfl hne⟩
    · obtain ⟨j, hj, rfl⟩ := mem_map.mp hrest
      refine ⟨fun heq => absurd (heq ▸ hj) (h.not_mem_rest hth rfl), fun _ => ?_⟩
      exact mem_map_of_mem (mem_cons_of_mem _ hj)
  · exact subject_lt htx rfl

theorem Inv.end (h : Inv env pool) (hth : pool.threads[t]? = some (.ending i rest finish))
    (htx : pool.txs[i]? = some tx) :
    Inv env ⟨pool.txs.set i (tx.tell (endEvents tx.mode tx.texts finish)), pool.pending,
      pool.threads.set t (.closing i rest finish)⟩ := by
  have hmarked : tx.At .marked := h.claimed (mem_of_getElem? hth) mem_cons_self htx
  obtain ⟨hmode, htexts, hopened⟩ := h.fresh tx (mem_of_getElem? htx)
  obtain ⟨⟨mode, texts⟩, hsome⟩ := isSome_iff_exists.mp (hopened hmarked.registered)
  obtain ⟨e, hend, he, _⟩ := endEvents_of_opened (T := T) hsome finish
  have hevents : endEvents tx.mode tx.texts finish = [e] := by
    rw [hmode, htexts]
    unfold ManagedTransaction.fresh
    rw [hsome]
    exact hend
  rw [hevents]
  have hended : (tx.tell [e]).At .ended :=
    ⟨hmarked.registered, hmarked.finished, tx.log, e, rfl, hmarked.log, he⟩
  refine h.advance hth htx hmarked hended ⟨rfl, rfl, rfl⟩ ⟨rfl, rfl⟩ rfl rfl
    (.inl (mem_singleton_self i)) ⟨rfl, .inl rfl⟩ (by decide)
    (hended.closes_eq_zero (by decide)) ?_ ?_ (fun _ _ heq => by cases heq)
  · intro c hc
    rcases mem_cons.mp hc with rfl | hrest
    · exact ⟨fun _ => rfl, fun hne => absurd rfl hne⟩
    · obtain ⟨j, hj, rfl⟩ := mem_map.mp hrest
      refine ⟨fun heq => absurd (heq ▸ hj) (h.not_mem_rest hth rfl), fun _ => ?_⟩
      exact mem_cons_of_mem _ hrest
  · exact subject_lt htx rfl

theorem Inv.close (h : Inv env pool) (hth : pool.threads[t]? = some (.closing i rest finish))
    (htx : pool.txs[i]? = some tx) :
    Inv env ⟨pool.txs.set i (tx.tell [.close]), pool.pending,
      pool.threads.set t (.unlocking i rest finish)⟩ := by
  have hended : tx.At .ended := h.claimed (mem_of_getElem? hth) mem_cons_self htx
  obtain ⟨work, e, hlog, hwork, hend⟩ := hended.log
  have hclosed : (tx.tell [.close]).At .closed := by
    refine ⟨hended.registered, hended.finished, work, e, ?_, hwork, hend⟩
    show tx.log ++ [.close] = _
    rw [hlog, append_assoc]
    rfl
  have hcloses : (tx.tell [.close]).closes = 1 := by
    have hbefore := hended.closes_eq_zero (by decide)
    unfold ManagedTransaction.closes at hbefore ⊢
    rw [hended.registered, if_pos rfl] at hbefore
    show (if tx.registered = true then (tx.log ++ [SessionEvent.close]).countP _ else 0) = 1
    rw [hended.registered, if_pos rfl, countP_append, hbefore]
    rfl
  refine h.advance hth htx hended hclosed ⟨rfl, rfl, rfl⟩ ⟨rfl, rfl⟩ rfl rfl
    (.inl (mem_singleton_self i)) ⟨rfl, .inl rfl⟩ (by decide) hcloses ?_ ?_
    (fun _ _ heq => by cases heq)
  · intro c hc
    obtain ⟨j, hj, rfl⟩ := mem_map.mp hc
    refine ⟨fun heq => absurd (heq ▸ hj) (h.not_mem_rest hth rfl), fun _ => ?_⟩
    exact mem_cons_of_mem _ hc
  · exact subject_lt htx rfl

theorem holds_le (j : ℕ) (th : Thread F T) (h : th'.holds = []) :
    (th'.holds).count j ≤ (th.holds).count j := by
  rw [h]
  exact Nat.zero_le _

theorem Pool.serve_eq_some {pool' : Pool F T} (h : pool.serve env t = some pool') :
    ∃ th i tx tx' th' registers, pool.threads[t]? = some th ∧ th.subject = some i ∧
      pool.txs[i]? = some tx ∧
      th.next env (decide (pool.free i)) tx = some (tx', th', registers) ∧
      pool' = ⟨pool.txs.set i tx', if registers then i :: pool.pending else pool.pending,
        pool.threads.set t th'⟩ := by
  unfold Pool.serve at h
  obtain ⟨th, hth, h⟩ := bind_eq_some_iff.mp h
  obtain ⟨i, hi, h⟩ := bind_eq_some_iff.mp h
  obtain ⟨tx, htx, h⟩ := bind_eq_some_iff.mp h
  obtain ⟨⟨tx', th', registers⟩, hnext, h⟩ := bind_eq_some_iff.mp h
  exact ⟨th, i, tx, tx', th', registers, hth, hi, htx, hnext, (some.inj h).symm⟩

/-- **A step of a thread keeps the invariant**, by the thread. -/
theorem Inv.serve (h : Inv env pool) {pool' : Pool F T} (hserve : pool.serve env t = some pool') :
    Inv env pool' := by
  obtain ⟨th, i, tx, tx', th', registers, hth, hi, htx, hnext, rfl⟩ := Pool.serve_eq_some hserve
  cases th with
  | starting j ops =>
    obtain rfl : j = i := some.inj hi
    cases ops with
    | nil => cases hnext
    | cons op ops =>
      cases op with
      | event e =>
        cases hnext
        exact h.startingEvent hth htx
      | register =>
        cases hnext
        exact h.startingRegister hth htx
  | following j followUp =>
    obtain rfl : j = i := some.inj hi
    unfold Thread.next at hnext
    dsimp only at hnext
    split at hnext
    · rename_i hfree
      cases hnext
      exact h.enter hth htx (of_decide_eq_true hfree)
    · cases hnext
  | executing j calls =>
    obtain rfl : j = i := some.inj hi
    cases calls with
    | nil =>
      cases hnext
      exact h.pass hth htx ⟨rfl, rfl⟩ (fun j => .inl (holds_le j _ rfl)) rfl
        (forall_mem_nil _) (fun _ hj => by cases hj)
        (fun _ _ heq => by cases heq)
    | cons c calls =>
      cases hnext
      exact h.execute hth htx
  | finishing taken finish =>
    cases taken with
    | nil => cases hnext
    | cons j rest =>
      obtain rfl : j = i := some.inj hi
      unfold Thread.next at hnext
      dsimp only at hnext
      split at hnext
      · rename_i hfree
        obtain ⟨hfinished, hmark⟩ := h.mark hth htx (of_decide_eq_true hfree)
        rw [hfinished, if_neg Bool.false_ne_true] at hnext
        cases hnext
        exact hmark
      · cases hnext
  | ending j rest finish =>
    obtain rfl : j = i := some.inj hi
    cases hnext
    exact h.end hth htx
  | closing j rest finish =>
    obtain rfl : j = i := some.inj hi
    cases hnext
    exact h.close hth htx
  | unlocking j rest finish =>
    obtain rfl : j = i := some.inj hi
    cases hnext
    refine h.pass hth htx ⟨rfl, rfl⟩ (fun j => .inl (holds_le j _ rfl)) rfl ?_ ?_
      (fun _ _ heq => by cases heq)
    · intro c hc
      split_ifs with heq
      · exact h.claimed (mem_of_getElem? hth) hc (heq ▸ htx)
      · exact hc
    · intro k hk
      cases rest with
      | nil => cases hk
      | cons k' rest =>
        obtain rfl : k' = k := some.inj hk
        exact h.subject_mem hth rfl mem_cons_self
  | returned => cases hi

theorem Inv.step (h : Inv env pool) (action : PoolAction F T) :
    Inv env (pool.step env action) := by
  cases action with
  | start input => exact h.start input
  | followUp i followUp => exact h.followUp i followUp
  | finish i finish => exact h.finish i finish
  | rollbackPending fits taken => exact h.rollbackPending fits taken
  | step t =>
    show Inv env ((pool.serve env t).getD pool)
    cases hserve : pool.serve env t with
    | none => exact h
    | some pool' => exact h.serve hserve

theorem inv_run (env : AuditEnvironment γ F T) (actions : List (PoolAction F T)) :
    Inv env (Machine.run (Pool.step env) .empty actions) :=
  Machine.run_preserves (P := Inv env) (fun _ action h => h.step action) (Inv.empty env)

/-! ### Released sessions -/

/-- The thread has nothing left to do. -/
def Thread.done : Thread F T → Bool
  | .starting _ [] | .finishing [] _ | .returned => true
  | _ => false

/-- A thread that is not done goes on if it holds a mutex, or if the mutexes are free. -/
theorem Inv.serve_isSome (h : Inv env pool) (hth : pool.threads[t]? = some th)
    (hdone : th.done = false) (hfree : th.holds ≠ [] ∨ ∀ i, pool.free i) :
    (pool.serve env t).isSome = true := by
  have hsubject : ∃ i tx, th.subject = some i ∧ pool.txs[i]? = some tx := by
    have hsome : ∃ i, th.subject = some i := by
      cases th with
      | finishing taken finish =>
        cases taken with
        | nil => cases hdone
        | cons i rest => exact ⟨i, rfl⟩
      | returned => cases hdone
      | starting i ops => exact ⟨i, rfl⟩
      | following i followUp => exact ⟨i, rfl⟩
      | executing i calls => exact ⟨i, rfl⟩
      | ending i rest finish => exact ⟨i, rfl⟩
      | closing i rest finish => exact ⟨i, rfl⟩
      | unlocking i rest finish => exact ⟨i, rfl⟩
    obtain ⟨i, hi⟩ := hsome
    have hlt := h.subject th (mem_of_getElem? hth) i hi
    exact ⟨i, pool.txs[i], hi, getElem?_eq_getElem hlt⟩
  obtain ⟨i, tx, hi, htx⟩ := hsubject
  have hnext : (th.next env (decide (pool.free i)) tx).isSome = true := by
    cases th with
    | starting j ops =>
      cases ops with
      | nil => cases hdone
      | cons op ops => cases op <;> rfl
    | following j followUp =>
      rw [decide_eq_true ((hfree.resolve_left fun hne => hne rfl) i)]
      rfl
    | executing j calls => cases calls <;> rfl
    | finishing taken finish =>
      cases taken with
      | nil => cases hdone
      | cons j rest =>
        rw [decide_eq_true ((hfree.resolve_left fun hne => hne rfl) i)]
        unfold Thread.next
        dsimp only
        rw [if_pos rfl]
        split <;> rfl
    | ending j rest finish => rfl
    | closing j rest finish => rfl
    | unlocking j rest finish => rfl
    | returned => cases hdone
  obtain ⟨next, hnext⟩ := isSome_iff_exists.mp hnext
  unfold Pool.serve
  simp [hth, hi, htx, hnext]

/-- **No deadlock**: while a thread is not done, some thread goes on. -/
theorem Inv.goes_on (h : Inv env pool) (hthread : ∃ th ∈ pool.threads, th.done = false) :
    ∃ t, (pool.serve env t).isSome = true := by
  by_cases hholder : ∃ th ∈ pool.threads, th.holds ≠ []
  · obtain ⟨th, hmem, hholds⟩ := hholder
    obtain ⟨t, hth⟩ := mem_iff_getElem?.mp hmem
    have hdone : th.done = false := by
      cases th with
      | starting i ops => exact absurd rfl hholds
      | finishing taken finish => exact absurd rfl hholds
      | returned => exact absurd rfl hholds
      | following i followUp => rfl
      | executing i calls => rfl
      | ending i rest finish => rfl
      | closing i rest finish => rfl
      | unlocking i rest finish => rfl
    exact ⟨t, h.serve_isSome hth hdone (.inl hholds)⟩
  · obtain ⟨th, hmem, hdone⟩ := hthread
    obtain ⟨t, hth⟩ := mem_iff_getElem?.mp hmem
    refine ⟨t, h.serve_isSome hth hdone (.inr ?_)⟩
    intro i hi
    obtain ⟨th', hth', hi'⟩ := mem_flatMap.mp hi
    exact hholder ⟨th', hth', ne_nil_of_mem hi'⟩

/-- A registered transaction is pending and unfinished, or taken by a finisher that has not closed
it, or was ended once and then closed, with no call behind that. -/
def Pool.FinishesOnce (pool : Pool F T) (i : ℕ) (tx : ManagedTransaction F T) : Prop :=
  (i ∈ pool.pending ∧ Unfinished tx.log) ∨
  (i ∉ pool.pending ∧ (∃ th ∈ pool.threads, i ∈ th.owes) ∧
    (Unfinished tx.log ∨
      ∃ work e, tx.log = work ++ [e] ∧ Unfinished work ∧ e.isEnd = true)) ∨
  (i ∉ pool.pending ∧ (∀ th ∈ pool.threads, i ∉ th.owes) ∧
    ∃ work e, tx.log = work ++ [e, .close] ∧ Unfinished work ∧ e.isEnd = true)

theorem Inv.finishesOnce (h : Inv env pool) (htx : pool.txs[i]? = some tx)
    (hregistered : tx.registered = true) :
    pool.FinishesOnce i tx := by
  have hcustody := h.custody i tx htx
  rw [hregistered, if_pos rfl] at hcustody
  by_cases hpending : i ∈ pool.pending
  · left
    exact ⟨hpending, (h.at_pending hpending htx).log⟩
  right
  by_cases howed : ∃ th ∈ pool.threads, i ∈ th.owes
  · left
    refine ⟨hpending, howed, ?_⟩
    obtain ⟨th, hth, howes⟩ := howed
    obtain ⟨stage, hclaim⟩ := Thread.claims_of_owes howes
    have hat := h.claimed hth hclaim htx
    have hpos : total Thread.owes pool.threads i ≠ 0 :=
      fun hzero => total_eq_zero.mp hzero th hth howes
    have hcloses : tx.closes = 0 := by omega
    cases stage with
    | «open» => exact .inl hat.log
    | marked => exact .inl hat.log
    | ended => exact .inr hat.log
    | closed =>
      obtain ⟨work, e, hlog, _⟩ := hat.log
      unfold ManagedTransaction.closes at hcloses
      rw [hregistered, if_pos rfl, hlog, countP_eq_zero] at hcloses
      exact absurd rfl (hcloses .close (by simp))
  · right
    have hnone : total Thread.owes pool.threads i = 0 :=
      total_eq_zero.mpr fun th hth howes => howed ⟨th, hth, howes⟩
    rw [count_eq_zero.mpr hpending, hnone] at hcustody
    exact ⟨hpending, fun th hth howes => howed ⟨th, hth, howes⟩,
      (h.closed tx (mem_of_getElem? htx) (by omega)).log⟩

/-- A first text that has returned has settled its session, unless it has left it open. -/
theorem Inv.settled (h : Inv env pool) (htx : pool.txs[i]? = some tx)
    (hreturned : Thread.starting i [] ∈ pool.threads) :
    tx.Settled ↔ ¬tx.input.LeavesOpen env := by
  obtain ⟨a, ha, hstarting⟩ := h.starting i [] hreturned
  obtain rfl : tx = a := some.inj (htx.symm.trans ha)
  unfold ManagedTransaction.Settled
  rcases hstarting with ⟨hregistered, _, hops⟩ | ⟨hregistered, _, hsettled⟩
  · rw [append_nil] at hops
    rw [hregistered, (h.fresh tx (mem_of_getElem? htx)).1]
    rcases ops_cases env tx.input with ⟨work, hwork, _⟩ | ⟨events, hevents, hiff⟩
    · have hmem : StartOp.register ∈ tx.log.map (StartOp.event (F := F) (T := T)) := by
        rw [hops, hwork]
        exact mem_append_right _ mem_cons_self
      obtain ⟨e, _, heq⟩ := mem_map.mp hmem
      cases heq
    · have hlog : tx.log = events :=
        map_injective_iff.mpr (fun _ _ heq => StartOp.event.inj heq) (hops.trans hevents)
      rw [hlog, ← hiff]
      simp
  · exact ⟨fun _ => hsettled, fun _ _ => .inl hregistered⟩

/-- **Sessions are released**, in every state of every run: a first text that has returned has
settled its session exactly if it has not begun a text transaction whose values then do not bind;
a registered transaction is finished once; and as long as a thread has something to do, some thread
goes on. -/
theorem sessions_released (env : AuditEnvironment γ F T) (actions : List (PoolAction F T)) :
    let pool := Machine.run (Pool.step env) .empty actions
    (∀ i tx, pool.txs[i]? = some tx → Thread.starting i [] ∈ pool.threads →
      (tx.Settled ↔ ¬tx.input.LeavesOpen env)) ∧
    (∀ i tx, pool.txs[i]? = some tx → tx.registered = true → pool.FinishesOnce i tx) ∧
    ((∃ th ∈ pool.threads, th.done = false) → ∃ t, (pool.serve env t).isSome = true) := by
  have h := inv_run env actions
  exact ⟨fun i tx htx => h.settled htx, fun i tx htx => h.finishesOnce htx, h.goes_on⟩

/-! ### A session that is left open -/

theorem editorName_trimmed : trimSpace (bytes "sql-editor-1") = bytes "sql-editor-1" := by decide

/-- An update on MySQL, with a value whose name is blank. -/
def blankName : TransactionStart Unit Unit :=
  let done : Reply := ⟨none, false, false, 0, 1, 0, false⟩
  { config := ⟨bytes "mysql", bytes "mysql",
      ⟨bytes "mysql", bytes "mysql", ⟨false, false, false, false⟩, false⟩⟩
    target := ⟨[], [], []⟩
    query := bytes "UPDATE t SET a = :a"
    queryID := bytes "q1"
    transactionID := ⟨bytes "sql-editor-1", editorName_trimmed⟩
    bindings := [⟨[], [], .nil⟩]
    opening := ⟨true, .session, true, .success, .success, true⟩
    session := ⟨false, true, false, true⟩
    replies := fun _ => ⟨true, done, done, 0, 0⟩ }

/-- The transaction is begun, and its session is closed without a rollback. -/
theorem settled_fails :
    ¬∀ (env : AuditEnvironment Text Unit Unit) (actions : List (PoolAction Unit Unit)),
      let pool := Machine.run (Pool.step env) .empty actions
      ∀ i tx, pool.txs[i]? = some tx → Thread.starting i [] ∈ pool.threads → tx.Settled := by
  intro h
  have hpool := h sampleAuditEnvironment [.start blankName, .step 0, .step 0]
  generalize hrun : Machine.run (Pool.step sampleAuditEnvironment) .empty
    [.start blankName, .step 0, .step 0] = pool at hpool
  have hthreads : pool.threads.map (fun th => (th.starts, th.done)) = [([0], true)] := by
    rw [← hrun]
    decide
  have htxs : pool.txs.map (fun tx => (begun tx.log, tx.registered, rolledBack tx.mode tx.log)) =
      [(true, false, false)] := by
    rw [← hrun]
    decide
  obtain ⟨th, rest, hth, hfields, _⟩ := map_eq_cons_iff.mp hthreads
  obtain ⟨tx, others, htx, htxfields, _⟩ := map_eq_cons_iff.mp htxs
  have hstarting : th = .starting 0 [] := by
    obtain ⟨hstarts, hdone⟩ := Prod.mk.inj hfields
    cases th with
    | starting i ops =>
      cases hstarts
      cases ops with
      | nil => rfl
      | cons op ops => cases hdone
    | _ => cases hstarts
  have hsettled := hpool 0 tx (by rw [htx]; rfl) (by rw [hth, hstarting]; exact mem_cons_self)
  unfold ManagedTransaction.Settled at hsettled
  obtain ⟨hbegun, hrest⟩ := Prod.mk.inj htxfields
  obtain ⟨hregistered, hrolledBack⟩ := Prod.mk.inj hrest
  rw [hregistered, hrolledBack] at hsettled
  simpa using hsettled hbegun

end GoNavi.Editor
