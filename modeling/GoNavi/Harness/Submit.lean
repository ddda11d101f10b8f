import GoNavi.Harness.Session
import GoNavi.Harness.Rows
import Mathlib.Algebra.Order.BigOperators.Group.List
import Mathlib.Algebra.Order.Ring.Nat

/-! # Submissions

`SubmitInput` of `harness.go`, as a caller that takes one transaction after the other: it looks
for a run of the request, then for a steer of the request, asks the host for its settings, may
branch the session, looks for an active run and the revision of the session, and at last
creates a run or enqueues a steer.  Any number of callers work at a time, between each other's
transactions and those of the runs.

A request is delivered once (`request_delivered_once`) if no run is created for a request that
is bound to a steer already: `CreateRun` looks at the runs only, so two retries of one request
can end with a run and a steer (`retry_bound_twice`). -/

namespace GoNavi.Harness

open Scan RunLedger Machine List Table

/-! ### Requests -/

inductive DispatchMode where
  | queue
  | steer
deriving DecidableEq, Repr

structure AgentInputRequest where
  requestID : ℕ
  /-- `0` for an input without a session. -/
  sessionID : ℕ
  /-- The user message that the input branches from; `0` for none. -/
  branchFromMessageID : ℕ
  content : Text
  /-- Whether there are attachments. -/
  attached : Bool
  dispatchMode : Option DispatchMode
  expectedRevision : ℕ
  chat : Bool
deriving DecidableEq

/-- `AgentInputRequest.Validate`. -/
def AgentInputRequest.valid (r : AgentInputRequest) : Bool :=
  r.requestID ≠ 0 ∧ (trimSpace r.content ≠ [] ∨ r.attached) ∧
    (r.branchFromMessageID = 0 ∨ r.sessionID ≠ 0)

/-- What a harness is configured with: the dispatch mode and the budget of its policy, and the
ids of the sessions that belong to a request (`deterministicInputSessionID`,
`deterministicBranchSessionID`). -/
structure Host where
  defaultDispatchMode : DispatchMode
  maxTotalTokens : Int64
  inputSession : ℕ → ℕ
  branchSession : ℕ → ℕ

/-- What a caller is told. -/
structure Receipt where
  requestID : ℕ
  sessionID : ℕ
  runID : ℕ
  steered : Bool
deriving DecidableEq

/-! ### Callers -/

/-- Where a call of `SubmitInput` is. -/
inductive Caller where
  | idle
  /-- In front of `GetRunByRequestID`. -/
  | lookup (r : AgentInputRequest)
  /-- In front of `replayExistingSteer`. -/
  | replay (r : AgentInputRequest)
  /-- In front of the input binder. -/
  | bind (r : AgentInputRequest)
  /-- The binder failed; in front of the second `replayExistingSteer`. -/
  | replayAgain (r : AgentInputRequest)
  /-- In front of `CreateSessionBranch`. -/
  | branch (r : AgentInputRequest)
  /-- In front of `findActiveRun`. -/
  | active (r : AgentInputRequest) (sessionID : ℕ) (mode : DispatchMode)
  /-- In front of the check of the session's revision. -/
  | revision (r : AgentInputRequest) (mode : DispatchMode)
  /-- In front of the last transaction, with the run to be steered, if there is one. -/
  | submit (r : AgentInputRequest) (sessionID : ℕ) (mode : DispatchMode) (target : ℕ)
      (expectedSessionRevision : ℕ)
  | accepted (receipt : Receipt)
  | refused
deriving DecidableEq

/-- What comes from outside at a step: the clock, the id drawn for a run, whether the database
fails, and whether the input binder succeeds. -/
structure Input where
  now : ℕ
  runID : ℕ
  fault : Bool
  bound : Bool

/-- What `replayExistingSteer` finds. -/
inductive Replay where
  | absent
  | conflict
  | found (receipt : Receipt)
deriving DecidableEq

/-- `replayExistingSteer`. -/
def replayExistingSteer (S : Store) (r : AgentInputRequest) : Replay :=
  match S.command? r.requestID with
  | none => .absent
  | some (row, c) =>
    if c.action ≠ .steer then .conflict
    else if r.dispatchMode = some .queue then .conflict
    else if r.branchFromMessageID ≠ 0 then .conflict
    else if r.sessionID ≠ 0 ∧ r.sessionID ≠ row.sessionID then .conflict
    else if r.expectedRevision ≠ c.expectedRevision then .conflict
    else if c.content ≠ r.content then .conflict
    else .found ⟨r.requestID, row.sessionID, row.id, true⟩

/-- The way of a request once the host has bound it. -/
def AgentInputRequest.dispatch (r : AgentInputRequest) (host : Host) : Caller :=
  if r.sessionID ≠ 0 ∧ r.expectedRevision = 0 then .refused
  else if r.branchFromMessageID ≠ 0 then .branch r
  else .active r (if r.sessionID = 0 then host.inputSession r.requestID else r.sessionID)
    (r.dispatchMode.getD host.defaultDispatchMode)

/-- The steer that a request becomes. -/
def AgentInputRequest.command (r : AgentInputRequest) : EnqueueRequest :=
  ⟨r.requestID, .steer, r.content, r.expectedRevision⟩

/-- The run that a request becomes. -/
def AgentInputRequest.createRun (r : AgentInputRequest) (host : Host)
    (sessionID expectedSessionRevision : ℕ) : Store.CreateRunRequest :=
  ⟨sessionID, r.requestID, r.content, expectedSessionRevision, r.chat, host.maxTotalTokens⟩

/-- The receipt for a run. -/
def AgentInputRequest.receipt (r : AgentInputRequest) (row : SessionRun) (steered : Bool) :
    Receipt :=
  ⟨r.requestID, row.sessionID, row.id, steered⟩

/-- A caller behind `findActiveRun`: an input that does not steer is held against the revision
of its session. -/
def AgentInputRequest.guarded (r : AgentInputRequest) (sessionID : ℕ) (mode : DispatchMode)
    (target : ℕ) : Caller :=
  if r.branchFromMessageID = 0 ∧ target = 0 ∧ r.expectedRevision > 0 then
    if r.sessionID = 0 then .submit r sessionID mode 0 r.expectedRevision else .revision r mode
  else .submit r sessionID mode target 0

/-- The last transaction: `EnqueueSteerOrCreateRun` or `CreateRun`. -/
def Store.take (S : Store) (host : Host) (input : Input) (r : AgentInputRequest)
    (sessionID : ℕ) (mode : DispatchMode) (target expectedSessionRevision : ℕ) :
    Except Err (Store × SessionRun × Bool) :=
  let create := r.createRun host sessionID expectedSessionRevision
  if mode = .steer ∧ target ≠ 0 then
    S.enqueueSteerOrCreateRun input.now input.runID target r.command create
  else
    match S.createRun input.now input.runID create with
    | .error e => .error e
    | .ok (S', row) => .ok (S', row, false)

/-- One transaction of a caller. -/
def Caller.step (host : Host) (S : Store) (input : Input) : Caller → Store × Caller
  | .lookup r =>
    if input.fault then (S, .refused)
    else
      match S.runByRequest? r.requestID with
      | some row => (S, .accepted (r.receipt row false))
      | none => (S, .replay r)
  | .replay r =>
    if input.fault then (S, .refused)
    else
      match replayExistingSteer S r with
      | .absent => (S, .bind r)
      | .conflict => (S, .refused)
      | .found receipt => (S, .accepted receipt)
  | .bind r => (S, if input.bound then r.dispatch host else .replayAgain r)
  | .replayAgain r =>
    if input.fault then (S, .refused)
    else
      match replayExistingSteer S r with
      | .found receipt => (S, .accepted receipt)
      | _ => (S, .refused)
  | .branch r =>
    if input.fault then (S, .refused)
    else
      match S.createSessionBranch (host.branchSession r.requestID) r.sessionID
        r.branchFromMessageID r.expectedRevision with
      | .error _ => (S, .refused)
      | .ok S' => (S', .active r (host.branchSession r.requestID) .queue)
  | .active r sessionID mode =>
    if input.fault then (S, .refused)
    else
      (S, r.guarded sessionID mode ((S.findActiveRun sessionID).elim 0 SessionRun.id))
  | .revision r mode =>
    if input.fault then (S, .refused)
    else
      match S.session? r.sessionID with
      -- a conversation that the ledger does not contain falls back to a new one
      | none => (S, .submit r (host.inputSession r.requestID) mode 0 0)
      | some s =>
        (S, if s.revision = r.expectedRevision then
          .submit r r.sessionID mode 0 r.expectedRevision else .refused)
  | .submit r sessionID mode target expectedSessionRevision =>
    if input.fault then (S, .refused)
    else
      match S.take host input r sessionID mode target expectedSessionRevision with
      | .error _ => (S, .refused)
      | .ok (S', row, steered) => (S', .accepted (r.receipt row steered))
  | caller => (S, caller)

/-! ### The machine -/

structure Desk where
  store : Store
  callers : ℕ → Caller

/-- No sessions and no callers. -/
def Desk.empty : Desk := ⟨Store.empty, fun _ => .idle⟩

inductive Move where
  /-- A call of `SubmitInput` begins; retries and other supervisors are calls of their own. -/
  | submit (caller : ℕ) (r : AgentInputRequest)
  /-- A caller takes its next transaction. -/
  | advance (caller : ℕ) (input : Input)
  /-- A mutation of the rows of a run. -/
  | mutate (runID : ℕ) (a : Act)
  | mutateSession (sessionID : ℕ)

def Desk.step (host : Host) (D : Desk) : Move → Desk
  | .submit caller r =>
    if D.callers caller = .idle ∧ r.valid then
      { D with callers := Function.update D.callers caller (.lookup r) }
    else D
  | .advance caller input =>
    let result := (D.callers caller).step host D.store input
    ⟨result.1, Function.update D.callers caller result.2⟩
  | .mutate runID a => { D with store := D.store.mutate runID a }
  | .mutateSession sessionID => { D with store := D.store.mutateSession sessionID }

/-! ### What a request leaves behind -/

/-- How many steer commands have an id. -/
def RunLedger.steers (l : RunLedger) (requestID : ℕ) : ℕ :=
  l.commands.countP fun c => c.id = requestID ∧ c.action = .steer

/-- How many commands have an id. -/
def RunLedger.bound (l : RunLedger) (id : ℕ) : ℕ := l.commands.countP fun c => c.id = id

/-- How many user messages a run got from a request: its first message, if the run was created
for the request, and the steers of the request. -/
def SessionRun.deliveries (r : SessionRun) (requestID : ℕ) : ℕ :=
  (if r.requestID = requestID then (r.rows.messages.take 1).countP (·.role = .user) else 0) +
    r.rows.steerRequests.countP fun s => s.id = requestID

namespace Store

/-- How many runs were created for a request. -/
def requests (S : Store) (requestID : ℕ) : ℕ := S.runs.countP fun r => r.requestID = requestID

/-- How many steer commands a request has. -/
def steers (S : Store) (requestID : ℕ) : ℕ := (S.runs.map fun r => r.rows.steers requestID).sum

def bound (S : Store) (id : ℕ) : ℕ := (S.runs.map fun r => r.rows.bound id).sum

/-- How many user messages a request has. -/
def deliveries (S : Store) (requestID : ℕ) : ℕ :=
  (S.runs.map fun r => r.deliveries requestID).sum

end Store

/-- A request has at most one run or steer, its content is at most one user message, and a
caller who is told that it was taken finds exactly one run or steer. -/
structure Once (requestID : ℕ) (D : Desk) : Prop where
  one : D.store.requests requestID + D.store.steers requestID ≤ 1
  delivered : D.store.deliveries requestID ≤ 1
  accepted : ∀ caller receipt, D.callers caller = .accepted receipt →
    receipt.requestID = requestID → D.store.requests requestID + D.store.steers requestID = 1

/-- No run is created for a request that is bound to a steer, and no steer is enqueued under the
id of a request that has a run. -/
def exclusive (requestID : ℕ) (D : Desk) : Move → Bool
  | .advance caller input =>
    match D.callers caller with
    | .submit r _ mode target _ =>
      input.fault || r.requestID ≠ requestID || (mode = .steer && target ≠ 0) ||
        D.store.steers requestID = 0
    | _ => true
  | .mutate _ a =>
    match a.op.command? with
    | some (id, action, _) =>
      id ≠ requestID || action ≠ .steer || D.store.requests requestID = 0
    | none => true
  | _ => true

/-! ### The invariant -/

/-- The ids are unique, a request has one command, and one run or steer. -/
structure Counted (requestID : ℕ) (S : Store) : Prop where
  ids : (S.runs.map SessionRun.id).Nodup
  commands : ∀ r ∈ S.runs, (r.rows.commands.map Command.id).Nodup
  bound : S.bound requestID ≤ 1
  sourced : ∀ r ∈ S.runs, r.rows.steerRequests.countP (·.id = requestID) ≤
    r.rows.steers requestID
  one : S.requests requestID + S.steers requestID ≤ 1

variable {S' : Store}

section

variable {S : Store} {requestID : ℕ} {r : SessionRun}

/-- A run gets the message it was created with and the steers that it has commands for. -/
theorem run_deliveries_le
    (h : r.rows.steerRequests.countP (·.id = requestID) ≤ r.rows.steers requestID) :
    r.deliveries requestID ≤
      (if r.requestID = requestID then 1 else 0) + r.rows.steers requestID := by
  have hfirst : (r.rows.messages.take 1).countP (·.role = .user) ≤ 1 :=
    countP_le_length.trans (by simp)
  rw [SessionRun.deliveries]
  split <;> omega

theorem deliveries_le (h : Counted requestID S) :
    S.deliveries requestID ≤ S.requests requestID + S.steers requestID := by
  have hle : ∀ rows : List SessionRun, (∀ r ∈ rows, r.rows.steerRequests.countP
      (·.id = requestID) ≤ r.rows.steers requestID) →
      (rows.map fun r => r.deliveries requestID).sum ≤
        rows.countP (fun r => r.requestID = requestID) +
          (rows.map fun r => r.rows.steers requestID).sum := by
    intro rows
    induction rows with
    | nil => exact fun _ => Nat.le_refl _
    | cons r rows ih =>
      intro hrows
      have hrest := ih fun a ha => hrows a (mem_cons_of_mem r ha)
      have hhead := run_deliveries_le (hrows r mem_cons_self)
      simp only [map_cons, sum_cons, countP_cons, decide_eq_true_eq]
      omega
  exact hle S.runs h.sourced

theorem steers_le_bound (l : RunLedger) (id : ℕ) : l.steers id ≤ l.bound id :=
  countP_mono_left fun c _ hc => by
    simp only [decide_eq_true_eq] at hc ⊢
    exact hc.1

variable {l : RunLedger}

theorem bound_eq_zero {id : ℕ} (h : l.command? id = none) : l.bound id = 0 := by
  refine countP_eq_zero.mpr fun c hc => ?_
  simpa using lookup_eq_none.mp h c hc

theorem store_bound_eq_zero {id : ℕ} (h : ∀ r ∈ S.runs, r.rows.command? id = none) :
    S.bound id = 0 := by
  rw [Store.bound, sum_eq_zero]
  intro n hn
  obtain ⟨r, hr, rfl⟩ := mem_map.mp hn
  exact bound_eq_zero (h r hr)

theorem le_sum_of_mem (weight : SessionRun → ℕ) (hr : r ∈ S.runs) :
    weight r ≤ (S.runs.map weight).sum :=
  single_le_sum (fun _ _ => Nat.zero_le _) _ (mem_map_of_mem hr)

theorem steers_pos {c : Command} (hr : r ∈ S.runs) (hc : c ∈ r.rows.commands)
    (hsteer : c.action = .steer) : 0 < S.steers c.id := by
  have hpos : 0 < r.rows.steers c.id := countP_pos_iff.mpr ⟨c, hc, by simp [hsteer]⟩
  exact hpos.trans_le (le_sum_of_mem (fun r => r.rows.steers c.id) hr)

theorem requests_pos (h : S.runByRequest? requestID = some r) :
    0 < S.requests requestID := by
  rw [Store.runByRequest?] at h
  split_ifs at h
  exact countP_pos_iff.mpr
    ⟨r, mem_of_lookup h, by simpa using lookup_key h⟩

theorem requests_eq_zero (hne : requestID ≠ 0) (h : S.runByRequest? requestID = none) :
    S.requests requestID = 0 := by
  rw [Store.runByRequest?, if_neg hne] at h
  exact countP_eq_zero.mpr fun r hr => by simpa using lookup_eq_none.mp h r hr

theorem command?_some {id : ℕ} {c : Command} (h : S.command? id = some (r, c)) :
    r ∈ S.runs ∧ r.rows.command? id = some c := by
  obtain ⟨a, ha, hfound⟩ := exists_of_findSome?_eq_some h
  cases hcommand : a.rows.command? id with
  | none => simp [hcommand] at hfound
  | some d =>
    obtain ⟨rfl, rfl⟩ : a = r ∧ d = c := by simpa [hcommand] using hfound
    exact ⟨ha, hcommand⟩

theorem command?_none {id : ℕ} (h : S.command? id = none) :
    ∀ r ∈ S.runs, r.rows.command? id = none := by
  intro r hr
  simpa using findSome?_eq_none_iff.mp h r hr

variable {more : List Command}

theorem steers_of_evolve {l' : RunLedger} (h : CommandsEvolve l l' more) (id : ℕ) :
    l'.steers id = l.steers id + more.countP fun c => c.id = id ∧ c.action = .steer := by
  have hkeys : ∀ commands : List Command,
      commands.countP (fun c => c.id = id ∧ c.action = .steer) =
        (commands.map fun c => (c.id, c.action)).countP
          fun k => k.1 = id ∧ k.2 = ControlAction.steer :=
    fun commands => by rw [countP_map]; rfl
  rw [steers, steers, hkeys, hkeys, hkeys, h.ids, countP_append]

theorem bound_of_evolve {l' : RunLedger} (h : CommandsEvolve l l' more) (id : ℕ) :
    l'.bound id = l.bound id + more.countP fun c => c.id = id := by
  have hkeys : ∀ commands : List Command, commands.countP (fun c => c.id = id) =
      (commands.map fun c => (c.id, c.action)).countP fun k => k.1 = id :=
    fun commands => by rw [countP_map]; rfl
  rw [RunLedger.bound, RunLedger.bound, hkeys, hkeys, hkeys, h.ids, countP_append]

/-! ### Steps of the store -/

theorem counted_of_runs (hruns : S'.runs = S.runs) (h : Counted requestID S) :
    Counted requestID S' := by
  rcases S with ⟨sessions, runs⟩
  rcases S' with ⟨sessions', runs'⟩
  obtain rfl : runs' = runs := hruns
  exact { h with }

theorem counts_of_runs (hruns : S'.runs = S.runs) :
    S'.requests requestID + S'.steers requestID = S.requests requestID + S.steers requestID := by
  rw [Store.requests, Store.steers, hruns]
  rfl

@[simp] theorem updateSession_runs (S : Store) (id : ℕ) (f : Session → Session) :
    (S.updateSession id f).runs = S.runs := rfl

@[simp] theorem ensureSession_runs (S : Store) (id : ℕ) : (S.ensureSession id).runs = S.runs := by
  rw [Store.ensureSession]
  split <;> rfl

theorem createSessionBranch_runs {id source sequence expectedRevision : ℕ}
    (h : S.createSessionBranch id source sequence expectedRevision = .ok S') :
    S'.runs = S.runs := by
  rw [Store.createSessionBranch] at h
  split at h
  · cases h
  · split at h
    · cases h
    · split at h
      · split_ifs at h
        cases h
        rfl
      · split at h
        · cases h
        · split_ifs at h
          cases h
          rfl

/-- A change of the rows of one run that inserts at most one command, under a free id. -/
theorem counted_setRows
    (h : Counted requestID S) (hr : S.run? r.id = some r) (hevolve : CommandsEvolve r.rows l more)
    (hmore : more = [] ∨ ∃ c, more = [c] ∧ (∀ r ∈ S.runs, r.rows.command? c.id = none) ∧
      (c.id = requestID → c.action = .steer → S.requests requestID = 0))
    (hsourced : l.steerRequests.countP (·.id = requestID) ≤ l.steers requestID) :
    Counted requestID (S.setRows r l) ∧ S.requests requestID + S.steers requestID ≤
      (S.setRows r l).requests requestID + (S.setRows r l).steers requestID := by
  have hmem : r ∈ S.runs := mem_of_lookup hr
  have hruns : (S.setRows r l).runs =
      update SessionRun.id r.id (fun row => { row with rows := l }) S.runs := rfl
  have hids : ((S.setRows r l).runs).map SessionRun.id = S.runs.map SessionRun.id := by
    rw [hruns]
    refine map_key_update (fun r => ?_) S.runs
    rfl
  have hrequests : (S.setRows r l).requests requestID = S.requests requestID := by
    rw [Store.requests, Store.requests, hruns, update, countP_map]
    refine countP_congr fun a _ => ?_
    rw [Function.comp_apply]
    split <;> rfl
  have hsteers : (S.setRows r l).steers requestID + r.rows.steers requestID =
      S.steers requestID + l.steers requestID :=
    sum_update_nat hr h.ids
  have hbound : (S.setRows r l).bound requestID + r.rows.bound requestID =
      S.bound requestID + l.bound requestID :=
    sum_update_nat hr h.ids
  have hsteers' := steers_of_evolve hevolve requestID
  have hbound' := bound_of_evolve hevolve requestID
  have hone := h.one
  have hbound₀ := h.bound
  refine ⟨⟨hids ▸ h.ids, ?_, ?_, ?_, ?_⟩, by omega⟩
  · refine forall_update h.commands fun a ha _ => ?_
    have hkeys := congrArg (List.map Prod.fst) hevolve.ids
    simp only [map_append, map_map, Function.comp_def] at hkeys
    change (l.commands.map fun c => c.id).Nodup
    rw [hkeys]
    rcases hmore with rfl | ⟨c, rfl, hfree, -⟩
    · simpa using h.commands r hmem
    · refine nodup_append.mpr ⟨h.commands r hmem, by simp, ?_⟩
      rintro _ hid _ hc rfl
      obtain ⟨d, hd, hdc⟩ := mem_map.mp hid
      obtain ⟨c', hc', hcc⟩ := mem_map.mp hc
      obtain rfl := mem_singleton.mp hc'
      exact lookup_eq_none.mp (hfree r hmem) d hd (hdc.trans hcc.symm)
  · rcases hmore with rfl | ⟨c, rfl, hfree, -⟩
    · simp at hbound'
      omega
    · by_cases hc : c.id = requestID
      · have hzero : S.bound requestID = 0 := store_bound_eq_zero (hc ▸ hfree)
        simp [hc] at hbound'
        omega
      · simp [hc] at hbound'
        omega
  · exact forall_update h.sourced fun _ _ _ => hsourced
  · rcases hmore with rfl | ⟨c, rfl, hfree, hexclusive⟩
    · simp at hsteers'
      omega
    · by_cases hc : c.id = requestID ∧ c.action = .steer
      · have hzero := hexclusive hc.1 hc.2
        have hnone : S.bound requestID = 0 := store_bound_eq_zero (hc.1 ▸ hfree)
        simp [hc] at hsteers' hbound'
        have hle := steers_le_bound r.rows requestID
        have hle' : S.steers requestID ≤ S.bound requestID :=
          sum_le_sum fun r _ => steers_le_bound r.rows requestID
        omega
      · simp [hc] at hsteers'
        omega

/-- A new run has no commands; it is the only run of its request. -/
theorem counted_insertRun (now runID : ℕ) (r : Store.CreateRunRequest)
    (h : Counted requestID S) (hfresh : S.run? runID = none)
    (hnew : r.requestID = requestID → S.requests requestID + S.steers requestID = 0) :
    Counted requestID (S.insertRun now runID r) ∧
      (S.insertRun now runID r).requests requestID + (S.insertRun now runID r).steers requestID =
        S.requests requestID + S.steers requestID + if r.requestID = requestID then 1 else 0 := by
  have hruns : (S.insertRun now runID r).runs = S.runs ++ [r.row now runID] := rfl
  have hrequests : (S.insertRun now runID r).requests requestID =
      S.requests requestID + if r.requestID = requestID then 1 else 0 := by
    rw [Store.requests, hruns, countP_append, countP_singleton, Store.requests]
    by_cases hid : r.requestID = requestID <;> simp [Store.CreateRunRequest.row, hid]
  have hsteers : (S.insertRun now runID r).steers requestID = S.steers requestID := by
    rw [Store.steers, hruns, map_append, sum_append]
    rfl
  have hbound : (S.insertRun now runID r).bound requestID = S.bound requestID := by
    rw [Store.bound, hruns, map_append, sum_append]
    rfl
  have hone := h.one
  refine ⟨⟨?_, ?_, hbound ▸ h.bound, ?_, ?_⟩, by omega⟩
  · rw [hruns, map_append]
    refine nodup_append.mpr ⟨h.ids, by simp, ?_⟩
    rintro _ hid _ hnew rfl
    obtain ⟨a, ha, haid⟩ := mem_map.mp hid
    obtain rfl := mem_singleton.mp hnew
    exact lookup_eq_none.mp hfresh a ha haid
  · rw [hruns]
    exact forall_mem_append.mpr ⟨h.commands, forall_mem_singleton.mpr nodup_nil⟩
  · rw [hruns]
    exact forall_mem_append.mpr ⟨h.sourced, forall_mem_singleton.mpr (Nat.le_refl _)⟩
  · by_cases hr : r.requestID = requestID
    · have := hnew hr
      simp only [hr, if_true] at hrequests
      omega
    · simp only [hr, if_false] at hrequests
      omega

/-! ### Steps of a caller -/

/-- What the last transaction of a caller needs: a run is not created next to a steer. -/
theorem counted_createRun {now runID : ℕ} {r : Store.CreateRunRequest} {row : SessionRun}
    (hne : requestID ≠ 0) (h : Counted requestID S)
    (hexclusive : r.requestID = requestID → S.steers requestID = 0)
    (hok : S.createRun now runID r = .ok (S', row)) :
    Counted requestID S' ∧ S.requests requestID + S.steers requestID ≤
      S'.requests requestID + S'.steers requestID ∧
      (r.requestID = requestID → 0 < S'.requests requestID + S'.steers requestID) := by
  rw [Store.createRun] at hok
  split at hok
  · cases hok
  · split at hok
    · rename_i existing hexisting
      cases hok
      refine ⟨h, Nat.le_refl _, fun hid => ?_⟩
      have hpos := requests_pos (hid ▸ hexisting)
      omega
    · rename_i hnone
      split_ifs at hok with hrevision hfresh
      cases hok
      have hruns := ensureSession_runs S r.sessionID
      have hcounts : (S.ensureSession r.sessionID).requests requestID +
          (S.ensureSession r.sessionID).steers requestID =
          S.requests requestID + S.steers requestID := counts_of_runs hruns
      obtain ⟨hcounted, hsum⟩ := counted_insertRun now runID r
        (counted_of_runs hruns h)
        (by
          rw [Store.run?, hruns]
          simpa [Store.run?] using (not_or.mp hfresh).2)
        (fun hid => by
          have hzero := requests_eq_zero hne (hid ▸ hnone)
          have := hexclusive hid
          omega)
      refine ⟨hcounted, by omega, fun hid => ?_⟩
      rw [if_pos hid] at hsum
      omega

/-- `EnqueueSteerOrCreateRun` looks at both, so it needs nothing. -/
theorem counted_enqueueSteerOrCreateRun {now runID target : ℕ} {c : EnqueueRequest}
    {create : Store.CreateRunRequest} {row : SessionRun} {steered : Bool} (hne : requestID ≠ 0)
    (h : Counted requestID S)
    (hok : S.enqueueSteerOrCreateRun now runID target c create = .ok (S', row, steered)) :
    Counted requestID S' ∧ S.requests requestID + S.steers requestID ≤
      S'.requests requestID + S'.steers requestID ∧
      (c.id = requestID → 0 < S'.requests requestID + S'.steers requestID) := by
  rw [Store.enqueueSteerOrCreateRun] at hok
  split at hok
  · cases hok
  · rename_i hvalid
    have hsteer : c.action = .steer := by tauto
    split at hok
    · rename_i r d hcommand
      split_ifs at hok with hsame
      cases hok
      refine ⟨h, Nat.le_refl _, fun hid => ?_⟩
      obtain ⟨hmem, hfound⟩ := command?_some hcommand
      have haction : d.action = .steer := by
        have := hsame.2
        simp only [EnqueueRequest.same, decide_eq_true_eq] at this
        exact this.1.trans hsteer
      have hpos := steers_pos hmem (mem_of_lookup hfound) haction
      rw [lookup_key hfound, hid] at hpos
      omega
    · rename_i hcommand
      have hfree := command?_none hcommand
      split at hok
      · rename_i existing hexisting
        cases hok
        refine ⟨h, Nat.le_refl _, fun hid => ?_⟩
        have hpos := requests_pos (hid ▸ hexisting)
        omega
      · rename_i hnone
        split at hok
        · rename_i r hr
          obtain ⟨hrun, -⟩ := Option.filter_eq_some_iff.mp hr
          have hid := lookup_key hrun
          subst hid
          split at hok
          · cases hok
          · rename_i l hl
            cases hok
            have hl' : (Op.enqueueSteer c false).apply row.rows now = .ok l := hl
            rcases commands_evolve (h.commands row (mem_of_lookup hrun)) hl' with
              hevolve | ⟨d, hevolve, hd, hdfree⟩
            · -- the command is there afterwards, so it was inserted
              have hfreeRow := hfree row (mem_of_lookup hrun)
              simp only [RunLedger.enqueueSteer, hfreeRow] at hl
              split_ifs at hl
              cases hl
              have := congrArg List.length hevolve.ids
              simp [putCommand] at this
            · obtain ⟨hdid, hdaction⟩ : c.id = d.id ∧ c.action = d.action := by
                simpa [Op.command?] using hd
              have hfree' : ∀ r ∈ S.runs, r.rows.command? d.id = none := hdid ▸ hfree
              obtain ⟨hcounted, hle⟩ := counted_setRows h hrun hevolve
                (.inr ⟨d, rfl, hfree', fun hid _ => requests_eq_zero hne
                  (hid ▸ hdid ▸ hnone)⟩)
                (by
                  have hsteers : l.steerRequests = row.rows.steerRequests :=
                    (steerRequests_extend (wrote_of_apply hl')).elim id fun h => by
                      simpa [Op.steerRequests] using h.1
                  rw [hsteers, steers_of_evolve hevolve]
                  exact (h.sourced row (mem_of_lookup hrun)).trans (Nat.le_add_right _ _))
              refine ⟨hcounted, hle, fun hid => ?_⟩
              have hrows : l.steers requestID ≤ (S.setRows row l).steers requestID := by
                refine le_sum_of_mem (fun r => r.rows.steers requestID)
                  (r := { row with rows := l }) ?_
                refine mem_map.mpr ⟨row, mem_of_lookup hrun, ?_⟩
                rw [if_pos rfl]
              have hpos : 0 < l.steers requestID := by
                rw [steers_of_evolve hevolve]
                have : d.id = requestID ∧ d.action = .steer :=
                  ⟨hdid.symm.trans hid, hdaction.symm.trans hsteer⟩
                simp [this]
              omega
        · split at hok
          · cases hok
          · rename_i S'' r hcreate
            cases hok
            refine counted_createRun hne h (fun hid => ?_) hcreate
            have hbound : S.bound requestID = 0 := store_bound_eq_zero (hid ▸ hfree)
            have hle : S.steers requestID ≤ S.bound requestID :=
              sum_le_sum fun r _ => steers_le_bound r.rows requestID
            omega

theorem steers_of_replay {r : AgentInputRequest} {receipt : Receipt}
    (h : replayExistingSteer S r = .found receipt) :
    receipt.requestID = r.requestID ∧ 0 < S.steers r.requestID := by
  rw [replayExistingSteer] at h
  split at h
  · cases h
  · rename_i row c hcommand
    split_ifs at h with hsteer
    cases h
    obtain ⟨hmem, hfound⟩ := command?_some hcommand
    refine ⟨rfl, ?_⟩
    have hpos := steers_pos hmem (mem_of_lookup hfound) (not_not.mp hsteer)
    rwa [lookup_key hfound] at hpos

/-- What a transaction of a caller keeps. -/
structure Preserved (requestID : ℕ) (S S' : Store) : Prop where
  counted : Counted requestID S'
  grows : S.requests requestID + S.steers requestID ≤ S'.requests requestID + S'.steers requestID

theorem preserved_refl (h : Counted requestID S) : Preserved requestID S S := ⟨h, Nat.le_refl _⟩

/-- A caller that is told that the request was taken finds it. -/
def Told (requestID : ℕ) (S : Store) (caller : Caller) : Prop :=
  ∀ receipt, caller = .accepted receipt → receipt.requestID = requestID →
    0 < S.requests requestID + S.steers requestID

/-- **The step lemma of a caller.** -/
theorem preserved_caller (host : Host) (input : Input) {caller : Caller} (hne : requestID ≠ 0)
    (h : Counted requestID S)
    (hexclusive : ∀ r sessionID mode target expected,
      caller = .submit r sessionID mode target expected → input.fault = false →
        r.requestID = requestID → ¬ (mode = .steer ∧ target ≠ 0) → S.steers requestID = 0)
    (htold : Told requestID S caller) :
    Preserved requestID S (caller.step host S input).1 ∧
      Told requestID (caller.step host S input).1 (caller.step host S input).2 := by
  have hsame : ∀ c : Caller, Told requestID S c →
      Preserved requestID S (S, c).1 ∧ Told requestID (S, c).1 (S, c).2 :=
    fun c hc => ⟨preserved_refl h, hc⟩
  have hrefused : Told requestID S .refused := nofun
  cases caller with
  | idle => exact hsame _ nofun
  | refused => exact hsame _ hrefused
  | accepted receipt => exact hsame _ htold
  | lookup r =>
    rw [Caller.step]
    split
    · exact hsame _ hrefused
    · split
      · rename_i row hrow
        refine hsame _ ?_
        rintro _ ⟨⟩ hid
        have hpos := requests_pos ((show r.requestID = requestID from hid) ▸ hrow)
        omega
      · exact hsame _ nofun
  | replay r =>
    rw [Caller.step]
    split
    · exact hsame _ hrefused
    · split
      · exact hsame _ nofun
      · exact hsame _ hrefused
      · rename_i hreceipt
        refine hsame _ ?_
        rintro _ ⟨⟩ hid
        obtain ⟨heq, hpos⟩ := steers_of_replay hreceipt
        rw [← heq, hid] at hpos
        omega
  | replayAgain r =>
    rw [Caller.step]
    split
    · exact hsame _ hrefused
    · split
      · rename_i hreceipt
        refine hsame _ ?_
        rintro _ ⟨⟩ hid
        obtain ⟨heq, hpos⟩ := steers_of_replay hreceipt
        rw [← heq, hid] at hpos
        omega
      · exact hsame _ hrefused
  | bind r =>
    refine hsame _ ?_
    rw [AgentInputRequest.dispatch]
    split_ifs <;> nofun
  | branch r =>
    rw [Caller.step]
    split
    · exact hsame _ hrefused
    · split
      · exact hsame _ hrefused
      · rename_i S' hbranch
        have hruns := createSessionBranch_runs hbranch
        exact ⟨⟨counted_of_runs hruns h, (counts_of_runs hruns).ge⟩, nofun⟩
  | active r sessionID mode =>
    rw [Caller.step]
    split
    · exact hsame _ hrefused
    · refine hsame _ ?_
      rw [AgentInputRequest.guarded]
      split_ifs <;> nofun
  | revision r mode =>
    rw [Caller.step]
    split
    · exact hsame _ hrefused
    · split
      · exact hsame _ nofun
      · refine hsame _ ?_
        split <;> nofun
  | submit r sessionID mode target expected =>
    rw [Caller.step]
    split
    · exact hsame _ hrefused
    · rename_i hfault
      split
      · exact hsame _ hrefused
      · rename_i S' row steered htake
        rw [Store.take] at htake
        have hall : Counted requestID S' ∧ S.requests requestID + S.steers requestID ≤
            S'.requests requestID + S'.steers requestID ∧ (r.requestID = requestID →
              0 < S'.requests requestID + S'.steers requestID) := by
          split at htake
          · exact counted_enqueueSteerOrCreateRun hne h htake
          · rename_i hmode
            split at htake
            · cases htake
            · rename_i hcreate
              cases htake
              exact counted_createRun hne h (fun hid => hexclusive r sessionID mode target expected
                rfl (by simpa using hfault) hid hmode) hcreate
        refine ⟨⟨hall.1, hall.2.1⟩, ?_⟩
        rintro _ ⟨⟩ hid
        exact hall.2.2 hid

/-- A mutation that is located inserts the same command, with the flag that it sees. -/
theorem located_command? (op : Op) (elsewhere : ℕ → Bool) :
    (op.located elsewhere).command? = op.command?.map fun k => (k.1, k.2.1, elsewhere k.1) := by
  cases op with
  | applyRecoveryAction checkpointID r flag =>
    simp only [Op.located, Op.command?]
    split <;> rfl
  | _ => rfl

theorem located_steerRequests (op : Op) (elsewhere : ℕ → Bool) :
    (op.located elsewhere).steerRequests = op.steerRequests := by
  cases op <;> rfl

/-- A command that is inserted under a located id is the only one of its id. -/
theorem free_of_located {id : ℕ} (hids : (S.runs.map SessionRun.id).Nodup)
    (hr : S.run? r.id = some r) (hlocated : S.elsewhere r.id id = false)
    (hfree : r.rows.command? id = none) : ∀ a ∈ S.runs, a.rows.command? id = none := by
  intro a ha
  by_cases hid : a.id = r.id
  · rwa [eq_of_lookup hids hr ha hid]
  · have := any_eq_false.mp hlocated a ha
    simpa [hid] using this

/-- The steers of a mutation that is sourced have their commands. -/
theorem sourced_step {op : Op}
    (h : r.rows.steerRequests.countP (·.id = requestID) ≤ r.rows.steers requestID)
    (hsourced : op.sourced r.rows = true) (hevolve : CommandsEvolve r.rows l more)
    (hsteers : l.steerRequests = r.rows.steerRequests ∨
      (l.steerRequests = r.rows.steerRequests ++ op.steerRequests ∧
        ∀ s ∈ op.steerRequests, lookup SteerRequest.id s.id r.rows.steerRequests = none)) :
    l.steerRequests.countP (·.id = requestID) ≤ l.steers requestID := by
  have hle := steers_of_evolve hevolve requestID
  rcases hsteers with heq | ⟨heq, hnew⟩
  · rw [heq]
    omega
  · rw [heq, countP_append]
    cases op with
    | supersedeToolIntentsAndSteer checkpointID request =>
      simp only [Op.steerRequests, SupersedeRequest.steerRequest] at hnew ⊢
      split
      · simp only [countP_nil]
        omega
      · rename_i hzero
        rw [if_neg hzero] at hnew
        by_cases hid : request.requestID = requestID
        · -- the steer is new, and its command is there
          have hnone : r.rows.steerRequests.countP (·.id = requestID) = 0 :=
            countP_eq_zero.mpr fun s hs => by
              simpa [hid] using lookup_eq_none.mp (hnew _ (mem_singleton_self _)) s hs
          simp only [Op.sourced, hzero, false_or, decide_eq_true_eq] at hsourced
          obtain ⟨c, hc, hsteer⟩ : ∃ c, r.rows.command? request.requestID = some c ∧
              c.action = .steer := by
            cases hc : r.rows.command? request.requestID with
            | none => simp [hc] at hsourced
            | some c => exact ⟨c, rfl, by simpa [hc] using hsourced⟩
          have hpos : 0 < r.rows.steers requestID :=
            countP_pos_iff.mpr ⟨c, mem_of_lookup hc, by
              simpa [← hid, lookup_key hc] using hsteer⟩
          simp only [countP_singleton, hid]
          simp only [decide_true, if_true]
          omega
        · simp only [countP_singleton, hid]
          simp only [decide_false, Bool.false_eq_true, if_false]
          omega
    | _ =>
      simp only [Op.steerRequests, countP_nil]
      omega

theorem preserved_mutate (runID : ℕ) (a : Act) (h : Counted requestID S)
    (hexclusive : ∀ flag, a.op.command? = some (requestID, .steer, flag) →
      S.requests requestID = 0) : Preserved requestID S (S.mutate runID a) := by
  rw [Store.mutate]
  split
  · exact preserved_refl h
  rename_i r hr
  split
  swap
  · exact preserved_refl h
  rename_i hsourced
  obtain rfl : r.id = runID := lookup_key hr
  have hmem := mem_of_lookup hr
  have hnodup := h.commands r hmem
  have hsteers := h.sourced r hmem
  rw [step]
  split
  · rename_i l hl
    have hwrote := steerRequests_extend (wrote_of_apply hl)
    simp only [located_steerRequests] at hwrote
    rcases commands_evolve hnodup hl with hevolve | ⟨c, hevolve, hc, hfree⟩
    · obtain ⟨hcounted, hle⟩ := counted_setRows h hr hevolve (.inl rfl)
        (sourced_step hsteers hsourced hevolve hwrote)
      exact ⟨hcounted, hle⟩
    · rw [located_command?, Option.map_eq_some_iff] at hc
      obtain ⟨⟨id, action, flag⟩, hop, hk⟩ := hc
      simp only [Prod.mk.injEq] at hk
      obtain ⟨rfl, rfl, hlocated⟩ := hk
      obtain ⟨hcounted, hle⟩ := counted_setRows h hr hevolve
        (.inr ⟨c, rfl, free_of_located h.ids hr hlocated hfree, fun hid hsteer =>
          hexclusive flag (by rw [hop, hid, hsteer])⟩)
        (sourced_step hsteers hsourced hevolve hwrote)
      exact ⟨hcounted, hle⟩
  · obtain ⟨hcounted, hle⟩ := counted_setRows h hr
      (commandsEvolve_of_eq (append_nil _).symm) (.inl rfl) hsteers
    exact ⟨hcounted, hle⟩

end

/-! ### Runs of the machine -/

/-- The counts of a request, and callers who find what they were told. -/
structure Sound (requestID : ℕ) (D : Desk) : Prop where
  counted : Counted requestID D.store
  told : ∀ caller, Told requestID D.store (D.callers caller)

theorem Told.kept {S : Store} {requestID : ℕ} {caller : Caller} (h : Told requestID S caller)
    (hpreserved : Preserved requestID S S') : Told requestID S' caller :=
  fun receipt hreceipt hid => (h receipt hreceipt hid).trans_le hpreserved.grows

/-- **The step lemma of the machine.** -/
theorem sound_step {host : Host} {requestID : ℕ} (hne : requestID ≠ 0) (D : Desk) (m : Move)
    (hm : exclusive requestID D m = true) (h : Sound requestID D) :
    Sound requestID (D.step host m) := by
  have hupdate : ∀ (S' : Store) (i : ℕ) (c : Caller), Preserved requestID D.store S' →
      Told requestID S' c → Sound requestID ⟨S', Function.update D.callers i c⟩ := by
    intro S' i c hpreserved hc
    refine ⟨hpreserved.counted, fun j => ?_⟩
    rcases eq_or_ne j i with rfl | hne
    · simpa only [Function.update_self] using hc
    · simpa only [Function.update_of_ne hne] using (h.told j).kept hpreserved
  cases m with
  | submit caller r =>
    rw [Desk.step]
    split
    · exact hupdate _ _ _ (preserved_refl h.counted) nofun
    · exact h
  | advance caller input =>
    obtain ⟨hpreserved, htold⟩ := preserved_caller host input hne h.counted
      (fun r sessionID mode target expected hcaller hfault hid hmode => by
        simp only [exclusive, hcaller, hfault, hid] at hm
        simpa [hmode] using hm) (h.told caller)
    exact hupdate _ _ _ hpreserved htold
  | mutate runID a =>
    have hpreserved := preserved_mutate runID a h.counted fun flag hop => by
      simpa [exclusive, hop] using hm
    exact ⟨hpreserved.counted, fun j => (h.told j).kept hpreserved⟩
  | mutateSession sessionID =>
    have hruns := updateSession_runs D.store sessionID fun s => { s with revision := s.revision + 1 }
    have hpreserved : Preserved requestID D.store (D.store.mutateSession sessionID) :=
      ⟨counted_of_runs hruns h.counted, (counts_of_runs hruns).ge⟩
    exact ⟨hpreserved.counted, fun j => (h.told j).kept hpreserved⟩

/-- **A request is delivered once**, over every run in which no run is created for a request
that is bound to a steer. -/
theorem request_delivered_once (host : Host) (requestID : ℕ) (hne : requestID ≠ 0)
    (moves : List Move)
    (hmoves : Along (Desk.step host) (fun D m => exclusive requestID D m = true) .empty moves) :
    Once requestID (run (Desk.step host) .empty moves) := by
  have hsound : Sound requestID (run (Desk.step host) .empty moves) :=
    run_induction (sound_step hne) hmoves
      ⟨⟨nodup_nil, nofun, Nat.zero_le 1, nofun, Nat.zero_le 1⟩, nofun⟩
  refine ⟨hsound.counted.one, (deliveries_le hsound.counted).trans hsound.counted.one, ?_⟩
  intro caller receipt hcaller hid
  have hpos := hsound.told caller receipt hcaller hid
  have hone := hsound.counted.one
  omega

/-! ### Two retries -/

/-- A host that queues by default. -/
def plainHost : Host := ⟨.queue, 0, fun id => 100 + id, fun id => 1000 + id⟩

/-- A submission of a new conversation takes five transactions; its run is leased. -/
def startedRun : List Move :=
  [.submit 0 ⟨1, 0, 0, bytes "report", false, none, 0, true⟩, .advance 0 ⟨10, 1, false, true⟩,
    .advance 0 ⟨11, 1, false, true⟩, .advance 0 ⟨12, 1, false, true⟩,
    .advance 0 ⟨13, 1, false, true⟩, .advance 0 ⟨14, 1, false, true⟩,
    .mutate 1 ⟨20, .acquireLease 7 7 1000⟩]

/-- A steer of the run. -/
def steerInput : AgentInputRequest := ⟨2, 101, 0, bytes "stop", false, some .steer, 2, true⟩

/-- The retry comes once the steer is accepted. -/
def lateRetry : List Move :=
  [.submit 1 steerInput, .advance 1 ⟨30, 2, false, true⟩, .advance 1 ⟨31, 2, false, true⟩,
    .advance 1 ⟨32, 2, false, true⟩, .advance 1 ⟨33, 2, false, true⟩,
    .advance 1 ⟨34, 2, false, true⟩, .submit 2 steerInput, .advance 2 ⟨35, 3, false, true⟩,
    .advance 2 ⟨36, 3, false, true⟩]

theorem request_delivered_once_lateRetry :
    Once 2 (run (Desk.step plainHost) .empty (startedRun ++ lateRetry)) :=
  request_delivered_once plainHost 2 (by decide) _ (by decide)

/-- The retry looks for the steer first; then the steer is accepted, the run is canceled, and
the retry finds no run to steer. -/
def earlyRetry : List Move :=
  [.submit 1 steerInput, .advance 1 ⟨30, 2, false, true⟩, .advance 1 ⟨31, 2, false, true⟩,
    .advance 1 ⟨32, 2, false, true⟩, .advance 1 ⟨33, 2, false, true⟩,
    .submit 2 steerInput, .advance 2 ⟨34, 3, false, true⟩, .advance 2 ⟨35, 3, false, true⟩,
    .advance 2 ⟨36, 3, false, true⟩, .advance 1 ⟨37, 2, false, true⟩,
    .mutate 1 ⟨40, .appendEvent ⟨0, 0, .checkpoint, .canceling, .checkpoint 0, 0, 8, 0⟩⟩,
    .mutate 1 ⟨41, .appendEvent ⟨0, 0, .terminal, .canceled, .terminal [], 0, 8, 0⟩⟩,
    .advance 2 ⟨50, 3, false, true⟩, .advance 2 ⟨51, 3, false, true⟩,
    .advance 2 ⟨52, 3, false, true⟩]

/-- The request ends with a steer and a run of its own. -/
theorem retry_bound_twice :
    ¬ Once 2 (run (Desk.step plainHost) .empty (startedRun ++ earlyRetry)) := by
  intro h
  exact absurd h.one (by decide)

end GoNavi.Harness
