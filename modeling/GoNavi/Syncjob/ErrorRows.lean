import GoNavi.Machine.Fallible
import GoNavi.Machine.Table
import GoNavi.Syncjob.Manager

/-! # Retries of error rows

A row that could not be written is kept in `data_sync_error_rows`.  Workers claim it for a retry
under a lease, renew the lease, and finish the retry; a lease that has run out is taken over or
recovered; a row that waits is resolved or discarded by hand.  Every statement is an update with
its own guard (`rewrite`), and what it can make of one row is listed once (`Turn`).

**The laws of the retries** (`error_row_retries`) hold for every sequence of statements: one live
claim at most, an attempt counted for every claim that has ended and for every explicit increment,
and a finish that takes effect only for the owner of the live claim. -/

namespace GoNavi.Syncjob

open Scan Fallible List Table

/-! ### Rows -/

inductive ErrorRowStatus where
  | pending
  | retrying
  | resolved
  | discarded
  deriving DecidableEq

structure ErrorRow where
  id : Text
  runID : Text
  jobID : Text
  sourceTable : Text
  targetTable : Text
  operation : Text
  sourceKey : Text
  payload : Text
  payloadPolicy : Text
  payloadHash : Text
  payloadSize : ℤ
  error : Text
  errorCode : Text
  errorClass : Text
  attempts : ℤ
  status : ErrorRowStatus
  retryOwner : Text
  retryLeaseExpiresAt : ℤ
  createdAt : ℤ
  updatedAt : ℤ
  deriving DecidableEq

/-- What an executor reports of a row that it could not write. -/
structure RowReport where
  sourceTable : Text
  targetTable : Text
  operation : Text
  sourceKey : Text
  payload : Text
  payloadPolicy : Text
  payloadHash : Text
  payloadSize : ℤ
  error : Text
  errorCode : Text
  errorClass : Text

/-- The row of a report, as `managerReporter.AppendErrorRow` hands it to the store. -/
def RowReport.row (report : RowReport) (runID jobID : Text) : ErrorRow where
  id := []
  runID
  jobID
  sourceTable := report.sourceTable
  targetTable := report.targetTable
  operation := report.operation
  sourceKey := report.sourceKey
  payload := report.payload
  payloadPolicy := report.payloadPolicy
  payloadHash := report.payloadHash
  payloadSize := report.payloadSize
  error := report.error
  errorCode := report.errorCode
  errorClass := report.errorClass
  attempts := 0
  status := .pending
  retryOwner := []
  retryLeaseExpiresAt := 0
  createdAt := 0
  updatedAt := 0

abbrev ErrorRows := List ErrorRow

/-- The row with an identifier. -/
def findErrorRow (id : Text) (rows : ErrorRows) : Option ErrorRow :=
  lookup ErrorRow.id id rows

/-- `UPDATE data_sync_error_rows SET ... WHERE ...`, with the number of rows it affects. -/
def updateErrorRows (cond : ErrorRow → Bool) (f : ErrorRow → ErrorRow) (rows : ErrorRows) :
    ℕ × ErrorRows :=
  (rows.countP cond, rows.map fun row => if cond row then f row else row)

/-! ### Statements -/

section statements

variable (validJSON : Text → Bool) (world : World)

def validJSONOrEmpty (raw : Text) : Bool :=
  let trimmed := trimSpace raw
  trimmed = [] ∨ validJSON trimmed

/-- What `AppendErrorRow` makes of a row; a status that is not set stands for `pending`. -/
def prepareErrorRow (row : ErrorRow) : Except Err ErrorRow :=
  if trimSpace row.runID = [] ∨ trimSpace row.jobID = [] ∨ trimSpace row.error = [] then
    .error (.other "error row requires runId, jobId, and error")
  else if ¬ (validJSONOrEmpty validJSON row.sourceKey ∧ validJSONOrEmpty validJSON row.payload) then
    .error (.other "error row source key and payload must be valid JSON")
  else if row.sourceKey.length > 65536 then
    .error (.other "error row source key exceeds 65536 bytes")
  else if row.payload.length > 1048576 then
    .error (.other "error row payload exceeds 1048576 bytes")
  else if row.status ≠ .pending then .error (.other "unsupported initial error row status")
  else
    let policy := if row.payloadPolicy = [] then bytes "keys_only" else row.payloadPolicy
    if policy ≠ bytes "none" ∧ policy ≠ bytes "keys_only" ∧ policy ≠ bytes "full" then
      .error (.other "unsupported error row payload policy")
    else .ok { row with
      id := if row.id = [] then bytes "sync-error-" ++ world.uuid else row.id
      payloadPolicy := policy
      payload := if policy = bytes "full" then row.payload else []
      retryOwner := []
      retryLeaseExpiresAt := 0
      createdAt := world.now
      updatedAt := world.now }

/-- `Store.AppendErrorRow`: the primary key is checked by the database. -/
def appendErrorRow (row : ErrorRow) (rows : ErrorRows) : Except Err (ErrorRow × ErrorRows) := do
  let row ← prepareErrorRow validJSON world row
  if ∃ r ∈ rows, r.id = row.id then
    .error (.other "append data sync error row: UNIQUE constraint failed")
  else return (row, rows ++ [row])

/-- `Store.GetErrorRow`. -/
def getErrorRow (id : Text) (rows : ErrorRows) : Except Err (ErrorRow × ErrorRows) :=
  match findErrorRow (trimSpace id) rows with
  | some row => .ok (row, rows)
  | none => .error .notFound

/-- A lease that is given in nanoseconds. -/
def leaseMillis (leaseTTL : ℤ) : ℤ := leaseTTL.tdiv 1000000

/-- A row that waits, or one whose lease has run out. -/
def claimableErrorRow (id : Text) (now : ℤ) (row : ErrorRow) : Bool :=
  row.id = id ∧ (row.status = .pending ∨ (row.status = .retrying ∧ row.retryLeaseExpiresAt ≤ now))

def claimedErrorRow (owner : Text) (leaseExpiresAt now : ℤ) (row : ErrorRow) : ErrorRow :=
  { row with
    status := .retrying
    retryOwner := owner
    retryLeaseExpiresAt := leaseExpiresAt
    attempts := row.attempts + (if row.status = .retrying then 1 else 0)
    updatedAt := now }

/-- The `UPDATE` of `ClaimErrorRowRetry`; the owner is drawn, and returned when the row has been
claimed. -/
def claimErrorRow (id : Text) (nowMillis leaseTTL : ℤ) (rows : ErrorRows) :
    Except Err (Option Text × ErrorRows) :=
  let id := trimSpace id
  if id = [] then .error (.other "data sync error row id is required")
  else if leaseMillis leaseTTL ≤ 0 then
    .error (.other "data sync error row retry lease must be positive")
  else
    let now := timeOr world nowMillis
    let (affected, rows) := updateErrorRows (claimableErrorRow id now)
      (claimedErrorRow world.uuid (now + leaseMillis leaseTTL) now) rows
    .ok (if affected = 0 then none else some world.uuid, rows)

/-- A row whose retry has this owner. -/
def retriedBy (id owner : Text) (row : ErrorRow) : Bool :=
  row.id = id ∧ row.status = .retrying ∧ row.retryOwner = owner

/-- The `UPDATE` of `RenewErrorRowRetry`. -/
def renewErrorRow (id owner : Text) (nowMillis leaseTTL : ℤ) (rows : ErrorRows) :
    Except Err (Bool × ErrorRows) :=
  let id := trimSpace id
  let owner := trimSpace owner
  if id = [] ∨ owner = [] then
    .error (.other "data sync error row retry renewal requires id and owner")
  else if leaseMillis leaseTTL ≤ 0 then
    .error (.other "data sync error row retry lease must be positive")
  else
    let now := timeOr world nowMillis
    let (affected, rows) := updateErrorRows (retriedBy id owner) (fun row => { row with
      retryLeaseExpiresAt := now + leaseMillis leaseTTL
      updatedAt := now }) rows
    .ok (affected > 0, rows)

/-- The retry of a row is over. -/
def endedErrorRow (status : ErrorRowStatus) (now : ℤ) (row : ErrorRow) : ErrorRow :=
  { row with
    status
    attempts := row.attempts + 1
    retryOwner := []
    retryLeaseExpiresAt := 0
    updatedAt := now }

/-- The `UPDATE` of `finishErrorRowRetry`. -/
def finishErrorRow (id owner : Text) (status : ErrorRowStatus) (nowMillis : ℤ)
    (rows : ErrorRows) : Except Err (Bool × ErrorRows) :=
  let id := trimSpace id
  let owner := trimSpace owner
  if id = [] ∨ owner = [] then
    .error (.other "data sync error row retry completion requires id and owner")
  else if status ≠ .pending ∧ status ≠ .resolved then
    .error (.other "unsupported data sync error row retry completion status")
  else
    let (affected, rows) := updateErrorRows (retriedBy id owner)
      (endedErrorRow status (timeOr world nowMillis)) rows
    .ok (affected > 0, rows)

/-- A row whose lease has run out. -/
def expiredErrorRow (now : ℤ) (row : ErrorRow) : Bool :=
  row.status = .retrying ∧ row.retryLeaseExpiresAt ≤ now

/-- `Store.RecoverExpiredErrorRowRetries`. -/
def recoverExpiredErrorRows (nowMillis : ℤ) (rows : ErrorRows) : Except Err (ℕ × ErrorRows) :=
  let now := timeOr world nowMillis
  .ok (updateErrorRows (expiredErrorRow now) (endedErrorRow .pending now) rows)

def waitingErrorRow (id : Text) (row : ErrorRow) : Bool := row.id = id ∧ row.status = .pending

/-- The `UPDATE` of `UpdateErrorRowStatus`. -/
def settleErrorRow (id : Text) (status : ErrorRowStatus) (incrementAttempts : Bool)
    (rows : ErrorRows) : Except Err (Bool × ErrorRows) :=
  if status ≠ .resolved ∧ status ≠ .discarded then
    .error (.other "unsupported error row status")
  else
    let attemptDelta : ℤ := if incrementAttempts then 1 else 0
    let (affected, rows) := updateErrorRows (waitingErrorRow (trimSpace id)) (fun row => { row with
      status
      attempts := row.attempts + attemptDelta
      updatedAt := world.now }) rows
    .ok (affected > 0, rows)

/-- The `UPDATE` of `IncrementErrorRowAttempts`. -/
def incrementErrorRow (id : Text) (rows : ErrorRows) : Except Err (Bool × ErrorRows) :=
  let (affected, rows) := updateErrorRows (waitingErrorRow (trimSpace id)) (fun row => { row with
    attempts := row.attempts + 1
    updatedAt := world.now }) rows
  .ok (affected > 0, rows)

end statements

/-! ### Workers -/

inductive ErrorRowRequest where
  | append (report : RowReport) (runID jobID : Text)
  | get (id : Text)
  | claim (id : Text) (nowMillis leaseTTL : ℤ)
  | renew (id owner : Text) (nowMillis leaseTTL : ℤ)
  | finish (id owner : Text) (status : ErrorRowStatus) (nowMillis : ℤ)
  | recoverExpired (nowMillis : ℤ)
  | settle (id : Text) (status : ErrorRowStatus) (incrementAttempts : Bool)
  | increment (id : Text)

@[reducible] def ErrorRowRequest.Result : ErrorRowRequest → Type
  | .append .. | .get _ => ErrorRow
  | .claim .. => Option Text
  | .renew .. | .finish .. | .settle .. | .increment _ => Bool
  | .recoverExpired _ => ℕ

abbrev ErrorRowRequest.Answer (r : ErrorRowRequest) : Type := Except Err r.Result

/-- The change that a request makes of the rows. -/
def errorRowOperation (validJSON : Text → Bool) (world : World) :
    (r : ErrorRowRequest) → ErrorRows → Except Err (r.Result × ErrorRows)
  | .append report runID jobID => appendErrorRow validJSON world (report.row runID jobID)
  | .get id => getErrorRow id
  | .claim id nowMillis leaseTTL => claimErrorRow world id nowMillis leaseTTL
  | .renew id owner nowMillis leaseTTL => renewErrorRow world id owner nowMillis leaseTTL
  | .finish id owner status nowMillis => finishErrorRow world id owner status nowMillis
  | .recoverExpired nowMillis => recoverExpiredErrorRows world nowMillis
  | .settle id status incrementAttempts => settleErrorRow world id status incrementAttempts
  | .increment id => incrementErrorRow world id

/-- A request is served by one statement, which the database may refuse. -/
def serveErrorRow (validJSON : Text → Bool) (rows : ErrorRows) (r : ErrorRowRequest)
    (world : World) : r.Answer × ErrorRows :=
  attempt (world.fails.map Err.other) (errorRowOperation validJSON world r) rows

abbrev ErrorRowMethod (α : Type) :=
  Program ErrorRowRequest ErrorRowRequest.Answer (Except Err α)

/-- Go on with the result of a request, or return its error. -/
def onErrorRow {α : Type} (r : ErrorRowRequest) (next : r.Result → ErrorRowMethod α) :
    ErrorRowMethod α :=
  .ask r fun
    | .ok result => next result
    | .error err => .ret (.error err)

/-- What is behind an update: it has met a row, or the row is looked for. -/
def requireAffected (id : Text) (err : Err) (affected : Bool) : ErrorRowMethod Unit :=
  if affected = true then .ret (.ok ()) else onErrorRow (.get id) fun _ => .ret (.error err)

/-- `Store.ClaimErrorRowRetry`. -/
def claimErrorRowRetry (id : Text) (nowMillis leaseTTL : ℤ) : ErrorRowMethod ErrorRow :=
  onErrorRow (.claim id nowMillis leaseTTL) fun
    | none => onErrorRow (.get id) fun _ => .ret (.error .errorRowStateConflict)
    | some owner =>
      onErrorRow (.get id) fun claimed =>
        if claimed.status ≠ .retrying ∨ claimed.retryOwner ≠ owner then
          .ret (.error .errorRowRetryOwnershipLost)
        else .ret (.ok claimed)

/-- `Store.RenewErrorRowRetry`. -/
def renewErrorRowRetry (id owner : Text) (nowMillis leaseTTL : ℤ) : ErrorRowMethod Unit :=
  onErrorRow (.renew id owner nowMillis leaseTTL)
    (requireAffected (trimSpace id) .errorRowRetryOwnershipLost)

/-- `Store.finishErrorRowRetry`. -/
def finishErrorRowRetry (id owner : Text) (status : ErrorRowStatus) (nowMillis : ℤ) :
    ErrorRowMethod Unit :=
  onErrorRow (.finish id owner status nowMillis)
    (requireAffected (trimSpace id) .errorRowRetryOwnershipLost)

/-- `Store.UpdateErrorRowStatus`. -/
def updateErrorRowStatus (id : Text) (status : ErrorRowStatus) (incrementAttempts : Bool) :
    ErrorRowMethod Unit :=
  onErrorRow (.settle id status incrementAttempts) (requireAffected id .errorRowStateConflict)

/-- `Store.IncrementErrorRowAttempts`. -/
def incrementErrorRowAttempts (id : Text) : ErrorRowMethod Unit :=
  onErrorRow (.increment id) (requireAffected id .errorRowStateConflict)

/-- `Manager.RetryErrorRow`, for what the replay of a claimed row comes to; the heartbeat that
renews the lease meanwhile is a caller of its own. -/
def retryErrorRow (id : Text) (nowMillis finishedMillis : ℤ) (replay : ErrorRow → Option Err) :
    ErrorRowMethod ErrorRow :=
  (claimErrorRowRetry (trimSpace id) nowMillis 30000000000).bind fun
    | .error err => .ret (.error err)
    | .ok claimed =>
      match replay claimed with
      | some err =>
        (finishErrorRowRetry claimed.id claimed.retryOwner .pending finishedMillis).bind fun
          | .error _ => .ret (.error err)
          | .ok _ => onErrorRow (.get claimed.id) fun _ => .ret (.error err)
      | none =>
        (finishErrorRowRetry claimed.id claimed.retryOwner .resolved finishedMillis).bind fun
          | .error err => .ret (.error err)
          | .ok _ => onErrorRow (.get claimed.id) fun row => .ret (.ok row)

/-- A statement with what it meets. -/
abbrev ErrorRowAction := (_ : ErrorRowRequest) × World

/-- The rows behind a statement. -/
def errorRowStep (validJSON : Text → Bool) (rows : ErrorRows) (a : ErrorRowAction) : ErrorRows :=
  (serveErrorRow validJSON rows a.1 a.2).2

/-! ### Claims and attempts -/

section laws

variable (validJSON : Text → Bool)

/-- The statement is granted the claim of a row. -/
def grants (id : Text) (rows : ErrorRows) : ErrorRowAction → Bool
  | ⟨.claim id' nowMillis leaseTTL, world⟩ =>
    decide (trimSpace id' = id) &&
      match (serveErrorRow validJSON rows (.claim id' nowMillis leaseTTL) world).1 with
      | .ok (some _) => true
      | _ => false
  | _ => false

/-- The statement counts an attempt by hand. -/
def increments (id : Text) (rows : ErrorRows) : ErrorRowAction → Bool
  | ⟨.settle id' status true, world⟩ =>
    decide (trimSpace id' = id) &&
      match (serveErrorRow validJSON rows (.settle id' status true) world).1 with
      | .ok affected => affected
      | .error _ => false
  | ⟨.increment id', world⟩ =>
    decide (trimSpace id' = id) &&
      match (serveErrorRow validJSON rows (.increment id') world).1 with
      | .ok affected => affected
      | .error _ => false
  | _ => false

/-- The claim of a row is live. -/
def retrying (id : Text) (rows : ErrorRows) : Bool :=
  (findErrorRow id rows).any fun row => row.status = .retrying

/-- The statement ends the live claim of a row: it grants the row anew or leaves it without a
claim. -/
def ends (id : Text) (rows : ErrorRows) (a : ErrorRowAction) : Bool :=
  retrying id rows && (grants validJSON id rows a || !retrying id (errorRowStep validJSON rows a))

/-- The owner of the claim that was granted last and has not ended. -/
def LiveClaim (id owner : Text) (actions : List ErrorRowAction) : Prop :=
  ∃ before a after, actions = before ++ a :: after ∧ a.2.uuid = owner ∧
    grants validJSON id (Machine.run (errorRowStep validJSON) [] before) a = true ∧
    Machine.count (errorRowStep validJSON) (ends validJSON id)
      (Machine.run (errorRowStep validJSON) [] (before ++ [a])) after = 0

/-! ### What a statement makes of a row -/

/-- What a statement can make of a row, whether it grants the row, and whether it counts an
attempt by hand. -/
inductive Turn (owner : Text) (row : ErrorRow) : Bool → Bool → ErrorRow → Prop where
  | same : Turn owner row false false row
  | claimed (leaseExpiresAt now : ℤ) (h : row.status = .pending ∨ row.status = .retrying) :
    Turn owner row true false (claimedErrorRow owner leaseExpiresAt now row)
  | renewed (leaseExpiresAt now : ℤ) (h : row.status = .retrying) :
    Turn owner row false false
      { row with retryLeaseExpiresAt := leaseExpiresAt, updatedAt := now }
  | ended (status : ErrorRowStatus) (now : ℤ) (h : row.status = .retrying)
      (hstatus : status = .pending ∨ status = .resolved) :
    Turn owner row false false (endedErrorRow status now row)
  | settled (status : ErrorRowStatus) (increment : Bool) (now : ℤ) (h : row.status = .pending)
      (hstatus : status = .resolved ∨ status = .discarded) :
    Turn owner row false increment { row with
      status
      attempts := row.attempts + (if increment then 1 else 0)
      updatedAt := now }
  | counted (now : ℤ) (h : row.status = .pending) :
    Turn owner row false true { row with attempts := row.attempts + 1, updatedAt := now }

variable {validJSON} {rows : ErrorRows} {id : Text} {row : ErrorRow} {cond : ErrorRow → Bool}
variable {f : ErrorRow → ErrorRow}

/-- An update that keeps identifiers does to a row what its assignments say, when it meets it. -/
theorem find_updateErrorRows (hf : ∀ row, (f row).id = row.id)
    (h : findErrorRow id rows = some row) :
    findErrorRow id (updateErrorRows cond f rows).2 = some (if cond row then f row else row) := by
  have hkeeps : ∀ row, (if cond row then f row else row).id = row.id := by
    intro row
    split
    · exact hf row
    · rfl
  unfold updateErrorRows findErrorRow
  rw [lookup_map hkeeps]
  unfold findErrorRow at h
  rw [h]
  rfl

variable {id' : Text}

/-- An update of one identifier affects a row when it meets the row that is found. -/
theorem affected_eq (hunique : (rows.map ErrorRow.id).Nodup)
    (hcond : ∀ row, cond row → row.id = id') (h : findErrorRow id rows = some row) :
    (decide (id' = id) && decide (0 < (updateErrorRows cond f rows).1)) = cond row := by
  have hid : row.id = id := lookup_key h
  rw [Bool.eq_iff_iff, Bool.and_eq_true, decide_eq_true_eq, decide_eq_true_eq]
  unfold updateErrorRows
  rw [countP_pos_iff]
  constructor
  · intro hmet
    obtain ⟨hsame, r, hr, hcr⟩ := hmet
    have hrow : r = row := eq_of_lookup hunique h hr ((hcond r hcr).trans hsame)
    rw [← hrow]
    exact hcr
  · intro hmet
    exact ⟨(hcond row hmet).symm.trans hid, row, mem_of_lookup h, hmet⟩

theorem id_of_claimable {now : ℤ} {row : ErrorRow} (h : claimableErrorRow id' now row) :
    row.id = id' := by
  unfold claimableErrorRow at h
  rw [decide_eq_true_eq] at h
  exact h.1

theorem id_of_waiting {row : ErrorRow} (h : waitingErrorRow id' row) :
    row.id = id' := by
  unfold waitingErrorRow at h
  rw [decide_eq_true_eq] at h
  exact h.1

variable {nowMillis : ℤ} {owner : Text} {status : ErrorRowStatus}

/-- An update of an identifier that no row has affects nothing. -/
theorem affected_absent (hcond : ∀ row, cond row → row.id = id) (h : findErrorRow id rows = none) :
    (updateErrorRows cond f rows).1 = 0 := by
  unfold updateErrorRows
  rw [countP_eq_zero]
  intro row hrow hmet
  exact lookup_eq_none.mp h row hrow (hcond row hmet)

/-! ### What a statement makes of the table -/

/-- What a statement makes of the table: nothing, one fresh row, or an update with its guard, whose
claim or counted attempt is told by the rows that it affects. -/
inductive Served (validJSON : Text → Bool) (rows : ErrorRows) (a : ErrorRowAction) :
    ErrorRows → Prop where
  | same (hgrants : ∀ id, grants validJSON id rows a = false)
    (hincrements : ∀ id, increments validJSON id rows a = false) : Served validJSON rows a rows
  | added (row : ErrorRow) (hgrants : ∀ id, grants validJSON id rows a = false)
    (hincrements : ∀ id, increments validJSON id rows a = false)
    (hfresh : ∀ r ∈ rows, r.id ≠ row.id) (hstatus : row.status = .pending)
    (hattempts : row.attempts = 0) : Served validJSON rows a (rows ++ [row])
  | updated (cond : ErrorRow → Bool) (f : ErrorRow → ErrorRow) (id' : Text)
    (granted counted : Bool) (hf : ∀ row, (f row).id = row.id)
    (hturn : ∀ row, cond row → Turn a.2.uuid row granted counted (f row))
    (hid : granted = true ∨ counted = true → ∀ row, cond row → row.id = id')
    (hgrants : ∀ id, grants validJSON id rows a =
      (granted && (decide (id' = id) && decide (0 < (updateErrorRows cond f rows).1))))
    (hincrements : ∀ id, increments validJSON id rows a =
      (counted && (decide (id' = id) && decide (0 < (updateErrorRows cond f rows).1)))) :
    Served validJSON rows a (updateErrorRows cond f rows).2

section served

variable {world : World} {rows' : ErrorRows} {a : ErrorRowAction}

theorem served_append {report : RowReport} {runID jobID : Text} {added : ErrorRow}
    (hop : appendErrorRow validJSON world (report.row runID jobID) rows = .ok (added, rows')) :
    Served validJSON rows ⟨.append report runID jobID, world⟩ rows' := by
  obtain ⟨prepared, hprepared, hop⟩ := bind_eq_ok.mp hop
  have hnew : prepared.status = .pending ∧ prepared.attempts = 0 := by
    unfold prepareErrorRow at hprepared
    dsimp only at hprepared
    split_ifs at hprepared
    all_goals
      simp only [Except.ok.injEq] at hprepared
      subst hprepared
      exact ⟨rfl, rfl⟩
  split_ifs at hop with hfresh
  rw [pure_eq_ok] at hop
  cases hop
  exact .added added (fun _ => rfl) (fun _ => rfl) (fun r hr hid => hfresh ⟨r, hr, hid⟩) hnew.1
    hnew.2

variable (validJSON rows) in
theorem served_step (a : ErrorRowAction) :
    Served validJSON rows a (errorRowStep validJSON rows a) := by
  obtain ⟨r, world⟩ := a
  cases hserve : serveErrorRow validJSON rows r world with
  | mk answer rows' =>
    have hstep : errorRowStep validJSON rows ⟨r, world⟩ = rows' := congrArg Prod.snd hserve
    cases answer with
    | error err =>
      have hsame : errorRowStep validJSON rows ⟨r, world⟩ = rows := by
        cases attempt_cases (world.fails.map Err.other)
            (errorRowOperation validJSON world r) rows with
        | inl hsame => exact hsame
        | inr hok =>
          obtain ⟨result, hok, _⟩ := hok
          have hanswer : (serveErrorRow validJSON rows r world).1 = .error err := by rw [hserve]
          exact absurd (hanswer.symm.trans hok) nofun
      rw [hsame]
      constructor
      · intro id
        cases r <;> simp [grants, hserve]
      · intro id
        cases r with
        | settle id' status increment => cases increment <;> simp [increments, hserve]
        | _ => simp [increments, hserve]
    | ok result =>
      have hanswer : (serveErrorRow validJSON rows r world).1 = .ok result := by rw [hserve]
      have hop : errorRowOperation validJSON world r rows = .ok (result, rows') := by
        rw [← hstep]
        exact attempt_ok hanswer
      rw [hstep]
      cases r with
      | append report runID jobID => exact served_append hop
      | get id' =>
        obtain hop : getErrorRow id' rows = .ok (result, rows') := hop
        unfold getErrorRow at hop
        split at hop
        · cases hop
          exact .same (fun _ => rfl) (fun _ => rfl)
        · cases hop
      | claim id' nowMillis leaseTTL =>
        obtain hop : claimErrorRow world id' nowMillis leaseTTL rows = .ok (result, rows') := hop
        unfold claimErrorRow at hop
        dsimp only at hop
        split_ifs at hop with hid hlease haffected
        all_goals
          obtain ⟨rfl, rfl⟩ := hop
          refine .updated _ _ (trimSpace id') true false (fun _ => rfl) ?_
            (fun _ row hrow => id_of_claimable hrow) ?_ (fun _ => rfl)
          · intro row hrow
            unfold claimableErrorRow at hrow
            rw [decide_eq_true_eq] at hrow
            exact .claimed _ _ (hrow.2.imp_right And.left)
          · intro id
            unfold grants
            dsimp only
            rw [hanswer]
            simp [haffected, Nat.pos_of_ne_zero]
      | renew id' owner nowMillis leaseTTL =>
        obtain hop : renewErrorRow world id' owner nowMillis leaseTTL rows =
          .ok (result, rows') := hop
        unfold renewErrorRow at hop
        dsimp only at hop
        split_ifs at hop
        simp only [Except.ok.injEq, Prod.mk.injEq] at hop
        rw [← hop.2]
        refine .updated _ _ id' false false (fun _ => rfl) ?_ nofun (fun _ => rfl) (fun _ => rfl)
        intro row hrow
        unfold retriedBy at hrow
        rw [decide_eq_true_eq] at hrow
        exact .renewed _ _ hrow.2.1
      | finish id' owner status nowMillis =>
        obtain hop : finishErrorRow world id' owner status nowMillis rows =
          .ok (result, rows') := hop
        unfold finishErrorRow at hop
        dsimp only at hop
        split_ifs at hop with hempty hstatus
        simp only [Except.ok.injEq, Prod.mk.injEq] at hop
        rw [← hop.2]
        refine .updated _ _ id' false false (fun _ => rfl) ?_ nofun (fun _ => rfl) (fun _ => rfl)
        intro row hrow
        unfold retriedBy at hrow
        rw [decide_eq_true_eq] at hrow
        exact .ended _ _ hrow.2.1 (by tauto)
      | recoverExpired nowMillis =>
        cases hop
        refine .updated _ _ [] false false (fun _ => rfl) ?_ nofun (fun _ => rfl) (fun _ => rfl)
        intro row hrow
        unfold expiredErrorRow at hrow
        rw [decide_eq_true_eq] at hrow
        exact .ended _ _ hrow.1 (.inl rfl)
      | settle id' status increment =>
        obtain hop : settleErrorRow world id' status increment rows = .ok (result, rows') := hop
        unfold settleErrorRow at hop
        by_cases hstatus : status ≠ .resolved ∧ status ≠ .discarded
        · rw [if_pos hstatus] at hop
          cases hop
        rw [if_neg hstatus] at hop
        obtain ⟨rfl, rfl⟩ := hop
        refine .updated _ _ (trimSpace id') false increment (fun _ => rfl) ?_
          (fun _ row hrow => id_of_waiting hrow) (fun _ => rfl) ?_
        · intro row hrow
          unfold waitingErrorRow at hrow
          rw [decide_eq_true_eq] at hrow
          exact .settled _ _ _ hrow.2 (by tauto)
        · intro id
          cases increment with
          | false => rfl
          | true =>
            unfold increments
            dsimp only
            rw [hanswer]
            rfl
      | increment id' =>
        cases hop
        refine .updated _ _ (trimSpace id') false true (fun _ => rfl) ?_
          (fun _ row hrow => id_of_waiting hrow) (fun _ => rfl) ?_
        · intro row hrow
          unfold waitingErrorRow at hrow
          rw [decide_eq_true_eq] at hrow
          exact .counted _ hrow.2
        · intro id
          unfold increments
          dsimp only
          rw [hanswer]
          rfl

variable (validJSON) in
/-- **What a statement makes of a row**, with the claim that it grants and the attempt that it
counts by hand. -/
theorem turn_of_step (hunique : (rows.map ErrorRow.id).Nodup)
    (h : findErrorRow id rows = some row) (a : ErrorRowAction) :
    ∃ row', findErrorRow id (errorRowStep validJSON rows a) = some row' ∧
      Turn a.2.uuid row (grants validJSON id rows a) (increments validJSON id rows a) row' := by
  have hserved := served_step validJSON rows a
  generalize errorRowStep validJSON rows a = rows' at hserved ⊢
  cases hserved with
  | same hgrants hincrements =>
    rw [hgrants, hincrements]
    exact ⟨row, h, .same⟩
  | added new hgrants hincrements hfresh hstatus hattempts =>
    rw [hgrants, hincrements]
    exact ⟨row, lookup_append_of_some h _, .same⟩
  | updated cond f id' granted counted hf hturn hid hgrants hincrements =>
    refine ⟨_, find_updateErrorRows hf h, ?_⟩
    have hflag : ∀ flag : Bool, (flag = true → granted = true ∨ counted = true) →
        (flag && (decide (id' = id) && decide (0 < (updateErrorRows cond f rows).1))) =
          (flag && cond row) := by
      intro flag hflag
      cases flag with
      | false => rfl
      | true => rw [affected_eq hunique (hid (hflag rfl)) h]
    rw [hgrants, hincrements, hflag granted .inl, hflag counted .inr]
    cases hrow : cond row with
    | false =>
      rw [Bool.and_false, Bool.and_false, if_neg Bool.false_ne_true]
      exact .same
    | true =>
      rw [Bool.and_true, Bool.and_true, if_pos rfl]
      exact hturn row hrow

theorem unique_step (hunique : (rows.map ErrorRow.id).Nodup) (a : ErrorRowAction) :
    ((errorRowStep validJSON rows a).map ErrorRow.id).Nodup := by
  have hserved := served_step validJSON rows a
  generalize errorRowStep validJSON rows a = rows' at hserved ⊢
  cases hserved with
  | same hgrants hincrements => exact hunique
  | added row hgrants hincrements hfresh hstatus hattempts =>
    rw [map_append, map_singleton]
    refine nodup_append.mpr ⟨hunique, nodup_singleton _, ?_⟩
    intro id hid id' hid'
    obtain ⟨r, hr, rfl⟩ := mem_map.mp hid
    rw [mem_singleton.mp hid']
    exact hfresh r hr
  | updated cond f id' granted counted hf hturn hid hgrants hincrements =>
    have hids : ∀ row ∈ rows,
        (ErrorRow.id ∘ fun row => if cond row then f row else row) row = row.id := by
      intro row _
      dsimp only [Function.comp_apply]
      split
      · exact hf row
      · rfl
    unfold updateErrorRows
    rw [map_map, map_congr_left hids]
    exact hunique

theorem find_fresh (h : findErrorRow id rows = none) {a : ErrorRowAction}
    (hrow : findErrorRow id (errorRowStep validJSON rows a) = some row) :
    row.status = .pending ∧ row.attempts = 0 := by
  have hserved := served_step validJSON rows a
  generalize errorRowStep validJSON rows a = rows' at hserved hrow
  cases hserved with
  | same hgrants hincrements => exact absurd (h.symm.trans hrow) nofun
  | added new hgrants hincrements hfresh hstatus hattempts =>
    rw [findErrorRow, lookup_append_of_none h] at hrow
    rw [mem_singleton.mp (mem_of_lookup hrow)]
    exact ⟨hstatus, hattempts⟩
  | updated cond f id' granted counted hf hturn hid hgrants hincrements =>
    have hkeeps : ∀ row, (if cond row then f row else row).id = row.id := by
      intro row
      split
      · exact hf row
      · rfl
    unfold findErrorRow at h
    unfold findErrorRow updateErrorRows at hrow
    rw [lookup_map hkeeps, h] at hrow
    cases hrow

theorem absent_step (h : findErrorRow id rows = none) (a : ErrorRowAction) :
    grants validJSON id rows a = false ∧ increments validJSON id rows a = false := by
  have hserved := served_step validJSON rows a
  generalize errorRowStep validJSON rows a = rows' at hserved
  cases hserved with
  | same hgrants hincrements => exact ⟨hgrants id, hincrements id⟩
  | added new hgrants hincrements hfresh hstatus hattempts => exact ⟨hgrants id, hincrements id⟩
  | updated cond f id' granted counted hf hturn hid hgrants hincrements =>
    have hflag : ∀ flag : Bool, (flag = true → granted = true ∨ counted = true) →
        (flag && (decide (id' = id) && decide (0 < (updateErrorRows cond f rows).1))) = false := by
      intro flag hflag
      by_cases hsame : id' = id
      · cases flag with
        | false => rfl
        | true =>
          rw [affected_absent (fun row hrow => (hid (hflag rfl) row hrow).trans hsame) h]
          simp
      · rw [decide_eq_false hsame, Bool.false_and, Bool.and_false]
    exact ⟨(hgrants id).trans (hflag granted .inl), (hincrements id).trans (hflag counted .inr)⟩

end served

/-! ### Laws of a run -/

variable {counted granted : Bool} {row' : ErrorRow}

/-- What a statement makes of the claim and of the attempts of a row. -/
theorem Turn.balance {row : ErrorRow} (h : Turn owner row granted counted row') :
    row'.attempts = row.attempts + (if row.status = .retrying ∧
        (granted = true ∨ row'.status ≠ .retrying) then 1 else 0) + (if counted then 1 else 0) ∧
      (granted = true → row'.status = .retrying ∧ row'.retryOwner = owner) ∧
      (granted = false → row'.status = .retrying →
        row.status = .retrying ∧ row'.retryOwner = row.retryOwner) := by
  cases h with
  | same => simp
  | claimed leaseExpiresAt now h =>
    unfold claimedErrorRow
    cases h with
    | inl h => simp [h]
    | inr h => simp [h]
  | renewed leaseExpiresAt now h => simp [h]
  | ended status now h hstatus =>
    unfold endedErrorRow
    cases hstatus with
    | inl hstatus => simp [h, hstatus]
    | inr hstatus => simp [h, hstatus]
  | settled status increment now h hstatus =>
    cases hstatus with
    | inl hstatus => simp [h, hstatus]
    | inr hstatus => simp [h, hstatus]
  | counted now h => simp [h]

theorem Turn.attempts_le {row : ErrorRow} (h : Turn owner row granted counted row') :
    row.attempts ≤ row'.attempts ∧ row'.attempts ≤ row.attempts + 1 := by
  cases h with
  | same => omega
  | claimed leaseExpiresAt now h =>
    show row.attempts ≤ row.attempts + _ ∧ row.attempts + _ ≤ _
    split <;> omega
  | renewed leaseExpiresAt now h =>
    show row.attempts ≤ row.attempts ∧ row.attempts ≤ row.attempts + 1
    omega
  | ended status now h hstatus =>
    show row.attempts ≤ row.attempts + 1 ∧ row.attempts + 1 ≤ row.attempts + 1
    omega
  | settled status increment now h hstatus =>
    show row.attempts ≤ row.attempts + _ ∧ row.attempts + _ ≤ _
    split <;> omega
  | counted now h =>
    show row.attempts ≤ row.attempts + 1 ∧ row.attempts + 1 ≤ row.attempts + 1
    omega

theorem Turn.settled_same {row : ErrorRow} (h : Turn owner row granted counted row')
    (hsettled : row.status = .resolved ∨ row.status = .discarded) : row' = row := by
  cases h with
  | same => rfl
  | claimed leaseExpiresAt now h => grind
  | renewed leaseExpiresAt now h => grind
  | ended status now h hstatus => grind
  | settled status increment now h hstatus => grind
  | counted now h => grind

theorem unique_run (actions : List ErrorRowAction) :
    ((Machine.run (errorRowStep validJSON) [] actions).map ErrorRow.id).Nodup :=
  Machine.run_preserves (P := fun rows : ErrorRows => (rows.map ErrorRow.id).Nodup)
    (fun _ a h => unique_step h a) nodup_nil

theorem retrying_of_find (h : findErrorRow id rows = some row) :
    retrying id rows = decide (row.status = .retrying) := by
  unfold retrying
  rw [h, Option.any_some]

theorem not_retrying_absent (h : findErrorRow id rows = none) : retrying id rows = false := by
  unfold retrying
  rw [h, Option.any_none]

theorem live_step (hunique : (rows.map ErrorRow.id).Nodup) (a : ErrorRowAction) :
    (if retrying id (errorRowStep validJSON rows a) then 1 else 0) +
        (if ends validJSON id rows a then 1 else 0) =
      (if retrying id rows then 1 else 0) + (if grants validJSON id rows a then 1 else 0) := by
  unfold ends
  cases h : findErrorRow id rows with
  | none =>
    have hstays : retrying id (errorRowStep validJSON rows a) = false := by
      cases hnew : findErrorRow id (errorRowStep validJSON rows a) with
      | none => exact not_retrying_absent hnew
      | some row =>
        rw [retrying_of_find hnew, (find_fresh h hnew).1]
        rfl
    rw [hstays, (absent_step h a).1, not_retrying_absent h]
    rfl
  | some row =>
    obtain ⟨row', hrow', hturn⟩ := turn_of_step validJSON hunique h a
    obtain ⟨_, hgranted, hkept⟩ := hturn.balance
    rw [retrying_of_find h, retrying_of_find hrow']
    cases hg : grants validJSON id rows a with
    | true =>
      rw [(hgranted hg).1]
      cases row.status <;> rfl
    | false =>
      by_cases hlive : row'.status = .retrying
      · rw [(hkept hg hlive).1, hlive]
        rfl
      · simp only [hlive]
        cases row.status <;> rfl

/-- The attempts of a row, none before it comes to be. -/
def attemptsOf (id : Text) (rows : ErrorRows) : ℤ :=
  (findErrorRow id rows).elim 0 ErrorRow.attempts

variable (validJSON) in
theorem attempts_step (hunique : (rows.map ErrorRow.id).Nodup) (a : ErrorRowAction) :
    attemptsOf id (errorRowStep validJSON rows a) = attemptsOf id rows +
      (if ends validJSON id rows a then 1 else 0) +
      (if increments validJSON id rows a then 1 else 0) := by
  unfold attemptsOf ends
  cases h : findErrorRow id rows with
  | none =>
    rw [(absent_step h a).2, not_retrying_absent h]
    cases hnew : findErrorRow id (errorRowStep validJSON rows a) with
    | none => rfl
    | some row => exact (find_fresh h hnew).2
  | some row =>
    obtain ⟨row', hrow', hturn⟩ := turn_of_step validJSON hunique h a
    rw [hrow', retrying_of_find h, retrying_of_find hrow']
    simp only [Option.elim_some]
    rw [hturn.balance.1]
    congr 2
    simp

variable (validJSON) in
/-- The attempts after a run; induction on the run. -/
theorem attempts_run : ∀ {rows : ErrorRows} (actions : List ErrorRowAction),
    (rows.map ErrorRow.id).Nodup →
      attemptsOf id (Machine.run (errorRowStep validJSON) rows actions) = attemptsOf id rows +
        Machine.count (errorRowStep validJSON) (ends validJSON id) rows actions +
        Machine.count (errorRowStep validJSON) (increments validJSON id) rows actions
  | _, [], _ => by simp [Machine.count]
  | rows, a :: actions, hunique => by
    have hunique' : ((errorRowStep validJSON rows a).map ErrorRow.id).Nodup :=
      unique_step hunique a
    have hrest := attempts_run actions hunique'
    rw [Machine.run_cons, hrest, attempts_step validJSON hunique a, Machine.count, Machine.count]
    cases ends validJSON id rows a <;> cases increments validJSON id rows a <;> simp <;> omega

variable (validJSON) in
/-- A claim that does not end stays as it is; induction on the run. -/
theorem claim_kept : ∀ {rows : ErrorRows} {row : ErrorRow} (actions : List ErrorRowAction),
    (rows.map ErrorRow.id).Nodup → findErrorRow id rows = some row → row.status = .retrying →
      Machine.count (errorRowStep validJSON) (ends validJSON id) rows actions = 0 →
      ∃ row', findErrorRow id (Machine.run (errorRowStep validJSON) rows actions) = some row' ∧
        row'.status = .retrying ∧ row'.retryOwner = row.retryOwner
  | _, row, [], _, h, hlive, _ => ⟨row, h, hlive, rfl⟩
  | rows, row, a :: actions, hunique, h, hlive, hcount => by
    obtain ⟨row', hrow', hturn⟩ := turn_of_step validJSON hunique h a
    obtain ⟨_, _, hkept⟩ := hturn.balance
    rw [Machine.count] at hcount
    have hends : ends validJSON id rows a = false := by
      cases hends : ends validJSON id rows a with
      | false => rfl
      | true =>
        rw [hends, if_pos rfl] at hcount
        omega
    unfold ends at hends
    rw [retrying_of_find h, retrying_of_find hrow', hlive, decide_eq_true rfl, Bool.true_and,
      Bool.or_eq_false_iff, Bool.not_eq_false', decide_eq_true_eq] at hends
    have hsame := hkept hends.1 hends.2
    obtain ⟨last, hlast, hstatus, howner⟩ :=
      claim_kept actions (unique_step hunique a) hrow' hends.2 (by omega)
    exact ⟨last, hlast, hstatus, howner.trans hsame.2⟩

variable {actions : List ErrorRowAction}

/-- **The row tells the live claim**: a claim is live exactly when the row is retried by its
owner; induction on the statements from the last one. -/
theorem liveClaim_of_retrying
    (h : findErrorRow id (Machine.run (errorRowStep validJSON) [] actions) = some row)
    (hlive : row.status = .retrying) : LiveClaim validJSON id row.retryOwner actions := by
  induction actions using List.reverseRecOn generalizing row with
  | nil => cases h
  | append_singleton actions a ih =>
    rw [Machine.run_append, Machine.run_cons, Machine.run_nil] at h
    cases hbefore : findErrorRow id (Machine.run (errorRowStep validJSON) [] actions) with
    | none =>
      have hfresh := (find_fresh hbefore h).1
      rw [hlive] at hfresh
      cases hfresh
    | some earlier =>
      obtain ⟨row', hrow', hturn⟩ := turn_of_step validJSON (unique_run actions)
        hbefore a
      rw [h] at hrow'
      cases hrow'
      obtain ⟨_, hgranted, hkept⟩ := hturn.balance
      cases hg : grants validJSON id (Machine.run (errorRowStep validJSON) [] actions) a with
      | true => exact ⟨actions, a, [], rfl, (hgranted hg).2.symm, hg, rfl⟩
      | false =>
        obtain ⟨hstatus, howner⟩ := hkept hg hlive
        obtain ⟨before, granting, after, hsplit, hdrawn, hgrant, hcount⟩ := ih hbefore hstatus
        refine ⟨before, granting, after ++ [a], ?_, hdrawn.trans howner.symm, hgrant, ?_⟩
        · rw [hsplit, append_assoc, cons_append]
        · rw [Machine.count_append, hcount, ← Machine.run_append, append_assoc,
            singleton_append, ← hsplit]
          have hends : ends validJSON id (Machine.run (errorRowStep validJSON) [] actions) a =
              false := by
            unfold ends
            rw [hg, retrying_of_find h, hlive]
            simp
          rw [Machine.count, hends]
          rfl

theorem retrying_of_liveClaim (h : LiveClaim validJSON id owner actions) :
    ∃ row, findErrorRow id (Machine.run (errorRowStep validJSON) [] actions) = some row ∧
      row.status = .retrying ∧ row.retryOwner = owner := by
  obtain ⟨before, a, after, hsplit, hdrawn, hgrant, hcount⟩ := h
  cases hbefore : findErrorRow id (Machine.run (errorRowStep validJSON) [] before) with
  | none =>
    rw [(absent_step hbefore _).1] at hgrant
    cases hgrant
  | some earlier =>
    obtain ⟨row, hrow, hturn⟩ := turn_of_step validJSON (unique_run before)
      hbefore a
    have hgranted := hturn.balance.2.1 hgrant
    rw [Machine.run_append] at hcount
    obtain ⟨last, hlast, hstatus, howner⟩ :=
      claim_kept validJSON after (unique_step (unique_run before) a) hrow hgranted.1 hcount
    refine ⟨last, ?_, hstatus, howner.trans (hgranted.2.trans hdrawn)⟩
    rw [hsplit, Machine.run_append]
    exact hlast

/-- A row that is settled stays as it is throughout; induction on the run. -/
theorem settled_run : ∀ {rows : ErrorRows} (actions : List ErrorRowAction),
    (rows.map ErrorRow.id).Nodup → findErrorRow id rows = some row →
      row.status = .resolved ∨ row.status = .discarded →
      findErrorRow id (Machine.run (errorRowStep validJSON) rows actions) = some row
  | _, [], _, h, _ => h
  | rows, a :: actions, hunique, h, hsettled => by
    obtain ⟨row', hrow', hturn⟩ := turn_of_step validJSON hunique h a
    rw [hturn.settled_same hsettled] at hrow'
    exact settled_run actions (unique_step hunique a) hrow' hsettled

/-- A finish that changes something meets a row that its owner retries. -/
theorem finish_takes_effect {world : World}
    (h : errorRowStep validJSON rows ⟨.finish id' owner status nowMillis, world⟩ ≠ rows) :
    ∃ row ∈ rows, row.id = trimSpace id' ∧ row.status = .retrying ∧
      row.retryOwner = trimSpace owner := by
  cases attempt_cases (world.fails.map Err.other)
      (errorRowOperation validJSON world (.finish id' owner status nowMillis)) rows with
  | inl hsame => exact absurd hsame h
  | inr hok =>
    obtain ⟨result, _, hop⟩ := hok
    obtain hop : finishErrorRow world id' owner status nowMillis rows = .ok (result,
      errorRowStep validJSON rows ⟨.finish id' owner status nowMillis, world⟩) := hop
    generalize errorRowStep validJSON rows ⟨.finish id' owner status nowMillis, world⟩ = rows'
      at h hop
    unfold finishErrorRow at hop
    dsimp only at hop
    split_ifs at hop
    simp only [Except.ok.injEq, Prod.mk.injEq] at hop
    by_contra hnone
    refine h (hop.2.symm.trans ?_)
    unfold updateErrorRows
    refine (map_congr_left fun row hrow => ?_).trans (map_id rows)
    apply if_neg
    intro hmet
    unfold retriedBy at hmet
    rw [decide_eq_true_eq] at hmet
    exact hnone ⟨row, hrow, hmet⟩

/-- **The retries of error rows.**  After any sequence of statements a row has one live claim at
most, the one that it names; a claim that is granted is live until it ends; every end and every
explicit increment counts one attempt, and nothing takes an attempt back; a row that is resolved
or discarded stays as it is; and a finish takes effect only for the owner of the live claim. -/
theorem error_row_retries (validJSON : Text → Bool) (actions : List ErrorRowAction) (id : Text) :
    let step := errorRowStep validJSON
    let rows := Machine.run step [] actions
    let granted := Machine.count step (grants validJSON id) [] actions
    let ended := Machine.count step (ends validJSON id) [] actions
    let incremented := Machine.count step (increments validJSON id) [] actions
    granted ≤ ended + 1 ∧
    (∀ row ∈ rows, row.id = id →
      granted = ended + (if row.status = .retrying then 1 else 0) ∧
      (∀ owner, LiveClaim validJSON id owner actions ↔
        row.status = .retrying ∧ row.retryOwner = owner) ∧
      row.attempts = ended + incremented ∧
      (∀ a, ∃ row' ∈ step rows a, row'.id = id ∧ row.attempts ≤ row'.attempts ∧
        row'.attempts ≤ row.attempts + 1) ∧
      (row.status = .resolved ∨ row.status = .discarded →
        ∀ more, row ∈ Machine.run step rows more)) ∧
    ∀ id' owner status nowMillis world,
      step rows ⟨.finish id' owner status nowMillis, world⟩ ≠ rows →
        LiveClaim validJSON (trimSpace id') (trimSpace owner) actions := by
  intro step rows granted ended incremented
  have hunique : (rows.map ErrorRow.id).Nodup := unique_run actions
  have hbalance : (if retrying id rows then 1 else 0) + ended = 0 + granted :=
    Machine.count_balance (P := fun rows : ErrorRows => (rows.map ErrorRow.id).Nodup)
      (f := fun rows => if retrying id rows then 1 else 0) (fun _ a h => unique_step h a)
      (fun _ a h => live_step h a) nodup_nil
  have hfind : ∀ row ∈ rows, findErrorRow row.id rows = some row := by
    intro row hrow
    cases hfound : findErrorRow row.id rows with
    | none => exact absurd rfl (lookup_eq_none.mp hfound row hrow)
    | some found => rw [eq_of_lookup hunique hfound hrow rfl]
  refine ⟨?_, ?_, ?_⟩
  · split at hbalance <;> omega
  · intro row hrow hid
    have hfound : findErrorRow id rows = some row := hid ▸ hfind row hrow
    refine ⟨?_, ?_, ?_, ?_, ?_⟩
    · rw [retrying_of_find hfound] at hbalance
      simp only [decide_eq_true_eq] at hbalance
      omega
    · intro owner
      constructor
      · intro hclaim
        obtain ⟨row', hrow', hlive, howner⟩ := retrying_of_liveClaim hclaim
        have hsame : some row' = some row := hrow'.symm.trans hfound
        cases hsame
        exact ⟨hlive, howner⟩
      · intro hlive
        rw [← hlive.2]
        exact liveClaim_of_retrying hfound hlive.1
    · have hattempts : attemptsOf id rows = attemptsOf id [] + ended + incremented :=
        attempts_run validJSON actions nodup_nil
      have hnow : attemptsOf id rows = row.attempts := by
        unfold attemptsOf
        rw [hfound, Option.elim_some]
      rw [← hnow]
      exact hattempts.trans (by rw [show attemptsOf id [] = 0 from rfl, zero_add])
    · intro a
      obtain ⟨row', hrow', hturn⟩ := turn_of_step validJSON hunique hfound a
      exact ⟨row', mem_of_lookup hrow', lookup_key hrow', hturn.attempts_le⟩
    · intro hsettled more
      exact mem_of_lookup (settled_run more hunique hfound hsettled)
  · intro id' owner status nowMillis world heffect
    obtain ⟨row, hrow, hid, hlive, howner⟩ := finish_takes_effect heffect
    rw [← howner]
    exact liveClaim_of_retrying (hid ▸ hfind row hrow) hlive

/-- The workers run methods side by side: whatever they do is a sequence of statements. -/
theorem workers_run {κ : Type} (methodOf : κ → ErrorRowMethod Unit)
    (moves : List (Callers.Move κ World)) :
    (Machine.run (Callers.step (serveErrorRow validJSON) methodOf) ⟨[], []⟩ moves).state =
      Machine.run (errorRowStep validJSON) []
        (Callers.served (serveErrorRow validJSON) methodOf ⟨[], []⟩ moves) :=
  Callers.state_run (serveErrorRow validJSON) methodOf ⟨[], []⟩ moves

end laws

end GoNavi.Syncjob
