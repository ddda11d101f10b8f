import GoNavi.Harness.Ledger

/-! # Token reservations and model turns

The transactions of `token_budget.go` and `model_atomic.go`.  The counters of a run are machine
integers, so a sum that leaves their range wraps around; `exceedsTokenBudget` looks at the
range only if the run has a budget. -/

namespace GoNavi.Harness

open Scan

/-- The zero usage of a request that leaves the usage out. -/
def Usage.zero : Usage := ⟨0, 0, 0, none⟩

/-- `normalizeUsage`; `none` is a usage that is refused. -/
def normalizeUsage (usage : Usage) : Option Usage :=
  if usage.promptTokens < 0 ∨ usage.completionTokens < 0 ∨ usage.totalTokens < 0 then none
  else if usage.cachedTokens.any (· < 0) then none
  else if usage.promptTokens > Int64.maxValue - usage.completionTokens then none
  else
    let minimum := usage.promptTokens + usage.completionTokens
    let total := if usage.totalTokens = 0 then minimum else usage.totalTokens
    if total < minimum then none else some { usage with totalTokens := total }

/-- `exceedsTokenBudget`: the total after the operation with the reservations still held. -/
def exceedsTokenBudget (run : Run) (reservedDelta usageDelta : Int64) : Bool :=
  if run.maxTotalTokens ≤ 0 then false
  else if reservedDelta > 0 ∧ run.reservedTokens > Int64.maxValue - reservedDelta then true
  else if run.reservedTokens + reservedDelta < 0 then true
  else if usageDelta > 0 ∧ run.totalTokens > Int64.maxValue - usageDelta then true
  else if run.totalTokens + usageDelta < 0 ∨
      run.totalTokens + usageDelta > run.maxTotalTokens then true
  else run.reservedTokens + reservedDelta > run.maxTotalTokens - (run.totalTokens + usageDelta)

/-- A reservation row once its usage is known. -/
def Reservation.reconcile (r : Reservation) (usage : Usage) : Reservation :=
  { r with promptTokens := usage.promptTokens
           completionTokens := usage.completionTokens
           totalTokens := usage.totalTokens
           status := .reconciled }

namespace RunLedger

/-! ### Reservations -/

def reservation? (l : RunLedger) (id : ℕ) : Option Reservation :=
  Table.lookup Reservation.id id l.reservations

/-- Change the reservations with an id. -/
def updateReservation (l : RunLedger) (id : ℕ) (f : Reservation → Reservation) : RunLedger :=
  { l with reservations := Table.update Reservation.id id f l.reservations }

/-- Release a held amount and count a usage. -/
def settleTokens (l : RunLedger) (held : Int64) (usage : Usage) : RunLedger :=
  { l with run := { l.run with
                    reservedTokens := l.run.reservedTokens - held
                    promptTokens := l.run.promptTokens + usage.promptTokens
                    completionTokens := l.run.completionTokens + usage.completionTokens
                    totalTokens := l.run.totalTokens + usage.totalTokens } }

/-- `ReserveTokens`.  The id is an idempotency key: a request that is repeated changes
nothing. -/
def reserveTokens (l : RunLedger) (now token expectedRevision id : ℕ) (tokens : Int64)
    (elsewhere : Bool) : Except Err RunLedger :=
  if tokens < 0 then .error .invalidRequest
  else if elsewhere then .error .tokenReservation
  else
    match l.reservation? id with
    | some r =>
      if tokens > 0 ∧ r.reservedTokens ≠ tokens then .error .tokenReservation else .ok l
    | none =>
      match l.guard now token expectedRevision with
      | .error e => .error e
      | .ok () =>
        if exceedsTokenBudget l.run tokens 0 then .error .tokenBudgetExceeded
        else
          .ok { l with
            run := { l.run with
                     reservedTokens := l.run.reservedTokens + tokens
                     revision := l.run.revision + 1 }
            reservations := l.reservations ++ [⟨id, tokens, 0, 0, 0, .reserved, 0⟩] }

/-- `ReconcileTokens`: replace a reservation by the usage of the provider. -/
def reconcileTokens (l : RunLedger) (now token expectedRevision id : ℕ) (usage : Usage) :
    Except Err RunLedger :=
  match normalizeUsage usage with
  | none => .error .invalidRequest
  | some usage =>
    match l.reservation? id with
    | none => .error .tokenReservation
    | some r =>
      if r.status ≠ .reserved then .ok l
      else
        match l.guard now token expectedRevision with
        | .error e => .error e
        | .ok () =>
          if exceedsTokenBudget l.run (-r.reservedTokens) usage.totalTokens then
            .error .tokenBudgetExceeded
          else
            .ok ((l.settleTokens r.reservedTokens usage).updateReservation id
              (·.reconcile usage)).touch

/-! ### Model turns -/

end RunLedger

structure CommitModelTurnRequest where
  ownerToken : ℕ
  expectedRevision : ℕ
  resultingState : Option RunState
  /-- `0` for a turn without a reservation. -/
  reservationID : ℕ
  usage : Usage
  calls : List ℕ
  completedUsage : Usage
  /-- The call ids and the content of the assistant message, if there is one. -/
  assistantMessage : Option (List ℕ × Text)
  workspace : Option WorkspaceRef
deriving DecidableEq

/-- The usage of the turn: that of the request if it says anything. -/
def CommitModelTurnRequest.usageInput (r : CommitModelTurnRequest) : Usage :=
  if r.usage = Usage.zero then r.completedUsage else r.usage

def CommitModelTurnRequest.target (r : CommitModelTurnRequest) : RunState :=
  r.resultingState.getD .runningModel

/-- The usage event is left out if there is nothing to report. -/
def Usage.reported (usage : Usage) : Bool := usage.totalTokens > 0 || usage.cachedTokens.isSome

/-- The events of a committed turn. -/
def CommitModelTurnRequest.events (r : CommitModelTurnRequest) (sequence : ℕ) (usage : Usage) :
    List (EventKind × RunState × Payload) :=
  (.modelCompleted, r.target, .modelCompleted r.calls usage) ::
    ((if usage.reported then [(.usage, r.target, .usage usage)] else []) ++
      [(.checkpoint, r.target, .checkpoint sequence)])

/-- The sequence of the checkpoint event of a turn that starts at a sequence. -/
def Usage.checkpointSequence (usage : Usage) (sequence : ℕ) : ℕ :=
  if usage.reported then sequence + 2 else sequence + 1

/-- The assistant message of the turn. -/
def CommitModelTurnRequest.message (r : CommitModelTurnRequest) : List Message :=
  match r.assistantMessage with
  | none => []
  | some (calls, content) => [⟨.assistant, 0, calls, content⟩]

namespace RunLedger

/-- The counters after a turn.  A reservation that was reconciled on its own is counted
already. -/
def countTurn (l : RunLedger) (reservation : Option Reservation) (usage : Usage) : RunLedger :=
  match reservation with
  | none => l.settleTokens 0 usage
  | some r => if r.status = .reserved then l.settleTokens r.reservedTokens usage else l

/-- Mark the reservation of a turn as committed at a sequence. -/
def markCommitted (l : RunLedger) (reservation : Option Reservation) (sequence : ℕ)
    (usage : Usage) : RunLedger :=
  match reservation with
  | none => l
  | some r => l.updateReservation r.id fun row =>
      { (if row.status = .reserved then row.reconcile usage else row) with
        committedSequence := sequence }

theorem countTurn_reservations (l : RunLedger) (reservation : Option Reservation) (usage : Usage) :
    (l.countTurn reservation usage).reservations = l.reservations := by
  rcases reservation with _ | r
  · rfl
  · rw [countTurn]
    split <;> rfl

/-- The tests of the counters in front of the write of a turn. -/
def turnExceeds (l : RunLedger) (reservation : Option Reservation) (usage : Usage) : Bool :=
  let run := (l.countTurn reservation usage).run
  (match reservation with
    | none => false
    | some r => r.status = .reserved &&
        exceedsTokenBudget l.run (-r.reservedTokens) usage.totalTokens) ||
  (run.reservedTokens < 0 || run.promptTokens < 0 || run.completionTokens < 0 ||
    run.totalTokens < 0) ||
  (l.run.maxTotalTokens > 0 && run.totalTokens + run.reservedTokens > l.run.maxTotalTokens)

/-- The rows of a turn that passed all checks. -/
def putTurn (l : RunLedger) (checkpointID : ℕ) (r : CommitModelTurnRequest)
    (reservation : Option Reservation) (usage : Usage) : RunLedger :=
  let sequence := usage.checkpointSequence l.run.nextSequence
  let l' := ((l.countTurn reservation usage).markCommitted reservation l.run.nextSequence
    usage).putCheckpoint ⟨checkpointID, sequence, r.target, r.workspace.or l.previousWorkspace⟩
  { l' with messages := l'.messages ++ r.message }.commit r.target l.run.attempt
    (r.events sequence usage)

/-- `CommitModelTurn` of a turn whose reservation is looked up. -/
def commitTurn (l : RunLedger) (now checkpointID : ℕ) (r : CommitModelTurnRequest)
    (reservation : Option Reservation) : Except Err RunLedger :=
  match normalizeUsage r.usageInput with
  | none => .error .invalidRequest
  | some usage =>
    if r.target.terminal then .error .invalidRequest
    else if l.run.state.terminal then .error .terminalRun
    else if l.verifyOwner now r.ownerToken = false then .error .leaseLost
    else if l.reaches r.target = false then .error .invalidTransition
    else if reservation.isNone ∧ exceedsTokenBudget l.run 0 usage.totalTokens then
      .error .tokenBudgetExceeded
    else if 0 < r.expectedRevision ∧ r.expectedRevision ≠ l.run.revision then
      .error .revisionConflict
    else if l.turnExceeds reservation usage then .error .tokenBudgetExceeded
    else .ok (l.putTurn checkpointID r reservation usage)

/-- `CommitModelTurn`.  A reservation that carries a committed sequence marks a turn that is
written already: no check is made and nothing is written. -/
def commitModelTurn (l : RunLedger) (now checkpointID : ℕ) (r : CommitModelTurnRequest) :
    Except Err RunLedger :=
  if r.reservationID = 0 then l.commitTurn now checkpointID r none
  else
    match l.reservation? r.reservationID with
    | none => .error .tokenReservation
    | some reservation =>
      if reservation.status ≠ .reserved ∧ 0 < reservation.committedSequence then .ok l
      else l.commitTurn now checkpointID r (some reservation)

end RunLedger

end GoNavi.Harness
