import GoNavi.Machine.Stoppable
import GoNavi.Scan.Runes
import GoNavi.Sync.Batches

/-! # Deliveries of change events

`applyLocked` prepares the events of a delivery one after the other and hands them to the target in
batches of one table.  A batch that fails is halved, under the policy `skip_row`, until an event
that fails on its own is skipped.  How events are prepared, and what the target makes of a batch, is
left open; a batch that fails leaves the target as it was. -/

namespace GoNavi.Sync

open Scan Stoppable

/-! ### Events -/

inductive RowErrorPolicy where
  | stop
  | skipRow
  deriving DecidableEq

/-- An event; the rows it carries are opaque. -/
structure DataChangeEvent (α : Type) where
  id : Text
  schema : Text
  name : Text
  operation : Text
  key : α
  after : α

structure ChangeEventRowError (α : Type) where
  index : ℕ
  eventID : Text
  sourceTable : Text
  operation : Text
  code : Text
  message : Text
  sourceKey : Option α
  row : Option α

structure ChangeEventResult (α : Type) where
  success : Bool := false
  cancelled : Bool := false
  outcomeUnknown : Bool := false
  message : Text := []
  eventsReceived : ℕ
  eventsApplied : ℕ := 0
  eventsSkipped : ℕ := 0
  rows : AppliedChangeCounts := ⟨0, 0, 0⟩
  batchesApplied : ℕ := 0
  rowErrors : List (ChangeEventRowError α) := []

/-- An event that belongs to the table `runtime`, and the change it asks for. -/
structure PreparedEvent (α ρ π : Type) where
  index : ℕ
  event : DataChangeEvent α
  runtime : ρ
  change : π

/-- What the target makes of a batch; a write may end without telling whether it was made. -/
inductive BatchOutcome (σ : Type) where
  | applied (counts : AppliedChangeCounts) (target : σ)
  | failed (err : Text)
  | unknown (err : Text) (target : σ)

/-- What becomes of the events of a delivery. -/
inductive EventPiece (α ρ π : Type) where
  | applied (events : List (PreparedEvent α ρ π))
  | rejected (event : PreparedEvent α ρ π)
  | invalid (event : DataChangeEvent α) (index : ℕ)

/-- The context and the session at each of their checks, and what lies outside the session. -/
structure EventWorld (σ α ρ π : Type) where
  unicode : UnicodeTables
  quote : Text → Text
  contextError : ℕ → Option Text
  sessionError : ℕ → Option Text
  prepareChangeEvent : ℕ → DataChangeEvent α → Option (ρ × π)
  applyPreparedChangeEventBatch : ρ → List (PreparedEvent α ρ π) → σ → BatchOutcome σ
  /-- The callback, and whether it fails. -/
  onRowError : Option (ChangeEventRowError α → Bool)

/-- The target, the result so far and the number of checks; `pieces` tells what has been done. -/
structure Delivery (σ α ρ π : Type) where
  target : σ
  result : ChangeEventResult α
  checks : ℕ := 0
  pieces : List (EventPiece α ρ π) := []

/-! ### Row errors -/

def syncObjectRefIdentifier (schema name : Text) : Text :=
  if trimSpace name = [] then []
  else if trimSpace schema = [] then trimSpace name
  else trimSpace schema ++ bytes "." ++ trimSpace name

section row

variable {α : Type}

def newChangeEventRowError (unicode : UnicodeTables) (index : ℕ) (event : DataChangeEvent α)
    (code message : Text) : ChangeEventRowError α where
  index
  eventID := event.id
  sourceTable := syncObjectRefIdentifier event.schema event.name
  operation := lower unicode (trimSpace event.operation)
  code
  message
  sourceKey := some event.key
  row := some event.after

def publicChangeEventRowError (rowError : ChangeEventRowError α) : ChangeEventRowError α :=
  { rowError with sourceKey := none, row := none }

def ChangeEventResult.report (result : ChangeEventResult α) (rowError : ChangeEventRowError α) :
    ChangeEventResult α :=
  { result with rowErrors := result.rowErrors ++ [publicChangeEventRowError rowError] }

end row

def normalizeRowErrorPolicy (unicode : UnicodeTables) (quote : Text → Text) (policy : Text) :
    Except Text RowErrorPolicy :=
  let normalized := lower unicode (trimSpace policy)
  if normalized = [] ∨ normalized = bytes "stop" then .ok .stop
  else if normalized = bytes "skip_row" then .ok .skipRow
  else .error (bytes "不支持的行错误策略 " ++ quote policy)

section delivery

variable {σ α ρ π : Type} (env : EventWorld σ α ρ π)

/-! ### Batches -/

/-- `ctx.Err()` -/
def EventWorld.check (s : Delivery σ α ρ π) : Delivery σ α ρ π × Option Text :=
  ({ s with checks := s.checks + 1 }, env.contextError s.checks)

def EventWorld.reportChangeEventRowError (rowError : ChangeEventRowError α)
    (s : Delivery σ α ρ π) : Delivery σ α ρ π × Option Text :=
  let failed := some (bytes "行错误回调失败")
  match env.onRowError with
  | none => (s, none)
  | some callback =>
    match env.check s with
    | (s, some _) => (s, failed)
    | (s, none) => (s, if callback rowError then failed else none)

/-- `result.EventsSkipped++`, with the row error. -/
def Delivery.skip (piece : EventPiece α ρ π) (rowError : ChangeEventRowError α)
    (s : Delivery σ α ρ π) : Delivery σ α ρ π :=
  { s with
    result := { s.result.report rowError with eventsSkipped := s.result.eventsSkipped + 1 }
    pieces := s.pieces ++ [piece] }

/-- A batch that has been applied. -/
def Delivery.commit (events : List (PreparedEvent α ρ π)) (counts : AppliedChangeCounts)
    (target : σ) (s : Delivery σ α ρ π) : Delivery σ α ρ π :=
  { s with
    target
    result := { s.result with
      eventsApplied := s.result.eventsApplied + events.length
      rows := ⟨s.result.rows.inserts + counts.inserts, s.result.rows.updates + counts.updates,
        s.result.rows.deletes + counts.deletes⟩
      batchesApplied := s.result.batchesApplied + if 0 < counts.total then 1 else 0 }
    pieces := s.pieces ++ [.applied events] }

/-- A batch that has failed ends the delivery under the policy `stop`; one event that has failed on
its own is skipped. -/
def EventWorld.applyChangeEventBatchWithPolicy (runtime : ρ) (policy : RowErrorPolicy)
    (events : List (PreparedEvent α ρ π)) (s : Delivery σ α ρ π) :
    Delivery σ α ρ π × Option Text :=
  andThen (env.check s) fun s =>
    match env.applyPreparedChangeEventBatch runtime events s.target with
    | .applied counts target => (s.commit events counts target, none)
    | .unknown err target =>
      ({ s with target, result := { s.result with outcomeUnknown := true } }, some err)
    | .failed _ =>
      andThen (env.check s) fun s =>
        match policy, events with
        | _, [] => (s, none)
        | .stop, first :: _ =>
          let message := bytes "目标事件批次应用失败"
          let rowError := newChangeEventRowError env.unicode first.index first.event
            (bytes "apply_failed") message
          ({ s with result := s.result.report rowError }, some message)
        | .skipRow, [event] =>
          let rowError := newChangeEventRowError env.unicode event.index event.event
            (bytes "apply_failed") (bytes "目标行变更应用失败")
          andThen (env.reportChangeEventRowError rowError s) fun s =>
            (s.skip (.rejected event) rowError, none)
        | .skipRow, first :: second :: rest =>
          let events := first :: second :: rest
          let middle := events.length / 2
          andThen (EventWorld.applyChangeEventBatchWithPolicy runtime policy (events.take middle) s)
            (EventWorld.applyChangeEventBatchWithPolicy runtime policy (events.drop middle))
termination_by events.length
decreasing_by
  all_goals simp only [List.length_take, List.length_drop, List.length_cons]; omega

/-- The `flush` of `applyLocked`. -/
def EventWorld.flush (policy : RowErrorPolicy) (pending : List (PreparedEvent α ρ π))
    (s : Delivery σ α ρ π) : Delivery σ α ρ π × Option Text :=
  match pending with
  | [] => (s, none)
  | first :: _ => env.applyChangeEventBatchWithPolicy first.runtime policy pending s

/-! ### Deliveries -/

def EventWorld.failChangeEvents (err : Text) (s : Delivery σ α ρ π) : Delivery σ α ρ π :=
  match env.check s with
  | (s, some cancelled) =>
    { s with result := { s.result with success := false, cancelled := true, message := cancelled } }
  | (s, none) => { s with result := { s.result with success := false, message := err } }

variable [DecidableEq ρ]

/-- The loop of `applyLocked`. -/
def EventWorld.applyEvents (batchSize : ℕ) (policy : RowErrorPolicy) :
    ℕ → List (PreparedEvent α ρ π) → List (DataChangeEvent α) → Delivery σ α ρ π →
      Delivery σ α ρ π × Option Text
  | _, pending, [], s => env.flush policy pending s
  | index, pending, event :: events, s =>
    andThen (env.check s) fun s =>
      match env.prepareChangeEvent index event with
      | none =>
        andThen (env.flush policy pending s) fun s =>
          let message := bytes "变更事件校验或字段投影失败"
          let rowError := newChangeEventRowError env.unicode index event (bytes "invalid_event")
            message
          match policy with
          | .stop => ({ s with result := s.result.report rowError }, some message)
          | .skipRow =>
            andThen (env.reportChangeEventRowError rowError s) fun s =>
              EventWorld.applyEvents batchSize policy (index + 1) [] events
                (s.skip (.invalid event index) rowError)
      | some (runtime, change) =>
        let changes := pending.head?.any fun first => first.runtime ≠ runtime
        andThen (if changes then env.flush policy pending s else (s, none)) fun s =>
          let pending := (if changes then [] else pending) ++ [⟨index, event, runtime, change⟩]
          if batchSize ≤ pending.length then
            andThen (env.flush policy pending s)
              (EventWorld.applyEvents batchSize policy (index + 1) [] events)
          else EventWorld.applyEvents batchSize policy (index + 1) pending events s

def EventWorld.applyLocked (batchSize : ℕ) (policy : RowErrorPolicy)
    (events : List (DataChangeEvent α)) (s : Delivery σ α ρ π) : Delivery σ α ρ π :=
  match env.applyEvents batchSize policy 0 [] events s with
  | (s, none) => { s with result := { s.result with success := true } }
  | (s, some err) => env.failChangeEvents err s

def EventWorld.applyContext (batchSize : ℕ) (rowErrorPolicy : Text)
    (events : List (DataChangeEvent α)) (target : σ) : Delivery σ α ρ π :=
  let s : Delivery σ α ρ π := { target, result := { eventsReceived := events.length } }
  match normalizeRowErrorPolicy env.unicode env.quote rowErrorPolicy with
  | .error err => env.failChangeEvents err s
  | .ok policy =>
    match env.check s with
    | (s, some err) => env.failChangeEvents err s
    | (s, none) =>
      match env.sessionError 0 with
      | some err => env.failChangeEvents err s
      | none =>
        if events = [] then { s with result := { s.result with success := true } }
        else
          match env.sessionError 1 with
          | some err => env.failChangeEvents err s
          | none =>
            match env.check s with
            | (s, some err) => env.failChangeEvents err s
            | (s, none) => env.applyLocked batchSize policy events s

end delivery

end GoNavi.Sync
