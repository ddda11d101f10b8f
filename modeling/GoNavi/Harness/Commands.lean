import GoNavi.Harness.Ledger
import Mathlib.Data.List.Sort

/-! # Control commands

The transactions of `ledger.go` on the control commands of a run: they are enqueued by anyone,
claimed for a while by one supervisor, and settled once, by an acknowledgement, a tombstone or
a terminal transition.  The content of a steer stands for its payload.

`elsewhere` says that the id is bound to a command of another run. -/

namespace GoNavi.Harness

open Scan

/-! ### Commands -/

/-- The order `created_at, id`. -/
def Command.before (c d : Command) : Prop :=
  c.createdAt < d.createdAt ∨ (c.createdAt = d.createdAt ∧ c.id ≤ d.id)

instance : DecidableRel Command.before := fun _ _ => inferInstanceAs (Decidable (_ ∨ _))

/-- Whether an owner can claim a command: it is not settled, and no other claim is live. -/
def Command.claimable (c : Command) (now token : ℕ) : Bool :=
  c.pending && (match c.claim with
    | none => true
    | some claim => claim.expiresAt ≤ now || claim.owner == token)

/-- The limit of a query: none or more than 100 stands for 100. -/
def queryLimit (limit : ℕ) : ℕ := if limit = 0 ∨ 100 < limit then 100 else limit

/-- Whether a claim is held by an owner. -/
def Command.claimedBy (c : Command) (now token : ℕ) : Bool :=
  c.claim.any fun claim => claim.owner = token ∧ now < claim.expiresAt

/-- The decimal digits of a revision in a message. -/
def digits (n : ℕ) : Text := (Nat.toDigits 10 n).map fun c => c.toUInt8

namespace RunLedger

/-! ### Enqueueing -/

def command? (l : RunLedger) (id : ℕ) : Option Command := Table.lookup Command.id id l.commands

structure EnqueueRequest where
  id : ℕ
  action : ControlAction
  content : Text
  expectedRevision : ℕ
deriving DecidableEq

/-- Whether a command was inserted by the same request. -/
def EnqueueRequest.same (r : EnqueueRequest) (c : Command) : Bool :=
  c.action = r.action ∧ c.expectedRevision = r.expectedRevision ∧ c.content = r.content

/-- The row of a new command. -/
def EnqueueRequest.row (r : EnqueueRequest) (now : ℕ) : Command :=
  ⟨r.id, r.action, r.content, r.expectedRevision, now, none, false, false⟩

def putCommand (l : RunLedger) (c : Command) : RunLedger :=
  { l with commands := l.commands ++ [c] }

/-- `EnqueueCommand`. -/
def enqueueCommand (l : RunLedger) (now : ℕ) (r : EnqueueRequest) (elsewhere : Bool) :
    Except Err RunLedger :=
  if elsewhere then .error .commandConflict
  else
    match l.command? r.id with
    | some c => if r.same c then .ok l else .error .commandConflict
    | none =>
      if r.expectedRevision = 0 then .error .revisionConflict
      else if l.run.revision ≠ r.expectedRevision then .error .revisionConflict
      else if l.run.state.terminal then .error .terminalRun
      else .ok (l.putCommand (r.row now))

/-- `EnqueueSteerOrCreateRun` on a target that can be steered.  The revision is asked for only
if the caller gives one. -/
def enqueueSteer (l : RunLedger) (now : ℕ) (r : EnqueueRequest) (elsewhere : Bool) :
    Except Err RunLedger :=
  if r.action ≠ .steer then .error .invalidRequest
  else if elsewhere then .error .commandConflict
  else
    match l.command? r.id with
    | some c => if r.same c then .ok l else .error .commandConflict
    | none =>
      if steerable l.run.state = false then .error .invalidTransition
      else if 0 < r.expectedRevision ∧ r.expectedRevision ≠ l.run.revision then
        .error .revisionConflict
      else .ok (l.putCommand (r.row now))

/-! ### Claiming -/

/-- The ids that `ClaimCommands` selects. -/
def claimable (l : RunLedger) (now token limit : ℕ) : List ℕ :=
  (((l.commands.filter (·.claimable now token)).insertionSort Command.before).take
    (queryLimit limit)).map Command.id

/-- `ClaimCommands`. -/
def claimCommands (l : RunLedger) (now token limit ttl : ℕ) : Except Err RunLedger :=
  if token = 0 then .error .invalidRequest
  else
    let ids := l.claimable now token limit
    .ok { l with commands := l.commands.map fun c =>
      if c.id ∈ ids ∧ c.claimable now token then { c with claim := some ⟨token, now + ttl⟩ }
      else c }

/-- `DequeueCommands`: consume without a claim. -/
def dequeueCommands (l : RunLedger) (limit : ℕ) : Except Err RunLedger :=
  let ids := (((l.commands.filter fun c => !c.consumed).insertionSort
    fun c d => c.createdAt ≤ d.createdAt).take (queryLimit limit)).map Command.id
  .ok { l with commands := l.commands.map fun c =>
    if c.id ∈ ids ∧ c.consumed = false then { c with consumed := true } else c }

/-! ### Settling -/

/-- `AckCommand`. -/
def ackCommand (l : RunLedger) (now token id : ℕ) : Except Err RunLedger :=
  if token = 0 then .error .invalidRequest
  else
    match l.command? id with
    | none => .error .notFound
    | some c =>
      if c.applied then .ok l
      else if c.consumed then .ok l
      else if c.claimedBy now token = false then .error .claimLost
      else .ok (l.updateCommand id fun row => { row with applied := true, consumed := true })

/-- `tombstoneClaimedControlCommandTx`. -/
def tombstone (l : RunLedger) (id : ℕ) : RunLedger :=
  l.updateCommand id fun row => { row with consumed := true, claim := none }

/-- `markClaimedControlCommandAppliedTx`. -/
def markApplied (l : RunLedger) (id : ℕ) : RunLedger :=
  l.updateCommand id fun row => { row with applied := true, consumed := true, claim := none }

/-- `TombstoneCommand`. -/
def tombstoneCommand (l : RunLedger) (now token id : ℕ) : Except Err RunLedger :=
  if token = 0 then .error .invalidRequest
  else
    match l.command? id with
    | none => .error .notFound
    | some c =>
      if c.pending = false then .ok l
      else if c.claimedBy now token = false then .error .claimLost
      else .ok (l.tombstone id)

/-- `loadClaimedControlCommandTx`: the claim and the owner of the run together.  The flag says
that the command is settled. -/
def loadClaimed (l : RunLedger) (now token id : ℕ) : Except Err (Command × Bool) :=
  match l.command? id with
  | none => .error .notFound
  | some c =>
    if c.pending = false then .ok (c, true)
    else if c.claimedBy now token = false then .error .claimLost
    else if l.run.lease.isSome ∧ l.verifyOwner now token = false then .error .leaseLost
    else .ok (c, false)

/-- `staleControlCommandRevision`. -/
def stale (l : RunLedger) (c : Command) : Bool :=
  c.expectedRevision = 0 ∨ c.expectedRevision ≠ l.run.revision

/-- The event of a rejected command. -/
def revisionConflict (l : RunLedger) (c : Command) : Payload :=
  .runError (bytes "revision_conflict")
    (bytes "control command revision conflict: expected " ++ digits c.expectedRevision ++
      bytes ", got " ++ digits l.run.revision)

/-- `rejectStaleControlCommandTx`. -/
def rejectStale (l : RunLedger) (c : Command) : RunLedger :=
  if l.run.state.terminal then l.tombstone c.id
  else (l.tombstone c.id).commit l.run.state l.run.attempt
    [(.runError, l.run.state, l.revisionConflict c)]

/-- `RejectStaleControlCommand`. -/
def rejectStaleControlCommand (l : RunLedger) (now token id : ℕ) : Except Err RunLedger :=
  if token = 0 then .error .invalidRequest
  else
    match l.loadClaimed now token id with
    | .error e => .error e
    | .ok (c, settled) => if settled ∨ l.stale c = false then .ok l else .ok (l.rejectStale c)

/-- `ApplyCancelControlCommand`. -/
def applyCancelControlCommand (l : RunLedger) (now token id : ℕ) : Except Err RunLedger :=
  if token = 0 then .error .invalidRequest
  else
    match l.loadClaimed now token id with
    | .error e => .error e
    | .ok (c, settled) =>
      if settled then .ok l
      else if c.action ≠ .cancel then .error .invalidRequest
      else if l.stale c ∨ l.run.state.terminal then .ok (l.rejectStale c)
      else if l.run.state = .canceling then .ok (l.markApplied id)
      else if canTransition l.run.state .canceling = false then .error .invalidTransition
      else .ok ((l.markApplied id).commit .canceling l.run.attempt
        [(.checkpoint, .canceling, .checkpoint (l.run.nextSequence - 1))])

end RunLedger

end GoNavi.Harness
