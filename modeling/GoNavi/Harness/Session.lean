import GoNavi.Harness.Operation

/-! # Sessions

The rows that several runs share: the sessions with their transcripts, and which run belongs to
which session and request.  The transactions `createRunTx`, `EnqueueSteerOrCreateRun` and
`CreateSessionBranch` of `ledger.go` work on all of them; a transaction of a single run is a
mutation of its rows, whose new messages go to the transcript of the session.

The sequence of a message is its place in the transcript, counted from 1. -/

namespace GoNavi.Harness

open Scan RunLedger

/-! ### Rows -/

/-- A message of a session, with the run that it was written for; `0` for a copy in a branch. -/
structure Entry where
  runID : ℕ
  message : Message
deriving DecidableEq

structure Session where
  id : ℕ
  revision : ℕ
  /-- The session and the message that it branches from; `0` for a session of its own. -/
  parent : ℕ
  branchFrom : ℕ
  transcript : List Entry
deriving DecidableEq

/-- A run of a session with its rows. -/
structure SessionRun where
  id : ℕ
  sessionID : ℕ
  requestID : ℕ
  createdAt : ℕ
  /-- A chat keeps the history of the session; the other task kind is a draft of its own. -/
  chat : Bool
  rows : RunLedger
deriving DecidableEq

structure Store where
  sessions : List Session
  runs : List SessionRun
deriving DecidableEq

/-- Append messages; every message advances the revision of the session. -/
def Session.append (s : Session) (entries : List Entry) : Session :=
  { s with revision := s.revision + entries.length, transcript := s.transcript ++ entries }

/-- `runPrecedes`: the order of creation, ties by id. -/
def SessionRun.precedes (r s : SessionRun) : Bool :=
  r.createdAt < s.createdAt ∨ (r.createdAt = s.createdAt ∧ r.id < s.id)

/-- Whether a run has not ended. -/
def SessionRun.active (r : SessionRun) : Bool := !r.rows.run.state.terminal

namespace Store

/-- The ledger without sessions. -/
def empty : Store := ⟨[], []⟩

/-! ### Lookups -/

def session? (S : Store) (id : ℕ) : Option Session := Table.lookup Session.id id S.sessions

def run? (S : Store) (id : ℕ) : Option SessionRun := Table.lookup SessionRun.id id S.runs

/-- `GetRunByRequestID`. -/
def runByRequest? (S : Store) (requestID : ℕ) : Option SessionRun :=
  if requestID = 0 then none else Table.lookup SessionRun.requestID requestID S.runs

/-- `GetControlCommand`, with the run of the command. -/
def command? (S : Store) (id : ℕ) : Option (SessionRun × Command) :=
  S.runs.findSome? fun r => (r.rows.command? id).map fun c => (r, c)

/-- Whether another run has a command of an id. -/
def elsewhere (S : Store) (runID id : ℕ) : Bool :=
  S.runs.any fun r => r.id ≠ runID ∧ (r.rows.command? id).isSome

/-- The runs of a session. -/
def runsOf (S : Store) (sessionID : ℕ) : List SessionRun :=
  S.runs.filter fun r => r.sessionID = sessionID

/-- The earlier of two runs; the order of the query settles a tie. -/
def earlier (best : Option SessionRun) (r : SessionRun) : Option SessionRun :=
  match best with
  | none => some r
  | some b => if r.precedes b then some r else some b

/-- `findActiveRun`: the oldest run of the session that has not ended. -/
def findActiveRun (S : Store) (sessionID : ℕ) : Option SessionRun :=
  ((S.runsOf sessionID).filter SessionRun.active).foldl earlier none

/-! ### Writes -/

def updateSession (S : Store) (id : ℕ) (f : Session → Session) : Store :=
  { S with sessions := Table.update Session.id id f S.sessions }

/-- `ensureSessionTx`. -/
def ensureSession (S : Store) (id : ℕ) : Store :=
  match S.session? id with
  | some _ => S
  | none => { S with sessions := S.sessions ++ [⟨id, 1, 0, 0, []⟩] }

/-- Replace the rows of a run; what they have in new messages goes to the transcript. -/
def setRows (S : Store) (r : SessionRun) (l : RunLedger) : Store :=
  let runs := Table.update SessionRun.id r.id (fun row => { row with rows := l }) S.runs
  { S with runs := runs }.updateSession r.sessionID
    (·.append ((l.messages.drop r.rows.messages.length).map fun m => ⟨r.id, m⟩))

structure CreateRunRequest where
  sessionID : ℕ
  requestID : ℕ
  content : Text
  /-- `0` for a request that does not ask for the revision. -/
  expectedSessionRevision : ℕ
  chat : Bool
  maxTotalTokens : Int64
deriving DecidableEq

/-- The row of a new run. -/
def CreateRunRequest.row (r : CreateRunRequest) (now runID : ℕ) : SessionRun :=
  ⟨runID, r.sessionID, r.requestID, now, r.chat, RunLedger.create r.maxTotalTokens r.content⟩

/-- Insert a run with its first message. -/
def insertRun (S : Store) (now runID : ℕ) (r : CreateRunRequest) : Store :=
  { S with runs := S.runs ++ [r.row now runID] }.updateSession r.sessionID
    (·.append [⟨runID, ⟨.user, 0, [], r.content⟩⟩])

/-- Whether a session is at an expected revision; `0` asks for none. -/
def atRevision (S : Store) (sessionID expected : ℕ) : Bool :=
  expected = 0 ∨ (S.session? sessionID).any fun s => s.revision = expected

/-- `createRunTx`.  `runID` is the id that the transaction draws. -/
def createRun (S : Store) (now runID : ℕ) (r : CreateRunRequest) :
    Except Err (Store × SessionRun) :=
  if r.sessionID = 0 then .error .invalidRequest
  else
    match S.runByRequest? r.requestID with
    | some existing => .ok (S, existing)
    | none =>
      if (S.ensureSession r.sessionID).atRevision r.sessionID r.expectedSessionRevision = false then
        .error .revisionConflict
      else if runID = 0 ∨ (S.run? runID).isSome then .error .uniqueConstraint
      else .ok ((S.ensureSession r.sessionID).insertRun now runID r, r.row now runID)

/-- `EnqueueSteerOrCreateRun`.  The flag says that the input was taken as a steer. -/
def enqueueSteerOrCreateRun (S : Store) (now runID target : ℕ) (command : EnqueueRequest)
    (create : CreateRunRequest) : Except Err (Store × SessionRun × Bool) :=
  if command.id = 0 ∨ target = 0 ∨ command.action ≠ .steer then .error .invalidRequest
  else
    match S.command? command.id with
    | some (r, c) =>
      if r.id = target ∧ command.same c then .ok (S, r, true) else .error .commandConflict
    | none =>
      match S.runByRequest? command.id with
      | some existing => .ok (S, existing, false)
      | none =>
        match (S.run? target).filter fun r => steerable r.rows.run.state with
        | some r =>
          match r.rows.enqueueSteer now command false with
          | .error e => .error e
          | .ok l => .ok (S.setRows r l, r, true)
        | none =>
          match S.createRun now runID { create with requestID := command.id } with
          | .error e => .error e
          | .ok (S', r) => .ok (S', r, false)

/-- `CreateSessionBranch`: the messages in front of a user message are copied. -/
def createSessionBranch (S : Store) (id source sequence expectedRevision : ℕ) :
    Except Err Store :=
  if id = 0 ∨ source = 0 ∨ sequence = 0 then .error .invalidRequest
  else if id = source then .error .branchConflict
  else
    match S.session? id with
    | some s =>
      if s.parent = source ∧ s.branchFrom = sequence then .ok S else .error .branchConflict
    | none =>
      match S.session? source with
      | none => .error .notFound
      | some s =>
        if 0 < expectedRevision ∧ expectedRevision ≠ s.revision then .error .revisionConflict
        else if (s.transcript[sequence - 1]?).any (fun e => e.message.role = .user) = false then
          .error .invalidBranchCursor
        else
          .ok { S with sessions := S.sessions ++ [Session.append ⟨id, 1, source, sequence, []⟩
            ((s.transcript.take (sequence - 1)).map fun e => { e with runID := 0 })] }

/-- `MutateSession`: a change of the title or the archive flag. -/
def mutateSession (S : Store) (id : ℕ) : Store :=
  S.updateSession id fun s => { s with revision := s.revision + 1 }

end Store

/-! ### Mutations of a run -/

/-- A mutation that inserts a command sees whether the id is bound to another run. -/
def Op.located (elsewhere : ℕ → Bool) : Op → Op
  | .enqueueCommand r _ => .enqueueCommand r (elsewhere r.id)
  | .enqueueSteer r _ => .enqueueSteer r (elsewhere r.id)
  | .applyRecoveryAction checkpointID r _ =>
    .applyRecoveryAction checkpointID r (elsewhere r.commandID)
  | op => op

/-- A steer that is put into effect comes from a command of the run. -/
def Op.sourced (l : RunLedger) : Op → Bool
  | .supersedeToolIntentsAndSteer _ r =>
    r.requestID = 0 ∨ (l.command? r.requestID).any fun c => c.action = .steer
  | _ => true

/-- A mutation of the rows of a run. -/
def Store.mutate (S : Store) (runID : ℕ) (a : Act) : Store :=
  match S.run? runID with
  | none => S
  | some r =>
    if a.op.sourced r.rows then
      S.setRows r (step r.rows ⟨a.now, a.op.located (S.elsewhere runID)⟩)
    else S

/-! ### Transcripts -/

/-- `messagesForRun`: the transcript of the session for a chat, the messages of the run for a
draft. -/
def Store.messagesForRun (S : Store) (r : SessionRun) : List Entry :=
  match S.session? r.sessionID with
  | none => []
  | some s => if r.chat then s.transcript else s.transcript.filter fun e => e.runID = r.id

end GoNavi.Harness
