import GoNavi.Harness.Settle

/-! # The control side of a worker

`consumeControlCommands` and `supersedeAndSteer` of `harness.go`.  Every worker of a run has an
execution.  A poll claims commands and takes each of them through its stages: it is marked in
the execution, validated by `RejectStaleControlCommand`, and applied.  A cancel is applied at
once, but not while a side effect is in flight; a steer waits until the worker takes it.  The
polls of an execution are made by its worker and by the callers that signal it, so commands move
on in any order.

All other mutations of the run, by the workers and by anyone, are steps of their own.  None of
them settles a command: `DequeueCommands` and `TombstoneCommand` have no callers, and no caller
of `AppendEvent` names a command. -/

namespace GoNavi.Harness

open Scan RunLedger Machine List

/-! ### Executions -/

/-- `steerRequest`. -/
structure Steer where
  requestID : ℕ
  content : Text
  expectedRevision : ℕ
  prevalidated : Bool
deriving DecidableEq

def Steer.transitionExpectedRevision (s : Steer) : ℕ :=
  if s.prevalidated then 0 else s.expectedRevision

/-- Where a poll is with a command that it has claimed. -/
inductive Stage where
  /-- In front of `markControlClaim`. -/
  | claimed
  /-- In front of `RejectStaleControlCommand`. -/
  | marked
  /-- In front of the switch over the actions. -/
  | current
  /-- In front of `ApplyCancelControlCommand`. -/
  | canceling
  /-- In front of `ackControlCommand`. -/
  | applied
deriving DecidableEq, Repr

structure Polled where
  command : Command
  stage : Stage
deriving DecidableEq

/-- Where `supersedeAndSteer` is. -/
inductive SteerStage where
  /-- In front of `GetRun`. -/
  | refresh
  /-- In front of `SupersedeToolIntentsAndSteer`. -/
  | write (expected : ℕ)
  /-- In front of `RejectStaleControlCommand`. -/
  | reject
  /-- In front of `ackControlCommand`. -/
  | settle
deriving DecidableEq

structure Steering where
  steer : Steer
  intents : List ToolIntent
  /-- The attempts that are left. -/
  attempts : ℕ
  stage : SteerStage
deriving DecidableEq

/-- The part of `runExecution` that has to do with control commands. -/
structure Execution where
  /-- `controlOwnerToken`. -/
  token : ℕ
  controlClaims : List ℕ
  polled : List Polled
  steers : List Steer
  steering : Option Steering
  staleWorkspaceCommands : List ℕ
  sideEffect : Bool
  cancelRequested : Bool
  allowStaleWorkspace : Bool
deriving DecidableEq

namespace Execution

/-- A worker that has just been started, with the token that it claims commands with. -/
def fresh (token : ℕ) : Execution := ⟨token, [], [], [], none, [], false, false, false⟩

def clearControlClaim (e : Execution) (id : ℕ) : Execution :=
  { e with controlClaims := e.controlClaims.filter fun claim => claim ≠ id }

def drop (e : Execution) (k : ℕ) : Execution := { e with polled := e.polled.eraseIdx k }

def moveTo (e : Execution) (k : ℕ) (p : Polled) (stage : Stage) : Execution :=
  { e with polled := e.polled.set k { p with stage := stage } }

end Execution

/-! ### Results of transactions -/

/-- Whether `RejectStaleControlCommand` reports that the command is stale. -/
def RunLedger.reportsStale (l : RunLedger) (now token id : ℕ) : Bool :=
  match l.loadClaimed now token id with
  | .error _ => false
  | .ok (c, settled) => !settled && l.stale c

/-- What `ApplyCancelControlCommand` reports: that the command is applied, or that it is stale;
nothing of a command that is settled. -/
def RunLedger.reportsApplied (l : RunLedger) (now token id : ℕ) : Option Bool :=
  match l.loadClaimed now token id with
  | .error _ | .ok (_, true) => none
  | .ok (c, false) => some (!(l.stale c || l.run.state.terminal))

/-- The commands that `ClaimCommands` returns. -/
def RunLedger.claimedCommands (l : RunLedger) (now token limit ttl : ℕ) : List Command :=
  match l.claimCommands now token limit ttl with
  | .error _ => []
  | .ok l' => (l.claimable now token limit).filterMap l'.command?

/-! ### The machine -/

structure Control where
  rows : RunLedger
  executions : ℕ → Execution

inductive ControlAct where
  /-- A mutation that has nothing to do with control commands that are there. -/
  | other (a : Act)
  /-- A worker is started, after a crash of an earlier one or at first. -/
  | start (i token : ℕ)
  | setSideEffect (i : ℕ) (sideEffect : Bool)
  /-- A poll claims commands; `fault` says that the ledger fails. -/
  | poll (i now ttl : ℕ) (fault : Bool)
  /-- A poll goes on with a command. -/
  | advance (i k now : ℕ) (fault : Bool)
  /-- `applyUnownedQueuedCancel` goes from the claim to the transaction at once. -/
  | cancelQueued (i k : ℕ)
  /-- The worker takes a steer, for the intents that are left. -/
  | takeSteer (i : ℕ) (intents : List ToolIntent)
  /-- The worker goes on with a steer. -/
  | advanceSteer (i now checkpointID : ℕ) (fault : Bool)
  /-- `ackStaleWorkspaceCommands` for one command. -/
  | ackStaleWorkspace (i k now : ℕ) (fault : Bool)

/-- The mutations that only polls and steers make, or nobody. -/
def Op.control : Op → Bool
  | .claimCommands .. | .ackCommand .. | .rejectStaleControlCommand ..
  | .applyCancelControlCommand .. | .supersedeToolIntentsAndSteer .. => true
  | op => op.uncalled

/-- The request of `supersedeAndSteer`. -/
def Steering.request (s : Steering) (token expected : ℕ) : SupersedeRequest :=
  ⟨token, expected, s.intents, s.steer.content, s.steer.requestID, none⟩

namespace Control

def start (maxTotalTokens : Int64) (content : Text) : Control :=
  ⟨RunLedger.create maxTotalTokens content, fun _ => Execution.fresh 0⟩

def polled? (S : Control) (i k : ℕ) : Option Polled := (S.executions i).polled[k]?

/-- The transaction of a step. -/
def act? (S : Control) : ControlAct → Option Act
  | .other a => if a.op.control then none else some a
  | .poll i now ttl fault =>
    if fault then none else some ⟨now, .claimCommands (S.executions i).token 32 ttl⟩
  | .advance i k now fault =>
    match S.polled? i k with
    | none => none
    | some p =>
      if fault then none
      else match p.stage with
        | .marked => some ⟨now, .rejectStaleControlCommand (S.executions i).token p.command.id⟩
        | .canceling => some ⟨now, .applyCancelControlCommand (S.executions i).token p.command.id⟩
        | .applied => some ⟨now, .ackCommand (S.executions i).token p.command.id⟩
        | .claimed | .current => none
  | .advanceSteer i now checkpointID fault =>
    match (S.executions i).steering with
    | none => none
    | some s =>
      if fault then none
      else match s.stage with
        | .refresh => none
        | .write expected => some ⟨now, .supersedeToolIntentsAndSteer checkpointID
            (s.request (S.executions i).token expected)⟩
        | .reject => some
            ⟨now, .rejectStaleControlCommand (S.executions i).token s.steer.requestID⟩
        | .settle => some ⟨now, .ackCommand (S.executions i).token s.steer.requestID⟩
  | .ackStaleWorkspace i k now fault =>
    match (S.executions i).staleWorkspaceCommands[k]? with
    | none => none
    | some id => if fault then none else some ⟨now, .ackCommand (S.executions i).token id⟩
  | _ => none

/-- Whether an acknowledgement leaves nothing to do: it succeeds, or the claim is lost. -/
def acked (S : Control) (i now id : ℕ) (fault : Bool) : Bool :=
  !fault && match S.rows.ackCommand now (S.executions i).token id with
    | .ok _ | .error .notFound | .error .claimLost => true
    | .error _ => false

/-- A poll goes on with a command. -/
def advance (S : Control) (i k now : ℕ) (fault : Bool) (p : Polled) : Execution :=
  let e := S.executions i
  let id := p.command.id
  match p.stage with
  | .claimed =>
    -- A poll before is still at the command.
    if id ∈ e.controlClaims then e.drop k
    else { e.moveTo k p .marked with controlClaims := id :: e.controlClaims }
  | .marked =>
    if fault then (e.clearControlClaim id).drop k
    else match S.rows.rejectStaleControlCommand now e.token id with
      | .error _ => (e.clearControlClaim id).drop k
      | .ok _ =>
        if S.rows.reportsStale now e.token id then (e.clearControlClaim id).drop k
        else e.moveTo k p .current
  | .current =>
    match p.command.action with
    | .cancel =>
      -- Left for a later poll while a side effect is in flight.
      if e.sideEffect then (e.clearControlClaim id).drop k else e.moveTo k p .canceling
    | .steer =>
      if trimSpace p.command.content = [] then e.moveTo k p .applied
      else { e.drop k with
        steers := e.steers ++ [⟨id, p.command.content, p.command.expectedRevision, true⟩] }
    | .resume | .recover | .abortRecovery => e.moveTo k p .applied
    | .useStaleWorkspace =>
      { e.drop k with
        allowStaleWorkspace := true
        staleWorkspaceCommands := e.staleWorkspaceCommands ++ [id] }
    | .approve | .deny | .markCompleted => e.drop k
  | .canceling =>
    if fault then (e.clearControlClaim id).drop k
    else match S.rows.applyCancelControlCommand now e.token id with
      | .error _ => (e.clearControlClaim id).drop k
      | .ok _ =>
        match S.rows.reportsApplied now e.token id with
        | some true => { e.drop k with cancelRequested := true }
        | some false => (e.clearControlClaim id).drop k
        | none => e.drop k
  | .applied =>
    if S.acked i now id fault then (e.clearControlClaim id).drop k else e.drop k

/-- The worker goes on with a steer. -/
def advanceSteer (S : Control) (i now checkpointID : ℕ) (fault : Bool) (s : Steering) :
    Execution :=
  let e := S.executions i
  let expected := s.steer.transitionExpectedRevision
  match s.stage with
  | .refresh =>
    if fault ∨ s.attempts = 0 then { e with steering := none }
    else { e with steering := some { s with
      attempts := s.attempts - 1
      stage := .write (if 0 < expected then expected else S.rows.run.revision) } }
  | .write revision =>
    if fault then { e with steering := none }
    else match S.rows.supersedeToolIntentsAndSteer now checkpointID
        (s.request e.token revision) with
      | .ok _ =>
        if s.steer.requestID = 0 then { e with steering := none }
        else { e with steering := some { s with stage := .settle } }
      | .error .revisionConflict =>
        if s.steer.requestID ≠ 0 ∧ 0 < expected then
          { e with steering := some { s with stage := .reject } }
        else { e with steering := some { s with stage := .refresh } }
      | .error _ => { e with steering := none }
  | .reject =>
    if fault then { e with steering := none }
    else match S.rows.rejectStaleControlCommand now e.token s.steer.requestID with
      | .error .claimLost | .error .leaseLost =>
        { e.clearControlClaim s.steer.requestID with steering := none }
      | .error _ => { e with steering := none }
      | .ok _ =>
        if S.rows.reportsStale now e.token s.steer.requestID then
          { e.clearControlClaim s.steer.requestID with steering := none }
        else { e with steering := none }
  | .settle =>
    if S.acked i now s.steer.requestID fault then
      { e.clearControlClaim s.steer.requestID with steering := none }
    else { e with steering := none }

/-- The execution of a step, with its number. -/
def execution? (S : Control) : ControlAct → Option (ℕ × Execution)
  | .other _ => none
  | .start i token => some (i, .fresh token)
  | .setSideEffect i sideEffect => some (i, { S.executions i with sideEffect := sideEffect })
  | .poll i now ttl fault =>
    if fault then none
    else
      let e := S.executions i
      some (i, { e with polled := e.polled ++
        (S.rows.claimedCommands now e.token 32 ttl).map fun c => ⟨c, .claimed⟩ })
  | .advance i k now fault =>
    (S.polled? i k).map fun p => (i, S.advance i k now fault p)
  | .cancelQueued i k =>
    match S.polled? i k with
    | none => none
    | some p =>
      if p.stage = .claimed ∧ p.command.action = .cancel then
        some (i, (S.executions i).moveTo k p .canceling)
      else none
  | .takeSteer i intents =>
    let e := S.executions i
    match e.steering, e.steers with
    | none, steer :: steers =>
      some (i, { e with steers := steers, steering := some ⟨steer, intents, 2, .refresh⟩ })
    | _, _ => none
  | .advanceSteer i now checkpointID fault =>
    (S.executions i).steering.map fun s => (i, S.advanceSteer i now checkpointID fault s)
  | .ackStaleWorkspace i k now fault =>
    let e := S.executions i
    (e.staleWorkspaceCommands[k]?).map fun id =>
      (i, if S.acked i now id fault then
        { e.clearControlClaim id with
          staleWorkspaceCommands := e.staleWorkspaceCommands.filter fun c => c ≠ id }
      else e)

def step (S : Control) (a : ControlAct) : Control where
  rows := (S.act? a).elim S.rows (Harness.step S.rows)
  executions := (S.execution? a).elim S.executions fun (i, e) => Function.update S.executions i e

end Control

/-! ### The protocol -/

/-- There is a command with this id that asks for this. -/
def Stands (l : RunLedger) (id : ℕ) (action : ControlAction) (content : Text) : Prop :=
  ∃ c, l.command? id = some c ∧ c.action = action ∧ c.content = content

/-- What a poll has in hand is a command as it was claimed; at its stage the action is clear. -/
structure Polled.Fits (l : RunLedger) (p : Polled) : Prop where
  stands : Stands l p.command.id p.command.action p.command.content
  canceling : p.stage = .canceling → p.command.action = .cancel
  applied : p.stage = .applied → p.command.action ≠ .cancel ∧
    (p.command.action = .steer → trimSpace p.command.content = [])

/-- The steer of an id is recorded once it is acknowledged. -/
structure Steering.Fits (l : RunLedger) (s : Steering) : Prop where
  stands : Stands l s.steer.requestID .steer s.steer.content
  settle : s.stage = .settle →
    l.steered s.steer.requestID = some ⟨s.steer.requestID, trimSpace s.steer.content⟩

structure Execution.Fits (l : RunLedger) (e : Execution) : Prop where
  polled : ∀ p ∈ e.polled, p.Fits l
  steers : ∀ s ∈ e.steers, Stands l s.requestID .steer s.content
  steering : ∀ s ∈ e.steering, s.Fits l
  workspace : ∀ id ∈ e.staleWorkspaceCommands, ∃ content, Stands l id .useStaleWorkspace content

/-- The ids of commands are unique, and the executions fit the commands. -/
structure Protocol (S : Control) : Prop where
  ids : (S.rows.commands.map Command.id).Nodup
  fits : ∀ i, (S.executions i).Fits S.rows

variable {l l' : RunLedger} {now : ℕ} {op : Op} {S : Control} {a : ControlAct} {e : Execution}

/-- A transaction keeps the commands, and their ids are unique. -/
theorem commands_of_step (hnodup : (l.commands.map Command.id).Nodup) (act : Act) :
    ((Harness.step l act).commands.map Command.id).Nodup ∧
      ∃ more, CommandsEvolve l (Harness.step l act) more := by
  have hsame : CommandsEvolve l l [] := commandsEvolve_of_eq (append_nil _).symm
  rw [Harness.step]
  split
  · rename_i l' h
    rcases commands_evolve hnodup h with hevolve | ⟨c, hevolve, -, hfree⟩
    · refine ⟨?_, [], hevolve⟩
      have hids := congrArg (List.map Prod.fst) hevolve.ids
      simp only [map_map, map_nil, append_nil] at hids
      exact hids ▸ hnodup
    · refine ⟨?_, [c], hevolve⟩
      have hids := congrArg (List.map Prod.fst) hevolve.ids
      simp only [map_append, map_map, map_cons, map_nil] at hids
      have hids' : l'.commands.map Command.id = l.commands.map Command.id ++ [c.id] := hids
      rw [hids', nodup_append]
      refine ⟨hnodup, nodup_singleton _, ?_⟩
      intro x hx y hy
      obtain ⟨d, hd, rfl⟩ := mem_map.mp hx
      obtain rfl := mem_singleton.mp hy
      exact Table.lookup_eq_none.mp hfree d hd
  · exact ⟨hnodup, [], hsame⟩

theorem Stands.evolve {id : ℕ} {action : ControlAction} {content : Text} {more : List Command}
    (h : Stands l id action content) (hevolve : CommandsEvolve l l' more) :
    Stands l' id action content := by
  obtain ⟨c, hc, haction, hcontent⟩ := h
  obtain ⟨c', hc', hfollows⟩ := command?_evolve hevolve hc
  exact ⟨c', hc', hfollows.action.trans haction, hfollows.content.trans hcontent⟩

theorem Execution.Fits.evolve {more : List Command} (h : e.Fits l)
    (hevolve : CommandsEvolve l l' more)
    (hsteered : ∀ id s, l.steered id = some s → l'.steered id = some s) : e.Fits l' where
  polled := fun p hp =>
    ⟨(h.polled p hp).stands.evolve hevolve, (h.polled p hp).canceling, (h.polled p hp).applied⟩
  steers := fun s hs => (h.steers s hs).evolve hevolve
  steering := fun s hs => ⟨(h.steering s hs).stands.evolve hevolve,
    fun hstage => hsteered _ _ ((h.steering s hs).settle hstage)⟩
  workspace := fun id hid => (h.workspace id hid).imp fun _ hstands => hstands.evolve hevolve

theorem Execution.Fits.less {e' : Execution} (h : e.Fits l)
    (hpolled : ∀ p ∈ e'.polled, p ∈ e.polled) (hsteers : ∀ s ∈ e'.steers, s ∈ e.steers)
    (hsteering : ∀ s ∈ e'.steering, s ∈ e.steering)
    (hworkspace : ∀ id ∈ e'.staleWorkspaceCommands, id ∈ e.staleWorkspaceCommands) :
    e'.Fits l where
  polled := fun p hp => h.polled p (hpolled p hp)
  steers := fun s hs => h.steers s (hsteers s hs)
  steering := fun s hs => h.steering s (hsteering s hs)
  workspace := fun id hid => h.workspace id (hworkspace id hid)

theorem Execution.Fits.drop (h : e.Fits l) (k : ℕ) : (e.drop k).Fits l :=
  h.less (fun _ hp => mem_of_mem_eraseIdx hp) (fun _ hs => hs) (fun _ hs => hs)
    fun _ hid => hid

theorem Execution.Fits.clear (h : e.Fits l) (id : ℕ) : (e.clearControlClaim id).Fits l :=
  h.less (fun _ hp => hp) (fun _ hs => hs) (fun _ hs => hs) fun _ hid => hid

theorem Execution.Fits.moveTo {p : Polled} {stage : Stage} (h : e.Fits l) (k : ℕ)
    (hp : p.Fits l) (hcanceling : stage = .canceling → p.command.action = .cancel)
    (happlied : stage = .applied → p.command.action ≠ .cancel ∧
      (p.command.action = .steer → trimSpace p.command.content = [])) :
    (e.moveTo k p stage).Fits l := by
  refine ⟨?_, h.steers, h.steering, h.workspace⟩
  intro q hq
  rcases mem_or_eq_of_mem_set hq with hq | rfl
  · exact h.polled q hq
  · exact ⟨hp.stands, hcanceling, happlied⟩

theorem fits_fresh (l : RunLedger) (token : ℕ) : (Execution.fresh token).Fits l := by
  constructor <;> intro x hx <;> cases hx

/-- A poll goes on with a command: the execution fits the rows after the transaction. -/
theorem fits_advance {i k : ℕ} {fault : Bool} {p : Polled} (h : (S.executions i).Fits l)
    (hp : p.Fits l) : (S.advance i k now fault p).Fits l := by
  have hclear := (h.clear p.command.id).drop k
  have hdrop := h.drop k
  unfold Control.advance
  dsimp only
  split
  · split
    · exact hdrop
    · have hmoved : ((S.executions i).moveTo k p .marked).Fits l := h.moveTo k hp nofun nofun
      exact { hmoved with }
  · split
    · exact hclear
    · split
      · exact hclear
      · split
        · exact hclear
        · exact h.moveTo k hp nofun nofun
  · split
    · rename_i haction
      split
      · exact hclear
      · exact h.moveTo k hp (fun _ => haction) nofun
    · rename_i haction
      split
      · rename_i hblank
        exact h.moveTo k hp nofun fun _ => ⟨by rw [haction]; nofun, fun _ => hblank⟩
      · refine ⟨hdrop.polled, ?_, hdrop.steering, hdrop.workspace⟩
        exact forall_mem_append.mpr ⟨h.steers, forall_mem_singleton.mpr (haction ▸ hp.stands)⟩
    · rename_i haction
      exact h.moveTo k hp nofun fun _ => ⟨by rw [haction]; nofun, by rw [haction]; nofun⟩
    · rename_i haction
      exact h.moveTo k hp nofun fun _ => ⟨by rw [haction]; nofun, by rw [haction]; nofun⟩
    · rename_i haction
      exact h.moveTo k hp nofun fun _ => ⟨by rw [haction]; nofun, by rw [haction]; nofun⟩
    · rename_i haction
      refine ⟨hdrop.polled, h.steers, h.steering, ?_⟩
      exact forall_mem_append.mpr
        ⟨h.workspace, forall_mem_singleton.mpr ⟨p.command.content, haction ▸ hp.stands⟩⟩
    · exact hdrop
    · exact hdrop
    · exact hdrop
  · split
    · exact hclear
    · split
      · exact hclear
      · split
        · exact { hdrop with }
        · exact hclear
        · exact hdrop
  · split
    · exact hclear
    · exact hdrop

theorem fits_advanceSteer {i checkpointID : ℕ} {fault : Bool} {s : Steering}
    (h : (S.executions i).Fits l) (hs : s.Fits l)
    (hwritten : ∀ revision m, s.stage = .write revision → fault = false →
      S.rows.supersedeToolIntentsAndSteer now checkpointID
        (s.request (S.executions i).token revision) = .ok m → l = m) :
    (S.advanceSteer i now checkpointID fault s).Fits l := by
  have hidle : ∀ e : Execution, e.Fits l → Execution.Fits l { e with steering := none } := by
    intro e he
    exact he.less (fun _ hp => hp) (fun _ hs => hs) nofun fun _ hid => hid
  have hnone := hidle _ h
  have hclear := hidle _ (h.clear s.steer.requestID)
  have hsteering : ∀ t : Steering, t.Fits l →
      Execution.Fits l { S.executions i with steering := some t } := by
    intro t ht
    refine ⟨h.polled, h.steers, ?_, h.workspace⟩
    intro u hu
    cases hu
    exact ht
  have hmoved : ∀ (attempts : ℕ) (stage : SteerStage), stage ≠ .settle →
      Steering.Fits l { s with attempts := attempts, stage := stage } :=
    fun _ _ hstage => ⟨hs.stands, fun heq => absurd heq hstage⟩
  unfold Control.advanceSteer
  dsimp only
  split
  · split
    · exact hnone
    · exact hsteering _ (hmoved _ _ nofun)
  · rename_i revision hstage
    split
    · exact hnone
    · rename_i hfault
      split
      · rename_i m hm
        obtain rfl := hwritten revision m hstage (by simpa using hfault) hm
        split
        · exact hnone
        · rename_i hid
          exact hsteering _ ⟨hs.stands, fun _ => steered_of_supersede hm hid⟩
      · split
        · exact hsteering _ (hmoved _ _ nofun)
        · exact hsteering _ (hmoved _ _ nofun)
      · exact hnone
  · split
    · exact hnone
    · split
      · exact hclear
      · exact hclear
      · exact hnone
      · split
        · exact hclear
        · exact hnone
  · split
    · exact hclear
    · exact hnone

theorem claimed_stands {token ttl : ℕ} {c : Command}
    (hc : c ∈ l.claimedCommands now token 32 ttl) :
    Stands (Harness.step l ⟨now, .claimCommands token 32 ttl⟩) c.id c.action c.content := by
  unfold RunLedger.claimedCommands at hc
  split at hc
  · cases hc
  · rename_i l' h
    obtain ⟨id, -, hfound⟩ := mem_filterMap.mp hc
    have hid : c.id = id := Table.lookup_key hfound
    have hstep : Harness.step l ⟨now, .claimCommands token 32 ttl⟩ = l' := by
      simp only [Harness.step, Op.apply, h]
    rw [hstep, hid]
    exact ⟨c, hfound, rfl, rfl⟩

theorem steered_step {id : ℕ} {s : SteerRequest} (act : Act) (h : l.steered id = some s) :
    (Harness.step l act).steered id = some s :=
  steered_extend (wrote_step l act) h

theorem control_rows (S : Control) (a : ControlAct) :
    (S.step a).rows = (S.act? a).elim S.rows (Harness.step S.rows) := rfl

/-- **The protocol is kept** by every step. -/
theorem protocol_step (S : Control) (a : ControlAct) (h : Protocol S) : Protocol (S.step a) := by
  -- The rows keep the commands and the steers that are recorded.
  have hrows : ((S.step a).rows.commands.map Command.id).Nodup ∧
      (∃ more, CommandsEvolve S.rows (S.step a).rows more) ∧
      ∀ id s, S.rows.steered id = some s → (S.step a).rows.steered id = some s := by
    rw [control_rows]
    cases S.act? a with
    | none => exact ⟨h.ids, ⟨[], commandsEvolve_of_eq (append_nil _).symm⟩, fun _ _ hs => hs⟩
    | some act =>
      obtain ⟨hids, hevolve⟩ := commands_of_step h.ids act
      exact ⟨hids, hevolve, fun id s hs => steered_step act hs⟩
  obtain ⟨hids, ⟨more, hevolve⟩, hsteered⟩ := hrows
  have hall : ∀ i, (S.executions i).Fits (S.step a).rows :=
    fun i => (h.fits i).evolve hevolve hsteered
  refine ⟨hids, ?_⟩
  -- One execution is replaced.
  have hone : ∀ i e, S.execution? a = some (i, e) → e.Fits (S.step a).rows := by
    intro i e he
    cases a with
    | other => cases he
    | start j token =>
      cases he
      exact fits_fresh _ _
    | setSideEffect j sideEffect =>
      cases he
      exact ⟨(hall i).polled, (hall i).steers, (hall i).steering, (hall i).workspace⟩
    | poll j now ttl fault =>
      rw [Control.execution?] at he
      split at he
      · cases he
      · rename_i hfault
        cases he
        have hact : S.act? (.poll i now ttl fault) =
            some ⟨now, .claimCommands (S.executions i).token 32 ttl⟩ := if_neg hfault
        refine ⟨?_, (hall i).steers, (hall i).steering, (hall i).workspace⟩
        intro p hp
        rcases mem_append.mp hp with hp | hp
        · exact (hall i).polled p hp
        · obtain ⟨c, hc, rfl⟩ := mem_map.mp hp
          refine ⟨?_, nofun, nofun⟩
          rw [control_rows, hact]
          exact claimed_stands hc
    | advance j k now fault =>
      obtain ⟨p, hp, heq⟩ := Option.map_eq_some_iff.mp he
      cases heq
      exact fits_advance (hall i) ((hall i).polled p (mem_of_getElem? hp))
    | cancelQueued j k =>
      rw [Control.execution?] at he
      split at he
      · cases he
      · rename_i p hp
        split at he
        · rename_i hcancel
          cases he
          exact (hall i).moveTo k ((hall i).polled p (mem_of_getElem? hp))
            (fun _ => hcancel.2) nofun
        · cases he
    | takeSteer j intents =>
      simp only [Control.execution?] at he
      split at he
      · rename_i steer steers hsteering hsteers
        cases he
        refine ⟨(hall i).polled, ?_, ?_, (hall i).workspace⟩
        · intro s hs
          exact (hall i).steers s (by rw [hsteers]; exact mem_cons_of_mem _ hs)
        · intro t ht
          cases ht
          exact ⟨(hall i).steers steer (by rw [hsteers]; exact mem_cons_self), nofun⟩
      · cases he
    | advanceSteer j now checkpointID fault =>
      obtain ⟨s, hs, heq⟩ := Option.map_eq_some_iff.mp he
      cases heq
      refine fits_advanceSteer (hall i) ((hall i).steering s hs) ?_
      intro revision m hstage hfault hm
      have hact : S.act? (.advanceSteer i now checkpointID fault) =
          some ⟨now, .supersedeToolIntentsAndSteer checkpointID
            (s.request (S.executions i).token revision)⟩ := by
        simp only [Control.act?, hs, hfault, hstage]
        rfl
      rw [control_rows, hact]
      simp only [Option.elim, Harness.step, Op.apply, hm]
    | ackStaleWorkspace j k now fault =>
      obtain ⟨id, hid, heq⟩ := Option.map_eq_some_iff.mp he
      cases heq
      split
      · exact ((hall i).clear id).less (fun _ hp => hp) (fun _ hs => hs) (fun _ hs => hs)
          fun _ hid => (mem_filter.mp hid).1
      · exact hall i
  intro i
  cases he : S.execution? a with
  | none =>
    have hexec : (S.step a).executions = S.executions := by rw [Control.step, he]; rfl
    rw [hexec]
    exact hall i
  | some je =>
    obtain ⟨j, e⟩ := je
    have hexec : (S.step a).executions = Function.update S.executions j e := by
      rw [Control.step, he]
      rfl
    rw [hexec]
    by_cases hij : i = j
    · subst hij
      rw [Function.update_self]
      exact hone i e he
    · rw [Function.update_of_ne hij]
      exact hall i

theorem protocol_start (maxTotalTokens : Int64) (content : Text) :
    Protocol (Control.start maxTotalTokens content) :=
  ⟨nodup_nil, fun _ => fits_fresh _ _⟩

/-! ### Who settles a command -/

theorem act_called {act : Act} (h : S.act? a = some act) : act.op.uncalled = false := by
  cases a with
  | other act' =>
    simp only [Control.act?] at h
    split at h
    · cases h
    · rename_i hcontrol
      cases h
      cases hop : act.op <;> simp_all [Op.control]
  | start | setSideEffect | cancelQueued | takeSteer => cases h
  | poll =>
    simp only [Control.act?] at h
    split at h
    · cases h
    · cases h
      rfl
  | advance =>
    simp only [Control.act?] at h
    split at h
    · cases h
    · split at h
      · cases h
      · split at h <;> cases h <;> rfl
  | advanceSteer =>
    simp only [Control.act?] at h
    split at h
    · cases h
    · split at h
      · cases h
      · split at h <;> cases h <;> rfl
  | ackStaleWorkspace =>
    simp only [Control.act?] at h
    split at h
    · cases h
    · split at h <;> cases h
      rfl

/-- An acknowledged command is no cancel, and a steer that is acknowledged is recorded or blank. -/
theorem acknowledged_action {token id : ℕ} {c : Command} (h : Protocol S) (hact : S.act? a = some ⟨now, .ackCommand token id⟩)
    (hc : S.rows.command? id = some c) : c.action ≠ .cancel ∧
      (c.action = .steer → S.rows.steered id = some ⟨id, trimSpace c.content⟩ ∨
        trimSpace c.content = []) := by
  have hsame : ∀ {action content}, Stands S.rows id action content →
      c.action = action ∧ c.content = content := by
    rintro action content ⟨d, hd, haction, hcontent⟩
    rw [hc] at hd
    cases hd
    exact ⟨haction, hcontent⟩
  cases a with
  | other act' =>
    simp only [Control.act?] at hact
    split at hact
    · cases hact
    · rename_i hcontrol
      cases hact
      simp [Op.control] at hcontrol
  | start | setSideEffect | cancelQueued | takeSteer => cases hact
  | poll =>
    simp only [Control.act?] at hact
    split at hact <;> cases hact
  | advance i k now fault =>
    simp only [Control.act?] at hact
    split at hact
    · cases hact
    · rename_i p hp
      have hfits := (h.fits i).polled p (mem_of_getElem? hp)
      split at hact
      · cases hact
      · split at hact <;> cases hact
        rename_i hstage
        obtain ⟨haction, hcontent⟩ := hsame hfits.stands
        obtain ⟨hcancel, hblank⟩ := hfits.applied hstage
        rw [haction, hcontent]
        exact ⟨hcancel, fun hsteer => .inr (hblank hsteer)⟩
  | advanceSteer i now checkpointID fault =>
    simp only [Control.act?] at hact
    split at hact
    · cases hact
    · rename_i s hs
      have hfits := (h.fits i).steering s hs
      split at hact
      · cases hact
      · split at hact <;> cases hact
        rename_i hstage
        obtain ⟨haction, hcontent⟩ := hsame hfits.stands
        rw [haction, hcontent]
        exact ⟨nofun, fun _ => .inl (hfits.settle hstage)⟩
  | ackStaleWorkspace i k now fault =>
    simp only [Control.act?] at hact
    split at hact
    · cases hact
    · rename_i id' hid
      split at hact <;> cases hact
      obtain ⟨content, hstands⟩ := (h.fits i).workspace id (mem_of_getElem? hid)
      rw [(hsame hstands).1]
      exact ⟨nofun, nofun⟩

end GoNavi.Harness
