import GoNavi.Harness.Log
import GoNavi.Harness.Tokens

/-! # The budget counters of a run after a restart

A live worker counts the tool rounds of a run, and the failed ones in a row, in memory
(`Worker.perform`).  A worker that resumes the run rebuilds both counters from the events of the
run (`resumeToolCounters`), but it reads at most two hundred of them, and it takes a round for
failed if one of its tool events carries neither `started` nor `completed`.

The live loop takes a round for failed if one of its intents went wrong.  An intent that is denied,
refused or lost goes wrong without such an event; a tool may report `failed` and not go wrong; and
the events of a batch that is steered away say `canceled`, though the loop does not count that
round as failed, nor does it reset the count.

**Main theorem** (`resumesExactly_iff`): in a run of a worker the resumed counters are the live
ones after every turn if and only if every batch of tools is counted alike (`CountedAlike`). -/

namespace GoNavi.Harness

open Scan RunLedger Machine List

/-! ### Reading the counters back -/

/-- The limit that `ReadRun` uses. -/
def readLimit (limit : ℕ) : ℕ := if limit = 0 ∨ 1000 < limit then 200 else limit

/-- `ListEvents`: the events past a sequence, in order. -/
def RunLedger.listEvents (l : RunLedger) (afterSequence limit : ℕ) : List Event :=
  (l.events.filter fun e => afterSequence < e.sequence).take (readLimit limit)

/-- What one event says about the rounds; they stand with the newest one first and tell whether
they have failed. -/
def countEvent (rounds : List Bool) (e : Event) : List Bool :=
  match e.kind, e.payload with
  | .modelCompleted, .modelCompleted calls _ =>
    if calls.length > 0 then false :: rounds else rounds
  | .tool, .tool _ _ _ status _ =>
    match rounds with
    | [] => []
    | failed :: earlier => (failed || (status ≠ .started && status ≠ .completed)) :: earlier
  | _, _ => rounds

/-- The number of rounds, and of the failed ones at the end. -/
def roundCounters (rounds : List Bool) : ℕ × ℕ := (rounds.length, (rounds.takeWhile id).length)

/-- `resumeToolCounters`. -/
def resumeToolCounters (l : RunLedger) : ℕ × ℕ :=
  roundCounters ((l.listEvents 0 100000).foldl countEvent [])

/-! ### The live loop -/

/-- The limits of a policy; `0` is no limit. -/
structure RunPolicy where
  maxToolRounds : ℕ
  maxConsecutiveFailedToolRounds : ℕ

/-- A worker in front of a turn: the rows of its run, and what it has counted. -/
structure Worker where
  ledger : RunLedger
  toolRounds : ℕ
  failedToolRounds : ℕ

/-- An event to be written: its kind, the state of the run, and what it says. -/
abbrev EventEntry := EventKind × RunState × Payload

/-- The events of one transaction; the run is in the state of the last one. -/
def Worker.write (w : Worker) (es : List EventEntry) : Worker :=
  let state := (es.getLast?.map fun e => e.2.1).getD w.ledger.run.state
  { w with ledger := w.ledger.commit state w.ledger.run.attempt es }

/-- An event that is about neither a completion nor a tool: a delta, an input, an approval, an
error. -/
structure Aside where
  entry : EventEntry
  kind_ne : entry.1 ≠ .modelCompleted ∧ entry.1 ≠ .tool

/-- Events that are written one after the other. -/
def Worker.note (w : Worker) (es : List Aside) : Worker := es.foldl (fun w e => w.write [e.entry]) w

/-- What becomes of a call that the loop reaches. -/
inductive Outcome (call : ToolIntent) where
  /-- The contract of the tool has changed, or its effect is not known. -/
  | refused (code message : Text)
  /-- The approval was denied or has expired. -/
  | denied (approvalID : ℕ) (decision : ApprovalStatus)
  /-- An empty steer takes the place of the call. -/
  | skipped
  /-- `executeTool` fails in front of the start record. -/
  | notStarted
  /-- The call is started, and its outcome cannot be recorded. -/
  | unfinished
  /-- The call is started, and its outcome is recorded; a side effect whose outcome is unknown
  ends the loop. -/
  | finished (status : ToolStatus) (meanwhile : List Aside) (erred : Bool)
      (settled : status ≠ .started ∧ (call.effect.mutating → status ≠ .unknown))
  /-- The rows of the call exist already. -/
  | recorded (erred : Bool)

/-- A call that the loop reaches, with the events in front of it. -/
structure Intent where
  asides : List Aside
  call : ToolIntent
  outcome : Outcome call

/-- Whether the loop leaves `allToolsOK` as it is. -/
def Outcome.ok {call : ToolIntent} : Outcome call → Bool
  | .refused _ _ | .denied _ _ | .notStarted | .unfinished => false
  | .skipped => true
  | .finished _ _ erred _ | .recorded erred => !erred

/-- An event about a call. -/
def RunLedger.ToolIntent.event (i : ToolIntent) (state : RunState) (status : ToolStatus) :
    EventEntry :=
  (.tool, state, .tool i.callID i.toolName i.effect status i.args)

/-- One turn of the loop over the calls. -/
def Worker.attempt (w : Worker) (i : Intent) : Worker :=
  let w := w.note i.asides
  match i.outcome with
  | .refused code message => w.write [(.runError, w.ledger.run.state, .runError code message)]
  | .denied approvalID decision =>
    (w.write [(.approval, .awaitingApproval, .approval approvalID i.call.callID .pending)]).write
      [(.approval, .runningModel, .approval approvalID i.call.callID decision)]
  | .skipped | .notStarted | .recorded _ => w
  | .unfinished => w.write [i.call.event w.ledger.startTarget .started]
  | .finished status meanwhile _ _ =>
    ((w.write [i.call.event w.ledger.startTarget .started]).note meanwhile).write
      [i.call.event .runningModel status]

/-- How a batch of calls ends. -/
inductive Ending where
  /-- Every call has been reached. -/
  | exhausted
  /-- A steer replaces the calls of the request. -/
  | superseded (request : SupersedeRequest)
  /-- A steer that is stale or was handled before: the batch is left, and no call is replaced. -/
  | left (asides : List Aside)

def Ending.steered : Ending → Bool
  | .exhausted => false
  | .superseded _ | .left _ => true

/-- The events of a steer that replaces calls. -/
def Worker.supersede (w : Worker) (r : SupersedeRequest) : Worker :=
  w.write (r.intents.map w.ledger.canceledEvent ++
    [(.checkpoint, .interrupted, .checkpoint (w.ledger.run.nextSequence + r.intents.length)),
      (.input, .runningModel, .input r.requestID (trimSpace r.steerContent))])

def Worker.leave (w : Worker) : Ending → Worker
  | .exhausted => w
  | .superseded r => w.supersede r
  | .left asides => w.note asides

/-- The events of a completion. -/
def Worker.complete (w : Worker) (r : CommitModelTurnRequest) (usage : Usage) : Worker :=
  w.write (r.events (usage.checkpointSequence w.ledger.run.nextSequence) usage)

/-- A completion with tool calls, and what becomes of them. -/
structure Batch where
  request : CommitModelTurnRequest
  usage : Usage
  work : List Intent
  ending : Ending
  calls_ne : request.calls ≠ []
  reached : work.map (fun i => i.call.callID) <+: request.calls
  exhausted : ending = .exhausted → work.map (fun i => i.call.callID) = request.calls

/-- `allToolsOK` behind the loop over the calls. -/
def Batch.allToolsOK (b : Batch) : Bool := b.work.all fun i => i.outcome.ok

/-- A turn of the loop that does not end the run. -/
inductive LoopTurn where
  /-- A turn without a completion: a retry of the model, a malformed call, a steer. -/
  | aside (es : List Aside)
  /-- A completion that was cut off; its calls are dropped. -/
  | truncated (request : CommitModelTurnRequest) (usage : Usage) (dropped : request.calls = [])
  | batch (b : Batch)

/-- Whether a budget of the policy is used up. -/
def Worker.exhausted (policy : RunPolicy) (w : Worker) : Bool :=
  (0 < policy.maxToolRounds && policy.maxToolRounds ≤ w.toolRounds) ||
  (0 < policy.maxConsecutiveFailedToolRounds &&
    policy.maxConsecutiveFailedToolRounds ≤ w.failedToolRounds)

/-- The consecutive failed rounds behind a batch. -/
def Batch.failedToolRounds (b : Batch) (failed : ℕ) : ℕ :=
  if b.ending.steered then failed else if b.allToolsOK then 0 else failed + 1

/-- What a batch writes. -/
def Worker.process (w : Worker) (b : Batch) : Worker :=
  (b.work.foldl Worker.attempt (w.complete b.request b.usage)).leave b.ending

/-- One turn of the loop in `run`; a run whose budget is used up is finished. -/
def Worker.perform (policy : RunPolicy) (w : Worker) (t : LoopTurn) : Worker :=
  if w.exhausted policy then w
  else
    match t with
    | .aside es => w.note es
    | .truncated request usage _ => w.complete request usage
    | .batch b =>
      { w.process b with
        toolRounds := w.toolRounds + 1
        failedToolRounds := b.failedToolRounds w.failedToolRounds }

/-- The worker of a run that starts. -/
def Worker.start (maxTotalTokens : Int64) (content : Text) : Worker :=
  ⟨RunLedger.create maxTotalTokens content, 0, 0⟩

/-- A worker that resumes the run holds the counters of this one. -/
def Worker.ResumesExactly (w : Worker) : Prop :=
  resumeToolCounters w.ledger = (w.toolRounds, w.failedToolRounds)

instance (w : Worker) : Decidable w.ResumesExactly := inferInstanceAs (Decidable (_ = _))

/-! ### Marks -/

/-- What an event means to the resumed counters. -/
inductive Mark where
  | round
  | failure
  | quiet
deriving DecidableEq

/-- The mark of what an event says. -/
def markOf (kind : EventKind) (payload : Payload) : Mark :=
  match kind, payload with
  | .modelCompleted, .modelCompleted calls _ => if calls.length > 0 then .round else .quiet
  | .tool, .tool _ _ _ status _ =>
    if status ≠ .started ∧ status ≠ .completed then .failure else .quiet
  | _, _ => .quiet

def countMark (rounds : List Bool) : Mark → List Bool
  | .round => false :: rounds
  | .failure =>
    match rounds with
    | [] => []
    | _ :: earlier => true :: earlier
  | .quiet => rounds

theorem countEvent_eq (rounds : List Bool) (e : Event) :
    countEvent rounds e = countMark rounds (markOf e.kind e.payload) := by
  unfold countEvent markOf
  split
  · split <;> rfl
  · rename_i status _ _ _
    cases rounds with
    | nil => cases status <;> rfl
    | cons failed earlier => cases failed <;> cases status <;> rfl
  · rfl

/-- The marks of the events of a run. -/
def Worker.marks (w : Worker) : List Mark :=
  w.ledger.events.map fun e => markOf e.kind e.payload

theorem Worker.length_marks (w : Worker) : w.marks.length = w.ledger.events.length :=
  length_map _

def EventEntry.mark (e : EventEntry) : Mark := markOf e.1 e.2.2

theorem Aside.mark_entry (e : Aside) : EventEntry.mark e.entry = .quiet := by
  obtain ⟨⟨kind, state, payload⟩, hcompleted, htool⟩ := e
  cases kind <;> first | exact absurd rfl hcompleted | exact absurd rfl htool | rfl

/-- The events are numbered from one on, and the row of the run knows the next number. -/
def Worker.InOrder (w : Worker) : Prop :=
  Journal.Numbered Event.sequence w.ledger.events ∧
    w.ledger.run.nextSequence = w.ledger.events.length + 1

/-- New events with the given marks are at the end. -/
structure Writes (w : Worker) (ms : List Mark) (w' : Worker) : Prop where
  marks : w'.marks = w.marks ++ ms
  inOrder : w.InOrder → w'.InOrder

theorem Writes.refl (w : Worker) : Writes w [] w := ⟨(append_nil _).symm, id⟩

theorem Writes.trans {w₁ w₂ w₃ : Worker} {ms ms' : List Mark} (h : Writes w₁ ms w₂)
    (h' : Writes w₂ ms' w₃) : Writes w₁ (ms ++ ms') w₃ :=
  ⟨by rw [h'.marks, h.marks, append_assoc], h'.inOrder ∘ h.inOrder⟩

theorem writes_write (w : Worker) (es : List EventEntry) :
    Writes w (es.map EventEntry.mark) (w.write es) := by
  constructor
  · have hnew : ((w.ledger.numbered w.ledger.run.attempt es).map fun e =>
        markOf e.kind e.payload) = es.map EventEntry.mark := by
      apply ext_getElem
      · simp [RunLedger.numbered]
      · intro i hi hi'
        simp [RunLedger.numbered, EventEntry.mark]
    rw [Worker.marks, Worker.write, RunLedger.commit, map_append, hnew]
    rfl
  · rintro ⟨hnumbered, hnext⟩
    have hlength : (w.ledger.numbered w.ledger.run.attempt es).length = es.length :=
      length_mapIdx
    constructor
    · apply hnumbered.append
      rw [hlength]
      apply ext_getElem
      · simp [RunLedger.numbered]
      · intro i hi hi'
        simp only [RunLedger.numbered, getElem_map, getElem_mapIdx,
          getElem_range', hnext]
        omega
    · show w.ledger.run.nextSequence + es.length = (w.ledger.events ++ _).length + 1
      rw [length_append, hlength, hnext]
      omega

theorem writes_one (w : Worker) {e : EventEntry} {m : Mark} (h : e.mark = m) :
    Writes w [m] (w.write [e]) :=
  h ▸ writes_write w [e]

theorem writes_note (w : Worker) (es : List Aside) :
    Writes w (List.replicate es.length .quiet) (w.note es) := by
  induction es generalizing w with
  | nil => exact .refl w
  | cons e es ih => exact (writes_one w e.mark_entry).trans (ih _)

/-- The mark of the record of a tool. -/
def toolMark (status : ToolStatus) : Mark :=
  if status ≠ .started ∧ status ≠ .completed then .failure else .quiet

/-- The marks of the events about a call. -/
def Outcome.marks {call : ToolIntent} : Outcome call → List Mark
  | .refused _ _ | .unfinished => [.quiet]
  | .denied _ _ => [.quiet, .quiet]
  | .skipped | .notStarted | .recorded _ => []
  | .finished status meanwhile _ _ =>
    .quiet :: (List.replicate meanwhile.length .quiet ++ [toolMark status])

def Intent.marks (i : Intent) : List Mark :=
  List.replicate i.asides.length .quiet ++ i.outcome.marks

theorem writes_attempt (w : Worker) (i : Intent) : Writes w i.marks (w.attempt i) := by
  obtain ⟨asides, call, outcome⟩ := i
  apply (writes_note w asides).trans
  cases outcome with
  | refused code message => exact writes_one _ rfl
  | denied approvalID decision =>
    show Writes _ ([.quiet] ++ [.quiet]) (Worker.write (Worker.write _ _) _)
    refine Writes.trans ?_ (writes_one _ rfl)
    exact writes_one _ rfl
  | skipped | notStarted | recorded erred => exact .refl _
  | unfinished => exact writes_one _ rfl
  | finished status meanwhile erred settled =>
    show Writes _ (([.quiet] ++ _) ++ [toolMark status])
      (Worker.write (Worker.note (Worker.write _ _) _) _)
    refine Writes.trans ?_ (writes_one _ rfl)
    refine Writes.trans ?_ (writes_note _ meanwhile)
    exact writes_one _ rfl

theorem writes_attempts (w : Worker) (work : List Intent) :
    Writes w (work.flatMap Intent.marks) (work.foldl Worker.attempt w) := by
  induction work generalizing w with
  | nil => exact .refl w
  | cons i work ih => exact (writes_attempt w i).trans (ih _)

def Ending.marks : Ending → List Mark
  | .exhausted => []
  | .superseded r => List.replicate r.intents.length .failure ++ [.quiet, .quiet]
  | .left asides => List.replicate asides.length .quiet

theorem writes_leave (w : Worker) (e : Ending) : Writes w e.marks (w.leave e) := by
  cases e with
  | exhausted => exact .refl w
  | superseded r =>
    have hcanceled : (r.intents.map w.ledger.canceledEvent).map EventEntry.mark =
        List.replicate r.intents.length .failure := by
      rw [map_map]
      exact map_eq_replicate_iff.mpr fun i _ => rfl
    have hwrites : Writes w _ (w.supersede r) := writes_write w _
    rwa [map_append, hcanceled] at hwrites
  | left asides => exact writes_note w asides

/-- The marks of the usage and the checkpoint behind a completion. -/
def usageMarks (usage : Usage) : List Mark := if usage.reported then [.quiet, .quiet] else [.quiet]

theorem writes_complete (w : Worker) (r : CommitModelTurnRequest) (usage : Usage) :
    Writes w ((if r.calls = [] then .quiet else .round) :: usageMarks usage)
      (w.complete r usage) := by
  have hwrites : Writes w _ (w.complete r usage) := writes_write w _
  have hcompletion : EventEntry.mark (.modelCompleted, r.target, .modelCompleted r.calls usage) =
      if r.calls = [] then Mark.quiet else .round := by
    rw [EventEntry.mark, markOf]
    cases r.calls <;> rfl
  rw [CommitModelTurnRequest.events, map_cons, hcompletion] at hwrites
  rw [usageMarks]
  cases husage : usage.reported <;> rw [husage] at hwrites <;> exact hwrites

/-- A completion whose calls are dropped says nothing of a round. -/
theorem writes_truncated (w : Worker) {r : CommitModelTurnRequest} (h : r.calls = [])
    (usage : Usage) : Writes w (.quiet :: usageMarks usage) (w.complete r usage) := by
  have hwrites := writes_complete w r usage
  rwa [if_pos h] at hwrites

theorem mem_usageMarks (usage : Usage) : ∀ m ∈ Mark.quiet :: usageMarks usage, m = .quiet := by
  intro m hm
  unfold usageMarks at hm
  split at hm <;> simpa using hm

/-- The marks behind the completion of a batch. -/
def Batch.trail (b : Batch) : List Mark :=
  usageMarks b.usage ++ (b.work.flatMap Intent.marks ++ b.ending.marks)

theorem writes_process (w : Worker) (b : Batch) :
    Writes w (.round :: b.trail) (w.process b) := by
  have hcomplete := writes_complete w b.request b.usage
  rw [if_neg b.calls_ne] at hcomplete
  exact hcomplete.trans ((writes_attempts _ b.work).trans (writes_leave _ b.ending))

/-! ### Counting the marks -/

/-- How many events a resumed worker reads. -/
def eventsRead : ℕ := 200

/-- The rounds that a resumed worker sees. -/
def seenRounds (ms : List Mark) : List Bool := (ms.take eventsRead).foldl countMark []

theorem resumeToolCounters_eq {w : Worker} (h : w.InOrder) :
    resumeToolCounters w.ledger = roundCounters (seenRounds w.marks) := by
  have hevents : w.ledger.listEvents 0 100000 = w.ledger.events.take eventsRead := by
    rw [RunLedger.listEvents, h.1.filter_lt 0]
    rfl
  have hcount : ∀ (es : List Event) (rounds : List Bool), es.foldl countEvent rounds =
      (es.map fun e => markOf e.kind e.payload).foldl countMark rounds := by
    intro es
    induction es with
    | nil => exact fun _ => rfl
    | cons e es ih =>
      intro rounds
      rw [foldl_cons, map_cons, foldl_cons, countEvent_eq, ih]
  rw [resumeToolCounters, hevents, hcount, map_take]
  rfl

theorem seenRounds_append (ms ms' : List Mark) : seenRounds (ms ++ ms') =
    (ms'.take (eventsRead - ms.length)).foldl countMark (seenRounds ms) := by
  rw [seenRounds, take_append, foldl_append]
  rfl

theorem foldl_quiet {ms : List Mark} (h : ∀ m ∈ ms, m = .quiet) (rounds : List Bool) :
    ms.foldl countMark rounds = rounds := by
  induction ms with
  | nil => rfl
  | cons m ms ih =>
    rw [foldl_cons, h m mem_cons_self]
    exact ih fun m' hm' => h m' (mem_cons_of_mem _ hm')

theorem seenRounds_quiet {w w' : Worker} {ms : List Mark} (h : Writes w ms w')
    (hquiet : ∀ m ∈ ms, m = .quiet) : seenRounds w'.marks = seenRounds w.marks := by
  rw [h.marks, seenRounds_append]
  exact foldl_quiet (fun m hm => hquiet m (mem_of_mem_take hm)) _

/-- Behind a completion, a round has failed if one of the events says so. -/
theorem foldl_trail {ms : List Mark} (h : .round ∉ ms) (failed : Bool) (earlier : List Bool) :
    ms.foldl countMark (failed :: earlier) = (failed || decide (.failure ∈ ms)) :: earlier := by
  induction ms generalizing failed with
  | nil => simp
  | cons m ms ih =>
    have hrest : .round ∉ ms := fun hm => h (mem_cons_of_mem _ hm)
    rw [foldl_cons]
    cases m with
    | round => exact absurd mem_cons_self h
    | failure =>
      rw [countMark, ih hrest]
      simp
    | quiet =>
      rw [countMark, ih hrest]
      simp

theorem round_notMem_usageMarks (usage : Usage) : .round ∉ usageMarks usage := by
  unfold usageMarks
  split <;> decide

theorem round_notMem_marks {call : ToolIntent} (o : Outcome call) : .round ∉ o.marks := by
  cases o with
  | finished status meanwhile erred settled => cases status <;> simp [Outcome.marks, toolMark]
  | _ => simp [Outcome.marks]

theorem Batch.round_notMem_trail (b : Batch) : .round ∉ b.trail := by
  have hending : .round ∉ b.ending.marks := by
    cases b.ending <;> simp [Ending.marks]
  have hwork : .round ∉ b.work.flatMap Intent.marks := by
    intro h
    obtain ⟨i, -, hi⟩ := mem_flatMap.mp h
    rcases mem_append.mp hi with hi | hi
    · cases eq_of_mem_replicate hi
    · exact round_notMem_marks i.outcome hi
  simp [Batch.trail, round_notMem_usageMarks, hwork, hending]

/-- A tool event with another status than `started` and `completed` is among the first events
behind the completion of a batch. -/
def Batch.failureWithin (b : Batch) (n : ℕ) : Prop := .failure ∈ b.trail.take n

instance (b : Batch) (n : ℕ) : Decidable (b.failureWithin n) :=
  inferInstanceAs (Decidable (_ ∈ _))

/-- A resumed worker counts a batch as the live one does: it reads the completion, and it reads of
a failure exactly if an intent went wrong; a batch that is steered away follows no failed round,
and it reads of no failure. -/
def Worker.CountsAlike (w : Worker) (b : Batch) : Prop :=
  let n := w.ledger.events.length
  n < eventsRead ∧
    if b.ending.steered then ¬ b.failureWithin (eventsRead - n - 1) ∧ w.failedToolRounds = 0
    else b.failureWithin (eventsRead - n - 1) ↔ b.allToolsOK = false

instance (w : Worker) (b : Batch) : Decidable (w.CountsAlike b) :=
  inferInstanceAs (Decidable (_ ∧ _))

/-- The batch of a turn that is performed is counted alike. -/
def CountedAlike (policy : RunPolicy) (w : Worker) (t : LoopTurn) : Prop :=
  match t with
  | .aside _ | .truncated _ _ _ => True
  | .batch b => w.exhausted policy = true ∨ w.CountsAlike b

/-! ### The step lemma -/

/-- A batch adds a round to those that a resumed worker sees if its completion is read. -/
theorem seenRounds_process (w : Worker) (b : Batch) :
    seenRounds (w.process b).marks =
      if w.ledger.events.length < eventsRead then
        decide (b.failureWithin (eventsRead - w.ledger.events.length - 1)) :: seenRounds w.marks
      else seenRounds w.marks := by
  rw [(writes_process w b).marks, seenRounds_append, w.length_marks]
  split_ifs with h
  · obtain ⟨n, hn⟩ : ∃ n, eventsRead - w.ledger.events.length = n + 1 :=
      Nat.exists_eq_succ_of_ne_zero (by omega)
    rw [hn, take_succ_cons, foldl_cons, countMark, foldl_trail
      (fun hm => b.round_notMem_trail (mem_of_mem_take hm)), Bool.false_or,
      Nat.add_sub_cancel]
    rfl
  · rw [Nat.sub_eq_zero_of_le (by omega), take_zero, foldl_nil]

theorem roundCounters_cons (failed : Bool) (rounds : List Bool) :
    roundCounters (failed :: rounds) = ((roundCounters rounds).1 + 1,
      if failed then (roundCounters rounds).2 + 1 else 0) := by
  cases failed <;> rfl

/-- **A batch keeps the resumed counters exact exactly if it is counted alike.** -/
theorem process_iff {w : Worker} (b : Batch) (h : roundCounters (seenRounds w.marks) =
      (w.toolRounds, w.failedToolRounds)) :
    roundCounters (seenRounds (w.process b).marks) =
      (w.toolRounds + 1, b.failedToolRounds w.failedToolRounds) ↔ w.CountsAlike b := by
  rw [seenRounds_process, Worker.CountsAlike, Batch.failedToolRounds]
  by_cases hread : w.ledger.events.length < eventsRead
  · rw [if_pos hread, roundCounters_cons, h, Prod.mk.injEq]
    by_cases hfailure : b.failureWithin (eventsRead - w.ledger.events.length - 1)
    · cases b.ending.steered <;> cases b.allToolsOK <;> simp [hread, hfailure]
    · cases b.ending.steered <;> cases b.allToolsOK <;> simp [hread, hfailure, eq_comm]
  · rw [if_neg hread, h, Prod.mk.injEq]
    constructor
    · intro hcount
      omega
    · exact fun hcount => absurd hcount.1 hread

/-- The events stay in order, and a turn without a batch leaves both counters alone. -/
theorem inOrder_perform (policy : RunPolicy) (w : Worker) (t : LoopTurn) (h : w.InOrder) :
    (w.perform policy t).InOrder := by
  unfold Worker.perform
  split
  · exact h
  · cases t with
    | aside es => exact (writes_note w es).inOrder h
    | truncated request usage dropped => exact (writes_complete w request usage).inOrder h
    | batch b => exact (writes_process w b).inOrder h

theorem note_counters (w : Worker) (es : List Aside) :
    (w.note es).toolRounds = w.toolRounds ∧
      (w.note es).failedToolRounds = w.failedToolRounds := by
  induction es generalizing w with
  | nil => exact ⟨rfl, rfl⟩
  | cons e es ih => exact ih (w.write [e.entry])

/-- **The step lemma**: a turn keeps the resumed counters exact exactly if it is counted alike. -/
theorem resumesExactly_perform (policy : RunPolicy) (w : Worker) (t : LoopTurn) (h : w.InOrder)
    (hexact : w.ResumesExactly) :
    (w.perform policy t).ResumesExactly ↔ CountedAlike policy w t := by
  have hcount : roundCounters (seenRounds w.marks) = (w.toolRounds, w.failedToolRounds) :=
    (resumeToolCounters_eq h).symm.trans hexact
  rw [Worker.ResumesExactly, resumeToolCounters_eq (inOrder_perform policy w t h)]
  unfold Worker.perform CountedAlike
  cases t with
  | aside es =>
    split
    · exact iff_of_true hcount trivial
    · obtain ⟨hrounds, hfailed⟩ := note_counters w es
      rw [seenRounds_quiet (writes_note w es) fun m hm => eq_of_mem_replicate hm, hrounds,
        hfailed]
      exact iff_of_true hcount trivial
  | truncated request usage dropped =>
    split
    · exact iff_of_true hcount trivial
    · rw [seenRounds_quiet (writes_truncated w dropped usage) (mem_usageMarks usage)]
      exact iff_of_true hcount trivial
  | batch b =>
    split
    · rename_i hexhausted
      exact iff_of_true hcount (.inl hexhausted)
    · rename_i hexhausted
      exact (process_iff b hcount).trans (or_iff_right hexhausted).symm

theorem inOrder_start (maxTotalTokens : Int64) (content : Text) :
    (Worker.start maxTotalTokens content).InOrder := ⟨rfl, rfl⟩

/-- **The counters survive a restart after every turn of a run exactly if every batch of tools is
counted alike.** -/
theorem resumesExactly_iff (policy : RunPolicy) (maxTotalTokens : Int64) (content : Text)
    (turns : List LoopTurn) :
    Throughout (Worker.perform policy) (fun _ _ w => w.ResumesExactly)
        (Worker.start maxTotalTokens content) turns ↔
      Along (Worker.perform policy) (CountedAlike policy) (Worker.start maxTotalTokens content)
        turns :=
  throughout_kept_iff (inOrder_perform policy) (resumesExactly_perform policy)
    (inOrder_start maxTotalTokens content) rfl

/-- A request of a completion with one call. -/
def oneCall : CommitModelTurnRequest :=
  ⟨1, 0, none, 0, Usage.zero, [1], Usage.zero, none, none⟩

/-- A completed call behind a completion. -/
def completedBatch : Batch where
  request := oneCall
  usage := Usage.zero
  work := [⟨[], ⟨1, 1, .readOnly, 1⟩, .finished .completed [] false (by decide)⟩]
  ending := .exhausted
  calls_ne := by decide
  reached := by decide
  exhausted := fun _ => rfl

/-- A model that streams two hundred deltas in front of its first call. -/
def longRun : List LoopTurn :=
  [.aside (List.replicate 200 ⟨(.modelDelta, .runningModel, .other), by decide⟩),
    .batch completedBatch]

/-- The live worker has counted a round; a resumed one does not read of it. -/
theorem longRun_forgets :
    let w := run (Worker.perform ⟨15, 3⟩) (Worker.start 0 []) longRun
    (w.toolRounds, w.failedToolRounds) = (1, 0) ∧ resumeToolCounters w.ledger = (0, 0) := by
  decide +kernel

end GoNavi.Harness
