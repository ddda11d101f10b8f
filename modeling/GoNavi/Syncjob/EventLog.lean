import GoNavi.Syncjob.Lifecycle

/-! # The event log of a run

Every event of a run gets the next number of its log in the statement that inserts it, so **the
numbers of a log have no gap**, in every state that callers reach (`terminal_event_last`).

The completion of a run writes its terminal event in the same transaction.  **The event of the
terminal status is then the last one of the log**, as long as no other transaction ends a run and
no event is appended behind the end.  A cancellation appends its event in a transaction of its
own, which may come behind the completion (`terminal_event_last_fails`). -/

namespace GoNavi.Syncjob

open Scan Fallible Callers List

variable {δ : Type}

/-! ### The executor -/

/-- The event that `Manager.appendEvent` appends. -/
def eventOf (run : RunRecord) (type : RunEventType) (message : Text) (nowMillis : ℤ) :
    RunEvent where
  runID := run.id
  jobID := run.jobID
  sequence := 0
  type
  status := run.status
  current := run.current
  total := run.total
  table := run.table
  stage := run.stage
  message
  createdAt := nowMillis

def appendEvent (run : RunRecord) (type : RunEventType) (message : Text) (nowMillis : ℤ) :
    TableRequest δ :=
  .store (.appendRunEvent (eventOf run type message nowMillis))

/-- What an executor reports; an error row is stored beside the tables, or is not. -/
inductive Report where
  | progress (progress : RunProgress)
  | checkpoint (checkpoint : Checkpoint)
  | errorRow (message : Text) (persisted : Bool)
  | emit (type : RunEventType) (message : Text)

/-- How a run ends. -/
structure Ending where
  status : RunStatus
  outcome : ExecutionOutcome
  message : Text

/-- What happens to an execution: it may be stopped before it starts or while it starts, it
reports as it likes, and it ends as it likes. -/
structure Execution where
  stoppedBefore : Option Ending
  stoppedMeanwhile : Option Ending
  failure : Text
  reports : List Report
  clearsCheckpoint : Bool
  ending : Ending
  /-- The end when the checkpoint cannot be cleared. -/
  unclearedEnding : Ending
  permanentFailure : Bool

section executor

variable (definitions : Definitions δ) (nowMillis : ℤ)

/-- The methods of `managerReporter`; the run is read again behind a progress. -/
def report (run : RunRecord) (next : RunRecord → TableMethod δ Unit) :
    Report → TableMethod δ Unit
  | .progress progress =>
    .ask (.store (.updateRunProgressOwned run.id run.ownerToken progress nowMillis)) fun
      | .error _ => next run
      | .ok _ =>
        .ask (.store (.getRun run.id)) fun
          | .error _ => next run
          | .ok run =>
            .ask (appendEvent run .progress progress.message nowMillis) fun _ => next run
  | .checkpoint checkpoint =>
    .ask (.putCheckpointOwned { checkpoint with
        jobID := run.jobID, runID := run.id, definitionRevision := run.jobRevision }
        run.ownerToken) fun
      | .error _ => next run
      | .ok _ =>
        .ask (appendEvent run .checkpoint (bytes "checkpoint saved") nowMillis) fun _ => next run
  | .errorRow message persisted =>
    if persisted = true then
      .ask (appendEvent run .errorRow message nowMillis) fun _ => next run
    else next run
  | .emit type message => .ask (appendEvent run type message nowMillis) fun _ => next run

def reportAll (next : RunRecord → TableMethod δ Unit) : List Report → RunRecord →
    TableMethod δ Unit
  | [], run => next run
  | r :: reports, run => report nowMillis run (reportAll next reports) r

/-- `Manager.finish`. -/
def finish (run : RunRecord) (ending : Ending) (next : Bool → TableMethod δ Unit) :
    TableMethod δ Unit :=
  .ask (.store (.completeRunOwnedWithTerminalEvent run.id run.ownerToken ending.status
    ending.outcome ending.message nowMillis)) fun
    | .ok _ => next true
    | .error _ => next false

def finishFailed (run : RunRecord) (message : Text) : TableMethod δ Unit :=
  finish nowMillis run ⟨.failed, ⟨0, 0, 0, 0, [], false⟩, message⟩ fun _ => .ret (.ok ())

/-- `finishBeforeExecutionForCause`, in front of what follows without a cause. -/
def finishBefore (run : RunRecord) (cause : Option Ending) (next : TableMethod δ Unit) :
    TableMethod δ Unit :=
  match cause with
  | some ending => finish nowMillis run ending fun _ => .ret (.ok ())
  | none => next

/-- The end of `Manager.execute`. -/
def conclude (run : RunRecord) (x : Execution) (ending : Ending) : TableMethod δ Unit :=
  finish nowMillis run ending fun completed =>
    if completed = true ∧ ending.status = .failed ∧ x.permanentFailure = true then
      onStore (pauseJob definitions run.jobID nowMillis)
    else .ret (.ok ())

/-- `Manager.execute`. -/
def execute (run : RunRecord) (x : Execution) : TableMethod δ Unit :=
  match definitions.decodeRunDefinition run with
  | .error err => finishFailed nowMillis run (bytes err)
  | .ok _ =>
    finishBefore nowMillis run x.stoppedBefore <|
      .ask (.getCheckpoint run.jobID) fun checkpoint =>
        if checkpoint.isOk = false ∧ checkpoint ≠ .error .notFound then
          finishBefore nowMillis run x.stoppedMeanwhile (finishFailed nowMillis run x.failure)
        else
          .ask (.store (.touchRunOwned run.id run.ownerToken nowMillis)) fun
            | .error _ =>
              finishBefore nowMillis run x.stoppedMeanwhile (finishFailed nowMillis run x.failure)
            | .ok _ =>
              reportAll nowMillis (fun _ =>
                if x.clearsCheckpoint = true then
                  (deleteOwned run.jobID run.id run.ownerToken).bind fun
                    | .ok _ => conclude definitions nowMillis run x x.ending
                    | .error _ => conclude definitions nowMillis run x x.unclearedEnding
                else conclude definitions nowMillis run x x.ending) x.reports run

/-- `Manager.launch`, with the execution behind it. -/
def launch (run : RunRecord) (x : Execution) : TableMethod δ Unit :=
  .ask (.store (.getRun run.id)) fun
    | .ok current =>
      if current.ownerToken = run.ownerToken ∧ current.status = .running then
        .ask (appendEvent run .started (bytes "started") nowMillis) fun _ =>
          execute definitions nowMillis run x
      else execute definitions nowMillis run x
    | .error _ => execute definitions nowMillis run x

/-- One turn of `Manager.dispatchQueued`: a queued run is claimed and launched. -/
def dispatch (queuedID : Text) (x : Execution) : TableMethod δ Unit :=
  (onStore (claim queuedID nowMillis)).bind fun
    | .ok (some run) => launch definitions nowMillis run x
    | .ok none => .ret (.ok ())
    | .error err => .ret (.error err)

end executor

/-! ### Canceling and recovering -/

section recovery

variable (definitions : Definitions δ) (nowMillis : ℤ)

/-- `Manager.CancelRun`. -/
def cancelAndAnnounce (runID : Text) : TableMethod δ Unit :=
  (onStore (cancelRun (trimSpace runID) nowMillis)).bind fun
    | .error err => .ret (.error err)
    | .ok run =>
      let canceled := run.status = .canceled
      onTable (appendEvent run (if canceled then .canceled else .cancelling)
        (if canceled then bytes "canceled before execution" else bytes "cancellation requested")
        nowMillis) fun _ => .ret (.ok ())

/-- The loop of `recoverInterrupted` over the runs that have been recovered. -/
def announceRecovered (auto : JobDefinition δ → Bool) (lookups : ℕ) :
    List RunRecord → TableMethod δ Unit
  | [] => .ret (.ok ())
  | run :: runs =>
    let rest := announceRecovered auto lookups runs
    if run.status = .canceled then
      onTable (appendEvent run .canceled (bytes "canceled after manager restart") nowMillis)
        fun _ => rest
    else
      onTable (appendEvent run .interrupted (bytes "interrupted after manager restart") nowMillis)
        fun _ =>
          match definitions.decodeRunDefinition run with
          | .error _ => rest
          | .ok definition =>
            if auto definition = true then
              (resumeRun definitions run.id nowMillis lookups).bind fun
                | .ok _ => rest
                | .error _ =>
                  .ask (appendEvent run .log (bytes "automatic resume was not queued") nowMillis)
                    fun _ => rest
            else rest

/-- The stale runs in `recoverInterrupted`. -/
def recoverInterrupted (cutoffMillis : ℤ) (auto : JobDefinition δ → Bool) (lookups : ℕ) :
    TableMethod δ Unit :=
  onTable (.store (.interruptStaleRuns cutoffMillis nowMillis))
    (announceRecovered definitions nowMillis auto lookups)

end recovery

inductive LogOperation (δ : Type) where
  | dispatch (queuedID : Text) (nowMillis : ℤ) (x : Execution)
  | cancelRun (runID : Text) (nowMillis : ℤ)
  | recoverInterrupted (cutoffMillis nowMillis : ℤ) (auto : JobDefinition δ → Bool) (lookups : ℕ)
  | lifecycle (operation : LifecycleOperation δ)

def logProgram (definitions : Definitions δ) : LogOperation δ → TableMethod δ Unit
  | .dispatch queuedID nowMillis x => dispatch definitions nowMillis queuedID x
  | .cancelRun runID nowMillis => cancelAndAnnounce nowMillis runID
  | .recoverInterrupted cutoffMillis nowMillis auto lookups =>
    recoverInterrupted definitions nowMillis cutoffMillis auto lookups
  | .lifecycle operation => lifecycleProgram definitions operation

/-- A move of the callers over the tables. -/
def logStep (definitions : Definitions δ) (validJSON : Text → Bool) :
    Config (Tables δ) (TableRequest δ) TableRequest.Answer (Except Err Unit) →
      Move (LogOperation δ) World →
      Config (Tables δ) (TableRequest δ) TableRequest.Answer (Except Err Unit) :=
  Callers.step (serveTable definitions validJSON) (logProgram definitions)

/-! ### Logs -/

/-- The events of a run, in order. -/
def logOf (id : Text) (s : Store δ) : List RunEvent := s.events.filter fun e => e.runID = id

/-- The numbers from one on. -/
def numbers (n : ℕ) : List ℤ := (List.range n).map fun i : ℕ => (i : ℤ) + 1

/-- The event records the terminal status of the run. -/
def Records (e : RunEvent) (r : RunRecord) : Prop :=
  e.type = terminalEventTypeForStatus r.status ∧ e.status = r.status

instance (e : RunEvent) (r : RunRecord) : Decidable (Records e r) :=
  inferInstanceAs (Decidable (_ ∧ _))

/-- The request ends a run that it leaves without its event, or it appends an event to a run that
is over, other than that of its terminal status. -/
def Request.disturbs (world : World) (r : Request δ) (run : RunRecord) : Bool :=
  match r with
  | .requestCancelRun id _ => run.id = trimSpace id ∧ run.status ∈ [RunStatus.queued, .paused]
  | .requestCancelRunsForJob jobID _ _ =>
    run.jobID = trimSpace jobID ∧ run.status ∈ [RunStatus.queued, .paused]
  | .completeRunOwned id ownerToken _ _ _ _ => ownedBy (trimSpace id) ownerToken run
  | .interruptStaleRuns cutoffMillis nowMillis =>
    stale (if cutoffMillis ≤ 0 then timeOr world nowMillis else cutoffMillis) run
  | .appendRunEvent event =>
    run.id = trimSpace event.runID ∧ terminalRunStatus run.status ∧ ¬ Records event run
  | _ => false

def TableRequest.disturbs (world : World) : TableRequest δ → RunRecord → Bool
  | .store r, run => r.disturbs world run
  | _, _ => false

/-- The request disturbs no log. -/
def InOrder (s : Tables δ) (r : TableRequest δ) (world : World) : Prop :=
  ∀ run ∈ s.store.runs, ¬ r.disturbs world run

instance (s : Tables δ) (r : TableRequest δ) (world : World) : Decidable (InOrder s r world) :=
  inferInstanceAs (Decidable (∀ run ∈ s.store.runs, ¬ r.disturbs world run))

/-! ### Numbers -/

theorem numbers_succ (n : ℕ) : numbers (n + 1) = numbers n ++ [(n : ℤ) + 1] := by
  unfold numbers
  rw [range_succ, map_append, map_singleton]

theorem next_numbers (n : ℕ) : ((numbers n).max?.map (· + 1)).getD 1 = (n : ℤ) + 1 := by
  cases n with
  | zero => rfl
  | succ n =>
    have hmax : (numbers (n + 1)).max? = some ((n : ℤ) + 1) := by
      rw [max?_eq_some_iff]
      constructor
      · rw [numbers_succ]
        exact mem_append_right _ mem_cons_self
      · intro b hb
        obtain ⟨i, hi, rfl⟩ := mem_map.mp hb
        rw [mem_range] at hi
        omega
    rw [hmax]
    show (n : ℤ) + 1 + 1 = ((n + 1 : ℕ) : ℤ) + 1
    omega

/-! ### What keeps the logs -/

/-- Runs are apart, every event is of a run, and the logs are numbered. -/
structure Logged (s : Store δ) : Prop where
  apart : Exclusive s
  owned : ∀ e ∈ s.events, ∃ r ∈ s.runs, r.id = e.runID
  numbered : ∀ id, (logOf id s).map RunEvent.sequence = numbers (logOf id s).length

/-- The runs that are over, but for one that is left open, end their logs. -/
def ClosedBut (except : Option Text) (s : Store δ) : Prop :=
  ∀ r ∈ s.runs, terminalRunStatus r.status → some r.id ≠ except →
    ∃ e, (logOf r.id s).getLast? = some e ∧ Records e r

theorem logOf_append (id : Text) (s : Store δ) (e : RunEvent) :
    logOf id { s with events := s.events ++ [e] } =
      logOf id s ++ if e.runID = id then [e] else [] := by
  unfold logOf
  rw [filter_append]
  congr 1
  split
  · rename_i hid
    rw [filter_singleton, decide_eq_true hid]
    rfl
  · rename_i hid
    rw [filter_singleton, decide_eq_false hid]
    rfl

variable {run r : RunRecord} {id : Text}

section logs

variable {s s' : Store δ}

theorem logOf_eq_nil (h : Logged s) (hid : ∀ r ∈ s.runs, r.id ≠ id) :
    logOf id s = [] := by
  unfold logOf
  rw [filter_eq_nil_iff]
  intro e he hsame
  obtain ⟨r, hr, hown⟩ := h.owned e he
  exact hid r hr (hown.trans (of_decide_eq_true hsame))

/-- A change that keeps the runs under their names and the events keeps the logs. -/
theorem Logged.of_events (h : Logged s) (hapart : Exclusive s') (hevents : s'.events = s.events)
    (hruns : ∀ r ∈ s.runs, ∃ r' ∈ s'.runs, r'.id = r.id) : Logged s' := by
  refine ⟨hapart, ?_, ?_⟩
  · intro e he
    rw [hevents] at he
    obtain ⟨r, hr, hid⟩ := h.owned e he
    obtain ⟨r', hr', hid'⟩ := hruns r hr
    exact ⟨r', hr', hid'.trans hid⟩
  · unfold logOf
    rw [hevents]
    exact h.numbered

variable {except : Option Text}

theorem ClosedBut.of_events (h : ClosedBut except s) (hevents : s'.events = s.events)
    (hruns : ∀ r ∈ s'.runs, terminalRunStatus r.status → some r.id ≠ except → r ∈ s.runs) :
    ClosedBut except s' := by
  intro r hr hover hid
  unfold logOf
  rw [hevents]
  exact h r (hruns r hr hover hid) hover hid

variable {e : RunEvent}

theorem Logged.append (h : Logged s) (hr : r ∈ s.runs) (hid : e.runID = r.id)
    (hsequence : e.sequence = (logOf r.id s).length + 1) :
    Logged { s with events := s.events ++ [e] } := by
  refine ⟨h.apart.of_runs rfl, ?_, ?_⟩
  · intro e' he'
    rw [mem_append, mem_singleton] at he'
    cases he' with
    | inl hold => exact h.owned e' hold
    | inr hnew =>
      rw [hnew]
      exact ⟨r, hr, hid.symm⟩
  · intro id
    rw [logOf_append]
    split
    · rename_i hsame
      rw [← hsame, hid, map_append, h.numbered, map_singleton, hsequence,
        length_append, length_singleton, numbers_succ]
    · rw [append_nil]
      exact h.numbered id

/-- The event that is appended to a run that is over records its status; it closes the log. -/
theorem ClosedBut.append (h : ClosedBut except s) (hapart : Exclusive s) (hr : r ∈ s.runs)
    (hid : e.runID = r.id) (hexcept : except = none ∨ except = some r.id)
    (hrecords : terminalRunStatus r.status → Records e r) :
    ClosedBut none { s with events := s.events ++ [e] } := by
  intro r' hr' hover _
  rw [logOf_append]
  split
  · rename_i hsame
    obtain rfl : r' = r := hapart.eq_of_id hr' hr (hsame.symm.trans hid)
    refine ⟨e, ?_, hrecords hover⟩
    rw [getLast?_append]
    rfl
  · rename_i hother
    rw [append_nil]
    apply h r' hr' hover
    intro hsame
    cases hexcept with
    | inl hnone =>
      rw [hnone] at hsame
      cases hsame
    | inr hsome =>
      rw [hsome] at hsame
      exact hother (hid.trans (Option.some.inj hsame).symm)

/-- A run is created under a name that no run has, with the first event of its log. -/
theorem Logged.create (h : Logged s) (hapart : Exclusive s') (hnew : ∀ r ∈ s.runs, r.id ≠ run.id)
    (hid : e.runID = run.id) (hsequence : e.sequence = 1) (hruns : s'.runs = s.runs ++ [run])
    (hevents : s'.events = s.events ++ [e]) : Logged s' := by
  have hempty := logOf_eq_nil h hnew
  have hwithout : Logged { s with runs := s.runs ++ [run] } := by
    refine h.of_events (hapart.of_runs hruns.symm) rfl ?_
    intro r hr
    exact ⟨r, mem_append_left _ hr, rfl⟩
  have hwith := hwithout.append (e := e) (mem_append_right s.runs mem_cons_self) hid ?_
  · refine ⟨hapart, ?_, ?_⟩
    · rw [hevents, hruns]
      exact hwith.owned
    · unfold logOf
      rw [hevents]
      exact hwith.numbered
  · obtain hempty : logOf run.id { s with runs := s.runs ++ [run] } = [] := hempty
    rw [hempty, hsequence]
    rfl

theorem ClosedBut.create (h : ClosedBut except s) (hnew : ∀ r ∈ s.runs, r.id ≠ run.id)
    (hqueued : run.status = .queued) (hid : e.runID = run.id) (hruns : s'.runs = s.runs ++ [run])
    (hevents : s'.events = s.events ++ [e]) :
    ClosedBut except s' := by
  intro r hr hover hexcept
  rw [hruns, mem_append, mem_singleton] at hr
  cases hr with
  | inl hold =>
    have hother : ¬ e.runID = r.id := by
      rw [hid]
      exact fun hsame => hnew r hold hsame.symm
    have hlog := logOf_append r.id s e
    rw [if_neg hother, append_nil] at hlog
    unfold logOf at hlog ⊢
    rw [hevents, hlog]
    exact h r hold hover hexcept
  | inr hadded =>
    rw [hadded, hqueued] at hover
    cases hover

theorem logOf_deleteRuns (cond : RunRecord → Bool) :
    logOf id (deleteRuns cond s).2 =
      if id ∈ (deleteRuns cond s).2.runs.map RunRecord.id then logOf id s else [] := by
  unfold logOf
  show (s.events.filter fun e => e.runID ∈ (deleteRuns cond s).2.runs.map RunRecord.id).filter
    (fun e => e.runID = id) = _
  rw [filter_filter]
  split
  · rename_i hkept
    apply filter_congr
    intro e _
    by_cases hid : e.runID = id
    · simp [hid, hkept]
    · simp [hid]
  · rename_i hgone
    rw [filter_eq_nil_iff]
    intro e _ hboth
    simp only [Bool.and_eq_true, decide_eq_true_eq] at hboth
    rw [hboth.1] at hboth
    exact hgone hboth.2

theorem Logged.delete (h : Logged s) (cond : RunRecord → Bool) : Logged (deleteRuns cond s).2 := by
  refine ⟨h.apart.delete cond, ?_, ?_⟩
  · intro e he
    obtain ⟨_, hkept⟩ := mem_filter.mp he
    obtain ⟨r, hr, hid⟩ := mem_map.mp (of_decide_eq_true hkept)
    exact ⟨r, hr, hid⟩
  · intro id
    rw [logOf_deleteRuns]
    split
    · exact h.numbered id
    · rfl

theorem ClosedBut.delete (h : ClosedBut except s) (cond : RunRecord → Bool) :
    ClosedBut except (deleteRuns cond s).2 := by
  intro r hr hover hid
  rw [logOf_deleteRuns, if_pos (mem_map_of_mem hr)]
  exact h r (mem_of_mem_filter hr) hover hid

end logs

/-! ### What a request makes of the logs -/

section requests

variable {definitions : Definitions δ} {world : World} {s s' : Store δ}

theorem findRun_ok (h : findRun id s = .ok run) :
    run ∈ s.runs ∧ run.id = id := by
  unfold findRun at h
  split at h
  · rename_i found hfound
    cases h
    exact ⟨mem_of_find?_eq_some hfound, by simpa using find?_some hfound⟩
  · cases h

theorem appendRunEvent_ok {event event' : RunEvent}
    (h : appendRunEvent world event s = .ok (event', s')) :
    ∃ r ∈ s.runs, r.id = trimSpace event.runID ∧ event'.runID = r.id ∧
      event'.type = event.type ∧ event'.status = event.status ∧
      event'.sequence = (((logOf r.id s).map RunEvent.sequence).max?.map (· + 1)).getD 1 ∧
      s' = { s with events := s.events ++ [event'] } := by
  unfold appendRunEvent at h
  dsimp only at h
  split at h
  · cases h
  · obtain ⟨run, hfind, h⟩ := bind_eq_ok.mp h
    rw [pure_eq_ok] at h
    cases h
    obtain ⟨hmem, hid⟩ := findRun_ok hfind
    exact ⟨run, hmem, hid, rfl, rfl, rfl, rfl, rfl⟩

theorem logged_appendRunEvent (h : Logged s) {event event' : RunEvent}
    (happend : appendRunEvent world event s = .ok (event', s')) : Logged s' := by
  obtain ⟨r, hr, _, hid, _, _, hsequence, rfl⟩ := appendRunEvent_ok happend
  apply h.append hr hid
  rw [hsequence, h.numbered, next_numbers]

variable {outcome : ExecutionOutcome} {ownerToken : Text} {status : RunStatus}

theorem closed_completeRunOwned (h : ClosedBut none s) {message : Text} {nowMillis : ℤ}
    {completion : Completion}
    (hcomplete : completeRunOwned world id ownerToken status outcome message nowMillis s =
      .ok (completion, s')) : ClosedBut (some (trimSpace id)) s' := by
  obtain ⟨_, _, _, rfl⟩ := completeRunOwned_ok hcomplete
  intro r hr hover hid
  obtain ⟨r₀, hr₀, rfl⟩ := mem_map.mp hr
  split at hid
  · rename_i howned
    exact absurd (congrArg some (active_of_ownedBy howned).1) hid
  · rename_i hother
    rw [if_neg hother] at hover ⊢
    exact h r₀ hr₀ hover (Option.some_ne_none _)

/-- The requests that write or delete events. -/
def Request.logs : Request δ → Bool
  | .createRun .. | .appendRunEvent _ | .completeRunOwnedWithTerminalEvent .. => true
  | r => r.deletes

theorem events_operationOf (r : Request δ) (hlogs : r.logs = false) {result : r.Result}
    (hop : operationOf definitions world r s = .ok (result, s')) : s'.events = s.events := by
  by_cases hworks : r.works = true
  · obtain ⟨f, rfl, _⟩ := works_operationOf hworks hop
    rfl
  · cases r with
    | saveJob definition =>
      rw [saveJob_state hop, upsertJob]
      split <;> rfl
    | advanceSchedule id scheduledAt next =>
      cases hop
      rfl
    | createRun | appendRunEvent | completeRunOwnedWithTerminalEvent | purgeJob | deleteTerminalRun
    | clearTerminalRuns => cases hlogs
    | _ => exact absurd rfl hworks

theorem over_update {cond : RunRecord → Bool} {f : RunRecord → RunRecord}
    (h : ∀ r ∈ s.runs, cond r → ¬ terminalRunStatus (f r).status)
    (hr : r ∈ (updateRuns cond f s).2.runs) (hover : terminalRunStatus r.status) : r ∈ s.runs := by
  obtain ⟨r₀, hr₀, rfl⟩ := mem_map.mp hr
  split at hover
  · exact absurd hover (h r₀ hr₀ ‹_›)
  · rw [if_neg ‹_›]
    exact hr₀

theorem not_terminal_of_active (h : active status) :
    ¬ terminalRunStatus status :=
  fun hover => not_active_of_terminal hover h

theorem not_terminal_cancelRecord {now : ℤ} {canceledMessage : Text} {otherMessage : Text → Text}
    (hworked : r.status ∉ [RunStatus.queued, .paused]) :
    ¬ terminalRunStatus (cancelRecord now canceledMessage otherMessage r).status := by
  have hidle : ¬ (r.status = .queued ∨ r.status = .paused) := by simpa using hworked
  unfold cancelRecord
  rw [if_neg hidle]
  show ¬ terminalRunStatus .cancelling
  decide

/-- **A request that disturbs no log, and writes none, ends no run.** -/
theorem over_operationOf (r : Request δ) (hlogs : r.logs = false)
    (horder : ∀ run ∈ s.runs, ¬ r.disturbs world run) {result : r.Result}
    (hop : operationOf definitions world r s = .ok (result, s')) (hrun : run ∈ s'.runs)
    (hover : terminalRunStatus run.status) : run ∈ s.runs := by
  cases r with
  | getJob id =>
    rw [getJob_state hop] at hrun
    exact hrun
  | saveJob definition =>
    rw [saveJob_state hop, runs_upsertJob] at hrun
    exact hrun
  | getRun id =>
    rw [getRun_state hop] at hrun
    exact hrun
  | requestCancelRunsForJob jobID nowMillis reason =>
    cases hop
    refine over_update ?_ hrun hover
    intro r hr hcond
    simp only [Bool.and_eq_true, decide_eq_true_eq] at hcond
    apply not_terminal_cancelRecord
    intro hwaiting
    exact horder r hr (decide_eq_true ⟨hcond.1, hwaiting⟩)
  | requestCancelRun id nowMillis =>
    cases hop
    refine over_update ?_ hrun hover
    intro r hr hcond
    simp only [Bool.and_eq_true, decide_eq_true_eq] at hcond
    apply not_terminal_cancelRecord
    intro hwaiting
    exact horder r hr (decide_eq_true ⟨hcond.1, hwaiting⟩)
  | claimRun id nowMillis =>
    cases hop
    refine over_update ?_ hrun hover
    intro r _ _
    show ¬ terminalRunStatus .running
    decide
  | touchRunOwned id ownerToken nowMillis =>
    rw [(touchRunOwned_state hop).2] at hrun
    refine over_update ?_ hrun hover
    intro r _ howned
    exact not_terminal_of_active (active_of_ownedBy howned).2.2
  | updateRunProgressOwned id ownerToken progress nowMillis =>
    rw [(updateRunProgressOwned_state hop).2] at hrun
    refine over_update ?_ hrun hover
    intro r _ hcond
    exact not_terminal_of_active (active_of_runningFor hcond)
  | completeRunOwned id ownerToken status outcome message nowMillis =>
    obtain ⟨_, _, ⟨r, hr, howned⟩, _⟩ := completeRunOwned_ok hop
    exact absurd howned (horder r hr)
  | interruptStaleRuns cutoffMillis nowMillis =>
    obtain hop : interruptStaleRuns world cutoffMillis nowMillis s = .ok (result, s') := hop
    unfold interruptStaleRuns at hop
    dsimp only at hop
    have hnone : s.runs.filter (stale (if cutoffMillis ≤ 0 then timeOr world nowMillis
        else cutoffMillis)) = [] := filter_eq_nil_iff.mpr horder
    rw [hnone] at hop
    cases hop
    exact hrun
  | createRun run policy eventCreatedAt => cases hlogs
  | appendRunEvent event => cases hlogs
  | completeRunOwnedWithTerminalEvent id ownerToken status outcome message nowMillis =>
    cases hlogs
  | purgeJob id => cases hlogs
  | deleteTerminalRun id => cases hlogs
  | clearTerminalRuns jobID => cases hlogs
  | jobExists id =>
    cases hop
    exact hrun
  | listDueJobs nowMillis =>
    cases hop
    exact hrun
  | advanceSchedule id scheduledAt next =>
    cases hop
    exact hrun

theorem deleted_operationOf (r : Request δ) (hdeletes : r.deletes = true) {result : r.Result}
    (hop : operationOf definitions world r s = .ok (result, s')) :
    (s'.runs = s.runs ∧ s'.events = s.events) ∨
      ∃ cond, s'.runs = (deleteRuns cond s).2.runs ∧ s'.events = (deleteRuns cond s).2.events := by
  cases r with
  | purgeJob id =>
    rcases purgeJob_state hop with rfl | rfl
    · exact .inl ⟨rfl, rfl⟩
    · exact .inr ⟨_, rfl, rfl⟩
  | deleteTerminalRun id =>
    rw [deleteTerminalRun_state hop]
    exact .inr ⟨_, rfl, rfl⟩
  | clearTerminalRuns jobID =>
    cases hop
    exact .inr ⟨_, rfl, rfl⟩
  | _ => cases hdeletes

/-- A run that is created comes with the first event of its log. -/
theorem event_createRun {policy : Text} {eventCreatedAt : ℤ}
    {created : RunRecord × RunEvent}
    (h : createRunWithPolicyAndQueuedEvent world run policy eventCreatedAt s =
      .ok (created, s')) :
    created.2.runID = created.1.id ∧ created.2.sequence = 1 ∧
      s'.events = s.events ++ [created.2] := by
  obtain ⟨forbid, _, h⟩ := bind_eq_ok.mp h
  obtain ⟨prepared, _, h⟩ := bind_eq_ok.mp h
  split at h
  · cases h
  · obtain ⟨inserted, hinsert, h⟩ := bind_eq_ok.mp h
    rw [pure_eq_ok] at h
    cases h
    unfold insertRun at hinsert
    split_ifs at hinsert
    cases hinsert
    exact ⟨rfl, rfl, rfl⟩

/-- **Every request keeps the logs numbered.** -/
theorem logged_operationOf (h : Logged s) (r : Request δ) {result : r.Result}
    (hop : operationOf definitions world r s = .ok (result, s')) : Logged s' := by
  have hapart : Exclusive s' := exclusive_operationOf definitions h.apart r hop
  have hids : ∀ {t t' : Store δ} (q : Request δ) {answer : q.Result}, q.deletes = false →
      operationOf definitions world q t = .ok (answer, t') →
      ∀ run ∈ t.runs, ∃ run' ∈ t'.runs, run'.id = run.id := by
    intro t t' q answer hdeletes hop run hrun
    have hturn := runs_operationOf definitions q hop
    rw [hdeletes] at hturn
    generalize t'.runs = runs at hturn
    cases hturn with
    | worked f hf => exact ⟨f run, mem_map_of_mem hrun, (hf run hrun).id_eq⟩
    | added created hcreates hqueued hnew => exact ⟨run, mem_append_left _ hrun, rfl⟩
    | deleted hdeletes cond => cases hdeletes
  by_cases hdeletes : r.deletes = true
  · cases deleted_operationOf r hdeletes hop with
    | inl hsame =>
      refine h.of_events hapart hsame.2 ?_
      rw [hsame.1]
      exact fun run hrun => ⟨run, hrun, rfl⟩
    | inr hdeleted =>
      obtain ⟨cond, hruns, hevents⟩ := hdeleted
      refine (h.delete cond).of_events hapart hevents ?_
      rw [hruns]
      exact fun run hrun => ⟨run, hrun, rfl⟩
  · rw [Bool.not_eq_true] at hdeletes
    by_cases hlogs : r.logs = true
    · cases r with
      | createRun run policy eventCreatedAt =>
        obtain ⟨_, hnew, hruns, _⟩ := runs_createRun hop
        obtain ⟨hid, hsequence, hevents⟩ := event_createRun hop
        exact h.create hapart hnew hid hsequence hruns hevents
      | appendRunEvent event => exact logged_appendRunEvent h hop
      | completeRunOwnedWithTerminalEvent id ownerToken status outcome message nowMillis =>
        obtain ⟨completion, updated, completed, event, hcomplete, _, _, _, _, happend⟩ :=
          completeWithEvent_ok hop
        have hop' : operationOf definitions world (.completeRunOwned id ownerToken status outcome
          message nowMillis) s = .ok (completion, updated) := hcomplete
        have hupdated : Logged updated := by
          refine h.of_events (exclusive_operationOf definitions h.apart _ hop')
            (events_operationOf _ rfl hop') (hids _ rfl hop')
        exact logged_appendRunEvent hupdated happend
      | _ => cases hdeletes.symm.trans hlogs
    · rw [Bool.not_eq_true] at hlogs
      exact h.of_events hapart (events_operationOf r hlogs hop) (hids r hdeletes hop)

/-- **A request that disturbs no log keeps the ends of the logs.** -/
theorem closed_operationOf (h : Logged s) (hclosed : ClosedBut none s) (r : Request δ)
    (horder : ∀ run ∈ s.runs, ¬ r.disturbs world run) {result : r.Result}
    (hop : operationOf definitions world r s = .ok (result, s')) : ClosedBut none s' := by
  by_cases hdeletes : r.deletes = true
  · cases deleted_operationOf r hdeletes hop with
    | inl hsame =>
      refine hclosed.of_events hsame.2 ?_
      rw [hsame.1]
      exact fun run hrun _ _ => hrun
    | inr hdeleted =>
      obtain ⟨cond, hruns, hevents⟩ := hdeleted
      refine (hclosed.delete cond).of_events hevents ?_
      rw [hruns]
      exact fun run hrun _ _ => hrun
  · rw [Bool.not_eq_true] at hdeletes
    by_cases hlogs : r.logs = true
    · cases r with
      | createRun run policy eventCreatedAt =>
        obtain ⟨hqueued, hnew, hruns, _⟩ := runs_createRun hop
        obtain ⟨hid, _, hevents⟩ := event_createRun hop
        exact hclosed.create hnew hqueued hid hruns hevents
      | appendRunEvent event =>
        obtain ⟨run, hrun, hfound, hid, htype, hstatus, _, rfl⟩ := appendRunEvent_ok hop
        refine hclosed.append h.apart hrun hid (.inl rfl) ?_
        intro hover
        by_contra hother
        refine horder run hrun (decide_eq_true ⟨hfound, hover, ?_⟩)
        unfold Records at hother ⊢
        rwa [← htype, ← hstatus]
      | completeRunOwnedWithTerminalEvent id ownerToken status outcome message nowMillis =>
        obtain ⟨completion, updated, completed, event, hcomplete, hfind, hrunID, htype, hstatus,
          happend⟩ := completeWithEvent_ok hop
        have hopen := closed_completeRunOwned hclosed hcomplete
        have hcomplete' : operationOf definitions world (.completeRunOwned id ownerToken status
          outcome message nowMillis) s = .ok (completion, updated) := hcomplete
        have hapart := exclusive_operationOf definitions h.apart _ hcomplete'
        obtain ⟨run, hrun, hid, hlogged, htype', hstatus', _, rfl⟩ := appendRunEvent_ok happend
        obtain ⟨_, hstatusOf, ⟨r₀, hr₀, howned⟩, hupdated⟩ := completeRunOwned_ok hcomplete
        have hname := (findRun_ok hfind).2
        rw [hrunID, hname, trimSpace_trimSpace] at hid
        -- the run that the event is of is the one that has been completed
        have hended : completion.apply r₀ ∈ updated.runs := by
          rw [hupdated]
          exact mem_map.mpr ⟨r₀, hr₀, if_pos howned⟩
        have hsame : completion.apply r₀ = run :=
          hapart.eq_of_id hended hrun ((active_of_ownedBy howned).1.trans hid.symm)
        have hsame' : completed = run :=
          hapart.eq_of_id (findRun_ok hfind).1 hrun (hname.trans hid.symm)
        refine hopen.append hapart hrun hlogged (.inr (congrArg some hid.symm)) ?_
        intro _
        constructor
        · rw [htype', htype, ← hsame]
          exact congrArg terminalEventTypeForStatus hstatusOf.symm
        · rw [hstatus', hstatus, hsame']
      | _ => cases hdeletes.symm.trans hlogs
    · rw [Bool.not_eq_true] at hlogs
      exact hclosed.of_events (events_operationOf r hlogs hop) fun run hrun hover _ =>
        over_operationOf r hlogs horder hop hrun hover

end requests

/-! ### The law -/

section law

variable (definitions : Definitions δ) (validJSON : Text → Bool)

theorem logged_serve (s : Tables δ) (r : TableRequest δ) (world : World) (h : Logged s.store) :
    Logged (serveTable definitions validJSON s r world).2.store := by
  cases store_of_tableStep definitions validJSON s ⟨r, world⟩ with
  | inl hsame =>
    obtain hsame : (serveTable definitions validJSON s r world).2.store = s.store := hsame
    rw [hsame]
    exact h
  | inr hstore =>
    obtain ⟨request, world', result, hrequest, _, hop⟩ := hstore
    cases hrequest
    exact logged_operationOf h request hop

theorem closed_serve (s : Tables δ) (r : TableRequest δ) (world : World)
    (horder : InOrder s r world) (h : Logged s.store) (hclosed : ClosedBut none s.store) :
    ClosedBut none (serveTable definitions validJSON s r world).2.store := by
  cases store_of_tableStep definitions validJSON s ⟨r, world⟩ with
  | inl hsame =>
    obtain hsame : (serveTable definitions validJSON s r world).2.store = s.store := hsame
    rw [hsame]
    exact hclosed
  | inr hstore =>
    obtain ⟨request, world', result, hrequest, _, hop⟩ := hstore
    cases hrequest
    exact closed_operationOf h hclosed request horder hop

theorem logged_empty : Logged (Tables.empty : Tables δ).store := by
  refine ⟨exclusive_empty, ?_, fun _ => rfl⟩
  intro e he
  cases he

theorem closed_empty : ClosedBut none (Tables.empty : Tables δ).store := by
  intro r hr
  cases hr

/-- **The numbers of a log have no gap**, in every state that callers reach; **and a run that is
over has the event of its terminal status at the end of its log**, when no request ended a run
without its event, and none was appended behind an end. -/
theorem terminal_event_last (moves : List (Move (LogOperation δ) World)) :
    let c := Machine.run (logStep definitions validJSON) ⟨Tables.empty, []⟩ moves
    (∀ r ∈ c.state.store.runs, (logOf r.id c.state.store).map RunEvent.sequence =
      numbers (logOf r.id c.state.store).length) ∧
    (Machine.Along (logStep definitions validJSON) (Serves InOrder) ⟨Tables.empty, []⟩ moves →
      ∀ r ∈ c.state.store.runs, terminalRunStatus r.status →
        ∃ e, (logOf r.id c.state.store).getLast? = some e ∧ Records e r) := by
  intro c
  constructor
  · intro r _
    have hlogged : Logged c.state.store :=
      state_of_served (serveTable definitions validJSON) (logProgram definitions)
        (P := fun s : Tables δ => Logged s.store) (logged_serve definitions validJSON)
        logged_empty moves
    exact hlogged.numbered r.id
  · intro hmoves r hr hover
    have hboth : Logged c.state.store ∧ ClosedBut none c.state.store := by
      refine state_of_serves (serveTable definitions validJSON) (logProgram definitions)
        (P := fun s : Tables δ => Logged s.store ∧ ClosedBut none s.store) ?_ ?_ hmoves
      · intro s r world horder h
        exact ⟨logged_serve definitions validJSON s r world h.1,
          closed_serve definitions validJSON s r world horder h.1 h.2⟩
      · exact ⟨logged_empty, closed_empty⟩
    exact hboth.2 r hr hover (Option.some_ne_none _)

end law

/-- An execution that succeeds at once. -/
def briefExecution : Execution :=
  let done : Ending := ⟨.succeeded, ⟨3, 0, 0, 0, [], false⟩, bytes "done"⟩
  ⟨none, none, [], [], false, done, done, false⟩

def drawn : World := ⟨5000, bytes "8f14e45f", none⟩

theorem minuteJob_named : trimSpace minuteJob.id ≠ [] := by decide

/-- A job is saved, and a run of it is started and dispatched up to the end of its execution. -/
def dispatchedMoves : List (Move (LogOperation Unit) World) :=
  [.start (.lifecycle (.putJob { minuteJob with revision := 0 } 5000 minuteJob_named)),
    .serve 0 drawn, .start (.lifecycle (.startRun (bytes "job-1") 5000)), .serve 1 drawn,
    .serve 1 drawn, .start (.dispatch (bytes "sync-run-8f14e45f") 5000 briefExecution),
    .serve 2 drawn, .serve 2 drawn, .serve 2 drawn, .serve 2 drawn, .serve 2 drawn, .serve 2 drawn]

/-- The run ends and nothing else happens. -/
theorem terminal_event_last_dispatched :
    let c := Machine.run (logStep minuteDefinitions fun _ => true) ⟨Tables.empty, []⟩
      (dispatchedMoves ++ [.serve 2 drawn])
    c.state.store.runs.map RunRecord.status = [.succeeded] ∧
      ∀ r ∈ c.state.store.runs, terminalRunStatus r.status →
        ∃ e, (logOf r.id c.state.store).getLast? = some e ∧ Records e r := by
  have horder : Machine.Along (logStep minuteDefinitions fun _ => true) (Serves InOrder)
      ⟨Tables.empty, []⟩ (dispatchedMoves ++ [.serve 2 drawn]) := by decide
  have hlaw := terminal_event_last minuteDefinitions (fun _ => true)
    (dispatchedMoves ++ [.serve 2 drawn])
  exact ⟨by decide, hlaw.2 horder⟩

/-- The run is asked to stop, ends, and gets the event of the request behind the terminal one. -/
def canceledLate : List (Move (LogOperation Unit) World) :=
  dispatchedMoves ++ [.start (.cancelRun (bytes "sync-run-8f14e45f") 6000), .serve 3 drawn,
    .serve 3 drawn, .serve 2 drawn, .serve 3 drawn]

/-- **The event of a cancellation may follow the terminal event.** -/
theorem terminal_event_last_fails :
    ¬ ∀ moves : List (Move (LogOperation Unit) World),
      let c := Machine.run (logStep minuteDefinitions fun _ => true) ⟨Tables.empty, []⟩ moves
      ∀ r ∈ c.state.store.runs,
        (logOf r.id c.state.store).map RunEvent.sequence =
          numbers (logOf r.id c.state.store).length ∧
        (terminalRunStatus r.status →
          ∃ e, (logOf r.id c.state.store).getLast? = some e ∧ Records e r) := by
  intro h
  have hlate : ∃ r ∈ (Machine.run (logStep minuteDefinitions fun _ => true) ⟨Tables.empty, []⟩
      canceledLate).state.store.runs, terminalRunStatus r.status ∧
      ((logOf r.id (Machine.run (logStep minuteDefinitions fun _ => true) ⟨Tables.empty, []⟩
        canceledLate).state.store).getLast?.map RunEvent.type) = some .cancelling := by
    decide
  obtain ⟨r, hr, hover, hlast⟩ := hlate
  obtain ⟨e, he, hrecords⟩ := (h canceledLate r hr).2 hover
  rw [he] at hlast
  obtain htype : e.type = .cancelling := Option.some.inj hlast
  have hkind := hrecords.1.symm.trans htype
  cases hstatus : r.status <;> rw [hstatus] at hkind <;> cases hkind

end GoNavi.Syncjob
