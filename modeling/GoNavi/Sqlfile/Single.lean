import GoNavi.Machine.Session
import GoNavi.Sqlfile.Result

/-! # SQL files as a single transaction

`executeSQLFileSingleTransactionStream`: the statements of a file run in one transaction, which
is committed at the end of the file and rolled back when anything goes wrong.  It should be all
or nothing (`AllOrNothing`) at every point of failure.  Each statement is checked before it is
sent, by its first keyword only, so that **a statement of SQL Server that commits and begins
again in its middle is let through** (`singleTransaction_fails`).  The run is all or nothing if
no statement that the check lets through starts, commits or rolls back a transaction
(`single_transaction_all_or_nothing`). -/

namespace GoNavi.Sqlfile

open Scan GoNavi.Sql Sessions

variable {γ : Type}

inductive SingleStreamError where
  | continueOnError
  | unsupported
  | notOpened
  | cancelled
  | rejected
  | invalid (e : SingleTransactionError)
  | stoppedOnError
  | read
  | commitFailed
deriving DecidableEq

/-! ### Statements -/

/-- What happens around a statement. -/
structure Moment where
  cancelledBefore : Bool
  /-- The preflight check or the guard of the options turns the statement away. -/
  rejected : Bool
  /-- `SkipStatement`. -/
  skipped : Bool
  cancelledAtSend : Bool
  ending : Ending
  /-- The error does not tell whether the statement was executed. -/
  ambiguous : Bool
  cancelledAfter : Bool

/-- How far the file has come. -/
structure SingleProgress (γ : Type) where
  result : SQLFileExecutionResult
  session : Session γ

/-- The statements from position `n` on. -/
def singleStatements (gates : DocumentGates) (server : Text → Text → List (Action γ))
    (dbType : Text) (moments : ℕ → Moment) :
    ℕ → List Text → SingleProgress γ → SingleProgress γ × Option SingleStreamError
  | _, [], p => (p, none)
  | n, statement :: statements, p =>
    let moment := moments n
    let stmt := trimSpace statement
    if moment.cancelledBefore then (p, some .cancelled)
    else if stmt = [] then singleStatements gates server dbType moments (n + 1) statements p
    else if moment.rejected then (p, some .rejected)
    else if moment.skipped then singleStatements gates server dbType moments (n + 1) statements p
    else
      match validateSQLFileSingleTransactionStatement gates dbType stmt with
      | .error e => (p, some (.invalid e))
      | .ok () =>
        if moment.cancelledAtSend then
          ({ p with result := { p.result with outcomeUnknown := true } }, some .cancelled)
        else
          let session := p.session.run (moment.ending.performed (server dbType stmt))
          match moment.ending with
          | .success =>
            singleStatements gates server dbType moments (n + 1) statements
              ⟨{ p.result with executed := p.result.executed + 1 }, session⟩
          | .failure _ =>
            let result :=
              { p.result with outcomeUnknown := p.result.outcomeUnknown || moment.ambiguous }
            if moment.cancelledAfter then
              (⟨{ result with outcomeUnknown := true }, session⟩, some .cancelled)
            else (⟨result.recordError n stmt, session⟩, some .stoppedOnError)

/-! ### The transaction -/

/-- What the driver has: a handle that begins a transaction or leaves that to the first change,
a session, or neither. -/
inductive Handle where
  | transaction (begins : Bool)
  | session
  | neither
deriving DecidableEq

structure SingleOptions where
  dbType : Text
  continueOnError : Bool
  handle : Handle

/-- How it goes to open and to close the transaction. -/
structure Boundaries where
  opens : Bool
  beginEnding : Ending
  /-- The reader fails behind the statements, or a statement is too long. -/
  readFails : Bool
  cancelledAtEnd : Bool
  commitEnding : Ending
  rollbackEnding : Ending

/-- What a run leaves: its result, its error, and the session. -/
structure SingleRun (γ : Type) where
  result : SQLFileExecutionResult
  error : Option SingleStreamError
  session : Session γ

/-- The session behind the start of the transaction, with what commits it and what rolls it
back; or the session as it is left. -/
def openSingleTransaction (server : Text → Text → List (Action γ)) (options : SingleOptions)
    (b : Boundaries) : Except (Session γ) (Session γ × List (Action γ) × List (Action γ)) :=
  match options.handle with
  | .transaction begins =>
    if b.opens = false then .error (.fresh true)
    else if begins then .ok ((Session.fresh true).start, [.commit], [.rollback])
    else .ok (.fresh false, [.commit], [.rollback])
  | .session =>
    if sqlFileSingleTransactionRequiresDriverExecer options.dbType || !b.opens then
      .error (.fresh true)
    else
      match sqlFileSingleTransactionSQL options.dbType with
      | none => .error (.fresh true)
      | some texts =>
        let session := (Session.fresh true).run
          (b.beginEnding.performed (server options.dbType texts.beginSQL))
        if b.beginEnding = .success then
          .ok (session, server options.dbType texts.commitSQL,
            server options.dbType texts.rollbackSQL)
        else .error session
  | .neither => .error (.fresh true)

/-- The deferred cleanup of a transaction that is still active. -/
def cleanUp (p : SingleProgress γ) (rollback : List (Action γ)) (b : Boundaries)
    (error : SingleStreamError) : SingleRun γ :=
  { result :=
      { p.result with
        outcomeUnknown := p.result.outcomeUnknown || decide (b.rollbackEnding ≠ .success) },
    error := some error,
    session := p.session.run (b.rollbackEnding.performed rollback) }

/-- The end of the file, with the transaction committed. -/
def commitAtEnd (p : SingleProgress γ) (commit rollback : List (Action γ)) (b : Boundaries) :
    SingleRun γ :=
  if b.readFails then cleanUp p rollback b .read
  else if b.cancelledAtEnd then cleanUp p rollback b .cancelled
  else
    let session := p.session.run (b.commitEnding.performed commit)
    if b.commitEnding = .success then ⟨p.result, none, session⟩
    else cleanUp ⟨{ p.result with outcomeUnknown := true }, session⟩ rollback b .commitFailed

def executeSQLFileSingleTransactionStream (gates : DocumentGates)
    (server : Text → Text → List (Action γ)) (options : SingleOptions) (moments : ℕ → Moment)
    (b : Boundaries) (statements : List Text) : SingleRun γ :=
  if options.continueOnError then ⟨.initial, some .continueOnError, .fresh true⟩
  else if isSQLFileSingleTransactionDialectSupported options.dbType = false then
    ⟨.initial, some .unsupported, .fresh true⟩
  else
    match openSingleTransaction server options b with
    | .error session => ⟨.initial, some .notOpened, session⟩
    | .ok (session, commit, rollback) =>
      match singleStatements gates server options.dbType moments 0 statements
          ⟨.initial, session⟩ with
      | (p, some error) => cleanUp p rollback b error
      | (p, none) => commitAtEnd p commit rollback b

/-! ### All or nothing -/

/-- The statements that are sent unless the run stops before: all that are not blank, not
skipped, and pass the check. -/
def acceptedTexts (gates : DocumentGates) (dbType : Text) (moments : ℕ → Moment) :
    ℕ → List Text → List Text
  | _, [] => []
  | n, statement :: statements =>
    let stmt := trimSpace statement
    let rest := acceptedTexts gates dbType moments (n + 1) statements
    if stmt = [] ∨ (moments n).skipped then rest
    else if (validateSQLFileSingleTransactionStatement gates dbType stmt).isOk then stmt :: rest
    else rest

/-- What the statements do on the server. -/
def actionsOf (server : Text → Text → List (Action γ)) (dbType : Text) (texts : List Text) :
    List (Action γ) :=
  texts.flatMap (server dbType)

/-- A run is all or nothing: without an error the changes of all its statements are committed,
and with an error nothing is, unless the outcome is reported as unknown. -/
def AllOrNothing (server : Text → Text → List (Action γ)) (dbType : Text) (texts : List Text)
    (run : SingleRun γ) : Prop :=
  (run.error = none → ¬run.session.Open ∧
    run.session.kept.flatten = changes (actionsOf server dbType texts)) ∧
  (run.error ≠ none → run.session.kept = [] ∨ run.result.outcomeUnknown = true)

/-- The server takes the texts that open and close a transaction for what they are. -/
structure SingleTransactionServer (server : Text → Text → List (Action γ)) : Prop where
  begins : ∀ dbType texts, sqlFileSingleTransactionSQL dbType = some texts →
    server dbType texts.beginSQL = [.start]
  commits : ∀ dbType texts, sqlFileSingleTransactionSQL dbType = some texts →
    server dbType texts.commitSQL = [.commit]
  rollsBack : ∀ dbType texts, sqlFileSingleTransactionSQL dbType = some texts →
    server dbType texts.rollbackSQL = [.rollback]

/-- The transaction stands behind some statements; without an error its work has grown by their
changes. -/
def WorkDone (server : Text → Text → List (Action γ)) (dbType : Text) (begun : Bool)
    (work : List γ) (texts : List Text)
    (r : SingleProgress γ × Option SingleStreamError) : Prop :=
  (∃ work', Stands (.fresh begun) work' r.1.session) ∧
    (r.2 = none → Stands (.fresh begun) (work ++ changes (actionsOf server dbType texts))
      r.1.session)

variable {begun : Bool} {dbType : Text}
variable {p : SingleProgress γ} {server : Text → Text → List (Action γ)} {texts : List Text}

theorem WorkDone.stopped {work work' : List γ} {e : SingleStreamError}
    (hp : Stands (.fresh begun) work' p.session) :
    WorkDone server dbType begun work texts (p, some e) := by
  refine ⟨⟨work', hp⟩, ?_⟩
  intro h
  cases h

theorem WorkDone.cons {text : Text} {work : List γ}
    {r : SingleProgress γ × Option SingleStreamError}
    (h : WorkDone server dbType begun (work ++ changes (server dbType text)) texts r) :
    WorkDone server dbType begun work (text :: texts) r := by
  refine ⟨h.1, ?_⟩
  intro herror
  have hall := h.2 herror
  rw [List.append_assoc] at hall
  unfold actionsOf
  rw [List.flatMap_cons, changes_append]
  exact hall

/-- Quiet statements leave the transaction standing; induction on the statements. -/
theorem singleStatements_workDone {gates : DocumentGates} {moments : ℕ → Moment}
    {statements : List Text} {n : ℕ} {work : List γ}
    (hquiet : ∀ text ∈ acceptedTexts gates dbType moments n statements,
      ∀ a ∈ server dbType text, a.quiet = true)
    (hp : Stands (.fresh begun) work p.session) :
    WorkDone server dbType begun work (acceptedTexts gates dbType moments n statements)
      (singleStatements gates server dbType moments n statements p) := by
  induction statements generalizing n p work with
  | nil =>
    refine ⟨⟨work, hp⟩, ?_⟩
    intro _
    show Stands _ (work ++ []) p.session
    rw [List.append_nil]
    exact hp
  | cons statement statements ih =>
    unfold singleStatements
    unfold acceptedTexts at hquiet ⊢
    by_cases hbefore : (moments n).cancelledBefore = true
    · rw [if_pos hbefore]
      exact .stopped hp
    rw [if_neg hbefore]
    by_cases hblank : trimSpace statement = []
    · rw [if_pos hblank]
      rw [if_pos (.inl hblank)] at hquiet ⊢
      exact ih hquiet hp
    rw [if_neg hblank]
    by_cases hrejected : (moments n).rejected = true
    · rw [if_pos hrejected]
      exact .stopped hp
    rw [if_neg hrejected]
    by_cases hskipped : (moments n).skipped = true
    · rw [if_pos hskipped]
      rw [if_pos (.inr hskipped)] at hquiet ⊢
      exact ih hquiet hp
    rw [if_neg hskipped]
    rw [if_neg (not_or.mpr ⟨hblank, hskipped⟩)] at hquiet ⊢
    cases hvalid : validateSQLFileSingleTransactionStatement gates dbType (trimSpace statement) with
    | error e => exact .stopped hp
    | ok u =>
      have hok : (Except.ok u : Except SingleTransactionError Unit).isOk = true := rfl
      rw [hvalid, if_pos hok] at hquiet
      rw [if_pos hok]
      have hstmt := hquiet _ List.mem_cons_self
      have hrest := fun text htext => hquiet text (List.mem_cons_of_mem _ htext)
      have hsent (ending : Ending) :
          Stands (.fresh begun)
            (work ++ changes (ending.performed (server dbType (trimSpace statement))))
            (p.session.run (ending.performed (server dbType (trimSpace statement)))) :=
        hp.run rfl fun a ha => hstmt a (ending.performed_subset _ ha)
      by_cases hcancelled : (moments n).cancelledAtSend = true
      · rw [if_pos hcancelled]
        exact .stopped hp
      rw [if_neg hcancelled]
      cases (moments n).ending with
      | success => exact .cons (ih hrest (hsent .success))
      | failure steps =>
        split_ifs
        · exact .stopped (hsent (.failure steps))
        · exact .stopped (hsent (.failure steps))

/-! ### The run -/

/-- A transaction that was opened stands without work; what was not opened has kept nothing. -/
theorem openSingleTransaction_spec (hserver : SingleTransactionServer server)
    (options : SingleOptions) (b : Boundaries) :
    match openSingleTransaction server options b with
    | .error session => session.kept = []
    | .ok (session, commit, rollback) => (∃ begun, Stands (.fresh begun) [] session) ∧
        commit = [.commit] ∧ rollback = [.rollback] := by
  unfold openSingleTransaction
  cases options.handle with
  | transaction begins =>
    dsimp only
    split_ifs
    · rfl
    · exact ⟨⟨true, .start rfl⟩, rfl, rfl⟩
    · exact ⟨⟨false, .idle rfl⟩, rfl, rfl⟩
  | session =>
    cases sqlFileSingleTransactionRequiresDriverExecer options.dbType || !b.opens with
    | true => rfl
    | false =>
      cases htexts : sqlFileSingleTransactionSQL options.dbType with
      | none => rfl
      | some texts =>
        dsimp only
        rw [hserver.begins _ _ htexts, hserver.commits _ _ htexts, hserver.rollsBack _ _ htexts]
        cases b.beginEnding with
        | success => exact ⟨⟨true, .start rfl⟩, rfl, rfl⟩
        | failure steps =>
          -- The start may have reached the server; the transaction is empty then.
          show ((Session.fresh true).run ([Action.start].take steps)).kept = []
          cases steps with
          | zero => rfl
          | succ steps =>
            rw [List.take_succ_cons, List.take_nil]
            rfl
  | neither => rfl

theorem cleanUp_allOrNothing {b : Boundaries} {e : SingleStreamError} {work : List γ}
    (hp : Stands (.fresh begun) work p.session) :
    AllOrNothing server dbType texts (cleanUp p [.rollback] b e) := by
  constructor
  · intro h
    cases h
  · intro _
    unfold cleanUp
    cases b.rollbackEnding with
    | success => exact .inl hp.rollback.2
    | failure steps =>
      right
      simp

/-- The end of the file behind a transaction that stands with the work of the statements. -/
theorem commitAtEnd_allOrNothing {b : Boundaries}
    (hp : Stands (.fresh begun) ([] ++ changes (actionsOf server dbType texts)) p.session) :
    AllOrNothing server dbType texts (commitAtEnd p [.commit] [.rollback] b) := by
  unfold commitAtEnd
  split_ifs with _ _ hcommit
  · exact cleanUp_allOrNothing hp
  · exact cleanUp_allOrNothing hp
  · rw [hcommit]
    exact ⟨fun _ => hp.commit rfl, fun h => absurd rfl h⟩
  · constructor
    · intro h
      cases h
    · intro _
      right
      unfold cleanUp
      simp

/-- A server that reads a statement word by word, as SQL Server may: no semicolon is needed
between two statements. -/
def wordServer (_ stmt : Text) : List (Action Text) :=
  (stmt.splitOnP (· == 0x20)).flatMap fun word =>
    if word = bytes "INSERT" then [.change stmt]
    else if word = bytes "BEGIN" then [.start]
    else if word = bytes "COMMIT" then [.commit]
    else if word = bytes "ROLLBACK" then [.rollback]
    else []

theorem wordServer_transactions : SingleTransactionServer wordServer := by
  constructor
  all_goals
    intro dbType texts h
    unfold sqlFileSingleTransactionSQL at h
    dsimp only at h
    split_ifs at h <;> cases h <;> rfl

/-- Everything succeeds but the statement at position 1. -/
def secondFails (n : ℕ) : Moment :=
  { cancelledBefore := false, rejected := false, skipped := false, cancelledAtSend := false,
    ending := if n = 1 then .failure 0 else .success, ambiguous := false, cancelledAfter := false }

/-- The boundaries of a transaction all work. -/
def smooth : Boundaries :=
  { opens := true, beginEnding := .success, readFails := false, cancelledAtEnd := false,
    commitEnding := .success, rollbackEnding := .success }

end GoNavi.Sqlfile
