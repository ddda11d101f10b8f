import GoNavi.Machine.Answers
import GoNavi.Machine.Chase
import GoNavi.Syncjob.EventLog
import GoNavi.Syncjob.Lifecycle

/-! # Resuming a run

`ResumeRun` continues from the checkpoint of the job if the run that has written it is the run that
is resumed, or one that this run follows.  `checkpointBelongsToRunLineage` looks for it along the
parents of the run, and remembers the runs that it has visited.

**The check ends on every graph of parents, and holds if and only if the run of the checkpoint is
in the lineage and matches; a run is created only when it holds** (`lineage_checked`).  A checkpoint
without a revision matches the runs of all revisions. -/

namespace GoNavi.Syncjob

open Scan Chase List
open Program (Gets)

variable {δ : Type}

/-! ### Lineages -/

/-- The runs that a run follows, inside its job. -/
inductive Lineage (s : Store δ) (start : RunRecord) : RunRecord → Prop where
  | start : Lineage s start start
  | parent {run parent : RunRecord} (hrun : Lineage s start run)
      (hnamed : trimSpace run.parentRunID ≠ [])
      (hfound : findRun (trimSpace run.parentRunID) s = .ok parent)
      (hjob : parent.jobID = start.jobID) : Lineage s start parent

section check

variable (definitions : Definitions δ)

/-- The run is that of the checkpoint, with its revision, unless it has none, and with the plan. -/
structure WroteCheckpoint (checkpoint : Checkpoint) (expectedPlanHash : Text) (run : RunRecord) :
    Prop where
  id : run.id = checkpoint.runID
  revision : checkpoint.definitionRevision = 0 ∨ checkpoint.definitionRevision = run.jobRevision
  plan : ∃ definition, definitions.decodeRunDefinition run = .ok definition ∧
    definitions.executionPlanHash definition = .ok expectedPlanHash

/-- The checkpoint is one of the job, and has been written by a run of the lineage. -/
structure InLineage (s : Store δ) (parent : RunRecord) (checkpoint : Checkpoint)
    (definition : JobDefinition δ) : Prop where
  job : checkpoint.jobID = parent.jobID
  named : trimSpace checkpoint.runID ≠ []
  wrote : ∃ expectedPlanHash, definitions.executionPlanHash definition = .ok expectedPlanHash ∧
    ∃ run, Lineage s parent run ∧ WroteCheckpoint definitions checkpoint expectedPlanHash run

/-! ### The loop -/

/-- What a turn of the loop answers without looking up another run. -/
def lineageVerdict (parent : RunRecord) (checkpoint : Checkpoint) (expectedPlanHash : Text)
    (candidate : RunRecord) : Option (Except Err Bool) :=
  if candidate.jobID ≠ parent.jobID then some (.ok false)
  else if candidate.id = checkpoint.runID then
    if checkpoint.definitionRevision ≠ 0 ∧
        checkpoint.definitionRevision ≠ candidate.jobRevision then some (.ok false)
    else
      match definitions.decodeRunDefinition candidate with
      | .error err => some (.error (.other err))
      | .ok candidateDefinition =>
        match definitions.executionPlanHash candidateDefinition with
        | .error err => some (.error (.other err))
        | .ok candidatePlanHash => some (.ok (candidatePlanHash = expectedPlanHash))
  else if trimSpace candidate.parentRunID = [] then some (.ok false)
  else none

/-- The loop over the runs of a store. -/
def lineageSearch (s : Store δ) (parent : RunRecord) (checkpoint : Checkpoint)
    (expectedPlanHash : Text) : Search RunRecord Text (Except Err Bool) where
  name := RunRecord.id
  settles := lineageVerdict definitions parent checkpoint expectedPlanHash
  follow candidate := (findRun (trimSpace candidate.parentRunID) s).mapError .error
  repeated := .ok false

/-- `checkpointBelongsToRunLineage` on the runs of a store, if it returns within these turns of its
loop. -/
def lineageAnswer (s : Store δ) (parent : RunRecord) (checkpoint : Checkpoint)
    (definition : JobDefinition δ) (turns : ℕ) : Option (Except Err Bool) :=
  if checkpoint.jobID ≠ parent.jobID ∨ trimSpace checkpoint.runID = [] then some (.ok false)
  else
    match definitions.executionPlanHash definition with
    | .error err => some (.error (.other err))
    | .ok expectedPlanHash =>
      (lineageSearch definitions s parent checkpoint expectedPlanHash).chase turns [] parent

end check

variable {run : RunRecord}

section graph

variable {definitions : Definitions δ} {s : Store δ} {parent candidate : RunRecord}
  {checkpoint : Checkpoint} {expectedPlanHash : Text}

theorem lineageVerdict_eq_true :
    lineageVerdict definitions parent checkpoint expectedPlanHash candidate = some (.ok true) ↔
      candidate.jobID = parent.jobID ∧
        WroteCheckpoint definitions checkpoint expectedPlanHash candidate := by
  unfold lineageVerdict
  constructor
  · intro h
    split at h
    · cases h
    · rename_i hjob
      split at h
      · rename_i hid
        split at h
        · cases h
        · rename_i hrevision
          split at h
          · cases h
          · rename_i definition hdecode
            split at h
            · cases h
            · rename_i hash hhash
              refine ⟨not_not.mp hjob, hid, by omega, definition, hdecode, ?_⟩
              have hsame := Except.ok.inj (Option.some.inj h)
              rw [hhash, of_decide_eq_true hsame]
      · split at h <;> cases h
  · rintro ⟨hjob, hid, hrevision, definition, hdecode, hhash⟩
    rw [if_neg (not_not.mpr hjob), if_pos hid, if_neg (by omega), hdecode]
    dsimp only
    rw [hhash]
    simp

theorem lineageVerdict_eq_none
    (h : lineageVerdict definitions parent checkpoint expectedPlanHash candidate = none) :
    candidate.jobID = parent.jobID ∧ candidate.id ≠ checkpoint.runID ∧
      trimSpace candidate.parentRunID ≠ [] := by
  unfold lineageVerdict at h
  split at h
  · cases h
  · split at h
    · split at h
      · cases h
      · split at h
        · cases h
        · split at h <;> cases h
    · split at h
      · cases h
      · exact ⟨not_not.mp ‹_›, ‹_›, ‹_›⟩

/-- The runs that are found by their names. -/
def namedRuns (s : Store δ) : List RunRecord :=
  s.runs.filter fun run => findRun run.id s = .ok run

theorem mem_namedRuns : run ∈ namedRuns s ↔ findRun run.id s = .ok run := by
  unfold namedRuns
  rw [mem_filter, decide_eq_true_eq, and_iff_right_iff_imp]
  exact fun h => (findRun_ok h).1

theorem mem_namedRuns_of_found {id : Text} (h : findRun id s = .ok candidate) :
    candidate ∈ namedRuns s := by
  rw [mem_namedRuns, (findRun_ok h).2]
  exact h

theorem within_namedRuns :
    (lineageSearch definitions s parent checkpoint expectedPlanHash).Within (namedRuns s) where
  closed := by
    intro run _ next hfollow
    exact mem_namedRuns_of_found (Fallible.mapError_eq_ok.mp hfollow)
  named := by
    intro run hrun other hother hname
    have hsame : run.id = other.id := hname
    have hfound := mem_namedRuns.mp hrun
    rw [hsame, mem_namedRuns.mp hother] at hfound
    exact (Except.ok.inj hfound).symm

/-- What the search reaches from a run of the lineage is in the lineage, when it settles nothing
else; induction on the links. -/
theorem lineage_of_reaches {last : RunRecord} (hrun : Lineage s parent run)
    (hreaches : (lineageSearch definitions s parent checkpoint expectedPlanHash).Reaches run last)
    (hjob : last.jobID = parent.jobID) : Lineage s parent last := by
  induction hreaches with
  | here run => exact hrun
  | next hgoes hfollow hreaches ih =>
    refine ih (.parent hrun (lineageVerdict_eq_none hgoes).2.2
      (Fallible.mapError_eq_ok.mp hfollow) ?_) hjob
    cases hreaches with
    | here => exact hjob
    | next hgoes' => exact (lineageVerdict_eq_none hgoes').1

theorem reaches_trans {search : Search RunRecord Text (Except Err Bool)} {a b c : RunRecord}
    (hab : search.Reaches a b) (hgoes : search.settles b = none)
    (hfollow : search.follow b = .ok c) : search.Reaches a c := by
  induction hab with
  | here b => exact .next hgoes hfollow (.here c)
  | next hgoes' hfollow' _ ih => exact .next hgoes' hfollow' (ih hgoes hfollow)

theorem lineage_job (h : Lineage s parent run) : run.jobID = parent.jobID := by
  cases h with
  | start => rfl
  | parent _ _ _ hjob => exact hjob

theorem lineage_named (hparent : parent ∈ namedRuns s) (h : Lineage s parent run) :
    run ∈ namedRuns s := by
  cases h with
  | start => exact hparent
  | parent _ _ hfound _ => exact mem_namedRuns_of_found hfound

/-- The search reaches the runs of the lineage up to the run of the checkpoint; induction on the
lineage. -/
theorem reaches_of_lineage (h : Lineage s parent run) :
    (lineageSearch definitions s parent checkpoint expectedPlanHash).Reaches parent run ∨
      ∃ last, Lineage s parent last ∧ last.id = checkpoint.runID ∧
        (lineageSearch definitions s parent checkpoint expectedPlanHash).Reaches parent last := by
  induction h with
  | start => exact .inl (.here parent)
  | @parent run next hrun hnamed hfound hjob ih =>
    cases ih with
    | inr hlast => exact .inr hlast
    | inl hreaches =>
      by_cases hid : run.id = checkpoint.runID
      · exact .inr ⟨run, hrun, hid, hreaches⟩
      · have hgoes : lineageVerdict definitions parent checkpoint expectedPlanHash run = none := by
          unfold lineageVerdict
          rw [if_neg (not_not.mpr (lineage_job hrun)), if_neg hid, if_neg hnamed]
        exact .inl (reaches_trans hreaches hgoes (Fallible.mapError_eq_ok.mpr hfound))

/-- The search finds the run of the checkpoint if and only if it is in the lineage. -/
theorem reaches_iff_lineage (hparent : parent ∈ namedRuns s) :
    (∃ run, (lineageSearch definitions s parent checkpoint expectedPlanHash).Reaches parent run ∧
        lineageVerdict definitions parent checkpoint expectedPlanHash run = some (.ok true)) ↔
      ∃ run, Lineage s parent run ∧
        WroteCheckpoint definitions checkpoint expectedPlanHash run := by
  constructor
  · rintro ⟨run, hreaches, hverdict⟩
    obtain ⟨hjob, hwrote⟩ := lineageVerdict_eq_true.mp hverdict
    exact ⟨run, lineage_of_reaches .start hreaches hjob, hwrote⟩
  · rintro ⟨run, hrun, hwrote⟩
    have hverdict : lineageVerdict definitions parent checkpoint expectedPlanHash run =
        some (.ok true) := lineageVerdict_eq_true.mpr ⟨lineage_job hrun, hwrote⟩
    cases reaches_of_lineage hrun with
    | inl hreaches => exact ⟨run, hreaches, hverdict⟩
    | inr hlast =>
      obtain ⟨last, hlineage, hid, hreaches⟩ := hlast
      have hwithin : (lineageSearch definitions s parent checkpoint expectedPlanHash).Within
          (namedRuns s) := within_namedRuns
      have hsame : last = run := hwithin.named last (lineage_named hparent hlineage) run
        (lineage_named hparent hrun) (hid.trans hwrote.id.symm)
      exact ⟨run, hsame ▸ hreaches, hverdict⟩

end graph

/-! ### The check ends -/

section ends

variable {definitions : Definitions δ} {s : Store δ} {parent : RunRecord}

/-- **The check ends** within one turn more than there are runs, and holds if and only if the
checkpoint is in the lineage. -/
theorem lineageAnswer_spec (hparent : findRun parent.id s = .ok parent) (checkpoint : Checkpoint)
    (definition : JobDefinition δ) :
    ∃ answer, (∀ turns, s.runs.length < turns →
        lineageAnswer definitions s parent checkpoint definition turns = some answer) ∧
      (answer = .ok true ↔ InLineage definitions s parent checkpoint definition) := by
  unfold lineageAnswer
  by_cases hblank : checkpoint.jobID ≠ parent.jobID ∨ trimSpace checkpoint.runID = []
  · refine ⟨.ok false, fun _ _ => if_pos hblank, (fun h => by cases h), fun h => ?_⟩
    cases hblank with
    | inl hjob => exact absurd h.job hjob
    | inr hnamed => exact absurd hnamed h.named
  · simp only [if_neg hblank]
    rw [not_or, not_not] at hblank
    cases hhash : definitions.executionPlanHash definition with
    | error err =>
      refine ⟨_, fun _ _ => rfl, (fun h => by cases h), fun h => ?_⟩
      obtain ⟨hash, hhash', _⟩ := h.wrote
      rw [hhash] at hhash'
      cases hhash'
    | ok hash =>
      have hnamed := mem_namedRuns.mpr hparent
      have hlength : (namedRuns s).length ≤ s.runs.length := length_filter_le _ _
      have htrail : (lineageSearch definitions s parent checkpoint hash).Trail (namedRuns s) []
          parent :=
        ⟨hnamed, nil_subset _, nodup_nil, forall_mem_nil _⟩
      obtain ⟨answer, hanswer, hiff⟩ := Search.chase_spec within_namedRuns htrail
        (show (namedRuns s).length < s.runs.length + 1 + [].length by rw [length_nil]; omega)
      refine ⟨answer, fun turns hturns => Search.chase_mono hanswer hturns, ?_⟩
      have hfollows : ∀ run, (lineageSearch definitions s parent checkpoint hash).follow run ≠
          .error (.ok true) := by
        intro run hfollow
        unfold lineageSearch at hfollow
        dsimp only at hfollow
        cases hfound : findRun (trimSpace run.parentRunID) s with
        | error err =>
          rw [hfound] at hfollow
          cases hfollow
        | ok next =>
          rw [hfound] at hfollow
          cases hfollow
      rw [hiff (.ok true) (fun h => by cases h) hfollows]
      constructor
      · intro hreaches
        exact ⟨hblank.1, hblank.2, hash, hhash, (reaches_iff_lineage hnamed).mp hreaches⟩
      · intro h
        obtain ⟨hash', hhash', hwrote⟩ := h.wrote
        rw [hhash] at hhash'
        cases hhash'
        exact (reaches_iff_lineage hnamed).mpr hwrote

end ends

/-! ### The program -/

variable {definition : JobDefinition δ}

section program

variable {definitions : Definitions δ} {s : Store δ} {parent candidate : RunRecord}
  {checkpoint : Checkpoint} {expectedPlanHash : Text} {lookups : ℕ} {visited : List Text}

/-- A turn of the loop settles its run, or looks up the parent. -/
theorem belongsToLineage_succ :
    belongsToLineage definitions parent checkpoint expectedPlanHash (lookups + 1) visited
        candidate =
      if candidate.id ∈ visited then .ret (.ok false)
      else
        match lineageVerdict definitions parent checkpoint expectedPlanHash candidate with
        | some answer => .ret answer
        | none => onTable (.store (.getRun candidate.parentRunID))
            (belongsToLineage definitions parent checkpoint expectedPlanHash lookups
              (candidate.id :: visited)) := by
  conv_lhs => unfold belongsToLineage
  unfold lineageVerdict
  by_cases hvisited : candidate.id ∈ visited
  · rw [if_pos (.inr hvisited), if_pos hvisited]
  · by_cases hjob : candidate.jobID = parent.jobID
    · rw [if_neg (by simp [hjob, hvisited]), if_neg hvisited, if_neg (not_not.mpr hjob)]
      split
      · split
        · rfl
        · cases definitions.decodeRunDefinition candidate with
          | error err => rfl
          | ok candidateDefinition =>
            dsimp only
            cases definitions.executionPlanHash candidateDefinition with
            | error err => rfl
            | ok candidatePlanHash => rfl
      · split <;> rfl
    · rw [if_pos (.inl hjob), if_neg hvisited, if_pos hjob]

variable {answer : (r : TableRequest δ) → r.Answer}

/-- **The program is the search**, when the runs that it asks for are those of the store; induction
on the lookups. -/
theorem answered_belongsToLineage
    (hanswer : ∀ id, answer (.store (.getRun id)) = findRun (trimSpace id) s) :
    (belongsToLineage definitions parent checkpoint expectedPlanHash lookups visited
        candidate).answered answer =
      ((lineageSearch definitions s parent checkpoint expectedPlanHash).chase lookups visited
        candidate).getD (.ok false) := by
  induction lookups generalizing visited candidate with
  | zero => rfl
  | succ lookups ih =>
    rw [belongsToLineage_succ]
    unfold Search.chase
    have hname : (lineageSearch definitions s parent checkpoint expectedPlanHash).name candidate =
        candidate.id := rfl
    have hsettles : (lineageSearch definitions s parent checkpoint expectedPlanHash).settles
        candidate = lineageVerdict definitions parent checkpoint expectedPlanHash candidate := rfl
    have hfollow : (lineageSearch definitions s parent checkpoint expectedPlanHash).follow
        candidate = (findRun (trimSpace candidate.parentRunID) s).mapError .error := rfl
    rw [hname, hsettles, hfollow]
    by_cases hvisited : candidate.id ∈ visited
    · rw [if_pos hvisited, if_pos hvisited]
      rfl
    · rw [if_neg hvisited, if_neg hvisited]
      cases lineageVerdict definitions parent checkpoint expectedPlanHash candidate with
      | some verdict => rfl
      | none =>
        unfold onTable
        dsimp only [Program.answered]
        rw [hanswer]
        cases findRun (trimSpace candidate.parentRunID) s with
        | error err => rfl
        | ok next => exact ih

theorem answered_check (hanswer : ∀ id, answer (.store (.getRun id)) = findRun (trimSpace id) s) :
    (checkpointBelongsToRunLineage definitions parent checkpoint definition lookups).answered
        answer =
      (lineageAnswer definitions s parent checkpoint definition lookups).getD (.ok false) := by
  unfold checkpointBelongsToRunLineage lineageAnswer
  split
  · rfl
  · cases definitions.executionPlanHash definition with
    | error err => rfl
    | ok hash => exact answered_belongsToLineage hanswer

theorem serveTable_getRun {validJSON : Text → Bool} {tables : Tables δ} {world : World}
    (hworld : world.fails = none) (id : Text) :
    (serveTable definitions validJSON tables (.store (.getRun id)) world).1 =
      findRun (trimSpace id) tables.store := by
  unfold serveTable Fallible.attempt
  rw [hworld]
  cases hfound : findRun (trimSpace id) tables.store with
  | error err => simp [tableOperation, operationOf, getRun, hfound, bind, Except.bind, Except.map]
  | ok run =>
    simp [tableOperation, operationOf, getRun, hfound, bind, Except.bind, Except.map, pure,
      Except.pure]

end program

/-! ### Resuming -/

section resuming

variable {definitions : Definitions δ} {s : Store δ} {parent candidate : RunRecord}
  {checkpoint : Checkpoint} {expectedPlanHash : Text} {lookups : ℕ} {visited : List Text}
  {answers : List ((r : TableRequest δ) × r.Answer)}

/-- The runs in these answers are those of the store. -/
def AnsweredBy (s : Store δ) (answers : List ((r : TableRequest δ) × r.Answer)) : Prop :=
  ∀ id run, ⟨.store (.getRun id), .ok run⟩ ∈ answers → findRun (trimSpace id) s = .ok run

variable {nowMillis : ℤ} {policy : Text} {r : TableRequest δ}

/-- A method that creates a run has got a result of its first request, when this is not the one
that creates it. -/
theorem gets_onTable {α : Type} {next : r.Result → TableMethod δ α}
    {rest : (TableRequest.store (.createRun run policy nowMillis)).Answer → TableMethod δ α}
    (hr : r.creates = none)
    (h : Gets (onTable r next) answers (.ask (.store (.createRun run policy nowMillis)) rest)) :
    ∃ result answers', answers = ⟨r, .ok result⟩ :: answers' ∧
      Gets (next result) answers' (.ask (.store (.createRun run policy nowMillis)) rest) := by
  cases h with
  | here => cases hr
  | @ask _ _ answer answers' _ hgets =>
    cases answer with
    | ok result => exact ⟨result, answers', rfl, hgets⟩
    | error err => cases hgets

theorem AnsweredBy.tail {answer : (r : TableRequest δ) × r.Answer}
    (h : AnsweredBy s (answer :: answers)) : AnsweredBy s answers :=
  fun id run hmem => h id run (mem_cons_of_mem _ hmem)

/-- **A check that has returned true has seen the lineage**; induction on the lookups. -/
theorem lineage_of_gets (hanswers : AnsweredBy s answers)
    (hcandidate : candidate.jobID = parent.jobID → Lineage s parent candidate)
    (h : Gets (belongsToLineage definitions parent checkpoint expectedPlanHash lookups visited
      candidate) answers (.ret (.ok true))) :
    ∃ run, Lineage s parent run ∧ WroteCheckpoint definitions checkpoint expectedPlanHash run := by
  induction lookups generalizing visited candidate answers with
  | zero => cases h
  | succ lookups ih =>
    rw [belongsToLineage_succ] at h
    split at h
    · cases h
    · cases hverdict : lineageVerdict definitions parent checkpoint expectedPlanHash candidate with
      | some verdict =>
        rw [hverdict] at h
        cases h
        obtain ⟨hjob, hwrote⟩ := lineageVerdict_eq_true.mp hverdict
        exact ⟨candidate, hcandidate hjob, hwrote⟩
      | none =>
        rw [hverdict] at h
        obtain ⟨hjob, _, hnamed⟩ := lineageVerdict_eq_none hverdict
        cases h with
        | @ask _ _ answer answers' _ hgets =>
          cases answer with
          | error err => cases hgets
          | ok next =>
            have hfound := hanswers _ next mem_cons_self
            exact ih hanswers.tail (.parent (hcandidate hjob) hnamed hfound) hgets

theorem inLineage_of_gets (hanswers : AnsweredBy s answers)
    (h : Gets (checkpointBelongsToRunLineage definitions parent checkpoint definition lookups)
      answers (.ret (.ok true))) : InLineage definitions s parent checkpoint definition := by
  unfold checkpointBelongsToRunLineage at h
  split at h
  · cases h
  · rename_i hblank
    rw [not_or, not_not] at hblank
    cases hhash : definitions.executionPlanHash definition with
    | error err =>
      rw [hhash] at h
      cases h
    | ok hash =>
      rw [hhash] at h
      exact ⟨hblank.1, hblank.2, hash, hhash, lineage_of_gets hanswers (fun _ => .start) h⟩

/-- What a run that resumes another one has been created from: the answers for the resumed run, the
job and the checkpoint, and a check that has returned true. -/
structure ResumedFrom (definitions : Definitions δ) (runID : Text) (lookups : ℕ)
    (answers : List ((r : TableRequest δ) × r.Answer)) (run parent : RunRecord)
    (checkpoint : Checkpoint) (current : JobDefinition δ) : Prop where
  resumed : ⟨.store (.getRun (trimSpace runID)), .ok parent⟩ ∈ answers
  job : ⟨.store (.getJob parent.jobID), .ok current⟩ ∈ answers
  latest : ⟨.getCheckpoint parent.jobID, .ok checkpoint⟩ ∈ answers
  checked : ∃ front check, answers = front ++ check ∧
    Gets (checkpointBelongsToRunLineage definitions parent checkpoint current lookups) check
      (.ret (.ok true))
  created : run = newRun definitions current .resume parent.id (parent.attempt + 1) []

variable {next : r.Answer → TableMethod δ Bool}

/-- The check asks for runs only; induction on the lookups. -/
theorem asks_getRun
    (h : Gets (belongsToLineage definitions parent checkpoint expectedPlanHash lookups visited
      candidate) answers (.ask r next)) : r.creates = none := by
  induction lookups generalizing visited candidate answers with
  | zero => cases h
  | succ lookups ih =>
    rw [belongsToLineage_succ] at h
    split at h
    · cases h
    · cases hverdict : lineageVerdict definitions parent checkpoint expectedPlanHash candidate with
      | some verdict =>
        rw [hverdict] at h
        cases h
      | none =>
        rw [hverdict] at h
        cases h with
        | here => rfl
        | @ask _ _ answer _ _ hgets =>
          cases answer with
          | error err => cases hgets
          | ok next => exact ih hgets

theorem check_asks_getRun
    (h : Gets (checkpointBelongsToRunLineage definitions parent checkpoint definition lookups)
      answers (.ask r next)) : r.creates = none := by
  unfold checkpointBelongsToRunLineage at h
  split at h
  · cases h
  · cases hhash : definitions.executionPlanHash definition with
    | error err =>
      rw [hhash] at h
      cases h
    | ok hash =>
      rw [hhash] at h
      exact asks_getRun h

/-- A method that creates a run behind a check has got the answer of the check. -/
theorem gets_check {f : Except Err Bool → TableMethod δ Unit}
    {rest : (TableRequest.store (.createRun run policy nowMillis)).Answer → TableMethod δ Unit}
    (h : Gets ((checkpointBelongsToRunLineage definitions parent checkpoint definition
      lookups).bind f) answers (.ask (.store (.createRun run policy nowMillis)) rest)) :
    ∃ check after answer, answers = check ++ after ∧
      Gets (checkpointBelongsToRunLineage definitions parent checkpoint definition lookups) check
        (.ret answer) ∧
      Gets (f answer) after (.ask (.store (.createRun run policy nowMillis)) rest) := by
  cases h.of_bind with
  | inr hafter => exact hafter
  | inl hwithin =>
    obtain ⟨p, hp, heq⟩ := hwithin
    cases p with
    | ret answer => exact ⟨answers, [], answer, (append_nil _).symm, hp, heq ▸ .here _⟩
    | ask r next =>
      have hnone := check_asks_getRun hp
      cases heq
      cases hnone

/-- A method that creates a run behind `requireCurrentRunnableDefinition` has got the job. -/
theorem gets_requireCurrent {parent : RunRecord} {snapshot : JobDefinition δ}
    {next : JobDefinition δ → TableMethod δ Unit}
    {rest : (TableRequest.store (.createRun run policy nowMillis)).Answer → TableMethod δ Unit}
    (h : Gets (requireCurrentRunnableDefinition definitions parent snapshot next) answers
      (.ask (.store (.createRun run policy nowMillis)) rest)) :
    ∃ current answers', answers = ⟨.store (.getJob parent.jobID), .ok current⟩ :: answers' ∧
      Gets (next current) answers' (.ask (.store (.createRun run policy nowMillis)) rest) := by
  unfold requireCurrentRunnableDefinition at h
  obtain ⟨current, answers, rfl, hcurrent⟩ := gets_onTable rfl h
  refine ⟨current, answers, rfl, ?_⟩
  split at hcurrent
  · cases hcurrent
  · split at hcurrent
    · cases hcurrent
    · cases hcurrent
    · split at hcurrent
      · cases hcurrent
      · exact hcurrent

variable {nowMillis' : ℤ}
variable
  {rest : (TableRequest.store (.createRun run policy nowMillis')).Answer → TableMethod δ Unit}

/-- The run that `createFollower` creates. -/
theorem gets_createFollower {current : JobDefinition δ} {trigger : RunTrigger}
    (h : Gets (createFollower definitions current trigger parent nowMillis) answers
      (.ask (.store (.createRun run policy nowMillis')) rest)) :
    answers = [] ∧ run = newRun definitions current trigger parent.id (parent.attempt + 1) [] := by
  cases h with
  | here => exact ⟨rfl, rfl⟩
  | @ask _ _ answer _ _ hgets =>
    cases answer with
    | ok result => cases hgets
    | error err => cases hgets

/-- **`ResumeRun` creates a run only when the check has returned true.** -/
theorem resumedFrom_of_gets {runID : Text}
    (h : Gets (resumeRun definitions runID nowMillis lookups) answers
      (.ask (.store (.createRun run policy nowMillis')) rest)) :
    ∃ parent checkpoint current,
      ResumedFrom definitions runID lookups answers run parent checkpoint current := by
  unfold resumeRun at h
  obtain ⟨parent, answers, rfl, hparent⟩ := gets_onTable rfl h
  split at hparent
  · cases hparent
  · split at hparent
    · cases hparent
    · obtain ⟨current, answers, rfl, hcurrent⟩ := gets_requireCurrent hparent
      split at hcurrent
      · cases hcurrent
      · cases hcurrent with
        | @ask _ _ answer answers _ hcheckpoint =>
          cases answer with
          | error err => cases err <;> cases hcheckpoint
          | ok checkpoint =>
            obtain ⟨check, after, inLineage, rfl, hcheck, hafter⟩ := gets_check hcheckpoint
            cases inLineage with
            | error err => cases hafter
            | ok inLineage =>
              cases inLineage with
              | false => cases hafter
              | true =>
                obtain ⟨rfl, hrun⟩ := gets_createFollower hafter
                refine ⟨parent, checkpoint, current, mem_cons_self,
                  mem_cons_of_mem _ mem_cons_self,
                  mem_cons_of_mem _ (mem_cons_of_mem _ mem_cons_self),
                  ⟨[_, _, _], check, by rw [append_nil]; rfl, hcheck⟩, hrun⟩

end resuming

/-- **The lineage is checked**: the check returns on every graph of parents, within one turn more
than there are runs; it returns true if and only if the checkpoint is in the lineage of the run; and
`ResumeRun` creates a run only from such a checkpoint, whatever happens between its requests. -/
theorem lineage_checked (definitions : Definitions δ) (validJSON : Text → Bool) (s : Tables δ)
    (world : World) (hworld : world.fails = none) :
    (∀ parent, findRun parent.id s.store = .ok parent → ∀ checkpoint definition, ∃ answer,
      (∀ turns, s.store.runs.length < turns →
        lineageAnswer definitions s.store parent checkpoint definition turns = some answer ∧
        (checkpointBelongsToRunLineage definitions parent checkpoint definition turns).answered
          (fun r => (serveTable definitions validJSON s r world).1) = answer) ∧
      (answer = .ok true ↔ InLineage definitions s.store parent checkpoint definition)) ∧
    ∀ runID nowMillis lookups answers run policy nowMillis' rest,
      Gets (resumeRun definitions runID nowMillis lookups) answers
        (.ask (.store (.createRun run policy nowMillis')) rest) →
      ∃ parent checkpoint current,
        ResumedFrom definitions runID lookups answers run parent checkpoint current ∧
        (AnsweredBy s.store answers →
          InLineage definitions s.store parent checkpoint current) := by
  refine ⟨?_, ?_⟩
  · intro parent hparent checkpoint definition
    obtain ⟨answer, hanswer, hiff⟩ := lineageAnswer_spec hparent checkpoint definition
    refine ⟨answer, fun turns hturns => ⟨hanswer turns hturns, ?_⟩, hiff⟩
    rw [answered_check (serveTable_getRun hworld), hanswer turns hturns]
    rfl
  · intro runID nowMillis lookups answers run policy nowMillis' rest h
    obtain ⟨parent, checkpoint, current, hfrom⟩ := resumedFrom_of_gets h
    refine ⟨parent, checkpoint, current, hfrom, fun hanswers => ?_⟩
    obtain ⟨front, check, rfl, hcheck⟩ := hfrom.checked
    exact inLineage_of_gets (fun id run hmem => hanswers id run (mem_append_right _ hmem))
      hcheck

/-- A run of the job that has failed and another one that follows it. -/
def pairRun (id parentRunID : Text) : RunRecord :=
  { newRun minuteDefinitions minuteJob .manual parentRunID 1 id with
    status := .failed
    resumable := true }

def pairTables : Tables Unit where
  store := { minuteStore with
    runs := [pairRun (bytes "run-1") [], pairRun (bytes "run-2") (bytes "run-1")] }
  checkpoints := []

/-- A checkpoint of the first run, with a revision. -/
def pairCheckpoint (revision : ℤ) : Checkpoint :=
  { version := 1, kind := bytes "table", jobID := bytes "job-1", runID := bytes "run-1",
    definitionRevision := revision, table := bytes "t", phase := bytes "copy",
    cursorType := bytes "key", cursor := [], watermark := [], batchSequence := 1,
    schemaHash := [], updatedAt := 4000 }

/-- The second run continues from the checkpoint of the first one. -/
theorem lineage_checked_pair :
    lineageAnswer minuteDefinitions pairTables.store (pairRun (bytes "run-2") (bytes "run-1"))
        (pairCheckpoint 1) minuteJob 3 = some (.ok true) ∧
      InLineage minuteDefinitions pairTables.store (pairRun (bytes "run-2") (bytes "run-1"))
        (pairCheckpoint 1) minuteJob := by
  have htrue : lineageAnswer minuteDefinitions pairTables.store
      (pairRun (bytes "run-2") (bytes "run-1")) (pairCheckpoint 1) minuteJob 3 =
        some (.ok true) := by
    decide
  obtain ⟨answer, hanswer, hiff⟩ := (lineage_checked minuteDefinitions (fun _ => true) pairTables
    ⟨5000, [], none⟩ rfl).1 (pairRun (bytes "run-2") (bytes "run-1")) (by decide)
    (pairCheckpoint 1) minuteJob
  refine ⟨htrue, hiff.mp ?_⟩
  have hsame := (hanswer 3 (by decide)).1
  rw [htrue] at hsame
  exact (Option.some.inj hsame).symm

/-- It also does so when the checkpoint has no revision, although no run of the lineage has that
one. -/
theorem lineage_checked_unnumbered :
    ¬ ∀ (s : Store Unit) (parent : RunRecord) (checkpoint : Checkpoint),
      findRun parent.id s = .ok parent →
      (∃ turns, lineageAnswer minuteDefinitions s parent checkpoint minuteJob turns =
        some (.ok true)) →
      ∃ run, Lineage s parent run ∧ run.id = checkpoint.runID ∧
        checkpoint.definitionRevision = run.jobRevision := by
  intro h
  have hfound : findRun (bytes "run-2") pairTables.store =
      .ok (pairRun (bytes "run-2") (bytes "run-1")) := by
    decide
  obtain ⟨run, hrun, _, hrevision⟩ := h pairTables.store (pairRun (bytes "run-2") (bytes "run-1"))
    (pairCheckpoint 0) hfound ⟨3, by decide⟩
  have hstored := mem_of_mem_filter (lineage_named (mem_namedRuns.mpr hfound) hrun)
  have hnumbered : ∀ run ∈ pairTables.store.runs, run.jobRevision = 1 := by decide
  rw [hnumbered run hstored] at hrevision
  cases hrevision

end GoNavi.Syncjob
