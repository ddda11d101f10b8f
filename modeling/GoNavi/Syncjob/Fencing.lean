import GoNavi.Syncjob.Checkpoints
import GoNavi.Syncjob.Exclusive

/-! # Owners that have lost their run

A worker may wake up long after its run was taken over, interrupted or ended.  Every statement
that it sends names the run and the token of its claim, and the statement looks for both.

**An owner that has lost its run changes nothing** (`ownership_fencing`): neither the run, nor the
checkpoint of the job, nor the events.  A run that is over stays as it is, and a claim completes
once at most. -/

namespace GoNavi.Syncjob

open Scan Fallible List

variable {δ : Type}

/-- The run and the owner that a request works for. -/
def TableRequest.ownedBy : TableRequest δ → Option (Text × Text)
  | .store (.touchRunOwned id ownerToken _) => some (trimSpace id, ownerToken)
  | .store (.updateRunProgressOwned id ownerToken _ _) => some (trimSpace id, ownerToken)
  | .store (.completeRunOwned id ownerToken _ _ _ _) => some (trimSpace id, ownerToken)
  | .store (.completeRunOwnedWithTerminalEvent id ownerToken _ _ _ _) =>
    some (trimSpace id, ownerToken)
  | .putCheckpointOwned checkpoint ownerToken => some (trimSpace checkpoint.runID, ownerToken)
  | .deleteCheckpointOwned _ runID ownerToken => some (trimSpace runID, ownerToken)
  | _ => none

/-- The run and the owner that a request completes. -/
def TableRequest.completes : TableRequest δ → Option (Text × Text)
  | .store (.completeRunOwned id ownerToken _ _ _ _) => some (trimSpace id, ownerToken)
  | .store (.completeRunOwnedWithTerminalEvent id ownerToken _ _ _ _) =>
    some (trimSpace id, ownerToken)
  | _ => none

section fencing

variable (definitions : Definitions δ) (validJSON : Text → Bool)

/-- The request completes the run for the owner. -/
def completes (id ownerToken : Text) (s : Tables δ) (a : TableAction δ) : Bool :=
  a.1.completes = some (id, ownerToken) ∧ (serveTable definitions validJSON s a.1 a.2).1.isOk

/-- The request claims the run under a token. -/
def claims (id ownerToken : Text) (s : Tables δ) : TableAction δ → Bool
  | ⟨.store (.claimRun id' nowMillis), world⟩ =>
    decide (trimSpace id' = id ∧ world.uuid = ownerToken) &&
      match (serveTable definitions validJSON s (.store (.claimRun id' nowMillis)) world).1 with
      | .ok claimed => claimed
      | .error _ => false
  | _ => false

variable {definitions validJSON}

/-! ### What a request makes of the store -/

variable (definitions validJSON) in
/-- A request leaves the tables as they are, or its operation succeeds. -/
theorem tableStep_cases (s : Tables δ) (r : TableRequest δ) (world : World) :
    tableStep definitions validJSON s ⟨r, world⟩ = s ∨
      ∃ result, (serveTable definitions validJSON s r world).1 = .ok result ∧
        tableOperation definitions validJSON world r s =
          .ok (result, tableStep definitions validJSON s ⟨r, world⟩) :=
  attempt_cases (world.fails.map Err.other) (tableOperation definitions validJSON world r) s

theorem tableOperation_store {world : World} {r : Request δ} {result : r.Result}
    {s s' : Tables δ}
    (hop : tableOperation definitions validJSON world (.store r) s = .ok (result, s')) :
    operationOf definitions world r s.store = .ok (result, s'.store) := by
  obtain ⟨⟨result', store⟩, hstore, hop⟩ := bind_eq_ok.mp hop
  rw [pure_eq_ok] at hop
  cases hop
  exact hstore

variable (definitions validJSON) in
theorem store_of_tableStep (s : Tables δ) (a : TableAction δ) :
    (tableStep definitions validJSON s a).store = s.store ∨
      ∃ r world result, a = ⟨.store r, world⟩ ∧
        (serveTable definitions validJSON s (.store r) world).1 = .ok result ∧
        operationOf definitions world r s.store =
          .ok (result, (tableStep definitions validJSON s a).store) := by
  obtain ⟨r, world⟩ := a
  cases tableStep_cases definitions validJSON s r world with
  | inl hsame =>
    left
    rw [hsame]
  | inr hok =>
    obtain ⟨result, hanswer, hop⟩ := hok
    generalize tableStep definitions validJSON s ⟨r, world⟩ = s' at hop
    cases r with
    | store r => exact .inr ⟨r, world, result, rfl, hanswer, tableOperation_store hop⟩
    | putCheckpointOwned checkpoint ownerToken =>
      left
      obtain hop : putCheckpointOwned validJSON world checkpoint ownerToken s =
        .ok (result, s') := hop
      unfold putCheckpointOwned at hop
      split at hop
      · cases hop
      · obtain ⟨prepared, _, hop⟩ := bind_eq_ok.mp hop
        split at hop
        · cases hop
          rfl
        · cases hop
    | getCheckpoint jobID =>
      left
      obtain hop : getCheckpoint jobID s = .ok (result, s') := hop
      unfold getCheckpoint at hop
      split at hop
      · cases hop
        rfl
      · cases hop
    | deleteCheckpointOwned jobID runID ownerToken =>
      left
      obtain hop : deleteCheckpointOwned jobID runID ownerToken s = .ok (result, s') := hop
      unfold deleteCheckpointOwned at hop
      split at hop
      · cases hop
      · cases hop
        rfl
    | runOwned jobID runID ownerToken =>
      cases hop
      exact .inl rfl
    | resetCheckpoint jobID =>
      cases hop
      exact .inl rfl
    | jobBusy jobID =>
      cases hop
      exact .inl rfl

theorem exclusive_tableStep {s : Tables δ} (h : Exclusive s.store) (a : TableAction δ) :
    Exclusive (tableStep definitions validJSON s a).store := by
  cases store_of_tableStep definitions validJSON s a with
  | inl hsame =>
    rw [hsame]
    exact h
  | inr hstore =>
    obtain ⟨r, world, result, _, _, hop⟩ := hstore
    exact exclusive_operationOf definitions h r hop

theorem exclusive_run (actions : List (TableAction δ)) :
    Exclusive (Machine.run (tableStep definitions validJSON) Tables.empty actions).store :=
  Machine.run_preserves (P := fun s : Tables δ => Exclusive s.store)
    (fun _ a h => exclusive_tableStep h a) exclusive_empty

/-! ### Owned requests -/

/-- No run is worked on by the owner. -/
def Lost (id ownerToken : Text) (s : Store δ) : Prop :=
  ∀ r ∈ s.runs, r.id = id → r.ownerToken = ownerToken → ¬ active r.status

theorem lost_of_run {s : Store δ} (h : Exclusive s) {r : RunRecord} (hr : r ∈ s.runs)
    {ownerToken : Text} (hlost : terminalRunStatus r.status ∨ r.ownerToken ≠ ownerToken) :
    Lost r.id ownerToken s := by
  intro r' hr' hid howner
  have hsame : r' = r := h.eq_of_id hr' hr hid
  rw [hsame] at howner ⊢
  cases hlost with
  | inl hover => exact not_active_of_terminal hover
  | inr hother => exact absurd howner hother

variable {nowMillis : ℤ} {s' : Store δ} {completion : Completion} {outcome : ExecutionOutcome}
variable {status : RunStatus}

section lost

variable {world : World} {s : Store δ} {id ownerToken : Text}

theorem Lost.touch (h : Lost (trimSpace id) ownerToken s) {done : Unit} :
    touchRunOwned world id ownerToken nowMillis s ≠ .ok (done, s') := by
  intro hop
  obtain ⟨⟨r, hr, howned⟩, _⟩ := touchRunOwned_state hop
  obtain ⟨hid, howner, hactive⟩ := active_of_ownedBy howned
  exact h r hr hid howner hactive

theorem Lost.progress (h : Lost (trimSpace id) ownerToken s) {progress : RunProgress}
    {done : Unit} :
    updateRunProgressOwned world id ownerToken progress nowMillis s ≠ .ok (done, s') := by
  intro hop
  obtain ⟨⟨r, hr, hrunning⟩, _⟩ := updateRunProgressOwned_state hop
  have hactive := active_of_runningFor hrunning
  rw [runningFor, decide_eq_true_eq] at hrunning
  exact h r hr hrunning.1 hrunning.2.1 hactive

theorem Lost.complete (h : Lost (trimSpace id) ownerToken s) {message : Text} :
    completeRunOwned world id ownerToken status outcome message nowMillis s ≠
      .ok (completion, s') := by
  intro hop
  obtain ⟨_, _, ⟨r, hr, howned⟩, _⟩ := completeRunOwned_ok hop
  obtain ⟨hid, howner, hactive⟩ := active_of_ownedBy howned
  exact h r hr hid howner hactive

theorem Lost.runOwned (h : Lost id ownerToken s) (jobID : Text) :
    runOwned jobID id ownerToken s = false := by
  unfold Syncjob.runOwned
  rw [any_eq_false]
  intro r hr hmet
  rw [decide_eq_true_eq] at hmet
  refine h r hr hmet.1 hmet.2.2.1 ?_
  rw [hmet.2.2.2]
  rfl

end lost

theorem runID_prepareCheckpoint {world : World} {checkpoint prepared : Checkpoint}
    (h : prepareCheckpoint validJSON world checkpoint = .ok prepared) :
    prepared.runID = trimSpace checkpoint.runID := by
  unfold prepareCheckpoint at h
  dsimp only at h
  split_ifs at h
  all_goals
    simp only [Except.ok.injEq] at h
    rw [← h]

variable {a : TableAction δ}

/-- **An owner that has lost its run changes nothing.** -/
theorem tableStep_lost {s : Tables δ} {id ownerToken : Text} (h : Lost id ownerToken s.store)
    (howned : a.1.ownedBy = some (id, ownerToken)) :
    tableStep definitions validJSON s a = s := by
  obtain ⟨r, world⟩ := a
  cases tableStep_cases definitions validJSON s r world with
  | inl hsame => exact hsame
  | inr hok =>
    obtain ⟨result, _, hop⟩ := hok
    generalize tableStep definitions validJSON s ⟨r, world⟩ = s' at hop ⊢
    cases r with
    | store r =>
      have hstore := tableOperation_store hop
      cases r with
      | touchRunOwned id' ownerToken' nowMillis =>
        obtain ⟨rfl, rfl⟩ : trimSpace id' = id ∧ ownerToken' = ownerToken := by
          simpa [TableRequest.ownedBy] using howned
        exact absurd hstore h.touch
      | updateRunProgressOwned id' ownerToken' progress nowMillis =>
        obtain ⟨rfl, rfl⟩ : trimSpace id' = id ∧ ownerToken' = ownerToken := by
          simpa [TableRequest.ownedBy] using howned
        exact absurd hstore h.progress
      | completeRunOwned id' ownerToken' status outcome message nowMillis =>
        obtain ⟨rfl, rfl⟩ : trimSpace id' = id ∧ ownerToken' = ownerToken := by
          simpa [TableRequest.ownedBy] using howned
        exact absurd hstore h.complete
      | completeRunOwnedWithTerminalEvent id' ownerToken' status outcome message nowMillis =>
        obtain ⟨rfl, rfl⟩ : trimSpace id' = id ∧ ownerToken' = ownerToken := by
          simpa [TableRequest.ownedBy] using howned
        obtain ⟨completed, hcomplete, _⟩ := bind_eq_ok.mp hstore
        exact absurd hcomplete h.complete
      | _ => cases howned
    | putCheckpointOwned checkpoint ownerToken' =>
      obtain ⟨rfl, rfl⟩ : trimSpace checkpoint.runID = id ∧ ownerToken' = ownerToken := by
        simpa [TableRequest.ownedBy] using howned
      obtain hop : putCheckpointOwned validJSON world checkpoint ownerToken' s =
        .ok (result, s') := hop
      unfold putCheckpointOwned at hop
      split at hop
      · cases hop
      · obtain ⟨prepared, hprepared, hop⟩ := bind_eq_ok.mp hop
        rw [runID_prepareCheckpoint hprepared, h.runOwned, if_neg Bool.false_ne_true] at hop
        cases hop
    | deleteCheckpointOwned jobID runID ownerToken' =>
      obtain ⟨rfl, rfl⟩ : trimSpace runID = id ∧ ownerToken' = ownerToken := by
        simpa [TableRequest.ownedBy] using howned
      obtain hop : deleteCheckpointOwned jobID runID ownerToken' s = .ok (result, s') := hop
      unfold deleteCheckpointOwned at hop
      split at hop
      · cases hop
      · dsimp only at hop
        rw [h.runOwned] at hop
        simp only [Except.ok.injEq, Prod.mk.injEq] at hop
        rw [← hop.2]
        unfold deleteCheckpoint
        simp
    | _ => cases howned

/-! ### Runs that are over -/

variable (definitions validJSON) in
theorem terminal_kept {s : Tables δ} (h : Exclusive s.store) {r : RunRecord}
    (hr : r ∈ s.store.runs) (hover : terminalRunStatus r.status) (a : TableAction δ) :
    r ∈ (tableStep definitions validJSON s a).store.runs ∨
      ∀ r' ∈ (tableStep definitions validJSON s a).store.runs, r'.id ≠ r.id := by
  cases store_of_tableStep definitions validJSON s a with
  | inl hsame =>
    rw [hsame]
    exact .inl hr
  | inr hstore =>
    obtain ⟨request, world, result, _, _, hop⟩ := hstore
    have hturn := runs_operationOf definitions request hop
    generalize (tableStep definitions validJSON s a).store.runs = runs at hturn
    cases hturn with
    | worked f hf =>
      left
      rw [← (hf r hr).terminal_same hover]
      exact mem_map_of_mem hr
    | added run hcreates hqueued hnew => exact .inl (mem_append_left _ hr)
    | deleted hdeletes cond =>
      by_cases hcond : cond r = true
      · right
        intro r' hr' hid
        rw [mem_filter] at hr'
        rw [h.eq_of_id hr'.1 hr hid, hcond] at hr'
        simp at hr'
      · left
        rw [mem_filter]
        exact ⟨hr, by simpa using hcond⟩

/-- A run that is over stays as it is until it is deleted; induction on the requests. -/
theorem terminal_run : ∀ {s : Tables δ} {r : RunRecord} (actions : List (TableAction δ)),
    Exclusive s.store → r ∈ s.store.runs → terminalRunStatus r.status →
      r ∈ (Machine.run (tableStep definitions validJSON) s actions).store.runs ∨
        ∃ k, ∀ r' ∈ (Machine.run (tableStep definitions validJSON) s
          (actions.take k)).store.runs, r'.id ≠ r.id
  | _, _, [], _, hr, _ => .inl hr
  | _, _, a :: actions, h, hr, hover => by
    cases terminal_kept definitions validJSON h hr hover a with
    | inl hkept =>
      cases terminal_run actions (exclusive_tableStep h a) hkept hover with
      | inl hkept => exact .inl hkept
      | inr hgone =>
        obtain ⟨k, hgone⟩ := hgone
        exact .inr ⟨k + 1, hgone⟩
    | inr hgone => exact .inr ⟨1, hgone⟩

/-! ### Claims and completions -/

/-- The run is worked on by the owner. -/
def worked (id ownerToken : Text) (s : Tables δ) : Bool := s.store.runs.any (ownedBy id ownerToken)

theorem worked_iff {id ownerToken : Text} {s : Tables δ} : worked id ownerToken s = true ↔
    ∃ r ∈ s.store.runs, r.id = id ∧ r.ownerToken = ownerToken ∧ active r.status := by
  unfold worked ownedBy
  rw [any_eq_true]
  simp only [decide_eq_true_eq]

theorem worked_completed {world : World} {s : Store δ} {id ownerToken message : Text}
    (hop : completeRunOwned world id ownerToken status outcome message nowMillis s =
      .ok (completion, s')) (r : RunRecord) (hr : r ∈ s'.runs) (hid : r.id = trimSpace id)
    (howner : r.ownerToken = ownerToken) : ¬ active r.status := by
  obtain ⟨hover, _, _, rfl⟩ := completeRunOwned_ok hop
  obtain ⟨r', _, rfl⟩ := mem_map.mp hr
  intro hactive
  split at hactive
  · exact not_active_of_terminal hover hactive
  · rename_i hmiss
    rw [if_neg hmiss] at hid howner
    refine hmiss ?_
    unfold ownedBy
    exact decide_eq_true ⟨hid, howner, hactive⟩

variable (definitions validJSON) in
theorem worked_of_completes {id ownerToken : Text} {s : Tables δ}
    (h : completes definitions validJSON id ownerToken s a = true) :
    worked id ownerToken s = true ∧
      worked id ownerToken (tableStep definitions validJSON s a) = false := by
  obtain ⟨r, world⟩ := a
  unfold completes at h
  rw [decide_eq_true_eq] at h
  obtain ⟨hcompletes, hisOk⟩ := h
  have hop : ∃ result, tableOperation definitions validJSON world r s =
      .ok (result, tableStep definitions validJSON s ⟨r, world⟩) := by
    cases hserve : (serveTable definitions validJSON s r world).1 with
    | error err =>
      rw [hserve] at hisOk
      cases hisOk
    | ok result => exact ⟨result, attempt_ok hserve⟩
  obtain ⟨result, hop⟩ := hop
  generalize tableStep definitions validJSON s ⟨r, world⟩ = s' at hop ⊢
  have hboth : ∀ {id' ownerToken' message : Text} {status : RunStatus}
      {outcome : ExecutionOutcome} {nowMillis : ℤ} {completion : Completion} {updated : Store δ},
      (trimSpace id', ownerToken') = (id, ownerToken) →
      completeRunOwned world id' ownerToken' status outcome message nowMillis s.store =
        .ok (completion, updated) → s'.store.runs = updated.runs →
      worked id ownerToken s = true ∧ worked id ownerToken s' = false := by
    intro id' ownerToken' message status outcome nowMillis completion updated hsame hcomplete hruns
    cases hsame
    obtain ⟨_, _, ⟨r', hr', howned⟩, _⟩ := completeRunOwned_ok hcomplete
    constructor
    · rw [worked_iff]
      exact ⟨r', hr', active_of_ownedBy howned⟩
    · rw [Bool.eq_false_iff]
      intro hworked
      obtain ⟨r'', hr'', hid, howner, hactive⟩ := worked_iff.mp hworked
      rw [hruns] at hr''
      exact worked_completed hcomplete r'' hr'' hid howner hactive
  cases r with
  | store r =>
    have hstore := tableOperation_store hop
    cases r with
    | completeRunOwned id' ownerToken' status outcome message nowMillis =>
      exact hboth (Option.some.inj hcompletes) hstore rfl
    | completeRunOwnedWithTerminalEvent id' ownerToken' status outcome message nowMillis =>
      obtain ⟨_, _, _, _, hcomplete, _, _, _, _, happend⟩ := completeWithEvent_ok hstore
      exact hboth (Option.some.inj hcompletes) hcomplete (runs_appendRunEvent happend)
    | _ => cases hcompletes
  | _ => cases hcompletes

theorem claimRun_ok {world : World} {s : Store δ} {id : Text} {claimed : Bool}
    (hop : claimRun world id nowMillis s = .ok (claimed, s')) :
    claimed = decide (0 < s.runs.countP (claimable s (trimSpace id))) ∧
      s'.runs = s.runs.map fun r => if claimable s (trimSpace id) r then { r with
        status := .running
        startedAt := if r.startedAt = 0 then timeOr world nowMillis else r.startedAt
        heartbeatAt := timeOr world nowMillis
        ownerToken := world.uuid
        updatedAt := timeOr world nowMillis } else r := by
  cases hop
  exact ⟨rfl, rfl⟩

theorem worked_before {id ownerToken : Text} {s : Tables δ}
    (h : worked id ownerToken (tableStep definitions validJSON s a) = true) :
    worked id ownerToken s = true ∨ claims definitions validJSON id ownerToken s a = true := by
  obtain ⟨r', hr', hid, howner, hactive⟩ := worked_iff.mp h
  cases store_of_tableStep definitions validJSON s a with
  | inl hsame =>
    left
    rw [hsame] at hr'
    exact worked_iff.mpr ⟨r', hr', hid, howner, hactive⟩
  | inr hstore =>
    obtain ⟨request, world, result, hrequest, hanswer, hop⟩ := hstore
    have hturn := runs_operationOf definitions request hop
    have hruns : ∀ runs, RunsTurn (request.claim world) request.creates request.deletes
        s.store.runs runs → r' ∈ runs → (∃ r ∈ s.store.runs, r.id = r'.id ∧ r.status = .queued ∧
          request.claim world = some (r.id, r'.ownerToken)) ∨
        ∃ r ∈ s.store.runs, r.id = r'.id ∧ r.ownerToken = r'.ownerToken ∧ active r.status := by
      intro runs hturn hr'
      cases hturn with
      | worked f hf =>
        obtain ⟨r, hr, rfl⟩ := mem_map.mp hr'
        have hsame := (hf r hr).id_eq.symm
        cases (hf r hr).active_before hactive with
        | inl hclaimed => exact .inl ⟨r, hr, hsame, hclaimed⟩
        | inr hbefore => exact .inr ⟨r, hr, hsame, hbefore.2.symm, hbefore.1⟩
      | added run hcreates hqueued hnew =>
        rw [mem_append, mem_singleton] at hr'
        cases hr' with
        | inl hold => exact .inr ⟨r', hold, rfl, rfl, hactive⟩
        | inr hadded =>
          rw [hadded, hqueued] at hactive
          cases hactive
      | deleted hdeletes cond =>
        exact .inr ⟨r', mem_of_mem_filter hr', rfl, rfl, hactive⟩
    cases hruns _ hturn hr' with
    | inr hbefore =>
      obtain ⟨r, hr, hsame, howned, hworked⟩ := hbefore
      exact .inl (worked_iff.mpr ⟨r, hr, hsame.trans hid, howned.trans howner, hworked⟩)
    | inl hclaimed =>
      obtain ⟨r, _, hsame, _, hclaim⟩ := hclaimed
      cases request with
      | claimRun id' nowMillis =>
        obtain ⟨hid', huuid⟩ : trimSpace id' = r.id ∧ world.uuid = r'.ownerToken := by
          simpa [Request.claim] using hclaim
        obtain ⟨hresult, hafter⟩ := claimRun_ok hop
        rw [hafter] at hr'
        obtain ⟨r₀, hr₀, hmade⟩ := mem_map.mp hr'
        split at hmade
        · rename_i hmet
          right
          have hpos : result = true := by
            rw [hresult]
            exact decide_eq_true (countP_pos_iff.mpr ⟨r₀, hr₀, hmet⟩)
          rw [hrequest]
          unfold claims
          dsimp only
          rw [hanswer, hpos, decide_eq_true ⟨hid'.trans (hsame.trans hid), huuid.trans howner⟩]
          rfl
        · rw [← hmade] at hid howner hactive
          exact .inl (worked_iff.mpr ⟨r₀, hr₀, hid, howner, hactive⟩)
      | _ => cases hclaim

theorem worked_step {id ownerToken : Text} (s : Tables δ) (a : TableAction δ) :
    (if worked id ownerToken (tableStep definitions validJSON s a) then 1 else 0) +
        (if completes definitions validJSON id ownerToken s a then 1 else 0) ≤
      (if worked id ownerToken s then 1 else 0) +
        (if claims definitions validJSON id ownerToken s a then 1 else 0) := by
  cases hcompletes : completes definitions validJSON id ownerToken s a with
  | true =>
    obtain ⟨hbefore, hafter⟩ := worked_of_completes definitions validJSON hcompletes
    rw [hbefore, hafter]
    simp
  | false =>
    cases hafter : worked id ownerToken (tableStep definitions validJSON s a) with
    | false => simp
    | true =>
      cases worked_before hafter with
      | inl hbefore =>
        rw [hbefore]
        simp
      | inr hclaims =>
        rw [hclaims]
        simp

variable (definitions validJSON) in
theorem count_completes (id ownerToken : Text) (s : Tables δ) (actions : List (TableAction δ)) :
    Machine.count (tableStep definitions validJSON) (completes definitions validJSON id ownerToken)
        s actions ≤
      (if worked id ownerToken s then 1 else 0) +
        Machine.count (tableStep definitions validJSON)
          (claims definitions validJSON id ownerToken) s actions := by
  have hstep : ∀ s a, True →
      (if worked id ownerToken (tableStep definitions validJSON s a) then 1 else 0) +
          (if completes definitions validJSON id ownerToken s a then 1 else 0) ≤
        (if worked id ownerToken s then 1 else 0) +
          (if claims definitions validJSON id ownerToken s a then 1 else 0) :=
    fun s a _ => worked_step s a
  exact le_trans (Nat.le_add_left _ _) (Machine.count_le (P := fun _ => True)
    (f := fun s => if worked id ownerToken s then 1 else 0) (fun _ _ h => h) hstep trivial)

end fencing

/-! ### The law -/

/-- **Ownership fencing.**  In every state that requests reach: an owner whose run is over or has
another owner changes nothing; a run that is over stays as it is until it is deleted; and no
claim is completed twice, since every completion of a run for an owner takes a claim of its
own. -/
theorem ownership_fencing (definitions : Definitions δ) (validJSON : Text → Bool)
    (actions : List (TableAction δ)) :
    let step := tableStep definitions validJSON
    let s := Machine.run step Tables.empty actions
    (∀ r ∈ s.store.runs, ∀ ownerToken,
      terminalRunStatus r.status ∨ r.ownerToken ≠ ownerToken →
        ∀ a : TableAction δ, a.1.ownedBy = some (r.id, ownerToken) → step s a = s) ∧
    (∀ r ∈ s.store.runs, terminalRunStatus r.status → ∀ more,
      r ∈ (Machine.run step s more).store.runs ∨
        ∃ k, ∀ r' ∈ (Machine.run step s (more.take k)).store.runs, r'.id ≠ r.id) ∧
    ∀ id ownerToken,
      Machine.count step (completes definitions validJSON id ownerToken) Tables.empty actions ≤
        Machine.count step (claims definitions validJSON id ownerToken) Tables.empty actions ∧
      ∀ more, Machine.count step (completes definitions validJSON id ownerToken) s more ≤
        1 + Machine.count step (claims definitions validJSON id ownerToken) s more := by
  intro step s
  have hexclusive : Exclusive s.store := exclusive_run actions
  refine ⟨?_, ?_, ?_⟩
  · intro r hr ownerToken hlost a howned
    exact tableStep_lost (lost_of_run hexclusive hr hlost) howned
  · intro r hr hover more
    exact terminal_run more hexclusive hr hover
  · intro id ownerToken
    constructor
    · have hempty := count_completes definitions validJSON id ownerToken Tables.empty actions
      have hidle : worked id ownerToken (Tables.empty : Tables δ) = false := rfl
      rw [hidle, if_neg Bool.false_ne_true, Nat.zero_add] at hempty
      exact hempty
    · intro more
      refine le_trans (count_completes definitions validJSON id ownerToken s more) ?_
      apply Nat.add_le_add_right
      split <;> omega

end GoNavi.Syncjob
