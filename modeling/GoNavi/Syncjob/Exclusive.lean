import GoNavi.Syncjob.RunTurns

/-! # One active run for each job

No lock guards a job: a run is claimed by an update that looks for another active run of the same
job.  Two runs are `Apart` when they have two identifiers and are not both active runs of one job.
The runs of a store stay pairwise apart under every transaction (`exclusive_serve`).

**At most one run of a job is active** (`one_active_run`), however many callers there are, however
their transactions interleave, and wherever callers crash. -/

namespace GoNavi.Syncjob

open Scan Fallible List

variable {δ : Type}

/-! ### Runs that are apart -/

/-- Two runs with two identifiers that are not both active runs of one job. -/
def Apart (r r' : RunRecord) : Prop :=
  r.id ≠ r'.id ∧ (r.jobID = r'.jobID → active r.status → ¬ active r'.status)

/-- The runs of the store are pairwise apart. -/
def Exclusive (s : Store δ) : Prop := s.runs.Pairwise Apart

/-- Of runs that are apart, one at most is an active run of a job. -/
theorem countP_active_le_one {runs : List RunRecord} (h : runs.Pairwise Apart) (jobID : Text) :
    (runs.countP fun r => r.jobID = jobID ∧ active r.status) ≤ 1 := by
  induction runs with
  | nil => simp
  | cons r runs ih =>
    cases h with
    | cons hr hruns =>
      by_cases hit : r.jobID = jobID ∧ active r.status
      · have hnone : (runs.countP fun r => r.jobID = jobID ∧ active r.status) = 0 := by
          rw [countP_eq_zero]
          intro r' hr' hit'
          simp only [decide_eq_true_eq] at hit'
          exact (hr r' hr').2 (hit.1.trans hit'.1.symm) hit.2 hit'.2
        rw [countP_cons, hnone]
        split <;> omega
      · rw [countP_cons_of_neg (by simpa using hit)]
        exact ih hruns

theorem exclusive_empty : Exclusive (Store.empty : Store δ) := List.Pairwise.nil

variable {s s' : Store δ}

theorem Exclusive.eq_of_id (h : Exclusive s) {r r' : RunRecord} (hr : r ∈ s.runs)
    (hr' : r' ∈ s.runs) (hid : r.id = r'.id) : r = r' := by
  have hunique : (s.runs.map RunRecord.id).Nodup := by
    unfold List.Nodup
    rw [pairwise_map]
    exact List.Pairwise.imp (fun hapart => hapart.1) h
  exact inj_on_of_nodup_map hunique hr hr' hid

/-! ### Turns -/

theorem Exclusive.worked (h : Exclusive s) {f : RunRecord → RunRecord}
    (hf : ∀ r ∈ s.runs, RunTurn none r (f r)) : (s.runs.map f).Pairwise Apart := by
  have hactive : ∀ r ∈ s.runs, active (f r).status → active r.status := by
    intro r hr hactive
    cases (hf r hr).active_before hactive with
    | inl hclaimed => cases hclaimed.2
    | inr hbefore => exact hbefore.1
  rw [pairwise_map]
  apply List.Pairwise.imp_of_mem ?_ h
  intro r r' hr hr' hapart
  constructor
  · rw [(hf r hr).id_eq, (hf r' hr').id_eq]
    exact hapart.1
  · intro hsame ha ha'
    rw [(hf r hr).job_eq, (hf r' hr').job_eq] at hsame
    exact hapart.2 hsame (hactive r hr ha) (hactive r' hr' ha')

theorem Exclusive.added (h : Exclusive s) {run : RunRecord} (hqueued : run.status = .queued)
    (hnew : ∀ r ∈ s.runs, r.id ≠ run.id) : (s.runs ++ [run]).Pairwise Apart := by
  rw [pairwise_append]
  refine ⟨h, pairwise_singleton _ _, ?_⟩
  intro r hr r' hr'
  rw [mem_singleton] at hr'
  subst hr'
  refine ⟨hnew r hr, fun _ _ => ?_⟩
  rw [hqueued]
  decide

theorem Exclusive.delete (h : Exclusive s) (cond : RunRecord → Bool) :
    Exclusive (deleteRuns cond s).2 :=
  List.Pairwise.filter _ h

theorem Exclusive.of_runs (h : Exclusive s) (hruns : s'.runs = s.runs) :
    Exclusive s' := by
  unfold Exclusive
  rw [hruns]
  exact h

/-- **A claimed run is the only active run of its job**: the update looks for another one. -/
theorem Exclusive.claim (h : Exclusive s) {f : RunRecord → RunRecord} (id : Text)
    (hid : ∀ r, (f r).id = r.id)
    (hjob : ∀ r, (f r).jobID = r.jobID) :
    Exclusive (updateRuns (claimable s id) f s).2 := by
  have halone : ∀ r r', r' ∈ s.runs → r.id ≠ r'.id → r.jobID = r'.jobID → claimable s id r →
      ¬ active r'.status := by
    intro r r' hr' hne hsame hclaim hactive
    unfold claimable at hclaim
    simp only [decide_eq_true_eq] at hclaim
    exact hclaim.2.2.2 ⟨r', hr', hsame.symm, Ne.symm hne, hactive⟩
  have hone : ∀ r r', claimable s id r → claimable s id r' → r.id = r'.id := by
    intro r r' hclaim hclaim'
    unfold claimable at hclaim hclaim'
    simp only [decide_eq_true_eq] at hclaim hclaim'
    exact hclaim.1.trans hclaim'.1.symm
  unfold Exclusive updateRuns
  rw [pairwise_map]
  apply List.Pairwise.imp_of_mem ?_ h
  intro r r' hr hr' hapart
  by_cases hclaim : claimable s id r = true
  · have hclaim' : ¬ claimable s id r' = true := fun hclaim' => hapart.1 (hone r r' hclaim hclaim')
    simp only [hclaim, hclaim', if_true]
    constructor
    · rw [hid]
      exact hapart.1
    · intro hsame _
      rw [hjob] at hsame
      exact halone r r' hr' hapart.1 hsame hclaim
  · by_cases hclaim' : claimable s id r' = true
    · simp only [hclaim, hclaim', if_true]
      constructor
      · rw [hid]
        exact hapart.1
      · intro hsame hactive _
        rw [hjob] at hsame
        exact halone r' r hr (Ne.symm hapart.1) hsame.symm hclaim' hactive
    · simp only [hclaim, hclaim']
      exact hapart

/-- **Every operation of the store leaves the runs apart.** -/
theorem exclusive_operationOf {world : World} (definitions : Definitions δ) (h : Exclusive s)
    (r : Request δ) {result : r.Result}
    (hop : operationOf definitions world r s = .ok (result, s')) : Exclusive s' := by
  cases hclaim : r.claim world with
  | none =>
    have hturn := runs_operationOf definitions r hop
    rw [hclaim] at hturn
    unfold Exclusive
    generalize s'.runs = runs at hturn ⊢
    cases hturn with
    | worked f hf => exact h.worked hf
    | added run _ hqueued hnew => exact h.added hqueued hnew
    | deleted _ cond => exact List.Pairwise.filter _ h
  | some claim =>
    cases r <;> cases hclaim
    cases hop
    exact h.claim _ (fun r => rfl) fun r => rfl

/-! ### Runs -/

theorem exclusive_serve (definitions : Definitions δ) (s : Store δ) (r : Request δ)
    (world : World) (h : Exclusive s) : Exclusive (serve definitions s r world).2 :=
  transaction_keeps h fun _ _ hop => exclusive_operationOf definitions h r hop

/-- **At most one run of a job is active**, in every state that callers reach from an empty
store. -/
theorem one_active_run (definitions : Definitions δ)
    (moves : List (Callers.Move (Operation δ) World)) (jobID : Text) :
    ((Machine.run (step definitions) ⟨Store.empty, []⟩ moves).state.runs.countP
      fun r => r.jobID = jobID ∧ active r.status) ≤ 1 := by
  have hkept : Exclusive (Machine.run (step definitions) ⟨Store.empty, []⟩ moves).state :=
    Callers.state_of_served (serve definitions) (programOf definitions) (P := Exclusive)
      (exclusive_serve definitions) exclusive_empty moves
  exact countP_active_le_one hkept jobID

end GoNavi.Syncjob
