import GoNavi.Harness.Operation
import GoNavi.Machine.Word
import Mathlib.Algebra.Order.BigOperators.Group.List
import Mathlib.Algebra.Order.Group.Int

/-! # Accounting of tokens

`Balanced` says that the counters of a run are the sums over its reservations and over the
model turns that were committed without one.  The sums are sums of integers, so a run is
balanced only if no counter wrapped around.  `CommitModelTurn` looks at the sign of its sums,
and a run with a budget is kept in range by it; but `ReserveTokens` and `ReconcileTokens` add
without a test on a run without a budget (`wraps`), and the counters of such a run can wrap
(`reserve_wraps`).  Without such a step the books of every run are balanced
(`tokens_balanced`).  An id is counted at most once in any case (`reservation_counted_once`). -/

namespace GoNavi.Harness

open Scan RunLedger Machine List Table

/-! ### What the tests of the ledger say -/

/-- A usage that is accepted is not negative, and its total covers its parts. -/
structure Usage.Sound (usage : Usage) : Prop where
  prompt : 0 ≤ usage.promptTokens.toInt
  completion : 0 ≤ usage.completionTokens.toInt
  total : usage.promptTokens.toInt + usage.completionTokens.toInt ≤ usage.totalTokens.toInt

variable {usage : Usage}

theorem normalizeUsage_sound {given : Usage} (h : normalizeUsage given = some usage) :
    usage.Sound := by
  rw [normalizeUsage] at h
  split at h
  · cases h
  · rename_i hneg
    push Not at hneg
    obtain ⟨hp, hc, -⟩ := hneg
    rw [Word.nonneg_iff] at hp hc
    split at h
    · cases h
    · split at h
      · cases h
      · rename_i hmax
        rw [Word.le_maxValue_sub hc] at hmax
        have hsum := Word.toInt_add (a := given.promptTokens) (b := given.completionTokens)
          (by omega) hmax
        dsimp only at h
        generalize (if given.totalTokens = 0 then given.promptTokens + given.completionTokens
          else given.totalTokens) = total at h
        split at h
        · cases h
        · rename_i hmin
          cases h
          rw [Word.le_iff, hsum] at hmin
          exact ⟨hp, hc, hmin⟩

/-- What the budget test says about a run whose counters are not negative. -/
theorem exceedsTokenBudget_eq_false {run : Run} {delta usage : Int64}
    (hmax : 0 < run.maxTotalTokens.toInt) (hr : 0 ≤ run.reservedTokens.toInt)
    (ht : 0 ≤ run.totalTokens.toInt) (hu : 0 ≤ usage.toInt)
    (h : exceedsTokenBudget run delta usage = false) :
    run.reservedTokens.toInt + delta.toInt < 2 ^ 63 ∧
      0 ≤ run.reservedTokens.toInt + delta.toInt ∧
      run.totalTokens.toInt + usage.toInt + (run.reservedTokens.toInt + delta.toInt) ≤
        run.maxTotalTokens.toInt := by
  have hd := Int64.le_toInt delta
  have hr' := Int64.toInt_lt run.reservedTokens
  have ht' := Int64.toInt_lt run.totalTokens
  have hm' := Int64.toInt_lt run.maxTotalTokens
  have hpos : ¬ run.maxTotalTokens ≤ 0 := by
    rw [Int64.le_iff_toInt_le, Int64.toInt_zero]
    omega
  rw [exceedsTokenBudget, if_neg hpos] at h
  split at h
  · cases h
  · rename_i hover
    have hreserved : run.reservedTokens.toInt + delta.toInt < 2 ^ 63 := by
      by_cases hdelta : 0 < delta.toInt
      · have hgt : delta > 0 := by rwa [gt_iff_lt, Int64.lt_iff_toInt_lt, Int64.toInt_zero]
        exact (Word.le_maxValue_sub hdelta.le).mp fun hmore => hover ⟨hgt, hmore⟩
      · omega
    have hsum := Word.toInt_add (a := run.reservedTokens) (b := delta) (by omega) hreserved
    split at h
    · cases h
    · rename_i hneg
      rw [Word.nonneg_iff, hsum] at hneg
      split at h
      · cases h
      · rename_i hover'
        have htotal : run.totalTokens.toInt + usage.toInt < 2 ^ 63 := by
          by_cases hzero : 0 < usage.toInt
          · have hgt : usage > 0 := by rwa [gt_iff_lt, Int64.lt_iff_toInt_lt, Int64.toInt_zero]
            exact (Word.le_maxValue_sub hu).mp fun hmore => hover' ⟨hgt, hmore⟩
          · omega
        have hsum' := Word.toInt_add (a := run.totalTokens) (b := usage) (by omega) htotal
        split at h
        · cases h
        · rename_i hcap
          push Not at hcap
          obtain ⟨-, hcap⟩ := hcap
          rw [gt_iff_lt, Word.le_iff, hsum'] at hcap
          have hrest : (run.maxTotalTokens - (run.totalTokens + usage)).toInt =
              run.maxTotalTokens.toInt - (run.totalTokens.toInt + usage.toInt) := by
            rw [Word.toInt_sub, hsum'] <;> rw [hsum'] <;> omega
          simp only [gt_iff_lt, decide_eq_false_iff_not] at h
          rw [Word.le_iff, hsum, hrest] at h
          exact ⟨hreserved, hneg, by omega⟩

/-! ### The books of a run -/

/-- The tokens that a reservation holds. -/
def Reservation.held (r : Reservation) : ℤ :=
  if r.status = .reserved then r.reservedTokens.toInt else 0

/-- What a reservation was reconciled with. -/
def Reservation.spent (part : Reservation → Int64) (r : Reservation) : ℤ :=
  if r.status = .reconciled then (part r).toInt else 0

/-- The sum of a part of the usage over the turns. -/
def tally (part : Usage → Int64) (turns : List Usage) : ℤ :=
  (turns.map fun usage => (part usage).toInt).sum

/-- The counters of a run are the sums over its reservations and over the turns that were
committed without one; they are not negative and keep to the budget. -/
structure Balanced (l : RunLedger) (turns : List Usage) : Prop where
  reserved : l.run.reservedTokens.toInt = (l.reservations.map Reservation.held).sum
  prompt : l.run.promptTokens.toInt =
    (l.reservations.map (Reservation.spent Reservation.promptTokens)).sum +
      tally Usage.promptTokens turns
  completion : l.run.completionTokens.toInt =
    (l.reservations.map (Reservation.spent Reservation.completionTokens)).sum +
      tally Usage.completionTokens turns
  total : l.run.totalTokens.toInt =
    (l.reservations.map (Reservation.spent Reservation.totalTokens)).sum +
      tally Usage.totalTokens turns
  nonneg : 0 ≤ l.run.reservedTokens.toInt ∧ 0 ≤ l.run.promptTokens.toInt ∧
    0 ≤ l.run.completionTokens.toInt ∧ 0 ≤ l.run.totalTokens.toInt
  capped : 0 < l.run.maxTotalTokens.toInt →
    l.run.totalTokens.toInt + l.run.reservedTokens.toInt ≤ l.run.maxTotalTokens.toInt

/-- What keeps the sums of a run in range: ids are unique, no reservation holds a negative
amount, and the total covers its parts. -/
structure Kept (l : RunLedger) : Prop where
  keys : (l.reservations.map Reservation.id).Nodup
  held : ∀ r ∈ l.reservations, 0 ≤ r.reservedTokens.toInt
  covered : l.run.promptTokens.toInt + l.run.completionTokens.toInt ≤ l.run.totalTokens.toInt

/-- The counters of a run with its budget. -/
def Run.counters (run : Run) : Int64 × Int64 × Int64 × Int64 × Int64 :=
  (run.maxTotalTokens, run.reservedTokens, run.promptTokens, run.completionTokens,
    run.totalTokens)

/-- The usage of a turn that is committed without a reservation. -/
def unreservedTurn (l : RunLedger) (a : Act) : List Usage :=
  match a.op with
  | .commitModelTurn checkpointID r =>
    if r.reservationID ≠ 0 then []
    else
      match l.commitModelTurn a.now checkpointID r with
      | .ok _ => (normalizeUsage r.usageInput).toList
      | .error _ => []
  | _ => []

/-- The turns of a run that are committed without a reservation. -/
def unreservedTurns : RunLedger → List Act → List Usage
  | _, [] => []
  | l, a :: as => unreservedTurn l a ++ unreservedTurns (step l a) as

/-! ### What a mutation does to the counters -/

/-- The row of a reservation that is settled, by a reconciliation or by a turn. -/
def Reservation.settle (usage : Usage) (sequence : ℕ) (r : Reservation) : Reservation :=
  { r.reconcile usage with committedSequence := sequence }

/-- The changes of the counters that a step makes. -/
inductive TokenStep (l l' : RunLedger) : List Usage → Prop
  | still (hcounters : l'.run.counters = l.run.counters)
      (hreservations : l'.reservations = l.reservations) : TokenStep l l' []
  | reserve (id : ℕ) (tokens : Int64) (hamount : ¬ tokens < 0)
      (hnew : l.reservation? id = none) (hbudget : exceedsTokenBudget l.run tokens 0 = false)
      (hrange : l.run.maxTotalTokens ≤ 0 → l.run.reservedTokens.toInt + tokens.toInt < 2 ^ 63)
      (hcounters : l'.run.counters = { l.run with
        reservedTokens := l.run.reservedTokens + tokens }.counters)
      (hreservations : l'.reservations =
        l.reservations ++ [⟨id, tokens, 0, 0, 0, .reserved, 0⟩]) : TokenStep l l' []
  | settle (r : Reservation) (usage : Usage) (f : Reservation → Reservation)
      (hreservation : l.reservation? r.id = some r) (hheld : r.status = .reserved)
      (husage : usage.Sound)
      (hbudget : exceedsTokenBudget l.run (-r.reservedTokens) usage.totalTokens = false)
      (hrange : l.run.maxTotalTokens ≤ 0 →
        l.run.totalTokens.toInt + usage.totalTokens.toInt < 2 ^ 63)
      (hcounters : l'.run.counters = (l.settleTokens r.reservedTokens usage).run.counters)
      (hf : ∀ row, (f row).id = row.id ∧ (f row).reservedTokens = row.reservedTokens)
      (hfr : ∃ sequence, f r = r.settle usage sequence)
      (hreservations : l'.reservations = update Reservation.id r.id f l.reservations) :
      TokenStep l l' []
  | mark (r : Reservation) (f : Reservation → Reservation)
      (hreservation : l.reservation? r.id = some r) (hheld : r.status = .reconciled)
      (hcounters : l'.run.counters = l.run.counters)
      (hf : ∀ row, (f row).id = row.id ∧ (f row).reservedTokens = row.reservedTokens)
      (hfr : ∃ sequence, f r = { r with committedSequence := sequence })
      (hreservations : l'.reservations = update Reservation.id r.id f l.reservations) :
      TokenStep l l' []
  | turn (usage : Usage) (husage : usage.Sound)
      (hbudget : exceedsTokenBudget l.run 0 usage.totalTokens = false)
      (hrange : l.run.maxTotalTokens ≤ 0 →
        l.run.totalTokens.toInt + usage.totalTokens.toInt < 2 ^ 63)
      (hcounters : l'.run.counters = (l.settleTokens 0 usage).run.counters)
      (hreservations : l'.reservations = l.reservations) : TokenStep l l' [usage]
  | release (hcounters : l'.run.counters = { l.run with reservedTokens := 0 }.counters)
      (hreservations : l'.reservations = l.releaseReservations.reservations) : TokenStep l l' []

/-- A sum without a test leaves the range of the machine: a run without a budget reserves, or
reconciles a reservation that it holds. -/
def wraps (l : RunLedger) (a : Act) : Bool :=
  match a.op with
  | .reserveTokens _ _ id tokens _ =>
    l.run.maxTotalTokens ≤ 0 && (l.reservation? id).isNone &&
      2 ^ 63 ≤ l.run.reservedTokens.toInt + tokens.toInt
  | .reconcileTokens _ _ id usage =>
    l.run.maxTotalTokens ≤ 0 && (l.reservation? id).any (fun r => r.status = .reserved) &&
      (normalizeUsage usage).any fun usage =>
        2 ^ 63 ≤ l.run.totalTokens.toInt + usage.totalTokens.toInt
  | _ => false

variable {id : ℕ} {l : RunLedger} {r : Reservation}

theorem reservation_id (h : l.reservation? id = some r) :
    r.id = id :=
  lookup_key h

theorem lookup_id (h : l.reservation? id = some r) :
    l.reservation? r.id = some r := by
  rwa [reservation_id h]

theorem status_of_ne {s : ReservationStatus} (h : s ≠ .reserved) : s = .reconciled := by
  cases s
  · exact absurd rfl h
  · rfl

variable {reservation : Option Reservation}

theorem turnExceeds_eq_false (h : l.turnExceeds reservation usage = false) :
    (∀ r ∈ reservation, r.status = .reserved →
        exceedsTokenBudget l.run (-r.reservedTokens) usage.totalTokens = false) ∧
      ¬ (l.countTurn reservation usage).run.totalTokens < 0 := by
  unfold turnExceeds at h
  simp only [Bool.or_eq_false_iff, decide_eq_false_iff_not] at h
  obtain ⟨⟨hbudget, -, htotal⟩, -⟩ := h
  refine ⟨fun r hr hheld => ?_, htotal⟩
  rw [Option.mem_def] at hr
  simpa [hr, hheld] using hbudget

theorem total_in_range {a b : Int64} (ha : 0 ≤ a.toInt) (hb : 0 ≤ b.toInt) (h : ¬ a + b < 0) :
    a.toInt + b.toInt < 2 ^ 63 := by
  rw [← Word.toInt_add_of_nonneg ha hb h]
  exact Int64.toInt_lt _

variable {now : ℕ}

theorem tokenStep_putTurn {r : CommitModelTurnRequest} (checkpointID : ℕ)
    (hreservation : ∀ row ∈ reservation, l.reservation? row.id = some row)
    (hchecks : TurnChecks l now r reservation usage) (ht : 0 ≤ l.run.totalTokens.toInt) :
    TokenStep l (l.putTurn checkpointID r reservation usage)
      (if reservation = none then [usage] else []) := by
  have hsound := normalizeUsage_sound hchecks.normalized
  have hu : 0 ≤ usage.totalTokens.toInt := by
    have := hsound.prompt
    have := hsound.completion
    have := hsound.total
    omega
  obtain ⟨hbudget, htotal⟩ := turnExceeds_eq_false hchecks.exceeds
  cases reservation with
  | none =>
    exact .turn usage hsound (hchecks.budget rfl) (fun _ => total_in_range ht hu htotal) rfl rfl
  | some row =>
    have hlookup := hreservation row rfl
    by_cases hheld : row.status = .reserved
    · rw [countTurn, if_pos hheld] at htotal
      refine .settle row usage (fun row => { (if row.status = .reserved then row.reconcile usage
        else row) with committedSequence := l.run.nextSequence }) hlookup hheld hsound
        (hbudget row rfl hheld) (fun _ => total_in_range ht hu htotal) ?_ ?_ ?_ ?_
      · simp only [putTurn, commit, putCheckpoint, markCommitted, updateReservation, countTurn,
          if_pos hheld, Run.counters]
      · intro row
        split <;> exact ⟨rfl, rfl⟩
      · exact ⟨l.run.nextSequence, by rw [if_pos hheld]; rfl⟩
      · simp only [putTurn, commit, putCheckpoint, markCommitted, updateReservation, countTurn,
          if_pos hheld, settleTokens]
    · refine .mark row (fun row => { (if row.status = .reserved then row.reconcile usage
        else row) with committedSequence := l.run.nextSequence }) hlookup (status_of_ne hheld) ?_ ?_
        ?_ ?_
      · simp only [putTurn, commit, putCheckpoint, markCommitted, updateReservation, countTurn,
          if_neg hheld, Run.counters]
      · intro row
        split <;> exact ⟨rfl, rfl⟩
      · exact ⟨l.run.nextSequence, by rw [if_neg hheld]⟩
      · simp only [putTurn, commit, putCheckpoint, markCommitted, updateReservation, countTurn,
          if_neg hheld]

variable {l' : RunLedger}

/-- A mutation that is no model turn is a step of the counters. -/
theorem tokenStep_of_wrote {op : Op} (h : Wrote l now op l') (hop : wraps l ⟨now, op⟩ = false)
    (hturn : ∀ checkpointID r, op ≠ .commitModelTurn checkpointID r) :
    TokenStep l l' [] := by
  cases h with
  | appendTerminal hguard hreaches hkind hclosed hmark =>
    rcases markTerminal_ok hmark with rfl | rfl <;> exact .still rfl rfl
  | rejectStale | rejectCancel =>
    rw [RunLedger.rejectStale]
    split <;> exact .still rfl rfl
  | @reserveTokens token expected id tokens elsewhere hamount hnew hguard hbudget =>
    refine .reserve id tokens hamount hnew hbudget (fun hfree => ?_) rfl rfl
    simpa [wraps, hfree, hnew] using hop
  | @reconcileTokens token expected id given usage r husage hreservation hheld hguard hbudget =>
    refine .settle r usage (·.reconcile usage) (lookup_id hreservation) hheld
      (normalizeUsage_sound husage) hbudget (fun hfree => ?_) rfl (fun _ => ⟨rfl, rfl⟩)
      ⟨r.committedSequence, rfl⟩ ?_
    · simpa [wraps, hfree, hreservation, hheld, husage] using hop
    · rw [reservation_id hreservation]
      rfl
  | commitModelTurn => exact absurd rfl (hturn _ _)
  | recoverRun => exact .release rfl rfl
  | recoveryNoted =>
    rw [insertRecoveryCommand_eq]
    exact .still rfl rfl
  | recovery hopen howner hdecision hreaches =>
    rw [decision_frame hdecision, insertRecoveryCommand_eq, decide']
    split <;> exact .still rfl rfl
  | _ => exact .still rfl rfl

theorem tokenStep_commitModelTurn {checkpointID : ℕ} {r : CommitModelTurnRequest}
    (h : l.commitModelTurn now checkpointID r = .ok l') (ht : 0 ≤ l.run.totalTokens.toInt) :
    TokenStep l l' (if r.reservationID ≠ 0 then [] else (normalizeUsage r.usageInput).toList) := by
  rw [RunLedger.commitModelTurn] at h
  split at h
  · rename_i hzero
    obtain ⟨usage, hchecks, rfl⟩ := commitTurn_ok h
    rw [if_neg (not_not.mpr hzero), hchecks.normalized]
    exact tokenStep_putTurn _ (by simp) hchecks ht
  · rename_i hid
    rw [if_pos hid]
    split at h
    · cases h
    · rename_i row hrow
      split at h
      · cases h
        exact .still rfl rfl
      · obtain ⟨usage, hchecks, rfl⟩ := commitTurn_ok h
        have hlookup : ∀ row' ∈ some row, l.reservation? row'.id = some row' := by
          intro _ hmem
          obtain rfl := Option.mem_some.mp hmem
          exact lookup_id hrow
        simpa using tokenStep_putTurn checkpointID hlookup hchecks ht

theorem tokenStep_step (l : RunLedger) (a : Act) (ha : wraps l a = false)
    (ht : 0 ≤ l.run.totalTokens.toInt) : TokenStep l (step l a) (unreservedTurn l a) := by
  by_cases hturn : ∃ checkpointID r, a.op = .commitModelTurn checkpointID r
  · obtain ⟨checkpointID, r, hop⟩ := hturn
    rw [step, unreservedTurn, hop]
    simp only [Op.apply]
    cases h : l.commitModelTurn a.now checkpointID r with
    | ok l' => exact tokenStep_commitModelTurn h ht
    | error e =>
      simp only [ite_self]
      exact .still rfl rfl
  · push Not at hturn
    have hnone : unreservedTurn l a = [] := by
      rw [unreservedTurn]
      split
      · rename_i hop
        exact absurd hop (hturn _ _)
      · rfl
    rw [hnone]
    exact tokenStep_of_wrote (wrote_step l a) ha hturn

/-! ### The books stay balanced -/

theorem counters_eq {run run' : Run} (h : run'.counters = run.counters) :
    run'.maxTotalTokens = run.maxTotalTokens ∧ run'.reservedTokens = run.reservedTokens ∧
      run'.promptTokens = run.promptTokens ∧ run'.completionTokens = run.completionTokens ∧
      run'.totalTokens = run.totalTokens := by
  simpa [Run.counters] using h

theorem tally_append (part : Usage → Int64) (us vs : List Usage) :
    tally part (us ++ vs) = tally part us + tally part vs := by
  rw [tally, map_append, sum_append]
  rfl

theorem tally_singleton (part : Usage → Int64) (usage : Usage) :
    tally part [usage] = (part usage).toInt := by
  rw [tally, map_singleton, sum_singleton]

variable {rs : List Reservation}

theorem held_le_sum (h : ∀ r ∈ rs, 0 ≤ r.reservedTokens.toInt) (hr : r ∈ rs)
    (hheld : r.status = .reserved) :
    r.reservedTokens.toInt ≤ (rs.map Reservation.held).sum := by
  have hnonneg : ∀ x ∈ rs.map Reservation.held, 0 ≤ x := by
    intro x hx
    obtain ⟨row, hrow, rfl⟩ := mem_map.mp hx
    rw [Reservation.held]
    split
    · exact h row hrow
    · exact le_rfl
  have hmem : r.held ∈ rs.map Reservation.held := mem_map_of_mem hr
  rw [Reservation.held, if_pos hheld] at hmem
  exact single_le_sum hnonneg _ hmem

variable {f : Reservation → Reservation}

/-- An update that keeps the amounts keeps them from being negative. -/
theorem held_update (h : ∀ r ∈ rs, 0 ≤ r.reservedTokens.toInt)
    (hf : ∀ row, (f row).reservedTokens = row.reservedTokens) :
    ∀ r ∈ update Reservation.id id f rs, 0 ≤ r.reservedTokens.toInt := by
  intro r hr
  obtain ⟨old, hold, rfl⟩ := mem_map.mp hr
  split
  · rw [hf old]
    exact h old hold
  · exact h old hold

variable {turns : List Usage}

theorem settle_counters (hb : Balanced l turns) (hk : Kept l)
    (held : Int64) (husage : usage.Sound) (hheld : 0 ≤ held.toInt)
    (hle : held.toInt ≤ l.run.reservedTokens.toInt)
    (hbudget : exceedsTokenBudget l.run (-held) usage.totalTokens = false)
    (hrange : l.run.maxTotalTokens ≤ 0 →
      l.run.totalTokens.toInt + usage.totalTokens.toInt < 2 ^ 63) :
    (l.run.reservedTokens - held).toInt = l.run.reservedTokens.toInt - held.toInt ∧
      (l.run.promptTokens + usage.promptTokens).toInt =
        l.run.promptTokens.toInt + usage.promptTokens.toInt ∧
      (l.run.completionTokens + usage.completionTokens).toInt =
        l.run.completionTokens.toInt + usage.completionTokens.toInt ∧
      (l.run.totalTokens + usage.totalTokens).toInt =
        l.run.totalTokens.toInt + usage.totalTokens.toInt ∧
      (0 < l.run.maxTotalTokens.toInt → l.run.totalTokens.toInt + usage.totalTokens.toInt +
        (l.run.reservedTokens.toInt - held.toInt) ≤ l.run.maxTotalTokens.toInt) := by
  obtain ⟨hr, hp, hc, ht⟩ := hb.nonneg
  obtain ⟨hup, huc, hut⟩ := husage
  have hcovered := hk.covered
  have hr' := Int64.toInt_lt l.run.reservedTokens
  have hm' := Int64.toInt_lt l.run.maxTotalTokens
  have hcap : 0 < l.run.maxTotalTokens.toInt → l.run.totalTokens.toInt + usage.totalTokens.toInt +
      (l.run.reservedTokens.toInt - held.toInt) ≤ l.run.maxTotalTokens.toInt := by
    intro hmax
    have := (exceedsTokenBudget_eq_false hmax hr ht (by omega) hbudget).2.2
    rw [Word.toInt_neg hheld] at this
    omega
  have hrange' : l.run.totalTokens.toInt + usage.totalTokens.toInt < 2 ^ 63 := by
    by_cases hmax : 0 < l.run.maxTotalTokens.toInt
    · have := hcap hmax
      omega
    · exact hrange (by rw [Int64.le_iff_toInt_le, Int64.toInt_zero]; omega)
  refine ⟨Word.toInt_sub ?_ ?_, Word.toInt_add ?_ ?_, Word.toInt_add ?_ ?_,
    Word.toInt_add ?_ hrange', hcap⟩
  all_goals omega

/-- Settling a reservation moves its amount from the held to the spent ones. -/
theorem sum_settle {sequence : ℕ} (hlookup : lookup Reservation.id r.id rs = some r)
    (hnodup : (rs.map Reservation.id).Nodup) (hheld : r.status = .reserved)
    (hf : f r = r.settle usage sequence) :
    let rs' := update Reservation.id r.id f rs
    (rs'.map Reservation.held).sum = (rs.map Reservation.held).sum - r.reservedTokens.toInt ∧
      (rs'.map (Reservation.spent Reservation.promptTokens)).sum =
        (rs.map (Reservation.spent Reservation.promptTokens)).sum + usage.promptTokens.toInt ∧
      (rs'.map (Reservation.spent Reservation.completionTokens)).sum =
        (rs.map (Reservation.spent Reservation.completionTokens)).sum +
          usage.completionTokens.toInt ∧
      (rs'.map (Reservation.spent Reservation.totalTokens)).sum =
        (rs.map (Reservation.spent Reservation.totalTokens)).sum + usage.totalTokens.toInt := by
  refine ⟨?_, ?_, ?_, ?_⟩
  all_goals
    rw [sum_update hlookup hnodup, hf]
    simp [Reservation.held, Reservation.spent, Reservation.settle, Reservation.reconcile, hheld]

/-- A change that keeps what a reservation holds and spends keeps the sums. -/
theorem sum_mark (hlookup : lookup Reservation.id r.id rs = some r)
    (hnodup : (rs.map Reservation.id).Nodup) {weight : Reservation → ℤ}
    (hf : weight (f r) = weight r) :
    ((update Reservation.id r.id f rs).map weight).sum = (rs.map weight).sum := by
  rw [sum_update hlookup hnodup, hf]
  omega

theorem sum_release_held (l : RunLedger) :
    (l.releaseReservations.reservations.map Reservation.held).sum = 0 := by
  have hzero : ∀ x ∈ l.releaseReservations.reservations.map Reservation.held, x = 0 := by
    intro x hx
    obtain ⟨row, hrow, rfl⟩ := mem_map.mp hx
    obtain ⟨r, -, rfl⟩ := mem_map.mp hrow
    split
    · rfl
    · rename_i hheld
      exact if_neg hheld
  rw [sum_eq_zero hzero]

theorem sum_release_spent (l : RunLedger) {part : Reservation → Int64}
    (hpart : ∀ r : Reservation, part (r.reconcile Usage.zero) = 0) :
    (l.releaseReservations.reservations.map (Reservation.spent part)).sum =
      (l.reservations.map (Reservation.spent part)).sum := by
  simp only [releaseReservations, map_map]
  congr 1
  refine map_congr_left fun r _ => ?_
  simp only [Function.comp_apply]
  split
  · rename_i hheld
    simp [Reservation.spent, hpart, hheld]
  · rfl

theorem balanced_create (budget : Int64) (content : Text) :
    Balanced (RunLedger.create budget content) [] ∧ Kept (RunLedger.create budget content) := by
  refine ⟨⟨rfl, rfl, rfl, rfl, ⟨le_rfl, le_rfl, le_rfl, le_rfl⟩, fun h => h.le⟩, ?_⟩
  exact ⟨nodup_nil, forall_mem_nil _, le_rfl⟩

/-- **The step lemma of the books.** -/
theorem balanced_of_tokenStep {new : List Usage} (h : TokenStep l l' new)
    (hl : Balanced l turns ∧ Kept l) :
    Balanced l' (turns ++ new) ∧ Kept l' := by
  obtain ⟨hb, hk⟩ := hl
  obtain ⟨hr, hp, hc, ht⟩ := hb.nonneg
  cases h with
  | still hcounters hreservations =>
    obtain ⟨hmax, hreserved, hprompt, hcompletion, htotal⟩ := counters_eq hcounters
    rw [append_nil]
    constructor
    · constructor <;> simp only [hmax, hreserved, hprompt, hcompletion, htotal, hreservations]
      exacts [hb.reserved, hb.prompt, hb.completion, hb.total, hb.nonneg, hb.capped]
    · constructor <;> simp only [hprompt, hcompletion, htotal, hreservations]
      exacts [hk.keys, hk.held, hk.covered]
  | reserve id tokens hamount hnew hbudget hrange hcounters hreservations =>
    obtain ⟨hmax, hreserved, hprompt, hcompletion, htotal⟩ := counters_eq hcounters
    rw [Word.nonneg_iff] at hamount
    have hr' := Int64.toInt_lt l.run.reservedTokens
    have hrange' : l.run.reservedTokens.toInt + tokens.toInt < 2 ^ 63 := by
      by_cases hpos : 0 < l.run.maxTotalTokens.toInt
      · exact (exceedsTokenBudget_eq_false hpos hr ht le_rfl hbudget).1
      · exact hrange (by rw [Int64.le_iff_toInt_le, Int64.toInt_zero]; omega)
    have hsum := Word.toInt_add (a := l.run.reservedTokens) (b := tokens) (by omega) hrange'
    rw [append_nil]
    constructor
    · constructor <;> simp only [hmax, hreserved, hprompt, hcompletion, htotal, hreservations,
        hsum, map_append, sum_append, map_singleton, sum_singleton]
      · rw [hb.reserved]
        rfl
      · rw [hb.prompt]
        simp [Reservation.spent]
      · rw [hb.completion]
        simp [Reservation.spent]
      · rw [hb.total]
        simp [Reservation.spent]
      · omega
      · intro hpos
        have := (exceedsTokenBudget_eq_false hpos hr ht le_rfl hbudget).2.2
        rw [Int64.toInt_zero] at this
        omega
    · constructor
      · rw [hreservations, map_append, map_singleton]
        refine nodup_append'.mpr ⟨hk.keys, nodup_singleton _, ?_⟩
        rw [disjoint_singleton]
        intro hmem
        obtain ⟨row, hrow, hid⟩ := mem_map.mp hmem
        exact lookup_eq_none.mp hnew row hrow hid
      · intro row hrow
        rw [hreservations] at hrow
        rcases mem_append.mp hrow with hrow | hrow
        · exact hk.held row hrow
        · rw [mem_singleton.mp hrow]
          exact hamount
      · simp only [hprompt, hcompletion, htotal]
        exact hk.covered
  | settle r usage f hreservation hheld husage hbudget hrange hcounters hf hfr hreservations =>
    obtain ⟨hmax, hreserved, hprompt, hcompletion, htotal⟩ := counters_eq hcounters
    obtain ⟨sequence, hfr⟩ := hfr
    have hmem := mem_of_lookup hreservation
    have hle : r.reservedTokens.toInt ≤ l.run.reservedTokens.toInt :=
      hb.reserved ▸ held_le_sum hk.held hmem hheld
    obtain ⟨hr₁, hp₁, hc₁, ht₁, hcap₁⟩ := settle_counters hb hk r.reservedTokens husage (hk.held r hmem) hle hbudget
      hrange
    obtain ⟨hr₂, hp₂, hc₂, ht₂⟩ := sum_settle hreservation hk.keys hheld hfr
    obtain ⟨hup, huc, hut⟩ := husage
    rw [append_nil]
    constructor
    · constructor <;> simp only [hmax, hreserved, hprompt, hcompletion, htotal, hreservations,
        settleTokens, hr₁, hp₁, hc₁, ht₁, hr₂, hp₂, hc₂, ht₂]
      · rw [hb.reserved]
      · rw [hb.prompt]
        omega
      · rw [hb.completion]
        omega
      · rw [hb.total]
        omega
      · omega
      · exact hcap₁
    · constructor
      · rw [hreservations, map_key_update fun row => (hf row).1]
        exact hk.keys
      · exact hreservations ▸ held_update hk.held fun row => (hf row).2
      · have := hk.covered
        simp only [hprompt, hcompletion, htotal, settleTokens, hp₁, hc₁, ht₁]
        omega
  | mark r f hreservation hheld hcounters hf hfr hreservations =>
    obtain ⟨hmax, hreserved, hprompt, hcompletion, htotal⟩ := counters_eq hcounters
    obtain ⟨sequence, hfr⟩ := hfr
    rw [append_nil]
    constructor
    · constructor <;> simp only [hmax, hreserved, hprompt, hcompletion, htotal, hreservations]
      · rw [sum_mark hreservation hk.keys (by rw [hfr]; rfl)]
        exact hb.reserved
      · rw [sum_mark hreservation hk.keys (by rw [hfr]; rfl)]
        exact hb.prompt
      · rw [sum_mark hreservation hk.keys (by rw [hfr]; rfl)]
        exact hb.completion
      · rw [sum_mark hreservation hk.keys (by rw [hfr]; rfl)]
        exact hb.total
      · exact hb.nonneg
      · exact hb.capped
    · constructor
      · rw [hreservations, map_key_update fun row => (hf row).1]
        exact hk.keys
      · exact hreservations ▸ held_update hk.held fun row => (hf row).2
      · simp only [hprompt, hcompletion, htotal]
        exact hk.covered
  | turn usage husage hbudget hrange hcounters hreservations =>
    obtain ⟨hmax, hreserved, hprompt, hcompletion, htotal⟩ := counters_eq hcounters
    obtain ⟨hr₁, hp₁, hc₁, ht₁, hcap₁⟩ := settle_counters hb hk 0 husage le_rfl hr hbudget
      hrange
    obtain ⟨hup, huc, hut⟩ := husage
    rw [Int64.toInt_zero, Int.sub_zero] at hr₁ hcap₁
    constructor
    · constructor <;> simp only [hmax, hreserved, hprompt, hcompletion, htotal, hreservations,
        settleTokens, hr₁, hp₁, hc₁, ht₁, tally_append, tally_singleton]
      · exact hb.reserved
      · rw [hb.prompt]
        omega
      · rw [hb.completion]
        omega
      · rw [hb.total]
        omega
      · omega
      · exact hcap₁
    · constructor
      · rw [hreservations]
        exact hk.keys
      · rw [hreservations]
        exact hk.held
      · have := hk.covered
        simp only [hprompt, hcompletion, htotal, settleTokens, hp₁, hc₁, ht₁]
        omega
  | release hcounters hreservations =>
    obtain ⟨hmax, hreserved, hprompt, hcompletion, htotal⟩ := counters_eq hcounters
    rw [append_nil]
    constructor
    · constructor <;> simp only [hmax, hreserved, hprompt, hcompletion, htotal, hreservations]
      · rw [sum_release_held]
        rfl
      · rw [sum_release_spent l fun _ => rfl]
        exact hb.prompt
      · rw [sum_release_spent l fun _ => rfl]
        exact hb.completion
      · rw [sum_release_spent l fun _ => rfl]
        exact hb.total
      · exact ⟨le_rfl, hp, hc, ht⟩
      · intro hpos
        have := hb.capped hpos
        rw [Int64.toInt_zero]
        omega
    · constructor
      · rw [hreservations, releaseReservations, map_map]
        have hids : ∀ r ∈ l.reservations, (Reservation.id ∘ fun r : Reservation =>
            if r.status = .reserved then r.reconcile Usage.zero else r) r = r.id := by
          intro r _
          simp only [Function.comp_apply]
          split <;> rfl
        rw [map_congr_left hids]
        exact hk.keys
      · intro row hrow
        rw [hreservations] at hrow
        obtain ⟨old, hold, rfl⟩ := mem_map.mp hrow
        split
        · exact hk.held old hold
        · exact hk.held old hold
      · simp only [hprompt, hcompletion, htotal]
        exact hk.covered

/-! ### An id is counted once -/

theorem reservation_persists {op : Op} (h : Wrote l now op l') (hr : l.reservation? id = some r) :
    ∃ r', l'.reservation? id = some r' ∧ (r.status = .reconciled → r'.status = .reconciled) := by
  have hkeep : ∀ {rows}, rows = l.reservations →
      ∃ r', lookup Reservation.id id rows = some r' ∧
        (r.status = .reconciled → r'.status = .reconciled) := by
    rintro _ rfl
    exact ⟨r, hr, fun hs => hs⟩
  have hupdate : ∀ {id' : ℕ} {f : Reservation → Reservation}, (∀ row, (f row).id = row.id) →
      (∀ row, row.status = .reconciled → (f row).status = .reconciled) →
      ∃ r', lookup Reservation.id id (update Reservation.id id' f l.reservations) =
        some r' ∧ (r.status = .reconciled → r'.status = .reconciled) := by
    intro id' f hid hstatus
    by_cases hid' : id = id'
    · subst hid'
      refine ⟨f r, ?_, hstatus r⟩
      rw [lookup_update_self hid]
      exact congrArg (Option.map f) hr
    · refine ⟨r, ?_, fun hs => hs⟩
      rwa [lookup_update_of_ne hid hid']
  cases h with
  | appendTerminal hguard hreaches hkind hclosed hmark =>
    rcases markTerminal_ok hmark with rfl | rfl <;> exact hkeep rfl
  | rejectStale | rejectCancel =>
    rw [RunLedger.rejectStale]
    split <;> exact hkeep rfl
  | reserveTokens =>
    exact ⟨r, lookup_append_of_some hr _, fun hs => hs⟩
  | reconcileTokens => exact hupdate (fun _ => rfl) (fun _ _ => rfl)
  | @commitModelTurn checkpointID _ reservation usage =>
    cases reservation with
    | none => exact hkeep rfl
    | some row =>
      rw [reservation?, putTurn, commit]
      simp only [putCheckpoint, markCommitted, updateReservation,
        countTurn_reservations]
      refine hupdate (fun row => ?_) (fun row hs => ?_)
      · split <;> rfl
      · split
        · rfl
        · exact hs
  | recoverRun =>
    show ∃ r', lookup Reservation.id id l.releaseReservations.reservations = some r' ∧ _
    have hlookup : lookup Reservation.id id l.releaseReservations.reservations =
        some (if r.status = .reserved then r.reconcile Usage.zero else r) := by
      rw [Table.lookup, releaseReservations, find?_map]
      have hid : ((fun row : Reservation => decide (row.id = id)) ∘ fun row : Reservation =>
          if row.status = .reserved then row.reconcile Usage.zero else row) =
            fun row => decide (row.id = id) := by
        funext row
        simp only [Function.comp_apply]
        split <;> rfl
      rw [hid]
      exact congrArg (Option.map _) hr
    refine ⟨_, hlookup, fun hs => ?_⟩
    split
    · rfl
    · exact hs
  | recoveryNoted => exact hkeep (by rw [insertRecoveryCommand_eq])
  | recovery hopen howner hdecision hreaches =>
    refine hkeep ?_
    rw [insertRecoveryCommand_eq, (decide'_frame ..).2.2.2.2.1, decision_frame hdecision]
  | _ => exact hkeep rfl

/-- A reservation of an id changes the counters. -/
def reserves (id : ℕ) (l : RunLedger) (a : Act) : Bool :=
  (match a.op with
    | .reserveTokens _ _ id' _ _ => id' = id
    | _ => false) && (step l a).run.counters ≠ l.run.counters

/-- A reconciliation or a turn of a reservation changes the counters. -/
def settles (id : ℕ) (l : RunLedger) (a : Act) : Bool :=
  (match a.op with
    | .reconcileTokens _ _ id' _ => id' = id
    | .commitModelTurn _ r => r.reservationID ≠ 0 ∧ r.reservationID = id
    | _ => false) && (step l a).run.counters ≠ l.run.counters

theorem step_eq_self {a : Act} (h : ∀ l', a.op.apply l a.now = .ok l' → l' = l) : step l a = l := by
  rw [step]
  split
  · exact h _ (by assumption)
  · rfl

theorem reserves_of_reserved (h : (l.reservation? id).isSome = true) (a : Act) :
    reserves id l a = false := by
  obtain ⟨now, op⟩ := a
  cases op with
  | reserveTokens token expected id' tokens elsewhere =>
    by_cases hid : id' = id
    · subst hid
      obtain ⟨r, hr⟩ := Option.isSome_iff_exists.mp h
      have hsame : step l ⟨now, .reserveTokens token expected id' tokens elsewhere⟩ = l := by
        refine step_eq_self fun l' hl' => ?_
        simp only [Op.apply, RunLedger.reserveTokens, hr] at hl'
        split_ifs at hl'
        exact (Except.ok.inj hl').symm
      simp [reserves, hsame]
    · simp [reserves, hid]
  | _ => rfl

theorem settles_of_reconciled (h : ∃ r, l.reservation? id = some r ∧ r.status = .reconciled)
    (a : Act) :
    settles id l a = false := by
  obtain ⟨r, hr, hstatus⟩ := h
  have hne : r.status ≠ .reserved := by rw [hstatus]; nofun
  obtain ⟨now, op⟩ := a
  cases op with
  | reconcileTokens token expected id' given =>
    by_cases hid : id' = id
    · subst hid
      have hsame : step l ⟨now, .reconcileTokens token expected id' given⟩ = l := by
        refine step_eq_self fun l' hl' => ?_
        simp only [Op.apply, RunLedger.reconcileTokens, hr, if_pos hne] at hl'
        split at hl'
        · cases hl'
        · exact (Except.ok.inj hl').symm
      simp [settles, hsame]
    · simp [settles, hid]
  | commitModelTurn checkpointID request =>
    by_cases hid : request.reservationID ≠ 0 ∧ request.reservationID = id
    · obtain ⟨hzero, rfl⟩ := hid
      have hsame : (step l ⟨now, .commitModelTurn checkpointID request⟩).run.counters =
          l.run.counters := by
        rw [step]
        split
        · rename_i l' hl'
          simp only [Op.apply, RunLedger.commitModelTurn, if_neg hzero, hr] at hl'
          split at hl'
          · rw [← Except.ok.inj hl']
          · obtain ⟨usage, -, rfl⟩ := commitTurn_ok hl'
            simp only [putTurn, commit, putCheckpoint, markCommitted, updateReservation, countTurn,
              if_neg hne, Run.counters]
        · rfl
      simp [settles, hsame]
    · simp [settles, hid]
  | _ => rfl

theorem reserved_of_reserves {a : Act} (h : reserves id l a = true) :
    ((step l a).reservation? id).isSome = true := by
  obtain ⟨now, op⟩ := a
  cases op with
  | reserveTokens token expected id' tokens elsewhere =>
    simp only [reserves, Bool.and_eq_true, decide_eq_true_eq] at h
    obtain ⟨rfl, hchanged⟩ := h
    have hwrote := wrote_step l ⟨now, .reserveTokens token expected id' tokens elsewhere⟩
    generalize step l ⟨now, .reserveTokens token expected id' tokens elsewhere⟩ = l' at *
    cases hwrote with
    | same => exact absurd rfl hchanged
    | reserveTokens hamount hnew hguard hbudget =>
      rw [reservation?, Table.lookup_append_of_none hnew]
      simp [Table.lookup]
  | _ => simp [reserves] at h

theorem reconciled_of_settles {a : Act} (h : settles id l a = true) :
    ∃ r, (step l a).reservation? id = some r ∧ r.status = .reconciled := by
  obtain ⟨now, op⟩ := a
  cases op with
  | reconcileTokens token expected id' given =>
    simp only [settles, Bool.and_eq_true, decide_eq_true_eq] at h
    obtain ⟨rfl, hchanged⟩ := h
    have hwrote := wrote_step l ⟨now, .reconcileTokens token expected id' given⟩
    generalize step l ⟨now, .reconcileTokens token expected id' given⟩ = l' at *
    cases hwrote with
    | same => exact absurd rfl hchanged
    | @reconcileTokens _ _ _ _ usage r husage hreservation hheld hguard hbudget =>
      refine ⟨r.reconcile usage, ?_, rfl⟩
      show lookup Reservation.id id' (update Reservation.id id'
        (·.reconcile usage) l.reservations) = _
      rw [lookup_update_self fun r : Reservation => (rfl : (r.reconcile usage).id = r.id)]
      exact congrArg (Option.map (·.reconcile usage)) hreservation
  | commitModelTurn checkpointID request =>
    simp only [settles, Bool.and_eq_true, decide_eq_true_eq] at h
    obtain ⟨⟨hzero, rfl⟩, hchanged⟩ := h
    have hwrote := wrote_step l ⟨now, .commitModelTurn checkpointID request⟩
    generalize step l ⟨now, .commitModelTurn checkpointID request⟩ = l' at *
    cases hwrote with
    | same => exact absurd rfl hchanged
    | @commitModelTurn _ _ reservation usage hreservation huncommitted hchecks =>
      rcases hreservation with ⟨hid, -⟩ | ⟨-, hsome, hlookup⟩
      · exact absurd hid hzero
      · obtain ⟨row, rfl⟩ := Option.isSome_iff_exists.mp hsome
        have hid : row.id = request.reservationID := reservation_id hlookup
        by_cases hheld : row.status = .reserved
        · refine ⟨{ row.reconcile usage with committedSequence := l.run.nextSequence }, ?_, rfl⟩
          rw [reservation?, putTurn, commit]
          simp only [putCheckpoint, markCommitted, updateReservation,
            countTurn_reservations, hid]
          rw [lookup_update_self]
          · rw [show lookup Reservation.id request.reservationID l.reservations = some row
              from hlookup]
            simp [hheld]
          · intro r
            split <;> rfl
        · refine absurd ?_ hchanged
          simp only [putTurn, commit, putCheckpoint, markCommitted, updateReservation, countTurn,
            if_neg hheld, Run.counters]
  | _ => simp [settles] at h

/-- **The token books of a run are balanced** after every run of mutations in which no sum
leaves the range of the machine without a test, and an id is reserved and settled at most
once. -/
theorem tokens_balanced (budget : Int64) (content : Text) (acts : List Act)
    (hacts : Along step (fun l a => wraps l a = false) (RunLedger.create budget content) acts) :
    Balanced (run step (RunLedger.create budget content) acts)
        (unreservedTurns (RunLedger.create budget content) acts) ∧
      ∀ id, count step (reserves id) (RunLedger.create budget content) acts ≤ 1 ∧
        count step (settles id) (RunLedger.create budget content) acts ≤ 1 := by
  have hbooks : ∀ (acts : List Act) (l : RunLedger) (turns : List Usage),
      Along step (fun l a => wraps l a = false) l acts → Balanced l turns ∧ Kept l →
      Balanced (run step l acts) (turns ++ unreservedTurns l acts) := by
    intro acts
    induction acts with
    | nil =>
      intro l turns _ hl
      rw [unreservedTurns, append_nil]
      exact hl.1
    | cons a as ih =>
      intro l turns hacts hl
      have hstep := balanced_of_tokenStep
        (tokenStep_step l a hacts.1 hl.1.nonneg.2.2.2) hl
      rw [unreservedTurns, ← append_assoc]
      exact ih (step l a) _ hacts.2 hstep
  refine ⟨by simpa using hbooks acts _ [] hacts (balanced_create budget content), fun id => ⟨?_, ?_⟩⟩
  · refine count_le_one (P := fun l => (l.reservation? id).isSome = true) (fun l a hl => ?_)
      (fun l a hl => reserves_of_reserved hl a) fun l a ha => reserved_of_reserves ha
    obtain ⟨r, hr⟩ := Option.isSome_iff_exists.mp hl
    obtain ⟨r', hr', -⟩ := reservation_persists (wrote_step l a) hr
    exact Option.isSome_iff_exists.mpr ⟨r', hr'⟩
  · refine count_le_one (P := fun l => ∃ r, l.reservation? id = some r ∧ r.status = .reconciled)
      (fun l a hl => ?_) (fun l a hl => settles_of_reconciled hl a)
      fun l a ha => reconciled_of_settles ha
    obtain ⟨r, hr, hstatus⟩ := hl
    obtain ⟨r', hr', hkeep⟩ := reservation_persists (wrote_step l a) hr
    exact ⟨r', hr', hkeep hstatus⟩

/-- A run with a budget that reserves, commits the turn and retries both. -/
def budgetedRun : List Act :=
  [⟨0, .reserveTokens 0 0 1 60 false⟩,
    ⟨0, .commitModelTurn 1 ⟨0, 0, some .queued, 1, ⟨20, 30, 0, none⟩, [], Usage.zero, none, none⟩⟩,
    ⟨0, .reserveTokens 0 0 1 60 false⟩,
    ⟨0, .commitModelTurn 2 ⟨0, 0, some .queued, 0, ⟨5, 5, 10, none⟩, [], Usage.zero, none, none⟩⟩]

theorem tokens_balanced_budgeted :
    let l := run step (RunLedger.create 100 []) budgetedRun
    Balanced l (unreservedTurns (RunLedger.create 100 []) budgetedRun) ∧
      l.run.totalTokens = 60 ∧ l.run.reservedTokens = 0 :=
  ⟨(tokens_balanced 100 [] budgetedRun (by decide)).1, by decide, by decide⟩

/-- Two reservations on a run without a budget whose sum wraps around. -/
def wrappingRun : List Act :=
  [⟨0, .reserveTokens 0 0 1 Int64.maxValue false⟩, ⟨0, .reserveTokens 0 0 2 1 false⟩]

/-- The counter of the reserved tokens becomes negative. -/
theorem reserve_wraps :
    (run step (RunLedger.create 0 []) wrappingRun).run.reservedTokens < 0 ∧
      ¬ Balanced (run step (RunLedger.create 0 []) wrappingRun)
        (unreservedTurns (RunLedger.create 0 []) wrappingRun) :=
  ⟨by decide, fun h => absurd h.nonneg.1 (by decide)⟩

end GoNavi.Harness
