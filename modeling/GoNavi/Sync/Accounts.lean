import GoNavi.Sync.Delivery

/-! # The accounts of a delivery

**Every event that a delivery counts is part of a batch that has been applied, or was skipped where
it failed on its own** (`delivery_accounts`), in the order of the events.  An event that would fail
on its own is not always skipped (`skipped_alone`). -/

namespace GoNavi.Sync

open Scan Stoppable List

section accounts

variable {σ α ρ π : Type} (env : EventWorld σ α ρ π)

/-! ### What has been done -/

/-- The events with their numbers. -/
def numbered (events : List (PreparedEvent α ρ π)) : List (DataChangeEvent α × ℕ) :=
  events.map fun event => (event.event, event.index)

def EventPiece.numbered : EventPiece α ρ π → List (DataChangeEvent α × ℕ)
  | .applied events => Sync.numbered events
  | .rejected event => [(event.event, event.index)]
  | .invalid event index => [(event, index)]

/-- The events that have been applied. -/
def EventPiece.size : EventPiece α ρ π → ℕ
  | .applied events => events.length
  | _ => 0

/-- The number of the event that has been skipped. -/
def EventPiece.skipped : EventPiece α ρ π → List ℕ
  | .applied _ => []
  | .rejected event => [event.index]
  | .invalid _ index => [index]

def skippedIndices (pieces : List (EventPiece α ρ π)) : List ℕ :=
  pieces.flatMap EventPiece.skipped

/-- Events of one table, as they have been prepared. -/
def EventWorld.Prepared (runtime : ρ) (events : List (PreparedEvent α ρ π)) : Prop :=
  ∀ event ∈ events, event.runtime = runtime ∧
    env.prepareChangeEvent event.index event.event = some (event.runtime, event.change)

/-- What a piece makes of the target: a batch is applied as a whole, an event is skipped that
could not be prepared or has failed as a batch of its own. -/
def EventWorld.Makes (target : σ) : EventPiece α ρ π → σ → Prop
  | .applied events, target' => events ≠ [] ∧ ∃ runtime counts, env.Prepared runtime events ∧
      env.applyPreparedChangeEventBatch runtime events target = .applied counts target'
  | .rejected event, target' => env.Prepared event.runtime [event] ∧
      (∃ err, env.applyPreparedChangeEventBatch event.runtime [event] target = .failed err) ∧
      target' = target
  | .invalid event index, target' => env.prepareChangeEvent index event = none ∧ target' = target

/-- What pieces make of the target, one after the other. -/
def EventWorld.Replays : List (EventPiece α ρ π) → σ → σ → Prop
  | [], target, target' => target' = target
  | piece :: pieces, target, target' =>
    ∃ between, env.Makes target piece between ∧ EventWorld.Replays pieces between target'

variable {env} {piece : EventPiece α ρ π}

theorem EventWorld.Replays.snoc {target' target'' : σ} (hmakes : env.Makes target' piece target'') :
    ∀ {pieces : List (EventPiece α ρ π)} {target : σ},
    env.Replays pieces target target' → env.Replays (pieces ++ [piece]) target target''
  | [], target, h => by
    cases h
    exact ⟨target'', hmakes, rfl⟩
  | _ :: _, _, ⟨between, hfirst, hrest⟩ => ⟨between, hfirst, hrest.snoc hmakes⟩

@[simp] theorem skippedIndices_snoc (pieces : List (EventPiece α ρ π)) (piece : EventPiece α ρ π) :
    skippedIndices (pieces ++ [piece]) = skippedIndices pieces ++ piece.skipped := by
  simp [skippedIndices]

/-! ### The accounts -/

variable (env) in
/-- The accounts of a delivery whose first `n` events have become pieces; `reported` are the row
errors of events that have not been skipped. -/
structure Accounted (policy : RowErrorPolicy) (start : σ) (all : List (DataChangeEvent α)) (n : ℕ)
    (reported : List ℕ) (s : Delivery σ α ρ π) : Prop where
  le : n ≤ all.length
  numbered : s.pieces.flatMap EventPiece.numbered = all.zipIdx.take n
  replays : ∃ target, env.Replays s.pieces start target ∧
    (s.result.outcomeUnknown = false → s.target = target)
  received : s.result.eventsReceived = all.length
  applied : s.result.eventsApplied = (s.pieces.map EventPiece.size).sum
  skipped : s.result.eventsSkipped = (skippedIndices s.pieces).length
  errors : s.result.rowErrors.map ChangeEventRowError.index = skippedIndices s.pieces ++ reported
  stops : policy = .stop → skippedIndices s.pieces = []

variable (env) in
/-- A delivery that goes on. -/
def Going (policy : RowErrorPolicy) (start : σ) (all : List (DataChangeEvent α)) (n : ℕ)
    (s : Delivery σ α ρ π) : Prop :=
  Accounted env policy start all n [] s ∧ s.result.outcomeUnknown = false

variable (env) in
/-- A delivery that has been stopped: under the policy `stop` the first event that is not part of
a piece may have been reported. -/
def Stopped (policy : RowErrorPolicy) (start : σ) (all : List (DataChangeEvent α))
    (s : Delivery σ α ρ π) : Prop :=
  ∃ n reported, Accounted env policy start all n reported s ∧
    (reported = [] ∨ policy = .stop ∧ reported = [n] ∧ n < all.length)

variable {policy : RowErrorPolicy} {start : σ} {all : List (DataChangeEvent α)} {n : ℕ}
  {s : Delivery σ α ρ π}

theorem Going.stopped (h : Going env policy start all n s) : Stopped env policy start all s :=
  ⟨n, [], h.1, Or.inl rfl⟩

theorem Accounted.unknown (h : Accounted env policy start all n [] s) (target : σ) :
    Stopped env policy start all
      { s with target, result := { s.result with outcomeUnknown := true } } := by
  obtain ⟨target', hreplays, -⟩ := h.replays
  refine ⟨n, [], ⟨h.le, h.numbered, ⟨target', hreplays, ?_⟩, h.received, h.applied, h.skipped,
    h.errors, h.stops⟩, Or.inl rfl⟩
  intro hknown
  cases hknown

/-- Events that come behind the first `n`. -/
def Follow (all : List (DataChangeEvent α)) (n : ℕ) (events : List (PreparedEvent α ρ π)) : Prop :=
  ∃ later, all.zipIdx.drop n = numbered events ++ later

theorem Follow.take_add {events : List (PreparedEvent α ρ π)} (h : Follow all n events) :
    all.zipIdx.take (n + events.length) = all.zipIdx.take n ++ numbered events := by
  obtain ⟨later, h⟩ := h
  rw [List.take_add, h, List.take_left' (by simp [numbered])]

theorem Follow.le {events : List (PreparedEvent α ρ π)} (h : Follow all n events)
    (hn : n ≤ all.length) : n + events.length ≤ all.length := by
  obtain ⟨later, h⟩ := h
  have hlength := congrArg List.length h
  simp only [length_drop, length_zipIdx, length_append, numbered,
    length_map] at hlength
  omega

theorem Follow.head {event : PreparedEvent α ρ π} {events : List (PreparedEvent α ρ π)}
    (h : Follow all n (event :: events)) :
    all.zipIdx[n]? = some (event.event, n) ∧ event.index = n := by
  obtain ⟨later, h⟩ := h
  have hget : all.zipIdx[n]? = some (event.event, event.index) := by
    rw [← head?_drop, h]
    rfl
  have hindex : event.index = n := by
    rw [getElem?_zipIdx] at hget
    obtain ⟨_, -, heq⟩ := Option.map_eq_some_iff.mp hget
    rw [Prod.mk.injEq] at heq
    omega
  rw [hindex] at hget
  exact ⟨hget, hindex⟩

theorem Follow.take {events : List (PreparedEvent α ρ π)} (h : Follow all n events) (m : ℕ) :
    Follow all n (events.take m) := by
  obtain ⟨later, h⟩ := h
  refine ⟨numbered (events.drop m) ++ later, ?_⟩
  rw [h, ← append_assoc]
  unfold numbered
  rw [← map_append, take_append_drop]

theorem Follow.drop {events : List (PreparedEvent α ρ π)} (h : Follow all n events) {m : ℕ}
    (hm : m ≤ events.length) : Follow all (n + m) (events.drop m) := by
  obtain ⟨later, h⟩ := h
  refine ⟨later, ?_⟩
  rw [← drop_drop, h, drop_append_of_le_length (by simpa [numbered] using hm), numbered,
    ← map_drop]
  rfl

theorem Going.commit (h : Going env policy start all n s) {runtime : ρ}
    {events : List (PreparedEvent α ρ π)} (hne : events ≠ []) (hfollow : Follow all n events)
    (hprepared : env.Prepared runtime events) {counts : AppliedChangeCounts} {target : σ}
    (happlied : env.applyPreparedChangeEventBatch runtime events s.target =
      .applied counts target) :
    Going env policy start all (n + events.length) (s.commit events counts target) := by
  obtain ⟨h, hknown⟩ := h
  obtain ⟨target', hreplays, htarget⟩ := h.replays
  have htarget := htarget hknown
  subst htarget
  have hmakes : env.Makes s.target (.applied events) target :=
    ⟨hne, runtime, counts, hprepared, happlied⟩
  refine ⟨⟨hfollow.le h.le, ?_, ⟨target, hreplays.snoc hmakes, fun _ => rfl⟩, h.received, ?_, ?_,
    ?_, ?_⟩, hknown⟩
  · rw [hfollow.take_add, ← h.numbered]
    simp [Delivery.commit, EventPiece.numbered]
  · simp [Delivery.commit, EventPiece.size, h.applied]
  · simpa [Delivery.commit, EventPiece.skipped] using h.skipped
  · simpa [Delivery.commit, EventPiece.skipped] using h.errors
  · simpa [Delivery.commit, EventPiece.skipped] using h.stops

variable {event : DataChangeEvent α} {rowError : ChangeEventRowError α}

theorem Going.skip (h : Going env .skipRow start all n s) (hnext : all.zipIdx[n]? = some (event, n))
    (hnumbered : piece.numbered = [(event, n)]) (hskipped : piece.skipped = [n])
    (hsize : piece.size = 0) (hmakes : env.Makes s.target piece s.target)
    (hindex : rowError.index = n) :
    Going env .skipRow start all (n + 1) (s.skip piece rowError) := by
  obtain ⟨h, hknown⟩ := h
  obtain ⟨target', hreplays, htarget⟩ := h.replays
  have htarget := htarget hknown
  subst htarget
  have hlt : n < all.length := by
    obtain ⟨hlt, -⟩ := List.getElem?_eq_some_iff.mp hnext
    simpa using hlt
  refine ⟨⟨hlt, ?_, ⟨s.target, hreplays.snoc hmakes, fun _ => rfl⟩, h.received, ?_, ?_, ?_, ?_⟩,
    hknown⟩
  · rw [take_add_one, hnext, ← h.numbered]
    simp [Delivery.skip, hnumbered]
  · simp [Delivery.skip, ChangeEventResult.report, hsize, h.applied]
  · simp [Delivery.skip, hskipped, h.skipped]
  · have herrors := h.errors
    rw [append_nil] at herrors
    simp [Delivery.skip, ChangeEventResult.report, publicChangeEventRowError, hskipped, hindex,
      herrors]
  · intro hstop
    cases hstop

theorem Going.report (h : Going env .stop start all n s) (hlt : n < all.length)
    (hindex : rowError.index = n) :
    Stopped env .stop start all { s with result := s.result.report rowError } := by
  obtain ⟨h, -⟩ := h
  have herrors := h.errors
  rw [append_nil] at herrors
  refine ⟨n, [n], ⟨h.le, h.numbered, h.replays, h.received, h.applied, h.skipped, ?_, h.stops⟩,
    Or.inr ⟨rfl, rfl, hlt⟩⟩
  simp [ChangeEventResult.report, publicChangeEventRowError, hindex, herrors]

/-! ### Steps -/

theorem Accounted.of_eq {reported : List ℕ} {s' : Delivery σ α ρ π}
    (h : Accounted env policy start all n reported s) (htarget : s'.target = s.target)
    (hpieces : s'.pieces = s.pieces)
    (hunknown : s'.result.outcomeUnknown = s.result.outcomeUnknown)
    (hreceived : s'.result.eventsReceived = s.result.eventsReceived)
    (happlied : s'.result.eventsApplied = s.result.eventsApplied)
    (hskipped : s'.result.eventsSkipped = s.result.eventsSkipped)
    (herrors : s'.result.rowErrors = s.result.rowErrors) :
    Accounted env policy start all n reported s' := by
  constructor
  · exact h.le
  · rw [hpieces]
    exact h.numbered
  · rw [hpieces, hunknown, htarget]
    exact h.replays
  · rw [hreceived]
    exact h.received
  · rw [happlied, hpieces]
    exact h.applied
  · rw [hskipped, hpieces]
    exact h.skipped
  · rw [herrors, hpieces]
    exact h.errors
  · rw [hpieces]
    exact h.stops

variable (env) in
/-- It goes on, and the target is as it was. -/
def GoingAt (policy : RowErrorPolicy) (start : σ) (all : List (DataChangeEvent α)) (n : ℕ)
    (target : σ) (s : Delivery σ α ρ π) : Prop :=
  Going env policy start all n s ∧ s.target = target

theorem Going.check (h : Going env policy start all n s) :
    Ends (GoingAt env policy start all n s.target) (fun _ => Stopped env policy start all)
      (env.check s) := by
  have hgoing : Going env policy start all n { s with checks := s.checks + 1 } :=
    ⟨h.1.of_eq rfl rfl rfl rfl rfl rfl rfl, h.2⟩
  unfold EventWorld.check
  cases env.contextError s.checks with
  | none => exact ⟨hgoing, rfl⟩
  | some err => exact hgoing.stopped

theorem Going.reportChangeEventRowError (h : Going env policy start all n s)
    (rowError : ChangeEventRowError α) :
    Ends (GoingAt env policy start all n s.target) (fun _ => Stopped env policy start all)
      (env.reportChangeEventRowError rowError s) := by
  have hcheck := h.check
  unfold EventWorld.reportChangeEventRowError
  split
  · exact ⟨h, rfl⟩
  · split
    · rename_i heq
      rw [heq] at hcheck
      exact hcheck
    · rename_i callback _ _ _ heq
      rw [heq] at hcheck
      cases callback rowError with
      | true => exact Going.stopped hcheck.1
      | false => exact hcheck

/-- **A batch becomes pieces in the order of its events**, however it is halved. -/
theorem Going.applyBatch {policy : RowErrorPolicy} {runtime : ρ}
    {events : List (PreparedEvent α ρ π)} (hne : events ≠ []) {n : ℕ} {s : Delivery σ α ρ π}
    (hfollow : Follow all n events) (hprepared : env.Prepared runtime events)
    (h : Going env policy start all n s) :
    Ends (Going env policy start all (n + events.length)) (fun _ => Stopped env policy start all)
      (env.applyChangeEventBatchWithPolicy runtime policy events s) := by
  unfold EventWorld.applyChangeEventBatchWithPolicy
  refine h.check.andThen fun s hs => ?_
  obtain ⟨h, -⟩ := hs
  split
  · rename_i counts target happlied
    exact h.commit hne hfollow hprepared happlied
  · rename_i err target _
    exact h.1.unknown target
  · rename_i err hfailed
    refine h.check.andThen fun s' hs' => ?_
    obtain ⟨h, htarget⟩ := hs'
    rw [← htarget] at hfailed
    cases hevents : events with
    | nil => exact absurd hevents hne
    | cons first rest =>
    rw [hevents] at hfollow hprepared hfailed
    cases policy with
    | stop =>
      have hlt : n < all.length := by
        have hle := hfollow.le h.1.le
        rw [length_cons] at hle
        omega
      exact h.report hlt hfollow.head.2
    | skipRow =>
    cases hrest : rest with
    | nil =>
      rw [hrest] at hfollow hprepared hfailed
      obtain ⟨hnext, hindex⟩ := hfollow.head
      have hmakes : env.Makes s'.target (.rejected first) s'.target := by
        obtain ⟨hruntime, -⟩ := hprepared first (mem_singleton_self first)
        subst hruntime
        exact ⟨hprepared, ⟨err, hfailed⟩, rfl⟩
      refine (h.reportChangeEventRowError _).andThen fun s'' hs'' => ?_
      obtain ⟨h, htarget⟩ := hs''
      rw [← htarget] at hmakes
      refine h.skip hnext ?_ ?_ rfl hmakes hindex
      · rw [EventPiece.numbered, hindex]
      · rw [EventPiece.skipped, hindex]
    | cons second rest =>
      rw [hrest] at hevents hfollow hprepared
      have hlength : events.length = rest.length + 2 := by
        rw [hevents]
        rfl
      have hmiddle :
          (first :: second :: rest).length / 2 ≤ (first :: second :: rest).length :=
        Nat.div_le_self _ 2
      have hne' : (first :: second :: rest).take ((first :: second :: rest).length / 2) ≠ [] ∧
          (first :: second :: rest).drop ((first :: second :: rest).length / 2) ≠ [] := by
        rw [ne_nil_iff_length_pos, ne_nil_iff_length_pos, length_take,
          length_drop, length_cons, length_cons]
        omega
      have htake := Going.applyBatch hne'.1 (hfollow.take ((first :: second :: rest).length / 2))
        (fun event hevent => hprepared event (mem_of_mem_take hevent)) h
      refine htake.andThen fun s h => ?_
      rw [length_take, Nat.min_eq_left hmiddle] at h
      have hdrop := Going.applyBatch hne'.2 (hfollow.drop hmiddle)
        (fun event hevent => hprepared event (mem_of_mem_drop hevent)) h
      rw [length_drop, Nat.add_assoc, Nat.add_sub_cancel' hmiddle] at hdrop
      exact hdrop
termination_by events.length
decreasing_by
  all_goals simp only [length_take, length_drop, length_cons]; omega

variable {pending : List (PreparedEvent α ρ π)}

theorem Going.flush (hfollow : Follow all n pending)
    (hprepared : ∀ first ∈ pending.head?, env.Prepared first.runtime pending)
    (h : Going env policy start all n s) :
    Ends (Going env policy start all (n + pending.length)) (fun _ => Stopped env policy start all)
      (env.flush policy pending s) := by
  cases pending with
  | nil => exact h
  | cons first rest =>
    exact Going.applyBatch (cons_ne_nil first rest) hfollow (hprepared first rfl) h

/-! ### Deliveries -/

/-- The events that have not become pieces: those that are pending, and those behind them. -/
def Awaits (all : List (DataChangeEvent α)) (n : ℕ) (pending : List (PreparedEvent α ρ π))
    (events : List (DataChangeEvent α)) : Prop :=
  all.zipIdx.drop n = numbered pending ++ events.zipIdx (n + pending.length)

theorem Awaits.next {events : List (DataChangeEvent α)} (h : Awaits all n pending events) :
    Awaits all (n + pending.length) ([] : List (PreparedEvent α ρ π)) events := by
  unfold Awaits at h ⊢
  rw [← drop_drop, h, drop_left' (by simp [numbered])]
  rfl

theorem Awaits.pend {events : List (DataChangeEvent α)} (h : Awaits all n pending (event :: events))
    (runtime : ρ) (change : π) :
    Awaits all n (pending ++ [⟨n + pending.length, event, runtime, change⟩]) events := by
  unfold Awaits at h ⊢
  rw [h, zipIdx_cons]
  simp [numbered, Nat.add_assoc]

theorem Awaits.skip {events : List (DataChangeEvent α)}
    (h : Awaits all n ([] : List (PreparedEvent α ρ π)) (event :: events)) :
    all.zipIdx[n]? = some (event, n) ∧
      Awaits all (n + 1) ([] : List (PreparedEvent α ρ π)) events := by
  unfold Awaits at h ⊢
  have hdrop : all.zipIdx.drop n = (event, n) :: events.zipIdx (n + 1) := h
  refine ⟨?_, ?_⟩
  · rw [← head?_drop, hdrop]
    rfl
  · rw [← drop_drop, hdrop]
    rfl

theorem Awaits.nil (h : Awaits all n pending []) (hn : n ≤ all.length) :
    n + pending.length = all.length := by
  have hlength := congrArg List.length h
  simp only [length_drop, length_zipIdx, length_append, numbered, length_map,
    length_nil] at hlength
  omega

variable [DecidableEq ρ]

/-- **A delivery that is not stopped has made pieces of all its events.** -/
theorem Going.applyEvents (batchSize : ℕ) (events : List (DataChangeEvent α)) :
    ∀ (n : ℕ) (pending : List (PreparedEvent α ρ π)) (s : Delivery σ α ρ π),
      Awaits all n pending events →
      (∀ first ∈ pending.head?, env.Prepared first.runtime pending) →
      Going env policy start all n s →
      Ends (Going env policy start all all.length) (fun _ => Stopped env policy start all)
        (env.applyEvents batchSize policy (n + pending.length) pending events s) := by
  induction events with
  | nil =>
    intro n pending s hawaits hprepared h
    have hflush := h.flush ⟨_, hawaits⟩ hprepared
    rw [hawaits.nil h.1.le] at hflush
    exact hflush
  | cons event events ih =>
    -- the event has been put behind those of its table
    have hpend : ∀ (n : ℕ) (pending : List (PreparedEvent α ρ π)) (s : Delivery σ α ρ π)
        (runtime : ρ) (change : π), Awaits all n pending (event :: events) →
        env.prepareChangeEvent (n + pending.length) event = some (runtime, change) →
        env.Prepared runtime pending → Going env policy start all n s →
        let pending' := pending ++ [⟨n + pending.length, event, runtime, change⟩]
        Ends (Going env policy start all all.length) (fun _ => Stopped env policy start all)
          (if batchSize ≤ pending'.length then
            andThen (env.flush policy pending' s)
              (env.applyEvents batchSize policy (n + pending.length + 1) [] events)
          else env.applyEvents batchSize policy (n + pending.length + 1) pending' events s) := by
      intro n pending s runtime change hawaits hprepare hprepared h pending'
      have hawaits' : Awaits all n pending' events := hawaits.pend runtime change
      have hlength : n + pending.length + 1 = n + pending'.length := by
        simp [pending', Nat.add_assoc]
      have hall : env.Prepared runtime pending' := by
        intro p hp
        cases mem_append.mp hp with
        | inl hp => exact hprepared p hp
        | inr hp =>
          cases mem_singleton.mp hp
          exact ⟨rfl, hprepare⟩
      have hprepared' : ∀ first ∈ pending'.head?, env.Prepared first.runtime pending' := by
        intro first hfirst
        rw [(hall first (mem_of_mem_head? hfirst)).1]
        exact hall
      rw [hlength]
      split
      · refine (h.flush ⟨_, hawaits'⟩ hprepared').andThen fun s h => ?_
        exact ih _ [] s hawaits'.next (by simp) h
      · exact ih n pending' s hawaits' hprepared' h
    intro n pending s hawaits hprepared h
    unfold EventWorld.applyEvents
    refine h.check.andThen fun s ⟨h, _⟩ => ?_
    split
    · rename_i hprepare
      refine (h.flush ⟨_, hawaits⟩ hprepared).andThen fun s h => ?_
      obtain ⟨hnext, hawaits'⟩ := hawaits.next.skip
      have hlt : n + pending.length < all.length := by
        obtain ⟨hlt, -⟩ := List.getElem?_eq_some_iff.mp hnext
        simpa using hlt
      cases policy with
      | stop => exact h.report hlt rfl
      | skipRow =>
        refine (h.reportChangeEventRowError _).andThen fun s' ⟨h, htarget⟩ => ?_
        have hmakes : env.Makes s'.target (.invalid event (n + pending.length)) s'.target :=
          ⟨hprepare, rfl⟩
        refine ih _ [] _ hawaits' (by simp) ?_
        exact h.skip hnext rfl rfl rfl hmakes rfl
    · rename_i runtime change hprepare
      dsimp only
      cases hchanges : pending.head?.any fun first => first.runtime ≠ runtime with
      | true =>
        rw [if_pos rfl, if_pos rfl]
        refine (h.flush ⟨_, hawaits⟩ hprepared).andThen fun s h => ?_
        exact hpend _ [] s runtime change hawaits.next hprepare (by simp [EventWorld.Prepared]) h
      | false =>
        rw [if_neg Bool.false_ne_true, if_neg Bool.false_ne_true]
        have hruntime : env.Prepared runtime pending := by
          cases pending with
          | nil => simp [EventWorld.Prepared]
          | cons first rest =>
            have hfirst : first.runtime = runtime := by simpa using hchanges
            rw [← hfirst]
            exact hprepared first rfl
        exact hpend n pending s runtime change hawaits hprepare hruntime h

/-- The accounts at the end of a delivery. -/
structure Settled (env : EventWorld σ α ρ π) (policy : RowErrorPolicy) (start : σ)
    (all : List (DataChangeEvent α)) (n : ℕ) (reported : List ℕ) (d : Delivery σ α ρ π) : Prop where
  accounted : Accounted env policy start all n reported d
  failing : reported = [] ∨ policy = .stop ∧ reported = [n] ∧ n < all.length
  complete : d.result.success = true → n = all.length ∧ reported = []

omit [DecidableEq ρ] in
theorem Stopped.fail (h : Stopped env policy start all s) (err : Text) :
    ∃ n reported, Settled env policy start all n reported (env.failChangeEvents err s) := by
  obtain ⟨n, reported, h, hreported⟩ := h
  unfold EventWorld.failChangeEvents EventWorld.check
  cases env.contextError s.checks with
  | none => exact ⟨n, reported, h.of_eq rfl rfl rfl rfl rfl rfl rfl, hreported, nofun⟩
  | some cancelled => exact ⟨n, reported, h.of_eq rfl rfl rfl rfl rfl rfl rfl, hreported, nofun⟩

omit [DecidableEq ρ] in
theorem Going.succeed (h : Going env policy start all all.length s) :
    Settled env policy start all all.length []
      { s with result := { s.result with success := true } } :=
  ⟨h.1.of_eq rfl rfl rfl rfl rfl rfl rfl, Or.inl rfl, fun _ => ⟨rfl, rfl⟩⟩

theorem Going.applyLocked (batchSize : ℕ) (h : Going env policy start all 0 s) :
    ∃ n reported, Settled env policy start all n reported
      (env.applyLocked batchSize policy all s) := by
  have hrun := Going.applyEvents batchSize all 0 [] s (by simp [Awaits, numbered]) (by simp) h
  unfold EventWorld.applyLocked
  split
  · rename_i heq
    rw [length_nil, Nat.add_zero, heq] at hrun
    exact ⟨_, _, Going.succeed hrun⟩
  · rename_i heq
    rw [length_nil, Nat.add_zero, heq] at hrun
    exact Stopped.fail hrun _

/-- Under whatever policy a delivery is made, it has its accounts at its end. -/
theorem applyContext_settled (env : EventWorld σ α ρ π) (batchSize : ℕ) (rowErrorPolicy : Text)
    (all : List (DataChangeEvent α)) (start : σ) :
    ∀ policy, (∀ policy', normalizeRowErrorPolicy env.unicode env.quote rowErrorPolicy =
        .ok policy' → policy' = policy) →
      ∃ n reported, Settled env policy start all n reported
        (env.applyContext batchSize rowErrorPolicy all start) := by
  intro policy hpolicy
  have hstart : Going env policy start all 0
      { target := start, result := { eventsReceived := all.length } } := by
    refine ⟨⟨Nat.zero_le _, rfl, ⟨start, rfl, fun _ => rfl⟩, rfl, rfl, rfl, rfl, fun _ => rfl⟩, rfl⟩
  unfold EventWorld.applyContext
  dsimp only
  split
  · exact hstart.stopped.fail _
  rename_i policy' hok
  cases hpolicy policy' hok
  have hcheck := hstart.check
  split
  · rename_i heq
    rw [heq] at hcheck
    exact Stopped.fail hcheck _
  rename_i s heq
  rw [heq] at hcheck
  have hgoing : Going env policy start all 0 s := hcheck.1
  split
  · exact hgoing.stopped.fail _
  split
  · rename_i hempty
    subst hempty
    exact ⟨_, _, hgoing.succeed⟩
  split
  · exact hgoing.stopped.fail _
  have hcheck := hgoing.check
  split
  · rename_i heq
    rw [heq] at hcheck
    exact Stopped.fail hcheck _
  · rename_i heq
    rw [heq] at hcheck
    exact Going.applyLocked batchSize hcheck.1

end accounts

/-! ### One event at a time -/

section singly

variable {σ α ρ π : Type} (env : EventWorld σ α ρ π)

/-- An event that is applied individually; its number is noted if it fails. -/
def EventWorld.applyOne (s : σ × List ℕ) (event : DataChangeEvent α × ℕ) : σ × List ℕ :=
  match env.prepareChangeEvent event.2 event.1 with
  | none => (s.1, s.2 ++ [event.2])
  | some (runtime, change) =>
    match env.applyPreparedChangeEventBatch runtime [⟨event.2, event.1, runtime, change⟩] s.1 with
    | .applied _ target => (target, s.2)
    | _ => (s.1, s.2 ++ [event.2])

/-- A batch that applies would apply event by event, to the same end. -/
def EventWorld.OneByOne : Prop :=
  ∀ runtime event events (target target' : σ) counts, events ≠ [] →
    env.applyPreparedChangeEventBatch runtime (event :: events) target = .applied counts target' →
    ∃ between counts counts',
      env.applyPreparedChangeEventBatch runtime [event] target = .applied counts between ∧
      env.applyPreparedChangeEventBatch runtime events between = .applied counts' target'

variable {env}

theorem applyOne_prepared {event : PreparedEvent α ρ π} {runtime : ρ}
    (hprepared : env.Prepared runtime [event]) (s : σ × List ℕ) :
    env.applyOne s (event.event, event.index) =
      match env.applyPreparedChangeEventBatch runtime [event] s.1 with
      | .applied _ target => (target, s.2)
      | _ => (s.1, s.2 ++ [event.index]) := by
  obtain ⟨hruntime, hprepare⟩ := hprepared event (mem_singleton_self event)
  subst hruntime
  unfold EventWorld.applyOne
  rw [hprepare]

theorem EventWorld.OneByOne.batch (h : env.OneByOne) {runtime : ρ} :
    ∀ {events : List (PreparedEvent α ρ π)} {target target' : σ} {counts : AppliedChangeCounts}
      (skipped : List ℕ), events ≠ [] → env.Prepared runtime events →
      env.applyPreparedChangeEventBatch runtime events target = .applied counts target' →
      (numbered events).foldl env.applyOne (target, skipped) = (target', skipped)
  | [], _, _, _, _, hne, _, _ => absurd rfl hne
  | [event], target, target', counts, skipped, _, hprepared, happlied => by
    have hone := applyOne_prepared hprepared (target, skipped)
    rw [happlied] at hone
    exact hone
  | event :: second :: rest, target, target', counts, skipped, _, hprepared, happlied => by
    obtain ⟨between, counts, counts', hfirst, hrest⟩ :=
      h runtime event (second :: rest) target target' _ (cons_ne_nil _ _) happlied
    have hprepared' : env.Prepared runtime [event] := by
      intro e he
      cases mem_singleton.mp he
      exact hprepared event mem_cons_self
    have hone := applyOne_prepared hprepared' (target, skipped)
    rw [hfirst] at hone
    show (numbered (second :: rest)).foldl env.applyOne
      (env.applyOne (target, skipped) (event.event, event.index)) = _
    rw [hone]
    exact h.batch skipped (cons_ne_nil second rest)
      (fun e he => hprepared e (mem_cons_of_mem _ he)) hrest

theorem EventWorld.OneByOne.replays (h : env.OneByOne) :
    ∀ {pieces : List (EventPiece α ρ π)} {target target' : σ} (skipped : List ℕ),
      env.Replays pieces target target' →
      (pieces.flatMap EventPiece.numbered).foldl env.applyOne (target, skipped) =
        (target', skipped ++ skippedIndices pieces)
  | [], _, _, skipped, hreplays => by
    cases hreplays
    simp [skippedIndices]
  | piece :: pieces, target, target', skipped, ⟨between, hmakes, hrest⟩ => by
    have hfirst : piece.numbered.foldl env.applyOne (target, skipped) =
        (between, skipped ++ piece.skipped) := by
      cases piece with
      | applied events =>
        obtain ⟨hne, runtime, counts, hprepared, happlied⟩ := hmakes
        rw [EventPiece.numbered, h.batch skipped hne hprepared happlied, EventPiece.skipped,
          append_nil]
      | rejected event =>
        obtain ⟨hprepared, ⟨err, hfailed⟩, rfl⟩ := hmakes
        have hone := applyOne_prepared hprepared (between, skipped)
        rw [hfailed] at hone
        exact hone
      | invalid event index =>
        obtain ⟨hprepare, rfl⟩ := hmakes
        show env.applyOne (between, skipped) (event, index) = _
        unfold EventWorld.applyOne
        rw [hprepare]
        rfl
    rw [flatMap_cons, foldl_append, hfirst, h.replays _ hrest]
    simp [skippedIndices]

/-! ### Counting the pieces -/

theorem sum_sizes (pieces : List (EventPiece α ρ π)) :
    (pieces.map EventPiece.size).sum + (skippedIndices pieces).length =
      (pieces.flatMap EventPiece.numbered).length := by
  induction pieces with
  | nil => rfl
  | cons piece pieces ih =>
    have hpiece : piece.size + piece.skipped.length = piece.numbered.length := by
      cases piece <;> simp [EventPiece.size, EventPiece.skipped, EventPiece.numbered, numbered]
    simp only [skippedIndices, map_cons, sum_cons, flatMap_cons,
      length_append] at ih ⊢
    omega

theorem skippedIndices_sublist (pieces : List (EventPiece α ρ π)) :
    (skippedIndices pieces).Sublist ((pieces.flatMap EventPiece.numbered).map Prod.snd) := by
  induction pieces with
  | nil => exact List.Sublist.refl _
  | cons piece pieces ih =>
    have hpiece : piece.skipped.Sublist (piece.numbered.map Prod.snd) := by
      cases piece <;> simp [EventPiece.skipped, EventPiece.numbered]
    simp only [skippedIndices, flatMap_cons, map_append] at ih ⊢
    exact hpiece.append ih

variable {policy : RowErrorPolicy} {start : σ} {all : List (DataChangeEvent α)} {n : ℕ}
  {reported : List ℕ} {d : Delivery σ α ρ π}

theorem Settled.sorted (h : Settled env policy start all n reported d) :
    (d.result.rowErrors.map ChangeEventRowError.index).Pairwise (· < ·) := by
  rw [h.accounted.errors]
  cases h.failing with
  | inl hreported =>
    rw [hreported, append_nil]
    apply List.Pairwise.sublist (skippedIndices_sublist d.pieces)
    rw [h.accounted.numbered, map_take, zipIdx_map_snd]
    exact (pairwise_lt_range' 1).sublist (take_sublist _ _)
  | inr hstop =>
    rw [h.accounted.stops hstop.1, hstop.2.1]
    exact pairwise_singleton _ _

theorem Settled.total (h : Settled env policy start all n reported d) :
    d.result.eventsApplied + d.result.eventsSkipped = n := by
  rw [h.accounted.applied, h.accounted.skipped, sum_sizes, h.accounted.numbered,
    length_take, length_zipIdx, Nat.min_eq_left h.accounted.le]

end singly

/-- **Every event that a delivery counts is part of a batch that has been applied, or was skipped
where it failed on its own**, in the order of the events.  Under `skip_row` the events that are
skipped are those that would fail one at a time, if a batch that applies would apply event by
event; under `stop` what is applied is a prefix. -/
theorem delivery_accounts {σ α ρ π : Type} [DecidableEq ρ] (env : EventWorld σ α ρ π)
    (batchSize : ℕ) (rowErrorPolicy : Text) (events : List (DataChangeEvent α)) (target : σ) :
    let d := env.applyContext batchSize rowErrorPolicy events target
    let policy := normalizeRowErrorPolicy env.unicode env.quote rowErrorPolicy
    let skipped := d.result.rowErrors.map ChangeEventRowError.index
    let done := fun n => d.pieces.flatMap EventPiece.numbered = events.zipIdx.take n ∧
      ∃ target', env.Replays d.pieces target target' ∧
        (d.result.outcomeUnknown = false → d.target = target')
    (d.result.success = true →
      d.result.eventsApplied + d.result.eventsSkipped = d.result.eventsReceived) ∧
    skipped.Pairwise (· < ·) ∧
    (policy = .ok .skipRow → ∃ n, (d.result.success = true → n = events.length) ∧ done n ∧
      skipped = skippedIndices d.pieces ∧
      (env.OneByOne → skipped = ((events.zipIdx.take n).foldl env.applyOne (target, [])).2)) ∧
    (policy = .ok .stop → ∃ n ≤ events.length, d.result.eventsApplied = n ∧ done n ∧
      skippedIndices d.pieces = [] ∧ (skipped = [] ∨ skipped = [n])) := by
  intro d policy skipped done
  have hsettled : ∀ policy', (∀ policy'', policy = .ok policy'' → policy'' = policy') →
      ∃ n reported, Settled env policy' target events n reported d :=
    applyContext_settled env batchSize rowErrorPolicy events target
  have hany : ∃ policy' n reported, Settled env policy' target events n reported d := by
    cases hpolicy : policy with
    | error err => exact ⟨.stop, hsettled .stop (by simp [hpolicy])⟩
    | ok policy' => exact ⟨policy', hsettled policy' (by simp [hpolicy])⟩
  obtain ⟨policy', n, reported, h⟩ := hany
  refine ⟨fun hsuccess => ?_, h.sorted, fun hskip => ?_, fun hstop => ?_⟩
  · rw [h.total, h.accounted.received, (h.complete hsuccess).1]
  · obtain ⟨n, reported, h⟩ := hsettled .skipRow (by simp [hskip])
    have hreported : reported = [] := h.failing.resolve_right (by simp)
    have hskipped : skipped = skippedIndices d.pieces := by
      have herrors := h.accounted.errors
      rw [hreported, append_nil] at herrors
      exact herrors
    refine ⟨n, fun hsuccess => (h.complete hsuccess).1,
      ⟨h.accounted.numbered, h.accounted.replays⟩, hskipped, fun hone => ?_⟩
    obtain ⟨target', hreplays, -⟩ := h.accounted.replays
    rw [← h.accounted.numbered, hone.replays [] hreplays, nil_append, hskipped]
  · obtain ⟨n, reported, h⟩ := hsettled .stop (by simp [hstop])
    have hnone := h.accounted.stops rfl
    have herrors := h.accounted.errors
    rw [hnone, nil_append] at herrors
    refine ⟨n, h.accounted.le, ?_, ⟨h.accounted.numbered, h.accounted.replays⟩, hnone, ?_⟩
    · have htotal := h.total
      rw [h.accounted.skipped, hnone] at htotal
      exact htotal
    · cases h.failing with
      | inl hreported => exact Or.inl (herrors.trans hreported)
      | inr hstop => exact Or.inr (herrors.trans hstop.2.1)

/-- A batch is applied for what its events leave, so that an insert which the target would refuse
is not skipped when the same batch deletes the row again. -/
theorem skipped_alone :
    let event := fun (operation : String) =>
      (⟨[], [], bytes "t", bytes operation, (), ()⟩ : DataChangeEvent Unit)
    let env : EventWorld Bool Unit Unit Bool := {
      unicode := ⟨fun _ => false, fun _ => false, id⟩
      quote := id
      contextError := fun _ => none
      sessionError := fun _ => none
      prepareChangeEvent := fun _ event => some ((), event.operation = bytes "insert")
      applyPreparedChangeEventBatch := fun _ events _ =>
        if (events.getLast?.map PreparedEvent.change).getD false then .failed (bytes "check")
        else .applied ⟨0, 0, 0⟩ false
      onRowError := none }
    let events := [event "insert", event "delete"]
    let d := env.applyContext 2 (bytes "skip_row") events false
    d.result.success = true ∧ d.result.rowErrors.map ChangeEventRowError.index = [] ∧
      (events.zipIdx.foldl env.applyOne (false, [])).2 = [0] := by
  intro event env events d
  have hpolicy : normalizeRowErrorPolicy env.unicode env.quote (bytes "skip_row") =
      .ok .skipRow := by
    decide
  have hd : d.result.success = true ∧ d.result.rowErrors = [] := by
    have hne : bytes "delete" ≠ bytes "insert" := by decide
    simp only [d, EventWorld.applyContext, hpolicy]
    simp [hne, EventWorld.check, EventWorld.applyLocked, EventWorld.applyEvents,
      EventWorld.flush, EventWorld.applyChangeEventBatchWithPolicy, Delivery.commit, env, events,
      event]
  exact ⟨hd.1, by rw [hd.2]; rfl, by decide⟩

end GoNavi.Sync
