import GoNavi.Sync.Reconcile

/-! # Batches against single events

One by one, an event writes its columns over the row of its key, or deletes the row
(`reconcile`).  A batch that deletes a row and writes it again keeps the columns that are not
written again, where the events one by one leave the defaults.  A batch is `Clean` when these
columns hold the defaults.

**The tables agree after every batch if and only if every batch is clean**
(`batches_agree_iff_clean`). -/

namespace GoNavi.Sync

open Scan Fallible List Option

variable {fold : Text → Text} {runtime : TableRuntime fold}

/-! ### One event -/

/-- What an event makes of the row of a key. -/
def reconcileAt (key : Text) (r : Option runtime.Stored) (event : PreparedChangeEvent runtime) :
    Option runtime.Stored :=
  if event.key = key then
    match event.operation with
    | .delete => none
    | _ => some (runtime.overlay (event.keys ∪ event.row) (r.getD runtime.defaults))
  else r

/-- What an event makes of the target. -/
def reconcile (table : runtime.Table) (event : PreparedChangeEvent runtime) : runtime.Table :=
  fun key => reconcileAt key (table key) event

theorem foldl_reconcile (table : runtime.Table) (events : List (PreparedChangeEvent runtime))
    (key : Text) : events.foldl reconcile table key = events.foldl (reconcileAt key) (table key) := by
  induction events generalizing table with
  | nil => rfl
  | cons event events ih =>
    rw [foldl_cons, foldl_cons, ih]
    rfl

theorem net_singleton (table : runtime.Table) (event : PreparedChangeEvent runtime) :
    net table [event] = reconcile table event := by
  funext key
  unfold net reconcile
  rw [foldl_cons, foldl_nil]
  unfold leave reconcileAt
  split
  · cases event.operation with
    | delete => rfl
    | insert | replace | update =>
      simp only [map_some, writeOver, getD_some, overlay_union]
      cases table key with
      | none => simp
      | some r => simp
  · cases table key with
    | none => rfl
    | some r => simp

variable {table : runtime.Table}

theorem keyed_reconcile (hkeyed : runtime.Keyed table) (event : PreparedChangeEvent runtime) :
    runtime.Keyed (reconcile table event) := by
  rw [← net_singleton]
  exact keyed_net hkeyed [event]

theorem keyed_foldl_reconcile (hkeyed : runtime.Keyed table)
    (events : List (PreparedChangeEvent runtime)) :
    runtime.Keyed (events.foldl reconcile table) := by
  induction events generalizing table with
  | nil => exact hkeyed
  | cons event events ih => exact ih (keyed_reconcile hkeyed event)

theorem applySingly_eq (hkeyed : runtime.Keyed table)
    (events : List (PreparedChangeEvent runtime)) :
    applySingly runtime table events = .ok (events.foldl reconcile table) := by
  induction events generalizing table with
  | nil => rfl
  | cons event events ih =>
    unfold applySingly at ih ⊢
    rw [foldlM_cons, applyPreparedChangeEventBatch_eq hkeyed (cons_ne_nil _ _), ok_bind,
      net_singleton, ih (keyed_reconcile hkeyed event)]
    rfl

/-! ### The events of a key -/

/-- Events that do not delete the row of a key. -/
def Keeps (key : Text) (events : List (PreparedChangeEvent runtime)) : Prop :=
  ∀ event ∈ events, event.key = key → event.operation ≠ .delete

/-- Some event is about the key. -/
def Touches (key : Text) (events : List (PreparedChangeEvent runtime)) : Prop :=
  ∃ event ∈ events, event.key = key

/-- A column that an event about the key writes. -/
def Writes (key : Text) (events : List (PreparedChangeEvent runtime)) (c : Text) : Prop :=
  ∃ event ∈ events, event.key = key ∧ (c ∈ event.keys ∨ c ∈ event.row)

/-- The events of a key keep its row, or there is a last one that deletes it. -/
theorem keeps_or_deletes (key : Text) (events : List (PreparedChangeEvent runtime)) :
    Keeps key events ∨ ∃ before last after, events = before ++ last :: after ∧
      last.key = key ∧ last.operation = .delete ∧ Keeps key after := by
  induction events with
  | nil => exact .inl (by simp [Keeps])
  | cons event events ih =>
    cases ih with
    | inl hkeeps =>
      by_cases hdelete : event.key = key ∧ event.operation = .delete
      · exact .inr ⟨[], event, events, rfl, hdelete.1, hdelete.2, hkeeps⟩
      · refine .inl ?_
        intro e he hkey
        cases mem_cons.mp he with
        | inl he =>
          intro hop
          exact hdelete (he ▸ ⟨hkey, hop⟩)
        | inr he => exact hkeeps e he hkey
    | inr hlast =>
      obtain ⟨before, last, after, hevents, hrest⟩ := hlast
      exact .inr ⟨event :: before, last, after, by rw [hevents, cons_append], hrest⟩

variable {event : PreparedChangeEvent runtime} {key : Text}

theorem leave_write (hkey : event.key = key) (hop : event.operation ≠ .delete)
    (current : Option Row) :
    leave key current event = some (event.keys ∪ (event.row ∪ current.getD ∅)) := by
  unfold leave
  rw [if_pos hkey]
  cases h : event.operation with
  | delete => exact absurd h hop
  | insert | replace | update => rfl

theorem reconcileAt_write (hkey : event.key = key) (hop : event.operation ≠ .delete)
    (r : Option runtime.Stored) :
    reconcileAt key r event =
      some (runtime.overlay (event.keys ∪ event.row) (r.getD runtime.defaults)) := by
  unfold reconcileAt
  rw [if_pos hkey]
  cases h : event.operation with
  | delete => exact absurd h hop
  | insert | replace | update => rfl

theorem leave_other (hkey : event.key ≠ key) (current : Option Row) :
    leave key current event = current := if_neg hkey

theorem reconcileAt_other (hkey : event.key ≠ key) (r : Option runtime.Stored) :
    reconcileAt key r event = r :=
  if_neg hkey

variable {events : List (PreparedChangeEvent runtime)}

/-- Without deletes, the row that the loop holds, written over a base, is the row that the events
make one by one; a row that is missing starts from the defaults. -/
theorem foldl_reconcileAt (h : Keeps key events) {current : Option Row} {base : runtime.Stored}
    (hbase : current = none → base = runtime.defaults) :
    events.foldl (reconcileAt key) (current.map fun row => runtime.overlay row base) =
      (events.foldl (leave key) current).map fun row => runtime.overlay row base := by
  induction events generalizing current with
  | nil => rfl
  | cons event events ih =>
    have hrest : Keeps key events := fun e he => h e (mem_cons_of_mem _ he)
    rw [foldl_cons, foldl_cons]
    by_cases hkey : event.key = key
    · have hop := h event mem_cons_self hkey
      rw [leave_write hkey hop, reconcileAt_write hkey hop, ← ih hrest (by simp)]
      congr 1
      simp only [map_some, overlay_union]
      cases hcurrent : current with
      | none => simp [hbase hcurrent]
      | some row => simp
    · rw [leave_other hkey, reconcileAt_other hkey]
      exact ih hrest hbase

theorem foldl_reconcileAt_none (h : Keeps key events) : events.foldl (reconcileAt key) none =
      (events.foldl (leave key) none).map fun row => runtime.overlay row runtime.defaults := by
  have hnone := foldl_reconcileAt h
    fun _ : (none : Option Row) = none => (rfl : runtime.defaults = runtime.defaults)
  exact hnone

/-- Without deletes, the row that the loop holds has the columns that are written. -/
theorem mem_foldl_leave (h : Keeps key events) (row : Row) :
    ∃ row', events.foldl (leave key) (some row) = some row' ∧
      ∀ c, c ∈ row' ↔ c ∈ row ∨ Writes key events c := by
  induction events generalizing row with
  | nil => exact ⟨row, rfl, by simp [Writes]⟩
  | cons event events ih =>
    have hrest : Keeps key events := fun e he => h e (mem_cons_of_mem _ he)
    rw [foldl_cons]
    by_cases hkey : event.key = key
    · rw [leave_write hkey (h event mem_cons_self hkey)]
      obtain ⟨row', hrow', hmem⟩ := ih hrest (event.keys ∪ (event.row ∪ row))
      refine ⟨row', hrow', ?_⟩
      intro c
      rw [hmem c]
      simp only [AList.mem_union, Writes, mem_cons, exists_eq_or_imp, hkey, true_and]
      grind
    · rw [leave_other hkey]
      obtain ⟨row', hrow', hmem⟩ := ih hrest row
      refine ⟨row', hrow', ?_⟩
      intro c
      rw [hmem c]
      simp only [Writes, mem_cons, exists_eq_or_imp, hkey, false_and, false_or]

theorem foldl_leave_none (h : Keeps key events) (htouch : Touches key events) :
    events.foldl (leave key) none = events.foldl (leave key) (some ∅) := by
  induction events with
  | nil =>
    obtain ⟨event, hevent, _⟩ := htouch
    cases hevent
  | cons event events ih =>
    rw [foldl_cons, foldl_cons]
    by_cases hkey : event.key = key
    · have hop := h event mem_cons_self hkey
      rw [leave_write hkey hop, leave_write hkey hop]
      rfl
    · rw [leave_other hkey, leave_other hkey]
      refine ih (fun e he => h e (mem_cons_of_mem _ he)) ?_
      obtain ⟨e, he, hekey⟩ := htouch
      cases mem_cons.mp he with
      | inl he => exact absurd (he ▸ hekey) hkey
      | inr he => exact ⟨e, he, hekey⟩

variable {after : List (PreparedChangeEvent runtime)}
variable {before : List (PreparedChangeEvent runtime)} {last : PreparedChangeEvent runtime}

theorem foldl_reconcileAt_delete (hkey : last.key = key) (hop : last.operation = .delete)
    (r : Option runtime.Stored) :
    (before ++ last :: after).foldl (reconcileAt key) r = after.foldl (reconcileAt key) none := by
  rw [foldl_append, foldl_cons]
  congr 1
  unfold reconcileAt
  rw [if_pos hkey, hop]

theorem foldl_leave_delete (hkey : last.key = key) (hop : last.operation = .delete)
    (current : Option Row) :
    (before ++ last :: after).foldl (leave key) current = after.foldl (leave key) none := by
  rw [foldl_append, foldl_cons]
  congr 1
  unfold leave
  rw [if_pos hkey, hop]

theorem overlay_eq_iff {row : Row} {r r' : runtime.Stored} :
    runtime.overlay row r = runtime.overlay row r' ↔ ∀ c, c.1 ∉ row → r c = r' c := by
  unfold TableRuntime.overlay
  rw [funext_iff]
  refine forall_congr' fun c => ?_
  by_cases hc : c.1 ∈ row
  · obtain ⟨v, hv⟩ := isSome_iff_exists.mp (AList.lookup_isSome.mpr hc)
    simp [hv, hc]
  · simp [AList.lookup_eq_none.mpr hc, hc]

/-! ### Clean batches -/

/-- The events of a batch that follow the last delete of a key, when they write the key again. -/
def Restarts (key : Text) (events after : List (PreparedChangeEvent runtime)) : Prop :=
  ∃ before last, events = before ++ last :: after ∧ last.key = key ∧ last.operation = .delete ∧
    Keeps key after ∧ Touches key after

/-- When a batch deletes a row of the target and writes it again, the row holds the defaults in
the columns that are not written again. -/
def Clean (table : runtime.Table) (events : List (PreparedChangeEvent runtime)) : Prop :=
  ∀ key r after, table key = some r → Restarts key events after →
    ∀ c, ¬ Writes key after c.1 → r c = runtime.defaults c

theorem after_unique {before' after' : List (PreparedChangeEvent runtime)}
    {last' : PreparedChangeEvent runtime} (h : before ++ last :: after = before' ++ last' :: after')
    (hkey : last.key = key) (hop : last.operation = .delete) (hkeeps : Keeps key after)
    (hkey' : last'.key = key) (hop' : last'.operation = .delete) (hkeeps' : Keeps key after') :
    after = after' := by
  cases append_eq_append_iff.mp h with
  | inl h =>
    obtain ⟨between, -, h⟩ := h
    cases between with
    | nil => exact (List.cons.inj h).2
    | cons event between =>
      have hmem : last' ∈ after := by
        rw [(List.cons.inj h).2]
        simp
      exact absurd hop' (hkeeps last' hmem hkey')
  | inr h =>
    obtain ⟨between, -, h⟩ := h
    cases between with
    | nil => exact (List.cons.inj h).2.symm
    | cons event between =>
      have hmem : last ∈ after' := by
        rw [(List.cons.inj h).2]
        simp
      exact absurd hop (hkeeps' last hmem hkey)

/-- What is left of a key whose row is deleted and written again, over any base. -/
theorem leave_after (hkeeps : Keeps key after) (htouch : Touches key after) :
    ∃ row, after.foldl (leave key) none = some row ∧ ∀ c, c ∈ row ↔ Writes key after c := by
  obtain ⟨row, hrow, hmem⟩ := mem_foldl_leave hkeeps ∅
  refine ⟨row, ?_, ?_⟩
  · rw [foldl_leave_none hkeeps htouch, hrow]
  · intro c
    simp [hmem c]

theorem foldl_leave_other (h : ¬ Touches key events) (current : Option Row) :
    events.foldl (leave key) current = current :=
  leave_of_ne (fun event hevent hkey => h ⟨event, hevent, hkey⟩) current

/-- **A batch does what its events do one by one if and only if it is clean.** -/
theorem net_eq_iff (table : runtime.Table) (events : List (PreparedChangeEvent runtime)) :
    net table events = events.foldl reconcile table ↔ Clean table events := by
  have hat : net table events = events.foldl reconcile table ↔
      ∀ key, net table events key = events.foldl (reconcileAt key) (table key) := by
    rw [funext_iff]
    refine forall_congr' fun key => ?_
    rw [foldl_reconcile]
  rw [hat]
  unfold Clean
  refine forall_congr' fun key => ?_
  cases keeps_or_deletes key events with
  | inl hkeeps =>
    -- nothing is deleted: the base is the row, or the defaults
    constructor
    · intro _ r after _ hrestarts
      obtain ⟨before, last, rfl, hkey, hop, _⟩ := hrestarts
      exact absurd hop (hkeeps last (by simp) hkey)
    · intro _
      unfold net
      rw [← foldl_reconcileAt hkeeps]
      · congr 1
        cases table key with
        | none => rfl
        | some r => simp
      · intro hnone
        rw [map_eq_none_iff] at hnone
        rw [hnone]
        rfl
  | inr hdeletes =>
    obtain ⟨before, last, after, rfl, hkey, hop, hkeeps⟩ := hdeletes
    unfold net
    rw [foldl_leave_delete hkey hop, foldl_reconcileAt_delete hkey hop]
    rw [foldl_reconcileAt_none hkeeps]
    cases hrow : table key with
    | none => simp
    | some r =>
      rw [getD_some]
      by_cases htouch : Touches key after
      · obtain ⟨row, hleft, hmem⟩ := leave_after hkeeps htouch
        rw [hleft, map_some, map_some, some_inj, overlay_eq_iff]
        constructor
        · intro hsame r' after' hr' hrestarts c hc
          obtain ⟨before', last', hevents, hkey', hop', hkeeps', _⟩ := hrestarts
          have hafter := after_unique hevents hkey hop hkeeps hkey' hop' hkeeps'
          rw [← some.inj hr']
          exact hsame c fun hcrow => hc (hafter ▸ (hmem c.1).mp hcrow)
        · intro hclean c hc
          exact hclean r after rfl ⟨before, last, rfl, hkey, hop, hkeeps, htouch⟩ c
            fun hwrites => hc ((hmem c.1).mpr hwrites)
      · rw [foldl_leave_other htouch]
        constructor
        · intro _ r' after' _ hrestarts
          obtain ⟨before', last', hevents, hkey', hop', hkeeps', htouch'⟩ := hrestarts
          have hafter := after_unique hevents hkey hop hkeeps hkey' hop' hkeeps'
          exact absurd (hafter ▸ htouch') htouch
        · intro _
          rfl

/-! ### Runs of batches -/

/-- The batches that `applyLocked` cuts a delivery into. -/
def batches (batchSize : ℕ) : List (PreparedChangeEvent runtime) →
    List (PreparedChangeEvent runtime) → List (List (PreparedChangeEvent runtime))
  | pending, [] => if pending.length = 0 then [] else [pending]
  | pending, event :: events =>
    if batchSize ≤ (pending ++ [event]).length then
      (pending ++ [event]) :: batches batchSize [] events
    else batches batchSize (pending ++ [event]) events

/-- Batches that are clean where they start. -/
def CleanRun : runtime.Table → List (List (PreparedChangeEvent runtime)) → Prop
  | _, [] => True
  | table, batch :: rest => Clean table batch ∧ CleanRun (batch.foldl reconcile table) rest

theorem applyLocked_eq (batchSize : ℕ) (table : runtime.Table)
    (pending events : List (PreparedChangeEvent runtime)) :
    applyLocked runtime batchSize table pending events =
      (batches batchSize pending events).foldlM (applyPreparedChangeEventBatch runtime) table := by
  induction events generalizing table pending with
  | nil =>
    unfold applyLocked batches flush
    split
    · rfl
    · rw [foldlM_cons]
      exact (bind_pure _).symm
  | cons event events ih =>
    unfold applyLocked batches
    dsimp only
    split
    · rw [foldlM_cons]
      unfold flush
      rw [if_neg (by simp)]
      congr 1
      funext table'
      exact ih table' []
    · exact ih table (pending ++ [event])

theorem flatten_batches (batchSize : ℕ) (pending events : List (PreparedChangeEvent runtime)) :
    (batches batchSize pending events).flatten = pending ++ events := by
  induction events generalizing pending with
  | nil =>
    unfold batches
    split
    · rename_i hlength
      rw [length_eq_zero_iff.mp hlength]
      rfl
    · simp
  | cons event events ih =>
    unfold batches
    split
    · rw [flatten_cons, ih]
      simp
    · rw [ih]
      simp

theorem batch_ne_nil {batchSize : ℕ} {pending : List (PreparedChangeEvent runtime)} :
    ∀ batch ∈ batches batchSize pending events, batch ≠ [] := by
  induction events generalizing pending with
  | nil =>
    unfold batches
    split
    · simp
    · rename_i hlength
      simpa using hlength
  | cons event events ih =>
    unfold batches
    split
    · intro batch hbatch
      cases mem_cons.mp hbatch with
      | inl hbatch => simp [hbatch]
      | inr hbatch => exact ih batch hbatch
    · exact ih

variable {bs : List (List (PreparedChangeEvent runtime))}

theorem deliver_of_clean (hkeyed : runtime.Keyed table) (hne : ∀ b ∈ bs, b ≠ [])
    (hclean : CleanRun table bs) :
    bs.foldlM (applyPreparedChangeEventBatch runtime) table =
      .ok (bs.flatten.foldl reconcile table) := by
  induction bs generalizing table with
  | nil => rfl
  | cons batch rest ih =>
    have hbatch := (net_eq_iff table batch).mpr hclean.1
    rw [foldlM_cons, applyPreparedChangeEventBatch_eq hkeyed (hne batch mem_cons_self),
      ok_bind, hbatch, flatten_cons, foldl_append]
    exact ih (keyed_foldl_reconcile hkeyed batch)
      (fun b hb => hne b (mem_cons_of_mem _ hb)) hclean.2

theorem CleanRun.take (h : CleanRun table bs) (n : ℕ) : CleanRun table (bs.take n) := by
  induction bs generalizing table n with
  | nil => simpa using h
  | cons batch rest ih =>
    cases n with
    | zero => trivial
    | succ n => exact ⟨h.1, ih h.2 n⟩

/-- **The tables agree after every batch if and only if every batch is clean.** -/
theorem deliver_iff_clean (hkeyed : runtime.Keyed table) (hne : ∀ b ∈ bs, b ≠ []) :
    (∀ n, (bs.take n).foldlM (applyPreparedChangeEventBatch runtime) table =
      .ok ((bs.take n).flatten.foldl reconcile table)) ↔ CleanRun table bs := by
  constructor
  · intro hsame
    induction bs generalizing table with
    | nil => trivial
    | cons batch rest ih =>
      have hbatch := applyPreparedChangeEventBatch_eq hkeyed (hne batch mem_cons_self)
      have hfirst : net table batch = batch.foldl reconcile table := by
        have h := hsame 1
        rw [take_succ_cons, take_zero, foldlM_cons, hbatch] at h
        simpa using h
      refine ⟨(net_eq_iff table batch).mp hfirst, ?_⟩
      apply ih (keyed_foldl_reconcile hkeyed batch) fun b hb => hne b (mem_cons_of_mem _ hb)
      intro n
      have h := hsame (n + 1)
      rw [take_succ_cons, foldlM_cons, hbatch, ok_bind, hfirst, flatten_cons,
        foldl_append] at h
      exact h
  · intro hclean n
    exact deliver_of_clean hkeyed (fun b hb => hne b (mem_of_mem_take hb)) (hclean.take n)

/-! ### Replays -/

/-- Without deletes, events write some columns, which do not depend on the row. -/
theorem foldl_reconcileAt_some (h : Keeps key events) (htouch : Touches key events) :
    ∃ row : Row, (∀ c, c ∈ row ↔ Writes key events c) ∧ ∀ r : Option runtime.Stored,
      events.foldl (reconcileAt key) r =
        some (runtime.overlay row (r.getD runtime.defaults)) := by
  obtain ⟨row, hleft, hmem⟩ := mem_foldl_leave h ∅
  refine ⟨row, fun c => by simp [hmem c], ?_⟩
  intro r
  cases r with
  | none =>
    rw [foldl_reconcileAt_none h, foldl_leave_none h htouch, hleft]
    rfl
  | some r =>
    have hbase : some (∅ : Row) = none → r = runtime.defaults := nofun
    have hsome := foldl_reconcileAt h hbase
    rw [hleft, map_some, overlay_empty] at hsome
    exact hsome

/-! ### What batches leave of a key -/

/-- A batch deletes the row of a key and does not write it again. -/
def DeletesForGood (key : Text) (batch : List (PreparedChangeEvent runtime)) : Prop :=
  ∃ before last after, batch = before ++ last :: after ∧ last.key = key ∧
    last.operation = .delete ∧ ¬ Touches key after

/-- An event of the batch writes the column, and no later one deletes the row. -/
def WritesForGood (key : Text) (batch : List (PreparedChangeEvent runtime)) (c : Text) : Prop :=
  ∃ before after, batch = before ++ after ∧ Keeps key after ∧ Writes key after c

/-- What a batch makes of the row of a key. -/
def netAt (key : Text) (r : Option runtime.Stored) (batch : List (PreparedChangeEvent runtime)) :
    Option runtime.Stored :=
  (batch.foldl (leave key) (r.map runtime.toRow)).map fun row =>
    runtime.overlay row (r.getD runtime.defaults)

theorem foldl_net (table : runtime.Table) (bs : List (List (PreparedChangeEvent runtime)))
    (key : Text) : bs.foldl net table key = bs.foldl (netAt key) (table key) := by
  induction bs generalizing table with
  | nil => rfl
  | cons batch rest ih =>
    rw [foldl_cons, foldl_cons, ih]
    rfl

theorem applyLocked_net (hkeyed : runtime.Keyed table) (batchSize : ℕ)
    (events : List (PreparedChangeEvent runtime)) :
    applyLocked runtime batchSize table [] events =
      .ok ((batches batchSize [] events).foldl net table) := by
  have hne : ∀ batch ∈ batches batchSize [] events, batch ≠ [] := batch_ne_nil
  rw [applyLocked_eq]
  generalize batches batchSize [] events = bs at hne
  induction bs generalizing table with
  | nil => rfl
  | cons batch rest ih =>
    rw [foldlM_cons, applyPreparedChangeEventBatch_eq hkeyed (hne batch mem_cons_self),
      ok_bind]
    exact ih (keyed_net hkeyed batch) fun b hb => hne b (mem_cons_of_mem _ hb)

variable {batch : List (PreparedChangeEvent runtime)}

theorem netAt_other (h : ¬ Touches key batch) (r : Option runtime.Stored) :
    netAt key r batch = r := by
  unfold netAt
  rw [foldl_leave_other h]
  cases r with
  | none => rfl
  | some r => simp

theorem netAt_deletesForGood (h : DeletesForGood key batch) (r : Option runtime.Stored) :
    netAt key r batch = none := by
  obtain ⟨before, last, after, rfl, hkey, hop, hafter⟩ := h
  unfold netAt
  rw [foldl_leave_delete hkey hop, foldl_leave_other hafter]
  rfl

/-- A batch that touches a key and does not delete its row for good writes some columns over the
row, or over the defaults. -/
theorem netAt_writes (htouch : Touches key batch) (hkept : ¬ DeletesForGood key batch) :
    ∃ row : Row, (∀ c, c ∈ row ↔ WritesForGood key batch c) ∧ ∀ r : Option runtime.Stored,
      netAt key r batch = some (runtime.overlay row (r.getD runtime.defaults)) := by
  cases keeps_or_deletes key batch with
  | inl hkeeps =>
    obtain ⟨row, hmem, hrow⟩ := foldl_reconcileAt_some hkeeps htouch
    refine ⟨row, ?_, ?_⟩
    · intro c
      rw [hmem c]
      constructor
      · intro hwrites
        exact ⟨[], batch, rfl, hkeeps, hwrites⟩
      · intro hwrites
        obtain ⟨before, after, rfl, _, e, he, hwrites⟩ := hwrites
        exact ⟨e, mem_append_right _ he, hwrites⟩
    · intro r
      rw [← hrow r]
      unfold netAt
      rw [← foldl_reconcileAt hkeeps]
      · cases r with
        | none => rfl
        | some r => simp
      · intro hnone
        rw [map_eq_none_iff] at hnone
        rw [hnone]
        rfl
  | inr hdeletes =>
    obtain ⟨before, last, after, rfl, hkey, hop, hkeeps⟩ := hdeletes
    by_cases hafter : Touches key after
    · obtain ⟨row, hleft, hmem⟩ := leave_after hkeeps hafter
      refine ⟨row, ?_, ?_⟩
      · intro c
        rw [hmem c]
        constructor
        · intro hwrites
          exact ⟨before ++ [last], after, by simp, hkeeps, hwrites⟩
        · intro hwrites
          obtain ⟨before', after', hevents, hkeeps', e, he, hwrites⟩ := hwrites
          -- what is kept lies behind the last delete
          cases append_eq_append_iff.mp hevents with
          | inl hsplit =>
            obtain ⟨between, -, hsplit⟩ := hsplit
            cases between with
            | nil =>
              rw [nil_append] at hsplit
              have hlast : last ∈ after' := hsplit ▸ mem_cons_self
              exact absurd hop (hkeeps' last hlast hkey)
            | cons e' between =>
              rw [(List.cons.inj hsplit).2]
              exact ⟨e, mem_append_right _ he, hwrites⟩
          | inr hsplit =>
            obtain ⟨between, -, hsplit⟩ := hsplit
            have hlast : last ∈ after' := by
              rw [hsplit]
              simp
            exact absurd hop (hkeeps' last hlast hkey)
      · intro r
        unfold netAt
        rw [foldl_leave_delete hkey hop, hleft]
        rfl
    · exact absurd ⟨before, last, after, rfl, hkey, hop, hafter⟩ hkept

theorem foldl_netAt_other (h : ∀ batch ∈ bs, ¬ Touches key batch) (r : Option runtime.Stored) :
    bs.foldl (netAt key) r = r := by
  induction bs generalizing r with
  | nil => rfl
  | cons batch rest ih =>
    rw [foldl_cons, netAt_other (h batch mem_cons_self)]
    exact ih (fun b hb => h b (mem_cons_of_mem _ hb)) r

theorem foldl_netAt_deletesForGood (hbatch : batch ∈ bs) (h : DeletesForGood key batch)
    (r r' : Option runtime.Stored) :
    bs.foldl (netAt key) r = bs.foldl (netAt key) r' := by
  obtain ⟨before, after, rfl⟩ := append_of_mem hbatch
  rw [foldl_append, foldl_append, foldl_cons, foldl_cons,
    netAt_deletesForGood h, netAt_deletesForGood h]

/-- Batches that touch a key and do not delete its row for good write some columns; induction on
the batches. -/
theorem foldl_netAt_writes (hkept : ∀ batch ∈ bs, ¬ DeletesForGood key batch)
    (htouch : ∃ batch ∈ bs, Touches key batch) :
    ∃ row : Row, (∀ c, c ∈ row ↔ ∃ batch ∈ bs, WritesForGood key batch c) ∧
      ∀ r : Option runtime.Stored,
        bs.foldl (netAt key) r = some (runtime.overlay row (r.getD runtime.defaults)) := by
  induction bs with
  | nil =>
    obtain ⟨batch, hbatch, _⟩ := htouch
    cases hbatch
  | cons batch rest ih =>
    have hrest : ∀ b ∈ rest, ¬ DeletesForGood key b :=
      fun b hb => hkept b (mem_cons_of_mem _ hb)
    have hnone : ¬ Touches key batch → ∀ c, ¬ WritesForGood key batch c := by
      intro hbatch c hwrites
      obtain ⟨before, after, rfl, _, e, he, hkey, _⟩ := hwrites
      exact hbatch ⟨e, mem_append_right _ he, hkey⟩
    by_cases hbatch : Touches key batch
    · obtain ⟨row, hmem, hrow⟩ := netAt_writes hbatch (hkept batch mem_cons_self)
      by_cases hlater : ∃ b ∈ rest, Touches key b
      · obtain ⟨row', hmem', hrow'⟩ := ih hrest hlater
        refine ⟨row' ∪ row, ?_, ?_⟩
        · intro c
          rw [AList.mem_union, hmem c, hmem' c]
          simp only [mem_cons, exists_eq_or_imp]
          exact or_comm
        · intro r
          rw [foldl_cons, hrow, hrow', getD_some, overlay_union]
      · refine ⟨row, ?_, ?_⟩
        · intro c
          rw [hmem c]
          simp only [mem_cons, exists_eq_or_imp]
          constructor
          · exact .inl
          · intro h
            cases h with
            | inl h => exact h
            | inr h =>
              obtain ⟨b, hb, before, after, rfl, _, e, he, hkey, _⟩ := h
              exact absurd ⟨_, hb, e, mem_append_right _ he, hkey⟩ hlater
        · intro r
          rw [foldl_cons, hrow, foldl_netAt_other]
          intro b hb hb'
          exact hlater ⟨b, hb, hb'⟩
    · have hlater : ∃ b ∈ rest, Touches key b := by
        obtain ⟨b, hb, hb'⟩ := htouch
        cases mem_cons.mp hb with
        | inl hb => exact absurd (hb ▸ hb') hbatch
        | inr hb => exact ⟨b, hb, hb'⟩
      obtain ⟨row, hmem, hrow⟩ := ih hrest hlater
      refine ⟨row, ?_, ?_⟩
      · intro c
        rw [hmem c]
        simp only [mem_cons, exists_eq_or_imp, hnone hbatch c, false_or]
      · intro r
        rw [foldl_cons, netAt_other hbatch, hrow]

/-! ### A row that is written again

A table with the key column `i` and the column `a`. -/

def itemRuntime : TableRuntime id where
  targetColumns := [[0x69], [0x61]]
  targetKeys := [[0x69]]
  defaults := fun _ => none
  keys_ne := by decide
  columns_named := by decide
  keys_columns := by decide
  keys_apart := by decide

def itemKeys : Row := AList.singleton [0x69] (some [0x31])

/-- An event about the item `1`. -/
def itemEvent (operation : Operation) (row : Row)
    (h : ∀ c ∈ row.keys, c ∈ itemRuntime.targetColumns) : PreparedChangeEvent itemRuntime where
  operation
  row
  keys := itemKeys
  row_columns := h
  keys_columns := by
    intro c
    rfl
  keys_values := by
    intro c hc
    rw [mem_singleton.mp hc]
    exact ⟨[0x31], rfl⟩

def itemKey : Text := encodeKey (fun _ => [0x31]) itemRuntime.targetKeys

/-- The item `1`, with `x` in its column. -/
def item : itemRuntime.Stored := fun c => if c.1 = [0x69] then some [0x31] else some [0x78]

def itemTable : itemRuntime.Table := fun key => if key = itemKey then some item else none

def deleteItem : PreparedChangeEvent itemRuntime := itemEvent .delete ∅ (by simp)

def insertItem : PreparedChangeEvent itemRuntime := itemEvent .insert itemKeys (by decide)

def insertFullItem : PreparedChangeEvent itemRuntime :=
  itemEvent .insert (itemKeys ∪ AList.singleton [0x61] (some [0x78])) (by decide)

theorem keyed_itemTable : itemRuntime.Keyed itemTable := by
  intro key r h
  unfold itemTable at h
  split at h
  · rename_i hkey
    cases h
    rw [hkey]
    rfl
  · cases h

def noItems : itemRuntime.Table := fun _ => none

theorem keyed_noItems : itemRuntime.Keyed noItems := nofun

/-! ### Main results -/

/-- **The tables agree after every batch if and only if every batch is clean**: what
`applyLocked` does in batches, and what the events do one by one. -/
theorem batches_agree_iff_clean {table : runtime.Table} (hkeyed : runtime.Keyed table)
    (batchSize : ℕ) (events : List (PreparedChangeEvent runtime)) :
    applyLocked runtime batchSize table [] events =
        (batches batchSize [] events).foldlM (applyPreparedChangeEventBatch runtime) table ∧
      ((∀ n, ((batches batchSize [] events).take n).foldlM
            (applyPreparedChangeEventBatch runtime) table =
          applySingly runtime table ((batches batchSize [] events).take n).flatten) ↔
        CleanRun table (batches batchSize [] events)) ∧
      (CleanRun table (batches batchSize [] events) →
        applyLocked runtime batchSize table [] events = applySingly runtime table events) := by
  have hne : ∀ batch ∈ batches batchSize [] events, batch ≠ [] := batch_ne_nil
  refine ⟨applyLocked_eq batchSize table [] events, ?_, ?_⟩
  · simp only [applySingly_eq hkeyed]
    exact deliver_iff_clean hkeyed hne
  · intro hclean
    rw [applyLocked_eq, deliver_of_clean hkeyed hne hclean, applySingly_eq hkeyed,
      flatten_batches, nil_append]

/-- The column that the second event leaves out is not cleared when both are in one batch. -/
theorem batch_keeps_column : applyLocked itemRuntime 2 itemTable [] [deleteItem, insertItem] ≠
    applySingly itemRuntime itemTable [deleteItem, insertItem] := by
  rw [applyLocked_net keyed_itemTable, applySingly_eq keyed_itemTable]
  intro h
  have h := congrFun (Except.ok.inj h) itemKey
  revert h
  decide

theorem batches_agree_iff_clean_item :
    applyLocked itemRuntime 2 itemTable [] [deleteItem, insertItem] =
        (batches 2 [] [deleteItem, insertItem]).foldlM
          (applyPreparedChangeEventBatch itemRuntime) itemTable ∧
      ((∀ n, ((batches 2 [] [deleteItem, insertItem]).take n).foldlM
            (applyPreparedChangeEventBatch itemRuntime) itemTable =
          applySingly itemRuntime itemTable
            ((batches 2 [] [deleteItem, insertItem]).take n).flatten) ↔
        CleanRun itemTable (batches 2 [] [deleteItem, insertItem])) ∧
      (CleanRun itemTable (batches 2 [] [deleteItem, insertItem]) →
        applyLocked itemRuntime 2 itemTable [] [deleteItem, insertItem] =
          applySingly itemRuntime itemTable [deleteItem, insertItem]) :=
  batches_agree_iff_clean keyed_itemTable 2 [deleteItem, insertItem]

theorem keyed_foldl_net (hkeyed : runtime.Keyed table)
    (bs : List (List (PreparedChangeEvent runtime))) : runtime.Keyed (bs.foldl net table) := by
  induction bs generalizing table with
  | nil => exact hkeyed
  | cons batch rest ih => exact ih (keyed_net hkeyed batch)

/-- The value of a column, which is the default when there is no row. -/
def valueAt (table : runtime.Table) (key : Text) (c : {c // c ∈ runtime.targetColumns}) : Value :=
  (table key).getD runtime.defaults c

/-- **A redelivery converges if and only if it starts from the same values**, in the columns that
its batches do not write for good of the rows that they do not delete for good. -/
theorem replay_converges_iff {table : runtime.Table} (hkeyed : runtime.Keyed table)
    (batchSize batchSize' n : ℕ) (events : List (PreparedChangeEvent runtime))
    {applied : runtime.Table}
    (happlied : applyLocked runtime batchSize table [] (events.take n) = .ok applied) :
    applyLocked runtime batchSize' applied [] events =
        applyLocked runtime batchSize' table [] events ↔
      ∀ key, (∀ batch ∈ batches batchSize' [] events, ¬ DeletesForGood key batch) →
        ∀ c, (∀ batch ∈ batches batchSize' [] events, ¬ WritesForGood key batch c.1) →
          valueAt applied key c = valueAt table key c := by
  rw [applyLocked_net hkeyed] at happlied
  have happlied := Except.ok.inj happlied
  have hkeyed' : runtime.Keyed applied := happlied ▸ keyed_foldl_net hkeyed _
  rw [applyLocked_net hkeyed', applyLocked_net hkeyed, Except.ok.injEq, funext_iff]
  refine forall_congr' fun key => ?_
  rw [foldl_net, foldl_net]
  by_cases hkept : ∀ batch ∈ batches batchSize' [] events, ¬ DeletesForGood key batch
  · by_cases htouch : ∃ batch ∈ batches batchSize' [] events, Touches key batch
    · obtain ⟨row, hmem, hrow⟩ := foldl_netAt_writes hkept htouch
      rw [hrow, hrow, some_inj, overlay_eq_iff]
      constructor
      · intro hsame _ c hc
        refine hsame c fun hcrow => ?_
        obtain ⟨batch, hbatch, hwrites⟩ := (hmem c.1).mp hcrow
        exact hc batch hbatch hwrites
      · intro hsame c hc
        exact hsame hkept c fun batch hbatch hwrites => hc ((hmem c.1).mpr ⟨batch, hbatch, hwrites⟩)
    · -- the events are not about the key, so that the first ones were not either
      have huntouched : ¬ Touches key events := by
        intro htouched
        have hflat := flatten_batches batchSize' [] events
        obtain ⟨e, he, hkey⟩ := htouched
        rw [← nil_append events, ← hflat, mem_flatten] at he
        obtain ⟨batch, hbatch, he⟩ := he
        exact htouch ⟨batch, hbatch, e, he, hkey⟩
      have hsame : applied key = table key := by
        rw [← happlied, foldl_net]
        refine foldl_netAt_other ?_ _
        intro batch hbatch htouched
        obtain ⟨e, he, hkey⟩ := htouched
        have hflat := flatten_batches batchSize [] (events.take n)
        have hmem : e ∈ events.take n := by
          rw [← nil_append (events.take n), ← hflat, mem_flatten]
          exact ⟨batch, hbatch, he⟩
        exact huntouched ⟨e, mem_of_mem_take hmem, hkey⟩
      unfold valueAt
      rw [hsame]
      simp
  · constructor
    · intro _ hkept'
      exact absurd hkept' hkept
    · intro _
      push Not at hkept
      obtain ⟨batch, hbatch, hgood⟩ := hkept
      exact foldl_netAt_deletesForGood hbatch hgood _ _

/-- A batch that is applied again after its first event keeps a column that it cleared at first. -/
theorem replay_keeps_column :
    (do
      let table ← applyLocked itemRuntime 3 noItems []
        ([insertFullItem, deleteItem, insertItem].take 1)
      applyLocked itemRuntime 3 table [] [insertFullItem, deleteItem, insertItem]) ≠
      applyLocked itemRuntime 3 noItems [] [insertFullItem, deleteItem, insertItem] := by
  rw [applyLocked_net keyed_noItems, ok_bind, applyLocked_net (keyed_foldl_net keyed_noItems _),
    applyLocked_net keyed_noItems]
  intro h
  have h := congrFun (Except.ok.inj h) itemKey
  revert h
  decide

theorem replay_converges_iff_item :
    applyLocked itemRuntime 1 noItems [] ([insertFullItem, insertItem].take 1) =
        .ok (net noItems [insertFullItem]) ∧
      (applyLocked itemRuntime 2 (net noItems [insertFullItem]) [] [insertFullItem, insertItem] =
          applyLocked itemRuntime 2 noItems [] [insertFullItem, insertItem] ↔
        ∀ key, (∀ batch ∈ batches 2 [] [insertFullItem, insertItem],
            ¬ DeletesForGood key batch) →
          ∀ c, (∀ batch ∈ batches 2 [] [insertFullItem, insertItem],
              ¬ WritesForGood key batch c.1) →
            valueAt (net noItems [insertFullItem]) key c = valueAt noItems key c) :=
  ⟨applyLocked_net keyed_noItems 1 [insertFullItem],
    replay_converges_iff keyed_noItems 1 2 1 [insertFullItem, insertItem]
      (applyLocked_net keyed_noItems 1 [insertFullItem])⟩

end GoNavi.Sync
