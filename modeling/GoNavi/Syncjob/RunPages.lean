import GoNavi.Machine.Paging
import GoNavi.Syncjob.Scheduled
import Mathlib.Data.Prod.Lex
import Mathlib.Order.OrderDual

/-! # Pages of runs

`ListRunsPage` reads the runs of a job, or of all jobs, newest first; runs that were created in
the same millisecond follow their identifiers.  A page that leaves runs behind names its last run
as the cursor of the next page.

**Whoever follows the cursors reads every run once, in order, and comes to an end**
(`pages_list_runs_once`), whatever the page size and however many runs share a millisecond. -/

namespace GoNavi.Syncjob

open Scan Fallible Callers Paging List

variable {δ : Type}

/-! ### The page -/

structure RunCursor where
  createdAt : ℤ
  id : Text

structure RunPage where
  runs : List RunRecord
  nextCursor : Option RunCursor
  total : ℕ

/-- The number of runs on a page. -/
def pageLimit (limit : ℤ) : ℕ :=
  let limit := if limit < 1 then 25 else limit
  let limit := if limit > 100 then 100 else limit
  limit.toNat

/-- `WHERE job_id = ?`, unless the job is blank. -/
def ofJob (jobID : Text) (r : RunRecord) : Bool :=
  let jobID := trimSpace jobID
  jobID = [] ∨ r.jobID = jobID

/-- `WHERE (created_at < ? OR (created_at = ? AND id > ?))`, when there is a cursor. -/
def behindCursor : Option RunCursor → RunRecord → Bool
  | none, _ => true
  | some cursor, r => r.createdAt < cursor.createdAt ∨
      (r.createdAt = cursor.createdAt ∧ trimSpace cursor.id < r.id)

/-- `ORDER BY created_at DESC, id`. -/
def orderedBefore (r r' : RunRecord) : Bool :=
  r'.createdAt < r.createdAt ∨ (r.createdAt = r'.createdAt ∧ r.id ≤ r'.id)

/-- `Store.ListRunsPage`, of a store that is open and can be read. -/
def listRunsPage (jobID : Text) (cursor : Option RunCursor) (limit : ℤ) (s : Store δ) :
    Except Err RunPage :=
  let limit := pageLimit limit
  if ∃ given ∈ cursor, given.createdAt ≤ 0 ∨ trimSpace given.id = [] then
    .error (.other "data sync run cursor requires createdAt and id")
  else
    let total := s.runs.countP (ofJob jobID)
    let rows := s.runs.filter fun r => ofJob jobID r ∧ behindCursor cursor r
    let rows := (rows.insertionSort fun r r' => orderedBefore r r').take (limit + 1)
    if rows.length > limit then
      let runs := rows.take limit
      .ok { runs, total, nextCursor := runs.getLast?.map fun last => ⟨last.createdAt, last.id⟩ }
    else .ok { runs := rows, total, nextCursor := none }

/-- Reading on from a cursor, for so many pages at most. -/
def readPages (jobID : Text) (limit : ℤ) (s : Store δ) :
    ℕ → Option RunCursor → Except Err (Option (List RunRecord))
  | 0, _ => .ok none
  | pages + 1, cursor => do
    let page ← listRunsPage jobID cursor limit s
    match page.nextCursor with
    | none => return some page.runs
    | some next =>
      let rest ← readPages jobID limit s pages (some next)
      return rest.map (page.runs ++ ·)

/-! ### What a run is listed by -/

/-- Identifiers compare by their bytes. -/
local instance : LinearOrder Text where
  le_refl := Std.le_refl
  le_trans _ _ _ := Std.le_trans
  le_antisymm _ _ := Std.le_antisymm
  le_total _ _ := Std.le_total
  lt_iff_le_not_ge _ _ := Std.lt_iff_le_and_not_ge
  toDecidableLE := inferInstance
  compare a b := compareOfLessAndEq a b
  compare_eq_compareOfLessAndEq _ _ := rfl

/-- What a run is listed by: newest first, then by its identifier. -/
def listingKey (r : RunRecord) : ℤᵒᵈ ×ₗ Text := toLex (OrderDual.toDual r.createdAt, r.id)

theorem listingKey_lt {r r' : RunRecord} : listingKey r < listingKey r' ↔
    r'.createdAt < r.createdAt ∨ (r.createdAt = r'.createdAt ∧ r.id < r'.id) := by
  unfold listingKey
  rw [Prod.Lex.toLex_lt_toLex]
  rfl

theorem orderedBefore_iff {r r' : RunRecord} :
    orderedBefore r r' = true ↔ listingKey r ≤ listingKey r' := by
  unfold orderedBefore listingKey
  rw [decide_eq_true_eq, Prod.Lex.toLex_le_toLex]
  rfl

/-- What the store promises of its runs: they are told apart by their identifiers, which are not
blank and have no blanks around them, and they were created at some time. -/
structure Listable (s : Store δ) : Prop where
  nodup : (s.runs.map RunRecord.id).Nodup
  clean : ∀ r ∈ s.runs, trimSpace r.id = r.id ∧ r.id ≠ []
  created : ∀ r ∈ s.runs, 0 < r.createdAt

/-- The cursor behind a run. -/
def cursorOf (r : RunRecord) : RunCursor := ⟨r.createdAt, r.id⟩

/-- The runs of the job in the order of the listing. -/
def listing (jobID : Text) (s : Store δ) : List RunRecord :=
  sortBy listingKey (s.runs.filter (ofJob jobID))

section listable

variable {s : Store δ} {jobID : Text} {limit : ℤ}

theorem one_le_pageLimit (limit : ℤ) : 1 ≤ pageLimit limit := by
  unfold pageLimit
  dsimp only
  split <;> split <;> omega

theorem nodup_listingKey (h : Listable s) : (s.runs.map listingKey).Nodup := by
  have hids := h.nodup
  unfold List.Nodup at hids ⊢
  rw [pairwise_map] at hids ⊢
  apply hids.imp
  intro r r' hne hkey
  unfold listingKey at hkey
  rw [toLex_inj, Prod.mk.injEq] at hkey
  exact hne hkey.2

theorem ascending_listing (h : Listable s) (jobID : Text) :
    Ascending listingKey (listing jobID s) := by
  apply ascending_sortBy
  exact (nodup_listingKey h).sublist (filter_sublist.map listingKey)

theorem behindCursor_iff (h : Listable s) {last : Option RunRecord}
    (hlast : ∀ r ∈ last, r ∈ s.runs) (r : RunRecord) :
    behindCursor (last.map cursorOf) r = true ↔ ∀ r₀ ∈ last, listingKey r₀ < listingKey r := by
  cases last with
  | none => simp [behindCursor]
  | some r₀ =>
    simp only [Option.map_some, behindCursor, cursorOf, decide_eq_true_eq, Option.mem_some_iff,
      forall_eq', (h.clean r₀ (hlast r₀ rfl)).1, listingKey_lt]
    constructor <;> rintro (hlt | ⟨heq, hlt⟩)
    · exact .inl hlt
    · exact .inr ⟨heq.symm, hlt⟩
    · exact .inl hlt
    · exact .inr ⟨heq.symm, hlt⟩

theorem sorted_behind (h : Listable s) {last : Option RunRecord}
    (hlast : ∀ r ∈ last, r ∈ s.runs) :
    (s.runs.filter fun r => ofJob jobID r ∧ behindCursor (last.map cursorOf) r).insertionSort
      (fun r r' => orderedBefore r r') = behind listingKey last (listing jobID s) := by
  have hsort : ∀ rows : List RunRecord,
      rows.insertionSort (fun r r' => orderedBefore r r') = sortBy listingKey rows := by
    intro rows
    unfold sortBy
    congr
    funext r r'
    exact propext orderedBefore_iff
  have hbehind : (s.runs.filter fun r => ofJob jobID r ∧ behindCursor (last.map cursorOf) r) =
      (s.runs.filter (ofJob jobID)).filter fun r => ∀ r₀ ∈ last, listingKey r₀ < listingKey r := by
    rw [filter_filter]
    apply filter_congr
    intro r _
    simp only [behindCursor_iff h hlast, Bool.decide_and, Bool.decide_eq_true, Bool.and_comm]
  rw [hsort, hbehind, sortBy_filter ((nodup_listingKey h).sublist (filter_sublist.map _))]
  rfl

/-- **The page behind a run** is the beginning of what is left, and names its last run when it
leaves runs behind. -/
theorem listRunsPage_behind (h : Listable s) {last : Option RunRecord}
    (hlast : ∀ r ∈ last, r ∈ s.runs) (jobID : Text) (limit : ℤ) :
    let rest := behind listingKey last (listing jobID s)
    listRunsPage jobID (last.map cursorOf) limit s = .ok {
      runs := rest.take (pageLimit limit)
      nextCursor := if pageLimit limit < rest.length then
        (rest.take (pageLimit limit)).getLast?.map cursorOf else none
      total := (listing jobID s).length } := by
  intro rest
  have hgiven : ¬ ∃ given ∈ last.map cursorOf, given.createdAt ≤ 0 ∨ trimSpace given.id = [] := by
    rintro ⟨given, hgiven, hbad⟩
    obtain ⟨r, hr, rfl⟩ := Option.mem_map.mp hgiven
    obtain ⟨hclean, hne⟩ := h.clean r (hlast r hr)
    cases hbad with
    | inl hcreated => exact absurd (h.created r (hlast r hr)) (not_lt.mpr hcreated)
    | inr hblank => exact hne (hclean.symm.trans hblank)
  have htotal : s.runs.countP (ofJob jobID) = (listing jobID s).length := by
    rw [listing, (sortBy_perm _).length_eq, countP_eq_length_filter]
  unfold listRunsPage
  dsimp only
  rw [if_neg hgiven, sorted_behind h hlast, htotal]
  by_cases hmore : pageLimit limit < rest.length
  · have hrows : (rest.take (pageLimit limit + 1)).length > pageLimit limit := by
      rw [length_take]
      omega
    rw [if_pos hrows, if_pos hmore, take_take, min_eq_left (Nat.le_succ _)]
    rfl
  · have hrows : ¬ (rest.take (pageLimit limit + 1)).length > pageLimit limit := by
      rw [length_take]
      omega
    have hall : rest.take (pageLimit limit + 1) = rest :=
      take_of_length_le ((not_lt.mp hmore).trans (Nat.le_succ _))
    rw [if_neg hrows, if_neg hmore, hall, take_of_length_le (not_lt.mp hmore)]

/-- Reading on from behind a run; induction on the pages that may be read. -/
theorem readPages_behind (h : Listable s) (jobID : Text) (limit : ℤ) (pages : ℕ) :
    ∀ last : Option RunRecord, (∀ r ∈ last, r ∈ s.runs) →
      (behind listingKey last (listing jobID s)).length < pages →
      readPages jobID limit s pages (last.map cursorOf) =
        .ok (some (behind listingKey last (listing jobID s))) := by
  induction pages with
  | zero => exact fun _ _ hpages => absurd hpages (Nat.not_lt_zero _)
  | succ pages ih =>
    intro last hlast hpages
    unfold readPages
    rw [listRunsPage_behind h hlast, ok_bind]
    set rest := behind listingKey last (listing jobID s) with hrest
    by_cases hmore : pageLimit limit < rest.length
    · have hlimit := one_le_pageLimit limit
      have hpage : rest.take (pageLimit limit) ≠ [] := by
        rw [Ne, take_eq_nil_iff, not_or]
        exact ⟨by omega, ne_nil_of_length_pos (by omega)⟩
      have hmem : (rest.take (pageLimit limit)).getLast hpage ∈ s.runs := by
        have hin := mem_of_mem_take (getLast_mem hpage)
        have hin := mem_sortBy.mp (mem_of_mem_filter hin)
        exact mem_of_mem_filter hin
      have hleft := (ascending_listing h jobID).behind_last hpage
      have hnext : readPages jobID limit s pages
          (some (cursorOf ((rest.take (pageLimit limit)).getLast hpage))) =
          .ok (some (behind listingKey (some ((rest.take (pageLimit limit)).getLast hpage))
            (listing jobID s))) := by
        apply ih (some _)
        · simpa using hmem
        · rw [hleft, length_drop, ← hrest]
          omega
      rw [if_pos hmore, getLast?_eq_some_getLast hpage]
      dsimp only [Option.map_some]
      rw [hnext, hleft, ok_bind]
      exact congrArg (Except.ok ∘ some) (take_append_drop _ _)
    · rw [if_neg hmore]
      exact congrArg (Except.ok ∘ some) (take_of_length_le (not_lt.mp hmore))

end listable

/-! ### The store keeps its promise -/

section keeping

variable {world : World} {s s' : Store δ}

/-- A store with fewer runs, or with others under the same names and times. -/
theorem Listable.of_cursors (h : Listable s)
    (hsub : (s'.runs.map cursorOf).Sublist (s.runs.map cursorOf)) : Listable s' := by
  have hbefore : ∀ r' ∈ s'.runs, ∃ r ∈ s.runs, r.createdAt = r'.createdAt ∧ r.id = r'.id := by
    intro r' hr'
    obtain ⟨r, hr, hcursor⟩ := mem_map.mp (hsub.subset (mem_map_of_mem hr'))
    exact ⟨r, hr, RunCursor.mk.inj hcursor⟩
  constructor
  · have hids := hsub.map RunCursor.id
    rw [map_map, map_map] at hids
    exact h.nodup.sublist hids
  · intro r' hr'
    obtain ⟨r, hr, _, hid⟩ := hbefore r' hr'
    rw [← hid]
    exact h.clean r hr
  · intro r' hr'
    obtain ⟨r, hr, hcreated, _⟩ := hbefore r' hr'
    rw [← hcreated]
    exact h.created r hr

theorem cursors_of_runs (hruns : s'.runs = s.runs) :
    (s'.runs.map cursorOf).Sublist (s.runs.map cursorOf) := by
  rw [hruns]

/-- Runs that are worked on one by one keep their names and their times of creation. -/
theorem cursors_of_turns {claim : Option (Text × Text)} {f : RunRecord → RunRecord}
    (hruns : s'.runs = s.runs.map f)
    (hf : ∀ r, RunTurn claim r (f r) ∧ (f r).createdAt = r.createdAt) :
    (s'.runs.map cursorOf).Sublist (s.runs.map cursorOf) := by
  have hsame : s'.runs.map cursorOf = s.runs.map cursorOf := by
    rw [hruns, map_map]
    apply map_congr_left
    intro r _
    exact congrArg₂ RunCursor.mk (hf r).2 (hf r).1.id_eq
  rw [hsame]

theorem cursors_deleteRuns (cond : RunRecord → Bool) (s : Store δ) :
    ((deleteRuns cond s).2.runs.map cursorOf).Sublist (s.runs.map cursorOf) :=
  filter_sublist.map cursorOf

/-- **A request that creates no run** leaves the names and the times of creation, or deletes
runs. -/
theorem cursors_operationOf (definitions : Definitions δ) {r : Request δ} (hr : r.creates = none)
    {result : r.Result} (hop : operationOf definitions world r s = .ok (result, s')) :
    (s'.runs.map cursorOf).Sublist (s.runs.map cursorOf) := by
  by_cases hworks : r.works = true
  · obtain ⟨f, rfl, hturn⟩ := works_operationOf hworks hop
    exact cursors_of_turns rfl hturn
  · cases r with
    | saveJob definition =>
      rw [saveJob_state hop]
      exact cursors_of_runs (runs_upsertJob _ s)
    | purgeJob id =>
      rcases purgeJob_state hop with rfl | rfl
      · exact .refl _
      · exact cursors_deleteRuns _ s
    | createRun run policy eventCreatedAt => cases hr
    | completeRunOwnedWithTerminalEvent id ownerToken status outcome message nowMillis =>
      obtain ⟨f, hruns, _, hturn⟩ := works_completeWithEvent hop
      exact cursors_of_turns hruns hturn
    | deleteTerminalRun id =>
      rw [deleteTerminalRun_state hop]
      exact cursors_deleteRuns _ s
    | clearTerminalRuns jobID =>
      cases hop
      exact cursors_deleteRuns _ s
    | appendRunEvent event => exact cursors_of_runs (runs_appendRunEvent hop)
    | advanceSchedule id scheduledAt next =>
      cases hop
      exact .refl _
    | _ => exact absurd rfl hworks

/-- What the callers promise of a run that they create: it is given no name, and draws one, or a
name without blanks around it, and the clock has been set. -/
def Request.Named (world : World) : Request δ → Prop
  | .createRun run _ _ => 0 < world.now ∧ trimSpace run.id = run.id ∧
      trimSpace (bytes "sync-run-" ++ world.uuid) = bytes "sync-run-" ++ world.uuid
  | _ => True

/-- The manager keeps the promise: it gives a run no name, or that of an instant. -/
theorem named_newRun {definitions : Definitions δ}
    (huuid : ∀ name, ∀ c ∈ definitions.nameUUID name, c ∈ bytes "0123456789abcdef-")
    (hnow : 0 < world.now) (hdrawn : ∀ c ∈ world.uuid, c ∈ bytes "0123456789abcdef-")
    (definition : JobDefinition δ) (trigger : RunTrigger) (parentRunID : Text) (attempt : ℤ)
    {runID : Text} (hid : runID = [] ∨
      ∃ jobID scheduledAt, runID = scheduledRunID definitions jobID scheduledAt)
    (policy : Text) (eventCreatedAt : ℤ) :
    (Request.createRun (δ := δ) (newRun definitions definition trigger parentRunID attempt runID)
      policy eventCreatedAt).Named world := by
  have hplain : ∀ c ∈ bytes "sync-run-" ++ bytes "0123456789abcdef-",
      c ∉ spaceRunes.flatten := by decide +kernel
  refine ⟨hnow, ?_, ?_⟩
  · obtain rfl | ⟨jobID, scheduledAt, rfl⟩ := hid
    · rfl
    · exact trimSpace_scheduledRunID huuid jobID scheduledAt
  · apply trimSpace_of_plain
    intro c hc
    apply hplain
    rw [mem_append] at hc ⊢
    exact hc.imp_right (hdrawn c)

theorem prepareRunForInsert_named {run prepared : RunRecord} {policy : Text}
    {eventCreatedAt : ℤ}
    (hnamed : (Request.createRun (δ := δ) run policy eventCreatedAt).Named world)
    (h : prepareRunForInsert world run = .ok prepared) :
    (trimSpace prepared.id = prepared.id ∧ prepared.id ≠ []) ∧ 0 < prepared.createdAt := by
  obtain ⟨hnow, hclean, hdrawn⟩ := hnamed
  unfold prepareRunForInsert at h
  dsimp only at h
  split at h
  · cases h
  · cases h
    refine ⟨?_, hnow⟩
    split
    · exact ⟨hdrawn, nofun⟩
    · rename_i hid
      exact ⟨hclean, fun hempty => hid (hclean.trans hempty)⟩

/-- **A request keeps the promise of the store.** -/
theorem listable_serve (definitions : Definitions δ) (h : Listable s) {r : Request δ}
    (hnamed : r.Named world) : Listable (serve definitions s r world).2 := by
  apply transaction_keeps h
  intro result s' hop
  cases hcreates : r.creates with
  | none => exact h.of_cursors (cursors_operationOf definitions hcreates hop)
  | some jobID =>
    cases r <;> cases hcreates
    obtain ⟨_, hnew, hruns, _, _⟩ := runs_createRun hop
    obtain ⟨hclean, hcreated⟩ := prepareRunForInsert_named hnamed (createRun_prepared hop)
    constructor
    · rw [hruns, map_append, nodup_append]
      refine ⟨h.nodup, nodup_singleton _, ?_⟩
      intro id hid id' hid'
      obtain ⟨r, hr, rfl⟩ := mem_map.mp hid
      rw [mem_singleton.mp hid']
      exact hnew r hr
    · intro r hr
      rw [hruns, mem_append, mem_singleton] at hr
      cases hr with
      | inl hr => exact h.clean r hr
      | inr hr => exact hr ▸ hclean
    · intro r hr
      rw [hruns, mem_append, mem_singleton] at hr
      cases hr with
      | inl hr => exact h.created r hr
      | inr hr => exact hr ▸ hcreated

theorem listable_empty : Listable (Store.empty : Store δ) :=
  ⟨nodup_nil, forall_mem_nil _, forall_mem_nil _⟩

/-- Requests one after the other; induction from the last one. -/
theorem listable_stateOf (definitions : Definitions δ)
    {requests : List (Action (Request δ) World)} (hnamed : ∀ a ∈ requests, a.1.Named a.2) :
    Listable (stateOf (serve definitions) Store.empty requests) := by
  induction requests using List.reverseRecOn with
  | nil => exact listable_empty
  | append_singleton requests a ih =>
    rw [stateOf_append]
    apply listable_serve
    · exact ih fun b hb => hnamed b (mem_append_left _ hb)
    · exact hnamed a (mem_append_right _ (mem_singleton_self a))

end keeping

/-! ### Every run once -/

/-- **Whoever follows the cursors reads every run of the job once**, newest first, and comes to an
end, in every store that requests make of an empty one. -/
theorem pages_list_runs_once (definitions : Definitions δ)
    (requests : List (Action (Request δ) World)) (hnamed : ∀ a ∈ requests, a.1.Named a.2)
    (jobID : Text) (limit : ℤ) (pages : ℕ)
    (hpages : (stateOf (serve definitions) Store.empty requests).runs.length < pages) :
    ∃ listed, readPages jobID limit (stateOf (serve definitions) Store.empty requests) pages none =
        .ok (some listed) ∧
      listed.Perm ((stateOf (serve definitions) Store.empty requests).runs.filter
        (ofJob jobID)) ∧ listed.Nodup ∧
      listed.Pairwise fun r r' => r'.createdAt < r.createdAt ∨
        (r.createdAt = r'.createdAt ∧ r.id < r'.id) := by
  have h := listable_stateOf definitions hnamed
  set s := stateOf (serve definitions) Store.empty requests
  have hperm : (listing jobID s).Perm (s.runs.filter (ofJob jobID)) := sortBy_perm _
  have hall : behind listingKey none (listing jobID s) = listing jobID s := behind_none _
  have hshort : (behind listingKey none (listing jobID s)).length < pages := by
    rw [hall, hperm.length_eq]
    exact (length_filter_le _ _).trans_lt hpages
  refine ⟨listing jobID s, ?_, hperm, ?_, ?_⟩
  · have hread := readPages_behind h jobID limit pages none (by simp) hshort
    rwa [hall] at hread
  · exact hperm.nodup_iff.mpr (h.nodup.of_map _ |>.filter _)
  · exact (ascending_listing h jobID).imp listingKey_lt.mp

/-- Three runs of one job, two of which are created in the same millisecond. -/
def threeRunRequests : List (Action (Request Unit) World) :=
  let run := newRun minuteDefinitions minuteJob .manual [] 1 []
  [⟨.saveJob { minuteJob with revision := 0 }, ⟨1000, [], none⟩⟩,
    ⟨.createRun run (bytes "queue") 0, ⟨2000, bytes "b6", none⟩⟩,
    ⟨.createRun run (bytes "queue") 0, ⟨2000, bytes "8f", none⟩⟩,
    ⟨.createRun run (bytes "queue") 0, ⟨3000, bytes "c1", none⟩⟩]

/-- They are listed one to a page. -/
theorem pages_list_runs_once_three :
    (∀ a ∈ threeRunRequests, a.1.Named a.2) ∧
    ∃ listed, readPages (bytes "job-1") 1
        (stateOf (serve minuteDefinitions) Store.empty threeRunRequests) 4 none =
        .ok (some listed) ∧
      listed.Perm ((stateOf (serve minuteDefinitions) Store.empty threeRunRequests).runs.filter
        (ofJob (bytes "job-1"))) ∧ listed.Nodup ∧
      listed.Pairwise fun r r' => r'.createdAt < r.createdAt ∨
        (r.createdAt = r'.createdAt ∧ r.id < r'.id) := by
  have hnamed : ∀ a ∈ threeRunRequests, a.1.Named a.2 := by
    unfold threeRunRequests
    simp only [mem_cons, not_mem_nil, or_false, forall_eq_or_imp, forall_eq]
    exact ⟨trivial, ⟨by decide, rfl, by decide⟩, ⟨by decide, rfl, by decide⟩,
      ⟨by decide, rfl, by decide⟩⟩
  exact ⟨hnamed, pages_list_runs_once minuteDefinitions threeRunRequests hnamed (bytes "job-1") 1
    4 (by decide)⟩

end GoNavi.Syncjob
