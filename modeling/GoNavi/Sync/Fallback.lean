import GoNavi.Machine.Stoppable
import GoNavi.Sync.Batches
import GoNavi.Sync.Queries

/-! # Falling back from a paged scan

The paged scans tell their callers by `handled` whether the work has still to be done without
pages.  Here every query may fail, at every page of both sides, and so may the consumer; all of
them may go by whatever has happened before.

**A scan that is not handled has asked no database and handed over no page**
(`unhandled_untouched`). -/

namespace GoNavi.Sync

open Scan Stoppable

inductive SyncSide where
  | source
  | target

/-- What the databases and the consumer do; a scan without a consumer has `none`. -/
structure ScanWorld (σ : Type) where
  query : SyncSide → Text → σ → Except Text (List TableRow) × σ
  consume : Option (PagedDiffPage → σ → Option Text × σ)

/-- The variables of a scan, and the pages that the consumer has been handed. -/
structure ScanState (σ : Type) where
  world : σ
  totals : PagedDiffCounts := ⟨0, 0, 0, 0⟩
  seenSourceKeys : List Text := []
  seenTargetKeys : List Text := []
  pages : List PagedDiffPage := []

/-- How a scan ends before its last page. -/
inductive ScanStop where
  /-- `return false, pagedDiffCounts{}, nil` -/
  | unhandled
  /-- `return false, pagedDiffCounts{}, err` -/
  | invalid (err : Text)
  /-- `return true, totals, err` -/
  | failed (err : Text)
  /-- the fuel has run out: the scan goes on -/
  | endless

def ScanStop.handled : ScanStop → Bool
  | .unhandled => false
  | .invalid _ => false
  | .failed _ => true
  | .endless => true

/-- What a scan asks, and how it says that it could not. -/
structure PagedScan where
  pkCol : Text
  pageSize : ℕ
  /-- The source is a query: its keys must differ, and its page queries have been checked. -/
  ofQuery : Bool
  sourceName : Text
  sourcePage : ℕ → Text
  targetLookup : List Cell → Text
  targetPage : Option Cell → Text
  sourceLookup : List Cell → Text

section scan

variable {σ : Type} (env : ScanWorld σ) (scan : PagedScan)

/-! ### Steps -/

/-- `querySyncDatabaseContext`; a failure ends the scan. -/
def ask (side : SyncSide) (query message : Text)
    (next : List TableRow → ScanState σ → ScanState σ × Option ScanStop) (s : ScanState σ) :
    ScanState σ × Option ScanStop :=
  match env.query side query s.world with
  | (.error err, world) => ({ s with world }, some (.failed (message ++ err)))
  | (.ok rows, world) => next rows { s with world }

/-- The rows under the keys of a page, if there are keys. -/
def askByPK (side : SyncSide) (pkValues : List Cell) (query message : Text)
    (next : List TableRow → ScanState σ → ScanState σ × Option ScanStop) (s : ScanState σ) :
    ScanState σ × Option ScanStop :=
  if pkValues = [] then next [] s
  else if trimSpace query = [] then (s, some .unhandled)
  else ask env side query message next s

/-- `consume(page)`. -/
def hand (page : PagedDiffPage) (s : ScanState σ) : ScanState σ × Option ScanStop :=
  match env.consume with
  | none => (s, none)
  | some consume =>
    let (err, world) := consume page s.world
    ({ s with world, pages := s.pages ++ [page] }, err.map .failed)

def validatePagedUniqueKeys (keyColumn side : Text) :
    List Text → List TableRow → Except Text (List Text)
  | seen, [] => .ok seen
  | seen, row :: rows =>
    match syncRowKey row [keyColumn] with
    | none => .error (side ++ bytes " contains a row without a complete stable key (" ++
        keyColumn ++ bytes ")")
    | some key =>
      if key ∈ seen then
        .error (side ++ bytes " contains duplicate stable key values (" ++ keyColumn ++ bytes ")")
      else validatePagedUniqueKeys keyColumn side (key :: seen) rows

def validateSourceKeys (rows : List TableRow) (s : ScanState σ) :
    ScanState σ × Option ScanStop :=
  if scan.ofQuery then
    match validatePagedUniqueKeys scan.pkCol (bytes "source query result") s.seenSourceKeys
        rows with
    | .error err => (s, some (.failed err))
    | .ok seenSourceKeys => ({ s with seenSourceKeys }, none)
  else (s, none)

def validateTargetKeys (rows : List TableRow) (s : ScanState σ) :
    ScanState σ × Option ScanStop :=
  if scan.ofQuery then
    match validatePagedUniqueKeys scan.pkCol (bytes "target table") s.seenTargetKeys rows with
    | .error err => (s, some (.failed err))
    | .ok seenTargetKeys => ({ s with seenTargetKeys }, none)
  else (s, none)

/-- `(offset=…): `. -/
def atOffset (message : Text) (offset : ℕ) : Text :=
  message ++ bytes "(offset=" ++ Json.natural offset ++ bytes "): "

/-! ### Loops -/

/-- The loop over the pages of the source. -/
def PagedScan.sourceLoop : ℕ → ℕ → ScanState σ → ScanState σ × Option ScanStop
  | 0, _, s => (s, some .endless)
  | fuel + 1, offset, s =>
    let query := scan.sourcePage offset
    if !scan.ofQuery && trimSpace query = [] then (s, some .unhandled)
    else
      ask env .source query (atOffset (bytes "分页读取" ++ scan.sourceName ++ bytes "失败") offset)
        (fun sourceRows s =>
          if sourceRows = [] then (s, none)
          else andThen (validateSourceKeys scan sourceRows s) fun s =>
            let pkValues := collectPKValues scan.pkCol [] sourceRows
            askByPK env .target pkValues (scan.targetLookup pkValues)
              (atOffset (bytes "按主键读取目标表失败") offset)
              (fun targetRows s => andThen (validateTargetKeys scan targetRows s) fun s =>
                let page := diffSourcePageByPK scan.pkCol sourceRows targetRows
                andThen (hand env page { s with totals := s.totals.add page }) fun s =>
                  if sourceRows.length < scan.pageSize then (s, none)
                  else sourceLoop fuel (offset + scan.pageSize) s)
              s)
        s

/-- The loop over the pages of the keys of the target. -/
def PagedScan.targetLoop : ℕ → Option Cell → ScanState σ → ScanState σ × Option ScanStop
  | 0, _, s => (s, some .endless)
  | fuel + 1, lastPK, s =>
    let query := scan.targetPage lastPK
    if !scan.ofQuery && trimSpace query = [] then (s, some .unhandled)
    else
      ask env .target query (bytes "分页读取目标主键失败: ")
        (fun targetRows s =>
          match lastValidPKValue scan.pkCol targetRows with
          | none => (s, none)
          | some nextLastPK =>
            let pkValues := collectPKValues scan.pkCol [] targetRows
            askByPK env .source pkValues (scan.sourceLookup pkValues)
              (bytes "按主键反查" ++ scan.sourceName ++ bytes "失败: ")
              (fun sourcePKRows s =>
                let page : PagedDiffPage :=
                  ⟨[], [], pageDeletes scan.pkCol targetRows sourcePKRows, 0⟩
                andThen
                  (if page.deletes = [] then (s, none)
                  else hand env page { s with totals := s.totals.add page })
                  fun s =>
                    if targetRows.length < scan.pageSize then (s, none)
                    else targetLoop fuel (some nextLastPK) s)
              s)
        s

def PagedScan.run (includeDeletes : Bool) (fuel : ℕ) (s : ScanState σ) :
    ScanState σ × Option ScanStop :=
  andThen (scan.sourceLoop env fuel 0 s) fun s =>
    if includeDeletes then scan.targetLoop env fuel none s else (s, none)

/-! ### Scans -/

section scans

variable (naming : Naming) (sourceType targetType targetQueryTable : Text)
  (pkCol : Text) (includeDeletes : Bool) (batchSize : ℤ) (fuel : ℕ) (world : σ)

/-- `targetColSet` holds the lower-case names of the columns of the target. -/
def scanTableDiffInPagesContextWithBatchSize (sourceQueryTable : Text)
    (sourceCols targetCols targetColSet : List Text) : ScanState σ × Option ScanStop :=
  let s : ScanState σ := { world }
  let supports := supportsDirectImportPagination naming.unicode
  let sourceReadCols := diffReadableColumns naming sourceCols targetColSet pkCol
  let targetLookupCols := diffLookupColumns naming sourceReadCols targetCols targetColSet pkCol
  match normalizedSyncBatchSize batchSize with
  | .error err => (s, some (.invalid err))
  | .ok pageSize =>
    if !supports sourceType || !supports targetType then (s, some .unhandled)
    else if includeDeletes && (!supports targetType || !supports sourceType) then
      (s, some .unhandled)
    else if sourceReadCols = [] then (s, some .unhandled)
    else if targetLookupCols = [] then (s, some .unhandled)
    else
      let scan : PagedScan := {
        pkCol, pageSize
        ofQuery := false
        sourceName := bytes "源表"
        sourcePage := buildPagedSourceTableQuery naming sourceType sourceQueryTable
          sourceReadCols pkCol pageSize
        targetLookup := buildPKInSelectQuery naming targetType targetQueryTable
          targetLookupCols pkCol
        targetPage := fun lastPK => buildKeysetPagedTableQuery naming targetType targetQueryTable
          [pkCol] pkCol lastPK pageSize
        sourceLookup := buildPKInSelectQuery naming sourceType sourceQueryTable [pkCol] pkCol }
      scan.run env includeDeletes fuel s

def scanSourceQueryDiffInPagesContextWithBatchSize (sourceQuery : Text)
    (targetCols : List Text) : ScanState σ × Option ScanStop :=
  let s : ScanState σ := { world }
  let supports := supportsDirectImportPagination naming.unicode
  let targetColSet := (targetCols.map fun col => lower naming.unicode (trimSpace col)).filter
    fun name => name ≠ []
  let targetLookupCols := diffLookupColumns naming targetCols targetCols targetColSet pkCol
  let targetLookupCols := if targetLookupCols = [] then [pkCol] else targetLookupCols
  match normalizedSyncBatchSize batchSize with
  | .error err => (s, some (.invalid err))
  | .ok pageSize =>
    if !supports sourceType || !supports targetType then (s, some .unhandled)
    else if includeDeletes && (!supports targetType || !supports sourceType) then
      (s, some .unhandled)
    else if trimSpace (buildSourceQueryPageSQL naming sourceType sourceQuery pkCol pageSize 0) = []
    then (s, some .unhandled)
    else
      let scan : PagedScan := {
        pkCol, pageSize
        ofQuery := true
        sourceName := bytes "源查询"
        sourcePage := buildSourceQueryPageSQL naming sourceType sourceQuery pkCol pageSize
        targetLookup := buildPKInSelectQuery naming targetType targetQueryTable
          targetLookupCols pkCol
        targetPage := fun lastPK => buildKeysetPagedTableQuery naming targetType targetQueryTable
          [pkCol] pkCol lastPK pageSize
        sourceLookup := buildSourceQueryPKInSelectSQL naming sourceType sourceQuery [pkCol]
          pkCol }
      scan.run env includeDeletes fuel s

end scans

/-! ### Ends that are handled -/

/-- A stop that tells the caller that the work is done or has failed. -/
def Handled (stop : ScanStop) (_ : ScanState σ) : Prop := stop.handled = true

/-- The queries of a scan can be written: those of the pages at any offset and behind any key that
is kept, and those for the keys of a page. -/
structure PagedScan.Askable (scan : PagedScan) : Prop where
  sourcePage : scan.ofQuery = true ∨ ∀ offset, trimSpace (scan.sourcePage offset) ≠ []
  targetPage : scan.ofQuery = true ∨ ∀ lastPK : Option Cell,
    (∀ value ∈ lastPK, (pkValueKey value).isSome) → trimSpace (scan.targetPage lastPK) ≠ []
  targetLookup : ∀ pkValues : List Cell, pkValues ≠ [] →
    (∀ value ∈ pkValues, (pkValueKey value).isSome) → trimSpace (scan.targetLookup pkValues) ≠ []
  sourceLookup : ∀ pkValues : List Cell, pkValues ≠ [] →
    (∀ value ∈ pkValues, (pkValueKey value).isSome) → trimSpace (scan.sourceLookup pkValues) ≠ []

variable {env scan} {Q : ScanState σ → Prop}
variable {next : List TableRow → ScanState σ → ScanState σ × Option ScanStop}

theorem ask_handled {side : SyncSide} {query message : Text}
    (hnext : ∀ rows s, Ends Q Handled (next rows s)) (s : ScanState σ) :
    Ends Q Handled (ask env side query message next s) := by
  unfold ask
  split
  · rfl
  · exact hnext _ _

theorem collectPKValues_kept {pkCol : Text} {value : Cell} :
    ∀ {seen : List Text} {rows : List TableRow}, value ∈ collectPKValues pkCol seen rows →
      (pkValueKey value).isSome
  | _, [], h => by simp [collectPKValues] at h
  | seen, row :: rows, h => by
    rw [collectPKValues] at h
    split at h
    · exact collectPKValues_kept h
    · rename_i key hkey
      split at h
      · exact collectPKValues_kept h
      · cases List.mem_cons.mp h with
        | inl heq => rw [heq, hkey, Option.isSome_some]
        | inr h => exact collectPKValues_kept h

variable {rows : List TableRow}

theorem lastValidPKValue_kept {pkCol : Text} {value : Cell}
    (h : lastValidPKValue pkCol rows = some value) : (pkValueKey value).isSome := by
  unfold lastValidPKValue at h
  obtain ⟨row, hrow, rfl⟩ := Option.map_eq_some_iff.mp h
  have hkept := List.find?_some hrow
  exact hkept

/-- The keys of a page can be asked for, so that the scan is handled. -/
theorem askByPK_handled {side : SyncSide} {pkCol query message : Text}
    (hquery : collectPKValues pkCol [] rows ≠ [] →
      (∀ value ∈ collectPKValues pkCol [] rows, (pkValueKey value).isSome) → trimSpace query ≠ [])
    (hnext : ∀ rows s, Ends Q Handled (next rows s)) (s : ScanState σ) :
    Ends Q Handled (askByPK env side (collectPKValues pkCol [] rows) query message next s) := by
  unfold askByPK
  split
  · exact hnext _ _
  · rename_i hne
    rw [if_neg (hquery hne fun _ => collectPKValues_kept)]
    exact ask_handled hnext s

theorem hand_handled (page : PagedDiffPage) (s : ScanState σ) :
    Ends (fun _ => True) Handled (hand env page s) := by
  unfold hand
  split
  · trivial
  · rename_i consume _
    dsimp only
    cases (consume page s.world).1 with
    | none => trivial
    | some err => rfl

theorem validateSourceKeys_handled (rows : List TableRow) (s : ScanState σ) :
    Ends (fun _ => True) Handled (validateSourceKeys scan rows s) := by
  unfold validateSourceKeys
  split
  · split
    · rfl
    · trivial
  · trivial

theorem validateTargetKeys_handled (rows : List TableRow) (s : ScanState σ) :
    Ends (fun _ => True) Handled (validateTargetKeys scan rows s) := by
  unfold validateTargetKeys
  split
  · split
    · rfl
    · trivial
  · trivial

/-- **The loop over the source is handled**, wherever a query fails. -/
theorem PagedScan.sourceLoop_handled (h : scan.Askable) : ∀ (fuel offset : ℕ) (s : ScanState σ),
    Ends (fun _ => True) Handled (scan.sourceLoop env fuel offset s)
  | 0, _, _ => rfl
  | fuel + 1, offset, s => by
    unfold PagedScan.sourceLoop
    dsimp only
    have hguard : (!scan.ofQuery && decide (trimSpace (scan.sourcePage offset) = [])) = false := by
      cases h.sourcePage with
      | inl hquery => rw [hquery, Bool.not_true, Bool.false_and]
      | inr hpage => rw [decide_eq_false (hpage offset), Bool.and_false]
    rw [hguard, if_neg Bool.false_ne_true]
    refine ask_handled (fun sourceRows s => ?_) s
    split
    · trivial
    · refine (validateSourceKeys_handled sourceRows s).andThen fun s _ => ?_
      refine askByPK_handled (h.targetLookup _) (fun targetRows s => ?_) s
      refine (validateTargetKeys_handled targetRows s).andThen fun s _ => ?_
      refine (hand_handled _ _).andThen fun s _ => ?_
      split
      · trivial
      · exact PagedScan.sourceLoop_handled h fuel _ s

/-- **The loop over the keys of the target is handled.** -/
theorem PagedScan.targetLoop_handled (h : scan.Askable) : ∀ (fuel : ℕ) (lastPK : Option Cell)
    (s : ScanState σ), (∀ value ∈ lastPK, (pkValueKey value).isSome) →
    Ends (fun _ => True) Handled (scan.targetLoop env fuel lastPK s)
  | 0, _, _, _ => rfl
  | fuel + 1, lastPK, s, hlast => by
    unfold PagedScan.targetLoop
    dsimp only
    have hguard : (!scan.ofQuery && decide (trimSpace (scan.targetPage lastPK) = [])) = false := by
      cases h.targetPage with
      | inl hquery => rw [hquery, Bool.not_true, Bool.false_and]
      | inr hpage => rw [decide_eq_false (hpage lastPK hlast), Bool.and_false]
    rw [hguard, if_neg Bool.false_ne_true]
    refine ask_handled (fun targetRows s => ?_) s
    split
    · trivial
    · rename_i nextLastPK hnext
      refine askByPK_handled (h.sourceLookup _) (fun sourcePKRows s => ?_) s
      have hdeletes : Ends (fun _ => True) Handled
          (if pageDeletes scan.pkCol targetRows sourcePKRows = [] then (s, none)
          else hand env ⟨[], [], pageDeletes scan.pkCol targetRows sourcePKRows, 0⟩ { s with
            totals := s.totals.add
              ⟨[], [], pageDeletes scan.pkCol targetRows sourcePKRows, 0⟩ }) := by
        split
        · trivial
        · exact hand_handled _ _
      refine hdeletes.andThen fun s _ => ?_
      split
      · trivial
      · refine PagedScan.targetLoop_handled h fuel _ s ?_
        intro value hvalue
        cases hvalue
        exact lastValidPKValue_kept hnext

theorem PagedScan.run_handled (h : scan.Askable) (includeDeletes : Bool) (fuel : ℕ)
    (s : ScanState σ) : Ends (fun _ => True) Handled (scan.run env includeDeletes fuel s) := by
  unfold PagedScan.run
  refine (scan.sourceLoop_handled h fuel 0 s).andThen fun s _ => ?_
  split
  · exact scan.targetLoop_handled h fuel none s (by simp)
  · trivial

/-! ### Ends that are not handled -/

/-- A stop that sends the caller to the plain path has left everything as it was. -/
def Untouched (world : σ) (stop : ScanStop) (s : ScanState σ) : Prop :=
  stop.handled = false → s = { world }

theorem handled_untouched {world : σ} {r : ScanState σ × Option ScanStop}
    (h : Ends (fun _ => True) Handled r) : Ends (fun _ => True) (Untouched world) r := by
  apply h.mono (fun s hs => hs)
  intro stop s hstop hnot
  rw [Handled, hnot] at hstop
  cases hstop

/-- A scan of a table that cannot write the query of its first page stops before it. -/
theorem PagedScan.run_blank {world : σ} {includeDeletes : Bool} {fuel : ℕ}
    (htable : scan.ofQuery = false) (hblank : trimSpace (scan.sourcePage 0) = []) :
    Ends (fun _ => True) (Untouched world) (scan.run env includeDeletes fuel { world }) := by
  unfold PagedScan.run
  cases fuel with
  | zero =>
    intro hnot
    cases hnot
  | succ fuel =>
    have hguard : (!scan.ofQuery && decide (trimSpace (scan.sourcePage 0) = [])) = true := by
      rw [htable, decide_eq_true hblank]
      rfl
    unfold PagedScan.sourceLoop
    rw [if_pos hguard]
    intro _
    rfl

theorem normalizeSourceQuery_of_page {naming : Naming} {dbType sourceQuery orderCol : Text}
    {limit offset : ℕ}
    (h : trimSpace (buildSourceQueryPageSQL naming dbType sourceQuery orderCol limit offset) ≠ []) :
    ∃ subquery, normalizeSourceQueryForPaging naming sourceQuery = some subquery := by
  cases hquery : normalizeSourceQueryForPaging naming sourceQuery with
  | some subquery => exact ⟨subquery, rfl⟩
  | none =>
    unfold buildSourceQueryPageSQL at h
    rw [hquery] at h
    exact absurd rfl h

end scan

/-- **A scan that is not handled has asked no database and handed over no page**: its state is
the one it has begun with, wherever a query or the consumer may fail. -/
theorem unhandled_untouched {σ : Type} (env : ScanWorld σ) (naming : Naming)
    (sourceType targetType targetQueryTable pkCol : Text) (includeDeletes : Bool) (batchSize : ℤ)
    (fuel : ℕ) (world : σ) :
    (∀ (sourceQueryTable : Text) (sourceCols targetCols targetColSet : List Text),
      Ends (fun _ => True) (Untouched world) (scanTableDiffInPagesContextWithBatchSize env naming
        sourceType targetType targetQueryTable pkCol includeDeletes batchSize fuel world
        sourceQueryTable sourceCols targetCols targetColSet)) ∧
    (∀ (sourceQuery : Text) (targetCols : List Text),
      Ends (fun _ => True) (Untouched world) (scanSourceQueryDiffInPagesContextWithBatchSize env
        naming sourceType targetType targetQueryTable pkCol includeDeletes batchSize fuel world
        sourceQuery targetCols)) := by
  constructor
  · intro sourceQueryTable sourceCols targetCols targetColSet
    unfold scanTableDiffInPagesContextWithBatchSize
    dsimp only
    split
    · intro _
      rfl
    rename_i pageSize _
    split
    · intro _
      rfl
    split
    · intro _
      rfl
    split
    · intro _
      rfl
    split
    · intro _
      rfl
    by_cases hblank : trimSpace (buildPagedSourceTableQuery naming sourceType sourceQueryTable
        (diffReadableColumns naming sourceCols targetColSet pkCol) pkCol pageSize 0) = []
    · apply PagedScan.run_blank
      · rfl
      · dsimp only
        exact hblank
    · apply handled_untouched
      apply PagedScan.run_handled
      constructor
      · right
        intro offset hoffset
        exact hblank (buildPagedSourceTableQuery_blank naming _ _ _ _ _ _ _ hoffset)
      · right
        intro lastPK hkept
        exact buildKeysetPagedTableQuery_ne_nil naming hkept _ _ _ _ _
      · intro pkValues hne hkept
        exact buildPKInSelectQuery_ne_nil naming hne hkept _ _ _ _
      · intro pkValues hne hkept
        exact buildPKInSelectQuery_ne_nil naming hne hkept _ _ _ _
  · intro sourceQuery targetCols
    unfold scanSourceQueryDiffInPagesContextWithBatchSize
    dsimp only
    split
    · intro _
      rfl
    split
    · intro _
      rfl
    split
    · intro _
      rfl
    split
    · intro _
      rfl
    rename_i hpage
    obtain ⟨subquery, hquery⟩ := normalizeSourceQuery_of_page hpage
    apply handled_untouched
    apply PagedScan.run_handled
    constructor
    · exact Or.inl rfl
    · exact Or.inl rfl
    · intro pkValues hne hkept
      exact buildPKInSelectQuery_ne_nil naming hne hkept _ _ _ _
    · intro pkValues hne hkept
      exact buildSourceQueryPKInSelectSQL_ne_nil naming hne hkept hquery _ _ _

end GoNavi.Sync
