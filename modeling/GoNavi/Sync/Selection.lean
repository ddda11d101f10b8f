import GoNavi.Sync.Overwrite
import GoNavi.Sync.PagedDiff

/-! # Selecting rows of a preview

A preview shows the changes of a diff under the texts of their keys, and the synchronization that
follows keeps the changes whose keys have been selected.  The preview of a diff in pages trims the
texts, while the filter does not.

**Selecting what is shown keeps exactly that change if and only if its text has no white space
around it, where the diff comes in pages, and no other change of the kind has the text**
(`preview_selects_iff`). -/

namespace GoNavi.Sync

open Scan List

/-! ### Keys of maps -/

/-- The value of a column in a map that has been filled with keys. -/
def keyCell (keys : List (Text × Cell)) (column : Text) : Cell := (keys.lookup column).getD .nil

/-- `syncRowKey`, of any map. -/
def mapRowKey (cell : Text → Cell) (keyColumns : List Text) : Option Text :=
  if keyColumns = [] then none
  else (keyColumns.mapM fun column =>
      if cell column = .nil then none else marshal (cell column)).map fun values =>
    0x5B :: (List.intercalate [0x2C] values ++ [0x5D])

/-- `selectionRowKey`, of any map. -/
def mapSelectionKey (cell : Text → Cell) : List Text → Option Text
  | [column] => if cell column = .nil then none else some (sprint (cell column))
  | keyColumns => mapRowKey cell keyColumns

/-! ### Filters -/

/-- The changes whose keys are selected, or all when none is. -/
def filterByKeySelection {α : Type} (keyOf : α → Option Text) (changes : List α) (enabled : Bool)
    (selectedKeys : List Text) : List α :=
  if !enabled then []
  else if selectedKeys = [] then changes
  else changes.filter fun change =>
    match keyOf change with
    | none => false
    | some key => key ∈ selectedKeys

def filterUpdatesByKeySelection (keyColumns : List Text) (updates : List TableUpdateRow)
    (enabled : Bool) (selectedKeys : List Text) : List TableUpdateRow :=
  filterByKeySelection (fun update => mapSelectionKey (keyCell update.keys) keyColumns) updates
    enabled selectedKeys

/-- `filterRowsByKeySelection`, of the keys of rows that are deleted. -/
def filterDeletesByKeySelection (keyColumns : List Text) (deletes : List (List (Text × Cell)))
    (enabled : Bool) (selectedKeys : List Text) : List (List (Text × Cell)) :=
  filterByKeySelection (fun keys => mapSelectionKey (keyCell keys) keyColumns) deletes enabled
    selectedKeys

def filterUpdatesByPKSelection (pkCol : Text) (updates : List TableUpdateRow) (enabled : Bool)
    (selectedPKs : List Text) : List TableUpdateRow :=
  filterUpdatesByKeySelection [pkCol] updates enabled selectedPKs

def filterPagedUpdatesByPKSelection (pkCol : Text) (updates : List PagedUpdateDiff)
    (enabled : Bool) (selectedPKs : List Text) : List TableUpdateRow :=
  if !enabled then []
  else filterUpdatesByPKSelection pkCol (updates.map PagedUpdateDiff.updateRow) true selectedPKs

/-! ### Previews -/

/-- A change with the text that it is shown under. -/
structure PreviewRow (α : Type) where
  pk : Text
  row : α

/-- What a preview shows.  Of an update it shows the rows and the changed columns. -/
structure DiffPreview where
  inserts : List (PreviewRow TableRow)
  updates : List (PreviewRow PagedUpdateDiff)
  deletes : List (PreviewRow (List (Text × Cell)))

/-- A change with its key, if it has one. -/
def keyed {α : Type} (keyOf : α → Option Text) (change : α) : Option (PreviewRow α) :=
  (keyOf change).map fun pk => ⟨pk, change⟩

def emptyRow : TableRow := ⟨[], nodup_nil⟩

/-- What is shown of an update, with the rows that have its key. -/
def shownUpdate (keyColumns : List Text) (sourceRow targetRow : Text → Option TableRow)
    (update : TableUpdateRow) : Option (PreviewRow PagedUpdateDiff) :=
  (mapRowKey (keyCell update.keys) keyColumns).map fun identityKey =>
    ⟨(mapSelectionKey (keyCell update.keys) keyColumns).getD [],
      ⟨update, (sourceRow identityKey).getD emptyRow, (targetRow identityKey).getD emptyRow,
        update.values.map Prod.fst⟩⟩

/-- The end of `previewSourceQuery`: the loops stop behind `limit` changes, and look for the first
row under a key. -/
def previewSourceQueryDiff (keyColumns : List Text) (limit : ℕ)
    (sourceRows targetRows : List TableRow) : DiffPreview :=
  let (inserts, updates, deletes, _) := diffRowsByKeyColumns keyColumns sourceRows targetRows
  let firstUnder := fun (rows : List TableRow) key =>
    rows.find? fun row => syncRowKey row keyColumns = some key
  { inserts := (inserts.take limit).filterMap (keyed fun row => selectionRowKey row keyColumns)
    updates := (updates.take limit).filterMap
      (shownUpdate keyColumns (firstUnder sourceRows) (firstUnder targetRows))
    deletes := (deletes.take limit).filterMap
      (keyed fun keys => mapSelectionKey (keyCell keys) keyColumns) }

/-- The end of `preview`: a change without key is shown under an empty text, and the last row under
a key is shown. -/
def previewTableDiff (keyColumns : List Text) (limit : ℕ)
    (sourceRows targetRows : List TableRow) : DiffPreview :=
  let (inserts, updates, deletes, _) := diffRowsByKeyColumns keyColumns sourceRows targetRows
  let under := fun (rows : List TableRow) key =>
    lastUnder (fun row => syncRowKey row keyColumns) key rows
  { inserts := (inserts.take limit).map fun row => ⟨(selectionRowKey row keyColumns).getD [], row⟩
    updates := (updates.take limit).map fun update =>
      let identityKey := (mapRowKey (keyCell update.keys) keyColumns).getD []
      ⟨(mapSelectionKey (keyCell update.keys) keyColumns).getD [],
        ⟨update, (under sourceRows identityKey).getD emptyRow,
          (under targetRows identityKey).getD emptyRow, update.values.map Prod.fst⟩⟩
    deletes := (deletes.take limit).map fun keys =>
      ⟨(mapSelectionKey (keyCell keys) keyColumns).getD [], keys⟩ }

/-- The text that a change of a page is shown under. -/
def pagePK (value : Cell) : Option Text :=
  let pk := trimSpace (sprint value)
  if pk ≠ [] ∧ pk ≠ bytes "<nil>" then some pk else none

/-- The loop over the changes of a page, behind those that are shown. -/
def showPage {α : Type} (limit : ℕ) (keyOf : α → Option Text) :
    List (PreviewRow α) → List α → List (PreviewRow α)
  | shown, [] => shown
  | shown, change :: changes =>
    if shown.length ≥ limit then shown
    else
      match keyed keyOf change with
      | none => showPage limit keyOf shown changes
      | some entry => showPage limit keyOf (shown ++ [entry]) changes

/-- The consumer of the pages, in `previewSourceQuery` as in `preview`. -/
def showDiffPage (pkCol : Text) (limit : ℕ) (shown : DiffPreview) (page : PagedDiffPage) :
    DiffPreview where
  inserts := showPage limit (fun row => pagePK (row.cell pkCol)) shown.inserts page.inserts
  updates := showPage limit (fun update => pagePK (keyCell update.updateRow.keys pkCol))
    shown.updates page.updates
  deletes := showPage limit (fun keys => pagePK (keyCell keys pkCol)) shown.deletes
    (page.deletes.map fun key => [key])

def previewPages (pkCol : Text) (limit : ℕ) (pages : List PagedDiffPage) : DiffPreview :=
  pages.foldl (showDiffPage pkCol limit) ⟨[], [], []⟩

/-! ### Selecting -/

/-- What the filters keep of the changes of a diff for a selection. -/
structure Execution where
  inserts : List Text → List TableRow
  updates : List Text → List TableUpdateRow
  deletes : List Text → List (List (Text × Cell))

/-- The filters on the diff of whole tables. -/
def executeDiff (keyColumns : List Text) (sourceRows targetRows : List TableRow) : Execution :=
  let (inserts, updates, deletes, _) := diffRowsByKeyColumns keyColumns sourceRows targetRows
  { inserts := filterRowsByKeySelection keyColumns inserts true
    updates := filterUpdatesByKeySelection keyColumns updates true
    deletes := filterDeletesByKeySelection keyColumns deletes true }

/-- The filters on every page of a diff. -/
def executePages (pkCol : Text) (pages : List PagedDiffPage) : Execution where
  inserts selected := pages.flatMap fun page =>
    filterRowsByPKSelection pkCol page.inserts true selected
  updates selected := pages.flatMap fun page =>
    filterPagedUpdatesByPKSelection pkCol page.updates true selected
  deletes selected := pages.flatMap fun page =>
    filterDeletesByKeySelection [pkCol] (page.deletes.map fun key => [key]) true selected

/-- Selecting the text of a change that is shown keeps exactly this change. -/
structure Selects (shown : DiffPreview) (execution : Execution) : Prop where
  inserts : ∀ entry ∈ shown.inserts, execution.inserts [entry.pk] = [entry.row]
  updates : ∀ entry ∈ shown.updates, execution.updates [entry.pk] = [entry.row.updateRow]
  deletes : ∀ entry ∈ shown.deletes, execution.deletes [entry.pk] = [entry.row]

/-! ### One kind of change -/

section kinds

variable {α β : Type} {keyOf : α → Option Text} {changes : List α} {change : α} {pk : Text}

theorem filterByKeySelection_one :
    filterByKeySelection keyOf changes true [pk] =
      changes.filter fun change => keyOf change = some pk := by
  unfold filterByKeySelection
  rw [if_neg (by simp), if_neg (by simp)]
  congr 1
  funext change
  cases keyOf change with
  | none => simp
  | some key => simp

/-- A key keeps exactly one change when it is the key of this change only. -/
theorem keeps_iff (hmem : change ∈ changes) :
    filterByKeySelection keyOf changes true [pk] = [change] ↔
      keyOf change = some pk ∧ changes.countP (fun other => keyOf other = keyOf change) = 1 := by
  rw [filterByKeySelection_one]
  constructor
  · intro hkept
    have hkey : keyOf change = some pk := by
      have hself : change ∈ changes.filter fun change => keyOf change = some pk := by
        rw [hkept]
        exact mem_singleton_self change
      simpa using (mem_filter.mp hself).2
    rw [hkey, countP_eq_length_filter, hkept]
    exact ⟨rfl, rfl⟩
  · rintro ⟨hkey, hcount⟩
    rw [hkey, countP_eq_length_filter] at hcount
    obtain ⟨only, honly⟩ := length_eq_one_iff.mp hcount
    have hself : change ∈ changes.filter fun other => keyOf other = some pk :=
      mem_filter.mpr ⟨hmem, by simpa using hkey⟩
    rw [honly] at hself ⊢
    rw [mem_singleton.mp hself]

/-- What is shown of one kind, as changes with the texts that they are shown under. -/
structure Shows (shown : List (PreviewRow β)) (toChange : β → α) (pkOf : α → Text)
    (candidates changes : List α) : Prop where
  shown : (shown.map fun entry => (entry.pk, toChange entry.row)) =
    candidates.map fun change => (pkOf change, change)
  among : candidates ⊆ changes

theorem Shows.selects_iff {shown : List (PreviewRow β)} {toChange : β → α} {pkOf : α → Text}
    {candidates : List α} (h : Shows shown toChange pkOf candidates changes) :
    (∀ entry ∈ shown,
        filterByKeySelection keyOf changes true [entry.pk] = [toChange entry.row]) ↔
      ∀ change ∈ candidates, keyOf change = some (pkOf change) ∧
        changes.countP (fun other => keyOf other = keyOf change) = 1 := by
  have hpairs : (∀ entry ∈ shown,
        filterByKeySelection keyOf changes true [entry.pk] = [toChange entry.row]) ↔
      ∀ pair ∈ shown.map fun entry => (entry.pk, toChange entry.row),
        filterByKeySelection keyOf changes true [pair.1] = [pair.2] := by
    rw [forall_mem_map]
  rw [hpairs, h.shown, forall_mem_map]
  exact forall₂_congr fun change hchange => keeps_iff (h.among hchange)

/-- The loops of a whole diff show the first changes, when all have a key. -/
theorem filterMap_keyed {l : List α} (hkeys : ∀ change ∈ l, (keyOf change).isSome) :
    l.filterMap (keyed keyOf) = l.map fun change => ⟨(keyOf change).getD [], change⟩ := by
  rw [← filterMap_eq_map]
  apply filterMap_congr
  intro change hchange
  obtain ⟨key, hkey⟩ := Option.isSome_iff_exists.mp (hkeys change hchange)
  simp [keyed, hkey]

theorem shows_map {l : List α} (hsub : l ⊆ changes) (pkOf : α → Text) :
    Shows (l.map fun change => ⟨pkOf change, change⟩) id pkOf l changes :=
  ⟨by rw [map_map]; rfl, hsub⟩

/-- The loop over a page; induction on its changes. -/
theorem showPage_eq (limit : ℕ) (shown : List (PreviewRow α)) :
    showPage limit keyOf shown changes =
      shown ++ (changes.filterMap (keyed keyOf)).take (limit - shown.length) := by
  induction changes generalizing shown with
  | nil => simp [showPage]
  | cons change changes ih =>
    unfold showPage
    by_cases hfull : shown.length ≥ limit
    · rw [if_pos hfull, Nat.sub_eq_zero_of_le hfull, take_zero, append_nil]
    · rw [if_neg hfull]
      cases hkeyed : keyed keyOf change with
      | none =>
        rw [filterMap_cons_none hkeyed]
        exact ih shown
      | some entry =>
        rw [filterMap_cons_some hkeyed]
        have hroom : limit - shown.length = limit - (shown ++ [entry]).length + 1 := by
          rw [length_append, length_singleton]
          omega
        rw [hroom, take_succ_cons]
        dsimp only
        rw [ih, append_assoc]
        rfl

/-- The pages one after the other show the first changes with a key; induction on the pages. -/
theorem foldl_showPage (limit : ℕ) (kind : PagedDiffPage → List α) (pages : List PagedDiffPage)
    (shown : List (PreviewRow α)) :
    pages.foldl (fun shown page => showPage limit keyOf shown (kind page)) shown =
      shown ++ ((pages.flatMap kind).filterMap (keyed keyOf)).take (limit - shown.length) := by
  induction pages generalizing shown with
  | nil => simp
  | cons page pages ih =>
    rw [foldl_cons, ih, showPage_eq, flatMap_cons, filterMap_append,
      take_append, append_assoc]
    congr 3
    rw [length_append, length_take]
    omega

end kinds

/-! ### Diffs of whole tables -/

section whole

variable {keyColumns : List Text} {sourceRows targetRows : List TableRow}

theorem mapSelectionKey_isSome {cell : Text → Cell} (h : (mapRowKey cell keyColumns).isSome) :
    (mapSelectionKey cell keyColumns).isSome := by
  unfold mapSelectionKey
  split
  · rename_i column
    by_cases hnil : cell column = .nil
    · simp [mapRowKey, hnil] at h
    · rw [if_neg hnil]
      rfl
  · exact h

theorem selectionRowKey_eq (row : TableRow) :
    selectionRowKey row keyColumns = mapSelectionKey row.cell keyColumns := by
  cases keyColumns with
  | nil => rfl
  | cons column columns => cases columns <;> rfl

theorem keyCell_syncRowKeys (row : TableRow) {column : Text} (hcolumn : column ∈ keyColumns) :
    keyCell (syncRowKeys row keyColumns) column = row.cell column := by
  unfold keyCell syncRowKeys
  induction keyColumns with
  | nil => cases hcolumn
  | cons first rest ih =>
    rw [map_cons, lookup_cons]
    by_cases hfirst : column = first
    · simp [hfirst]
    · have hbeq : (column == first) = false := by simpa using hfirst
      rw [hbeq]
      exact ih ((mem_cons.mp hcolumn).resolve_left hfirst)

/-- Values that are read alike are the same; induction on the list. -/
theorem mapM_congr {α β : Type} {f g : α → Option β} {l : List α} (h : ∀ a ∈ l, f a = g a) :
    l.mapM f = l.mapM g := by
  induction l with
  | nil => rfl
  | cons a l ih =>
    rw [mapM_cons, mapM_cons, h a mem_cons_self,
      ih fun b hb => h b (mem_cons_of_mem _ hb)]

theorem mapRowKey_syncRowKeys (row : TableRow) :
    mapRowKey (keyCell (syncRowKeys row keyColumns)) keyColumns = syncRowKey row keyColumns := by
  unfold mapRowKey syncRowKey marshalColumns
  rw [mapM_congr fun column hcolumn => by rw [keyCell_syncRowKeys row hcolumn]]

variable {sourceRow : TableRow}

theorem compareRow_insert {row : TableRow}
    (h : compareRow keyColumns targetRows sourceRow = .insert row) :
    row = sourceRow ∧ (syncRowKey row keyColumns).isSome := by
  unfold compareRow at h
  split at h
  · cases h
  · rename_i key hkey
    split at h
    · cases h
      exact ⟨rfl, hkey ▸ rfl⟩
    · split at h <;> cases h

variable {update : TableUpdateRow}

theorem compareRow_update (h : compareRow keyColumns targetRows sourceRow = .update update) :
    update.keys = syncRowKeys sourceRow keyColumns ∧
      (mapRowKey (keyCell update.keys) keyColumns).isSome := by
  unfold compareRow at h
  split at h
  · cases h
  · rename_i key hkey
    split at h
    · cases h
    · split at h
      · cases h
      · cases h
        rw [mapRowKey_syncRowKeys, hkey]
        exact ⟨rfl, rfl⟩

theorem compareRow_inserted {row : TableRow}
    (h : (compareRow keyColumns targetRows sourceRow).inserted = some row) :
    row = sourceRow ∧ (syncRowKey row keyColumns).isSome := by
  cases hcompare : compareRow keyColumns targetRows sourceRow with
  | insert inserted =>
    rw [hcompare] at h
    cases h
    exact compareRow_insert hcompare
  | skipped => rw [hcompare] at h; cases h
  | update diff => rw [hcompare] at h; cases h
  | same => rw [hcompare] at h; cases h

theorem compareRow_updated
    (h : (compareRow keyColumns targetRows sourceRow).updated = some update) :
    update.keys = syncRowKeys sourceRow keyColumns ∧
      (mapRowKey (keyCell update.keys) keyColumns).isSome := by
  cases hcompare : compareRow keyColumns targetRows sourceRow with
  | update diff =>
    rw [hcompare] at h
    cases h
    exact compareRow_update hcompare
  | skipped => rw [hcompare] at h; cases h
  | insert inserted => rw [hcompare] at h; cases h
  | same => rw [hcompare] at h; cases h

theorem diff_keys (keyColumns : List Text) (sourceRows targetRows : List TableRow) :
    (∀ row ∈ (diffRowsByKeyColumns keyColumns sourceRows targetRows).1,
      (syncRowKey row keyColumns).isSome) ∧
    (∀ update ∈ (diffRowsByKeyColumns keyColumns sourceRows targetRows).2.1,
      (mapRowKey (keyCell update.keys) keyColumns).isSome) ∧
    ∀ keys ∈ (diffRowsByKeyColumns keyColumns sourceRows targetRows).2.2.1,
      (mapRowKey (keyCell keys) keyColumns).isSome := by
  unfold diffRowsByKeyColumns
  refine ⟨?_, ?_, ?_⟩
  · intro row hrow
    obtain ⟨finding, hfinding, hinsert⟩ := mem_filterMap.mp hrow
    obtain ⟨sourceRow, _, rfl⟩ := mem_map.mp hfinding
    exact (compareRow_inserted hinsert).2
  · intro update hupdate
    obtain ⟨finding, hfinding, hupdated⟩ := mem_filterMap.mp hupdate
    obtain ⟨sourceRow, _, rfl⟩ := mem_map.mp hfinding
    exact (compareRow_updated hupdated).2
  · intro keys hkeys
    obtain ⟨key, _, hunder⟩ := mem_filterMap.mp hkeys
    obtain ⟨row, hrow, rfl⟩ := Option.map_eq_some_iff.mp hunder
    have hkey := (lastUnder_spec hrow).2
    rw [mapRowKey_syncRowKeys, hkey]
    rfl

/-- The keys of these changes are those of one change each. -/
def KeysApart {α : Type} (keyOf : α → Option Text) (shown changes : List α) : Prop :=
  ∀ change ∈ shown, changes.countP (fun other => keyOf other = keyOf change) = 1

/-- No key of the first changes of a kind is that of another change of the kind. -/
structure DiffApart (keyColumns : List Text) (limit : ℕ) (sourceRows targetRows : List TableRow) :
    Prop where
  inserts : KeysApart (fun row => selectionRowKey row keyColumns)
    ((diffRowsByKeyColumns keyColumns sourceRows targetRows).1.take limit)
    (diffRowsByKeyColumns keyColumns sourceRows targetRows).1
  updates : KeysApart (fun update => mapSelectionKey (keyCell update.keys) keyColumns)
    ((diffRowsByKeyColumns keyColumns sourceRows targetRows).2.1.take limit)
    (diffRowsByKeyColumns keyColumns sourceRows targetRows).2.1
  deletes : KeysApart (fun keys => mapSelectionKey (keyCell keys) keyColumns)
    ((diffRowsByKeyColumns keyColumns sourceRows targetRows).2.2.1.take limit)
    (diffRowsByKeyColumns keyColumns sourceRows targetRows).2.2.1

/-- A kind whose changes have keys is selected as it is shown when the keys are apart. -/
theorem selects_first_iff {α β : Type} {keyOf : α → Option Text} {changes : List α} {limit : ℕ}
    {shown : List (PreviewRow β)} {toChange : β → α}
    (h : Shows shown toChange (fun change => (keyOf change).getD []) (changes.take limit) changes)
    (hkeys : ∀ change ∈ changes, (keyOf change).isSome) :
    (∀ entry ∈ shown,
        filterByKeySelection keyOf changes true [entry.pk] = [toChange entry.row]) ↔
      KeysApart keyOf (changes.take limit) changes := by
  rw [h.selects_iff]
  refine forall₂_congr fun change hchange => ?_
  obtain ⟨key, hkey⟩ := Option.isSome_iff_exists.mp (hkeys change (mem_of_mem_take hchange))
  simp [hkey]

/-- The first changes, as both previews of a whole diff show them. -/
structure ShowsFirst (shown : DiffPreview) (keyColumns : List Text) (limit : ℕ)
    (sourceRows targetRows : List TableRow) : Prop where
  inserts : Shows shown.inserts id (fun row => (selectionRowKey row keyColumns).getD [])
    ((diffRowsByKeyColumns keyColumns sourceRows targetRows).1.take limit)
    (diffRowsByKeyColumns keyColumns sourceRows targetRows).1
  updates : Shows shown.updates PagedUpdateDiff.updateRow
    (fun update => (mapSelectionKey (keyCell update.keys) keyColumns).getD [])
    ((diffRowsByKeyColumns keyColumns sourceRows targetRows).2.1.take limit)
    (diffRowsByKeyColumns keyColumns sourceRows targetRows).2.1
  deletes : Shows shown.deletes id
    (fun keys => (mapSelectionKey (keyCell keys) keyColumns).getD [])
    ((diffRowsByKeyColumns keyColumns sourceRows targetRows).2.2.1.take limit)
    (diffRowsByKeyColumns keyColumns sourceRows targetRows).2.2.1

variable {limit : ℕ}

theorem selectionRowKey_isSome {row : TableRow} (h : (syncRowKey row keyColumns).isSome) :
    (selectionRowKey row keyColumns).isSome := by
  rw [selectionRowKey_eq]
  exact mapSelectionKey_isSome h

theorem previewSourceQueryDiff_shows :
    ShowsFirst (previewSourceQueryDiff keyColumns limit sourceRows targetRows) keyColumns limit
      sourceRows targetRows := by
  obtain ⟨hinserts, hupdates, hdeletes⟩ := diff_keys keyColumns sourceRows targetRows
  unfold previewSourceQueryDiff
  dsimp only
  refine ⟨?_, ?_, ?_⟩
  · rw [filterMap_keyed fun row hrow =>
      selectionRowKey_isSome (hinserts row (mem_of_mem_take hrow))]
    exact shows_map (take_subset _ _) _
  · refine ⟨?_, take_subset _ _⟩
    rw [map_filterMap, ← filterMap_eq_map]
    apply filterMap_congr
    intro update hupdate
    obtain ⟨key, hkey⟩ :=
      Option.isSome_iff_exists.mp (hupdates update (mem_of_mem_take hupdate))
    simp [shownUpdate, hkey]
  · rw [filterMap_keyed fun keys hkeys =>
      mapSelectionKey_isSome (hdeletes keys (mem_of_mem_take hkeys))]
    exact shows_map (take_subset _ _) _

theorem previewTableDiff_shows :
    ShowsFirst (previewTableDiff keyColumns limit sourceRows targetRows) keyColumns limit
      sourceRows targetRows := by
  unfold previewTableDiff
  refine ⟨shows_map (take_subset _ _) _, ⟨?_, take_subset _ _⟩,
    shows_map (take_subset _ _) _⟩
  rw [map_map]
  rfl

/-- **Whole diffs**: what is shown is selected when the keys are apart. -/
theorem selects_whole_iff {shown : DiffPreview}
    (h : ShowsFirst shown keyColumns limit sourceRows targetRows) :
    Selects shown (executeDiff keyColumns sourceRows targetRows) ↔
      DiffApart keyColumns limit sourceRows targetRows := by
  obtain ⟨hinserts, hupdates, hdeletes⟩ := diff_keys keyColumns sourceRows targetRows
  have hinsertsIff := selects_first_iff h.inserts fun row hrow =>
    selectionRowKey_isSome (hinserts row hrow)
  have hupdatesIff := selects_first_iff h.updates fun update hupdate =>
    mapSelectionKey_isSome (hupdates update hupdate)
  have hdeletesIff := selects_first_iff h.deletes fun keys hkeys =>
    mapSelectionKey_isSome (hdeletes keys hkeys)
  constructor
  · intro hselects
    exact ⟨hinsertsIff.mp hselects.inserts, hupdatesIff.mp hselects.updates,
      hdeletesIff.mp hselects.deletes⟩
  · intro hapart
    exact ⟨hinsertsIff.mpr hapart.inserts, hupdatesIff.mpr hapart.updates,
      hdeletesIff.mpr hapart.deletes⟩

end whole

/-! ### Diffs in pages -/

section paged

variable {α : Type} {pkCol : Text} {limit : ℕ} {pages : List PagedDiffPage}

/-- The keys of these changes have no white space around them, and are those of one change each. -/
def PageApart (cellOf : α → Cell) (limit : ℕ) (changes : List α) : Prop :=
  ∀ change ∈ (changes.filter fun change => (pagePK (cellOf change)).isSome).take limit,
    trimSpace (sprint (cellOf change)) = sprint (cellOf change) ∧
      changes.countP (fun other => cellOf other ≠ .nil ∧
        sprint (cellOf other) = sprint (cellOf change)) = 1

/-- The changes of a kind that the pages hold. -/
structure PagesApart (pkCol : Text) (limit : ℕ) (pages : List PagedDiffPage) : Prop where
  inserts : PageApart (fun row => row.cell pkCol) limit (pages.flatMap PagedDiffPage.inserts)
  updates : PageApart (fun update => keyCell update.keys pkCol) limit
    ((pages.flatMap PagedDiffPage.updates).map PagedUpdateDiff.updateRow)
  deletes : PageApart (fun keys => keyCell keys pkCol) limit
    (pages.flatMap fun page => page.deletes.map fun key => [key])

theorem pagePK_isSome {value : Cell} (h : (pagePK value).isSome) :
    value ≠ .nil ∧ pagePK value = some (trimSpace (sprint value)) := by
  unfold pagePK at h ⊢
  dsimp only at h ⊢
  split at h
  · rename_i hshown
    refine ⟨?_, if_pos hshown⟩
    rintro rfl
    exact hshown.2 (by decide)
  · cases h

theorem shows_pages {β : Type} (changes : List β) (toChange : β → α) (cellOf : α → Cell) :
    Shows ((changes.filterMap (keyed fun change => pagePK (cellOf (toChange change)))).take limit)
      toChange (fun change => trimSpace (sprint (cellOf change)))
      (((changes.map toChange).filter fun change => (pagePK (cellOf change)).isSome).take limit)
      (changes.map toChange) := by
  refine ⟨?_, fun change hchange => (mem_filter.mp (mem_of_mem_take hchange)).1⟩
  rw [map_take, map_take]
  congr 1
  induction changes with
  | nil => rfl
  | cons change changes ih =>
    rw [map_cons]
    cases hpk : pagePK (cellOf (toChange change)) with
    | none =>
      rw [filterMap_cons_none (by simp [keyed, hpk]), filter_cons_of_neg (by simp [hpk])]
      exact ih
    | some pk =>
      have htext := (pagePK_isSome (Option.isSome_iff_exists.mpr ⟨pk, hpk⟩)).2
      rw [hpk] at htext
      rw [filterMap_cons_some (by simp [keyed, hpk]; rfl),
        filter_cons_of_pos (by simp [hpk]), map_cons, map_cons, ih]
      rw [Option.some.inj htext]

/-- A kind of the pages is selected as it is shown when its keys are plain and apart. -/
theorem selects_pages_iff {β : Type} (limit : ℕ) (changes : List β) (toChange : β → α)
    (cellOf : α → Cell) :
    (∀ entry ∈ (changes.filterMap
          (keyed fun change => pagePK (cellOf (toChange change)))).take limit,
        filterByKeySelection (fun change => if cellOf change = .nil then none
          else some (sprint (cellOf change))) (changes.map toChange) true [entry.pk] =
            [toChange entry.row]) ↔
      PageApart cellOf limit (changes.map toChange) := by
  rw [(shows_pages changes toChange cellOf).selects_iff]
  refine forall₂_congr fun change hchange => ?_
  have hsome := (mem_filter.mp (mem_of_mem_take hchange)).2
  have hnil := (pagePK_isSome hsome).1
  simp only [if_neg hnil, Option.some.injEq]
  refine and_congr eq_comm ?_
  rw [iff_eq_eq]
  congr 1
  apply countP_congr
  intro other _
  by_cases hother : cellOf other = .nil
  · simp [hother]
  · simp [hother]

theorem flatMap_filterByKeySelection {keyOf : α → Option Text} (kind : PagedDiffPage → List α)
    (pk : Text) :
    (pages.flatMap fun page => filterByKeySelection keyOf (kind page) true [pk]) =
      filterByKeySelection keyOf (pages.flatMap kind) true [pk] := by
  simp only [filterByKeySelection_one, filter_flatMap]

theorem previewPages_eq :
    previewPages pkCol limit pages =
      { inserts := ((pages.flatMap PagedDiffPage.inserts).filterMap
          (keyed fun row => pagePK (row.cell pkCol))).take limit
        updates := ((pages.flatMap PagedDiffPage.updates).filterMap
          (keyed fun update => pagePK (keyCell update.updateRow.keys pkCol))).take limit
        deletes := ((pages.flatMap fun page => page.deletes.map fun key => [key]).filterMap
          (keyed fun keys => pagePK (keyCell keys pkCol))).take limit } := by
  have hkinds : ∀ (pages : List PagedDiffPage) (shown : DiffPreview),
      pages.foldl (showDiffPage pkCol limit) shown =
        { inserts := pages.foldl (fun shown page => showPage limit
            (fun row => pagePK (row.cell pkCol)) shown page.inserts) shown.inserts
          updates := pages.foldl (fun shown page => showPage limit
            (fun update => pagePK (keyCell update.updateRow.keys pkCol)) shown page.updates)
            shown.updates
          deletes := pages.foldl (fun shown page => showPage limit
            (fun keys => pagePK (keyCell keys pkCol)) shown (page.deletes.map fun key => [key]))
            shown.deletes } := by
    intro pages
    induction pages with
    | nil => intro shown; rfl
    | cons page pages ih =>
      intro shown
      rw [foldl_cons, ih]
      rfl
  unfold previewPages
  rw [hkinds]
  simp only [foldl_showPage, nil_append, length_nil, Nat.sub_zero]

/-- **Diffs in pages**: what is shown is selected when the keys are plain and apart. -/
theorem selects_paged_iff :
    Selects (previewPages pkCol limit pages) (executePages pkCol pages) ↔
      PagesApart pkCol limit pages := by
  have hinserts := selects_pages_iff limit (pages.flatMap PagedDiffPage.inserts) id
    fun row => row.cell pkCol
  have hupdates := selects_pages_iff limit (pages.flatMap PagedDiffPage.updates)
    PagedUpdateDiff.updateRow fun update => keyCell update.keys pkCol
  have hdeletes := selects_pages_iff limit
    (pages.flatMap fun page => page.deletes.map fun key => [key]) id fun keys => keyCell keys pkCol
  rw [map_id] at hinserts hdeletes
  have hinserts' : ∀ pk, (executePages pkCol pages).inserts [pk] = filterByKeySelection
      (fun row => if row.cell pkCol = .nil then none else some (sprint (row.cell pkCol)))
      (pages.flatMap PagedDiffPage.inserts) true [pk] :=
    fun pk => flatMap_filterByKeySelection _ pk
  have hupdates' : ∀ pk, (executePages pkCol pages).updates [pk] = filterByKeySelection
      (fun update => if keyCell update.keys pkCol = .nil then none
        else some (sprint (keyCell update.keys pkCol)))
      ((pages.flatMap PagedDiffPage.updates).map PagedUpdateDiff.updateRow) true [pk] := by
    intro pk
    rw [map_flatMap]
    exact flatMap_filterByKeySelection _ pk
  have hdeletes' : ∀ pk, (executePages pkCol pages).deletes [pk] = filterByKeySelection
      (fun keys => if keyCell keys pkCol = .nil then none else some (sprint (keyCell keys pkCol)))
      (pages.flatMap fun page => page.deletes.map fun key => [key]) true [pk] :=
    fun pk => flatMap_filterByKeySelection _ pk
  rw [previewPages_eq]
  constructor
  · intro h
    refine ⟨hinserts.mp fun entry hentry => ?_, hupdates.mp fun entry hentry => ?_,
      hdeletes.mp fun entry hentry => ?_⟩
    · rw [← hinserts']
      exact h.inserts entry hentry
    · rw [← hupdates']
      exact h.updates entry hentry
    · rw [← hdeletes']
      exact h.deletes entry hentry
  · intro h
    refine ⟨fun entry hentry => ?_, fun entry hentry => ?_, fun entry hentry => ?_⟩
    · rw [hinserts']
      exact hinserts.mpr h.inserts entry hentry
    · rw [hupdates']
      exact hupdates.mpr h.updates entry hentry
    · rw [hdeletes']
      exact hdeletes.mpr h.deletes entry hentry

end paged

/-- **Selecting what a preview shows**: it keeps exactly that change for every row that is shown if
and only if the keys are apart and, in a diff in pages, have no white space around them. -/
theorem preview_selects_iff (keyColumns : List Text) (limit : ℕ)
    (sourceRows targetRows : List TableRow) (pkCol : Text) (pages : List PagedDiffPage) :
    (Selects (previewSourceQueryDiff keyColumns limit sourceRows targetRows)
        (executeDiff keyColumns sourceRows targetRows) ↔
      DiffApart keyColumns limit sourceRows targetRows) ∧
    (Selects (previewTableDiff keyColumns limit sourceRows targetRows)
        (executeDiff keyColumns sourceRows targetRows) ↔
      DiffApart keyColumns limit sourceRows targetRows) ∧
    (Selects (previewPages pkCol limit pages) (executePages pkCol pages) ↔
      PagesApart pkCol limit pages) :=
  ⟨selects_whole_iff previewSourceQueryDiff_shows, selects_whole_iff previewTableDiff_shows,
    selects_paged_iff⟩

/-- A row of this key. -/
def keyRow (key : Text) : TableRow := ⟨[(bytes "id", .text key)], nodup_singleton _⟩

/-- Two new rows whose keys differ by a space: both are shown under the text of the second one,
and selecting it keeps the second one only. -/
theorem preview_selects_iff_spaces :
    let pages := [diffSourcePageByPK (bytes "id") [keyRow (bytes " 1"), keyRow (bytes "1")] []]
    (previewPages (bytes "id") 200 pages).inserts.map PreviewRow.pk = [bytes "1", bytes "1"] ∧
      (executePages (bytes "id") pages).inserts [bytes "1"] = [keyRow (bytes "1")] ∧
      ¬ Selects (previewPages (bytes "id") 200 pages) (executePages (bytes "id") pages) := by
  intro pages
  have hshown : (previewPages (bytes "id") 200 pages).inserts.map
      (fun entry => (entry.pk, entry.row)) =
        [(bytes "1", keyRow (bytes " 1")), (bytes "1", keyRow (bytes "1"))] := by
    decide
  have hkept : (executePages (bytes "id") pages).inserts [bytes "1"] = [keyRow (bytes "1")] := by
    decide
  refine ⟨by decide, hkept, fun hselects => ?_⟩
  have hfirst : (bytes "1", keyRow (bytes " 1")) ∈ (previewPages (bytes "id") 200 pages).inserts.map
      fun entry => (entry.pk, entry.row) := by
    rw [hshown]
    exact mem_cons_self
  obtain ⟨entry, hentry, heq⟩ := mem_map.mp hfirst
  obtain ⟨hpk, hrow⟩ := Prod.mk.inj heq
  have hselected := hselects.inserts entry hentry
  rw [hpk, hrow, hkept] at hselected
  exact absurd hselected (by decide)

end GoNavi.Sync
