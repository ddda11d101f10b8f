import GoNavi.Resultdiff.Conserve

/-! # The rows that a comparison aligns

A comparison as one request, and its report in closed form.  Two rows are aligned when each is the
first of its side under one key.

**The report is what the loops say row by row** (`visitRows_rows`), **the pairs it shows are the
aligned ones** (`exists_pair`, `exists_row`), and **a pair is counted as changed or the same by its
changed fields** (`visitRows_same`, `visitRows_changed`). -/

namespace GoNavi.Resultdiff

open Scan List Option

section engine

variable {ν : Type}

/-! ### Requests -/

/-- What a comparison is given. -/
structure Request (ν : Type) where
  leftRows : List (Row ν)
  leftCols : List Text := []
  rightRows : List (Row ν)
  rightCols : List Text := []
  keyColumns : List Text
  compareColumns : List Text := []
  ignoreColumns : List Text := []
  opts : CompareOptions
  includeSameRows : Bool := false

variable {summary : Summary}

namespace Request

variable (unicode : UnicodeTables) (sprint : ν → Text) (ranging : Ranging) (request : Request ν)

def run : Except String (Summary × List (DiffRow ν)) :=
  computeDiff unicode sprint ranging request.leftRows request.leftCols request.rightRows
    request.rightCols request.keyColumns request.compareColumns request.ignoreColumns request.opts
    request.includeSameRows

def rows : Side → List (Row ν)
  | .left => request.leftRows
  | .right => request.rightRows

def cols : Side → List Text
  | .left => request.leftCols
  | .right => request.rightCols

def keys : List Text := normalizeColumnList unicode request.keyColumns

def columns (side : Side) : List (Text × Text) :=
  columnSet unicode ranging side (request.cols side) (request.rows side)

def common : List Text :=
  (splitColumns (request.columns unicode ranging .left) (request.columns unicode ranging .right)).1

def compared : List Text :=
  resolveComparedColumns unicode (request.common unicode ranging) request.compareColumns
    (toLowerSet unicode request.ignoreColumns)

/-- The indexed rows of a side, and the unmatched ones. -/
def index (side : Side) : List (Text × Row ν) × List (Row ν) :=
  indexByKeys unicode sprint ranging side (request.rows side) (request.keys unicode) request.opts

def setup : Setup ν where
  ranging := ranging
  keys := request.keys unicode
  compared := request.compared unicode ranging
  opts := request.opts
  includeSameRows := request.includeSameRows
  leftMap := (request.index unicode sprint ranging .left).1
  rightMap := (request.index unicode sprint ranging .right).1

/-- The summary before a row is visited. -/
def start : Summary where
  leftRowCount := request.leftRows.length
  rightRowCount := request.rightRows.length
  commonColumns := request.common unicode ranging
  leftOnlyColumns := (splitColumns (request.columns unicode ranging .left)
    (request.columns unicode ranging .right)).2.1
  rightOnlyColumns := (splitColumns (request.columns unicode ranging .left)
    (request.columns unicode ranging .right)).2.2
  keyColumns := request.keys unicode
  comparedColumns := request.compared unicode ranging
  includeSameRows := request.includeSameRows

/-- The report before it is sorted. -/
def report : Report ν :=
  visitRows unicode sprint (request.setup unicode sprint ranging)
    (request.start unicode ranging) (request.index unicode sprint ranging .left).2
    (request.index unicode sprint ranging .right).2

theorem run_eq (h : request.keys unicode ≠ []) :
    request.run unicode sprint ranging =
      .ok ((request.report unicode sprint ranging).summary,
        sortReport unicode sprint (request.keys unicode) request.opts
          (request.report unicode sprint ranging).rows) := by
  unfold run computeDiff
  unfold keys at h
  rw [if_neg h]
  rfl

/-- A comparison that succeeds has key columns, and this outcome. -/
theorem of_run_ok {rows : List (DiffRow ν)}
    (h : request.run unicode sprint ranging = .ok (summary, rows)) :
    request.keys unicode ≠ [] ∧ summary = (request.report unicode sprint ranging).summary ∧
      rows = sortReport unicode sprint (request.keys unicode) request.opts
        (request.report unicode sprint ranging).rows := by
  by_cases hkeys : request.keys unicode = []
  · unfold run computeDiff at h
    unfold keys at hkeys
    rw [if_pos hkeys] at h
    cases h
  · rw [run_eq unicode sprint ranging request hkeys] at h
    cases h
    exact ⟨hkeys, rfl, rfl⟩

/-! ### The rows of a key -/

/-- The text of the key of a row, as the index builds it. -/
def keyAt (side : Side) (entry : Row ν × ℕ) : Option Text :=
  buildKey unicode sprint (fun col => ranging.range (.indexing side entry.2 col)) entry.1
    (request.keys unicode) request.opts

/-- The first row of a side under a key. -/
def firstAt (side : Side) (key : Text) : Option (Row ν × ℕ) :=
  (request.rows side).zipIdx.find? fun e =>
    request.keyAt unicode sprint ranging side e = some key

end Request

theorem get_indexRow (unicode : UnicodeTables) (sprint : ν → Text) (ranging : Ranging)
    (side : Side) (keyColumns : List Text) (opts : CompareOptions)
    (state : List (Text × Row ν) × List (Row ν)) (entry : Row ν × ℕ) (key : Text) :
    get (indexRow unicode sprint ranging side keyColumns opts state entry).1 key =
      (get state.1 key).or
        (if buildKey unicode sprint (fun col => ranging.range (.indexing side entry.2 col)) entry.1
          keyColumns opts = some key then some entry.1 else none) := by
  unfold indexRow
  dsimp only
  cases hkey : buildKey unicode sprint
    (fun col => ranging.range (.indexing side entry.2 col)) entry.1 keyColumns opts with
  | none => simp
  | some key' =>
    dsimp only
    split
    · rename_i htaken
      by_cases heq : key' = key
      · subst heq
        obtain ⟨row, hrow⟩ := isSome_iff_exists.mp htaken
        simp [hrow]
      · have hne : ¬ some key' = some key := fun h => heq (some.inj h)
        rw [if_neg hne, or_none]
    · rename_i hfree
      rw [get_put]
      by_cases heq : key = key'
      · subst heq
        rw [if_pos rfl, if_pos rfl, not_isSome_iff_eq_none.mp hfree, none_or]
      · have hne : ¬ some key' = some key := fun h => heq (some.inj h).symm
        rw [if_neg heq, if_neg hne, or_none]

/-- **The index holds the first row of each key.** -/
theorem Request.get_index (unicode : UnicodeTables) (sprint : ν → Text) (ranging : Ranging)
    (request : Request ν) (side : Side) (key : Text) :
    get (request.index unicode sprint ranging side).1 key =
      (request.firstAt unicode sprint ranging side key).map Prod.fst := by
  have hfold : ∀ (entries : List (Row ν × ℕ)) (state : List (Text × Row ν) × List (Row ν)),
      get (entries.foldl (indexRow unicode sprint ranging side (request.keys unicode)
        request.opts) state).1 key =
      (get state.1 key).or ((entries.find? fun e =>
        request.keyAt unicode sprint ranging side e = some key).map Prod.fst) := by
    intro entries
    induction entries with
    | nil => simp
    | cons e entries ih =>
      intro state
      rw [foldl_cons, ih, get_indexRow, find?_cons, Option.or_assoc]
      congr 1
      by_cases h : request.keyAt unicode sprint ranging side e = some key
      · have hkey := h
        unfold Request.keyAt at hkey
        simp [h, hkey]
      · have hkey := h
        unfold Request.keyAt at hkey
        simp [h, hkey]
  unfold Request.index indexByKeys Request.firstAt
  rw [hfold]
  rfl

/-! ### The report in closed form -/

section loops

variable (unicode : UnicodeTables) (sprint : ν → Text) (setup : Setup ν)

/-- The changed fields of two rows with one key. -/
def Setup.changes (key : Text) (left right : Row ν) : List (FieldChange ν) :=
  diffFields unicode sprint (fun col => setup.ranging.range (.comparing .left key col))
    (fun col => setup.ranging.range (.comparing .right key col)) left right setup.compared
    setup.opts

/-- The indexed rows of a side, in the order in which they are visited. -/
def Setup.lefts : List (Text × Row ν) := setup.ranging.range (.indexed .left) setup.leftMap

def Setup.rights : List (Text × Row ν) := setup.ranging.range (.indexed .right) setup.rightMap

/-- The pairs of aligned rows, under their keys. -/
def Setup.pairs : List (Text × Row ν × Row ν) :=
  setup.lefts.filterMap fun e => (get setup.rightMap e.1).map fun right => (e.1, e.2, right)

def Setup.isSame (pair : Text × Row ν × Row ν) : Bool :=
  (setup.changes unicode sprint pair.1 pair.2.1 pair.2.2).isEmpty

def Setup.removedRow (entry : Text × Row ν) : DiffRow ν where
  kind := .removed
  keys := setup.pick unicode (.reporting .left entry.1) entry.2
  left := some entry.2

def Setup.addedRow (entry : Text × Row ν) : DiffRow ν where
  kind := .added
  keys := setup.pick unicode (.reporting .right entry.1) entry.2
  right := some entry.2

/-- The row of the report for a pair of aligned rows, if it is shown. -/
def Setup.pairRow (pair : Text × Row ν × Row ν) : Option (DiffRow ν) :=
  let (key, left, right) := pair
  let keys := setup.pick unicode (.reporting .left key) left
  let changes := setup.changes unicode sprint key left right
  if changes = [] then
    if setup.includeSameRows then
      some { kind := .same, keys, left := some left, right := some right }
    else none
  else some {
    kind := .changed, keys, left := some left, right := some right, changedFields := changes }

/-- The row of the report for an indexed row of the left side. -/
def Setup.leftRow (entry : Text × Row ν) : Option (DiffRow ν) :=
  match get setup.rightMap entry.1 with
  | none => some (setup.removedRow unicode entry)
  | some right => setup.pairRow unicode sprint (entry.1, entry.2, right)

/-- The row of the report for an indexed row of the right side. -/
def Setup.rightRow (entry : Text × Row ν) : Option (DiffRow ν) :=
  if entry.1 ∈ setup.lefts.map Prod.fst then none else some (setup.addedRow unicode entry)

def Setup.unmatchedRow (side : Side) (entry : Row ν × ℕ) : DiffRow ν :=
  let keys := setup.pick unicode (.unmatched side entry.2) entry.1
  match side with
  | .left => { kind := .unmatched, keys, left := some entry.1, side := some .left }
  | .right => { kind := .unmatched, keys, right := some entry.1, side := some .right }

theorem visitLeft_rows (report : Report ν) (entry : Text × Row ν) :
    (visitLeft unicode sprint setup report entry).rows =
      report.rows ++ (setup.leftRow unicode sprint entry).toList := by
  unfold visitLeft Setup.leftRow Setup.pairRow Setup.changes
  dsimp only
  cases get setup.rightMap entry.1 with
  | none => rfl
  | some right =>
    dsimp only
    split
    · split
      · rfl
      · exact (append_nil _).symm
    · rfl

variable {α : Type}

theorem foldl_rows {visit : Report ν → α → Report ν} {row : α → List (DiffRow ν)}
    (h : ∀ report a, (visit report a).rows = report.rows ++ row a) :
    ∀ (as : List α) (report : Report ν),
      (as.foldl visit report).rows = report.rows ++ as.flatMap row
  | [], report => (append_nil _).symm
  | a :: as, report => by
    rw [foldl_cons, foldl_rows h as, h, flatMap_cons, append_assoc]

theorem foldl_count {visit : Report ν → α → Report ν} {p : α → Bool} (count : Report ν → ℕ)
    (h : ∀ report a, count (visit report a) = count report + if p a then 1 else 0) :
    ∀ (as : List α) (report : Report ν),
      count (as.foldl visit report) = count report + as.countP p
  | [], report => (Nat.add_zero _).symm
  | a :: as, report => by
    rw [foldl_cons, foldl_count count h as, h, countP_cons]
    omega

variable {β : Type}

theorem flatMap_toList (f : α → Option β) (as : List α) :
    as.flatMap (fun a => (f a).toList) = as.filterMap f :=
  (filterMap_eq_flatMap_toList f as).symm

theorem visitRight_rows (report : Report ν) (entry : Text × Row ν) :
    (visitRight unicode setup (setup.lefts.map Prod.fst) report entry).rows =
      report.rows ++ (setup.rightRow unicode entry).toList := by
  unfold visitRight Setup.rightRow
  dsimp only
  by_cases hseen : entry.1 ∈ setup.lefts.map Prod.fst
  · rw [if_pos hseen, if_pos hseen]
    exact (append_nil _).symm
  · rw [if_neg hseen, if_neg hseen]
    rfl

theorem visitUnmatched_rows (side : Side) (report : Report ν) (entry : Row ν × ℕ) :
    (visitUnmatched unicode setup side report entry).rows =
      report.rows ++ [setup.unmatchedRow unicode side entry] := by
  unfold visitUnmatched Setup.unmatchedRow
  cases side with
  | left => rfl
  | right => rfl

/-- **The report, row by row**: the rows of the left side, those only the right side has, and the
unmatched ones. -/
theorem visitRows_rows (summary : Summary) (leftUnmatched rightUnmatched : List (Row ν)) :
    (visitRows unicode sprint setup summary leftUnmatched rightUnmatched).rows =
      setup.lefts.filterMap (setup.leftRow unicode sprint) ++
        setup.rights.filterMap (setup.rightRow unicode) ++
        leftUnmatched.zipIdx.map (setup.unmatchedRow unicode .left) ++
        rightUnmatched.zipIdx.map (setup.unmatchedRow unicode .right) := by
  unfold visitRows
  rw [foldl_rows (visitUnmatched_rows unicode setup .right),
    foldl_rows (visitUnmatched_rows unicode setup .left)]
  have hright := foldl_rows (visitRight_rows unicode setup) setup.rights
  unfold Setup.rights Setup.lefts at hright
  rw [hright, foldl_rows (visitLeft_rows unicode sprint setup)]
  simp only [flatMap_toList, ← map_eq_flatMap, nil_append]
  rfl

/-! ### The report by kinds -/

/-- The indexed rows of a side whose key the other side does not have. -/
def Setup.leftOnly : List (Text × Row ν) :=
  setup.lefts.filter fun e => (get setup.rightMap e.1).isNone

def Setup.rightOnly : List (Text × Row ν) :=
  setup.rights.filter fun e => (get setup.leftMap e.1).isNone

theorem filterMap_partner {γ δ : Type} {f : α → Option δ} (partner : α → Option β)
    (pair : α → β → γ) {alone : α → δ} {both : γ → Option δ}
    (halone : ∀ a, partner a = none → f a = some (alone a))
    (hboth : ∀ a b, partner a = some b → f a = both (pair a b)) : ∀ as : List α,
    (as.filterMap f).Perm
      ((as.filterMap fun a => (partner a).map (pair a)).filterMap both ++
        (as.filter fun a => (partner a).isNone).map alone)
  | [] => .refl _
  | a :: as => by
    have ih := filterMap_partner partner pair halone hboth as
    rw [filterMap_cons, filterMap_cons, filter_cons]
    cases hpartner : partner a with
    | none =>
      rw [halone a hpartner]
      exact (ih.cons _).trans perm_middle.symm
    | some b =>
      rw [hboth a b hpartner]
      dsimp only [map_some, isNone_some]
      rw [filterMap_cons]
      cases both (pair a b) with
      | none => exact ih
      | some d => exact ih.cons d

theorem filterMap_rightRow (as : List (Text × Row ν)) :
    as.filterMap (setup.rightRow unicode) =
      (as.filter fun e => (get setup.leftMap e.1).isNone).map (setup.addedRow unicode) := by
  have hkeys : ∀ key, key ∈ setup.lefts.map Prod.fst ↔ (get setup.leftMap key).isSome = true := by
    intro key
    rw [get_isSome]
    exact ((setup.ranging.perm (.indexed .left) setup.leftMap).map Prod.fst).mem_iff
  induction as with
  | nil => rfl
  | cons e as ih =>
    rw [filterMap_cons, filter_cons, Setup.rightRow]
    cases hget : get setup.leftMap e.1 with
    | none =>
      rw [if_neg (by simp [hkeys, hget]), ih]
      rfl
    | some left =>
      rw [if_pos (by simp [hkeys, hget]), ih]
      rfl

/-- **The rows of the report**: those of the pairs, of the rows that only one side has, and the
unmatched ones. -/
theorem visitRows_perm (summary : Summary) (leftUnmatched rightUnmatched : List (Row ν)) :
    (visitRows unicode sprint setup summary leftUnmatched rightUnmatched).rows.Perm
      (setup.pairs.filterMap (setup.pairRow unicode sprint) ++
        setup.leftOnly.map (setup.removedRow unicode) ++
        setup.rightOnly.map (setup.addedRow unicode) ++
        leftUnmatched.zipIdx.map (setup.unmatchedRow unicode .left) ++
        rightUnmatched.zipIdx.map (setup.unmatchedRow unicode .right)) := by
  rw [visitRows_rows, filterMap_rightRow]
  refine List.Perm.append_right _ (List.Perm.append_right _ (List.Perm.append_right _ ?_))
  refine filterMap_partner (fun e => get setup.rightMap e.1) (fun e right => (e.1, e.2, right))
    ?_ ?_ setup.lefts
  · intro e hnone
    unfold Setup.leftRow
    rw [hnone]
  · intro e right hsome
    unfold Setup.leftRow
    rw [hsome]

/-! ### Aligned rows -/

variable {key : Text}

theorem mem_iff_get {m : List (Text × β)} (hnodup : (m.map Prod.fst).Nodup) {value : β} :
    (key, value) ∈ m ↔ get m key = some value := by
  constructor
  · intro hmem
    obtain ⟨v, hv⟩ := isSome_iff_exists.mp
      (get_isSome.mpr (mem_map_of_mem (f := Prod.fst) hmem))
    have hpair := inj_on_of_nodup_map hnodup hmem (mem_of_get hv) rfl
    rw [hv, (Prod.mk.inj hpair).2]
  · exact mem_of_get

theorem mem_pairs (hnodup : (setup.leftMap.map Prod.fst).Nodup) {left right : Row ν} :
    (key, left, right) ∈ setup.pairs ↔
      get setup.leftMap key = some left ∧ get setup.rightMap key = some right := by
  have hmem : (key, left) ∈ setup.lefts ↔ get setup.leftMap key = some left :=
    (setup.ranging.perm (.indexed .left) setup.leftMap).mem_iff.trans (mem_iff_get hnodup)
  unfold Setup.pairs
  rw [mem_filterMap, ← hmem]
  constructor
  · rintro ⟨e, he, h⟩
    obtain ⟨right', hright, h⟩ := map_eq_some_iff.mp h
    cases h
    exact ⟨he, hright⟩
  · rintro ⟨hleft, hright⟩
    exact ⟨(key, left), hleft, by rw [hright]; rfl⟩

theorem pairRow_sides {pair : Text × Row ν × Row ν} {row : DiffRow ν}
    (h : setup.pairRow unicode sprint pair = some row) :
    row.left = some pair.2.1 ∧ row.right = some pair.2.2 := by
  unfold Setup.pairRow at h
  dsimp only at h
  split at h
  · split at h
    · cases h
      exact ⟨rfl, rfl⟩
    · cases h
  · cases h
    exact ⟨rfl, rfl⟩

/-- A row of the report with both sides shows a pair of aligned rows. -/
theorem exists_pair {leftUnmatched rightUnmatched : List (Row ν)} {row : DiffRow ν}
    {left right : Row ν}
    (h : row ∈ (visitRows unicode sprint setup summary leftUnmatched rightUnmatched).rows)
    (hleft : row.left = some left) (hright : row.right = some right) :
    ∃ key, (key, left, right) ∈ setup.pairs := by
  rw [(visitRows_perm unicode sprint setup summary leftUnmatched rightUnmatched).mem_iff] at h
  simp only [mem_append] at h
  obtain (((h | h) | h) | h) | h := h
  · obtain ⟨⟨key, left', right'⟩, hpair, hrow⟩ := mem_filterMap.mp h
    obtain ⟨hleft', hright'⟩ := pairRow_sides unicode sprint setup hrow
    cases hleft.symm.trans hleft'
    cases hright.symm.trans hright'
    exact ⟨key, hpair⟩
  · obtain ⟨e, -, rfl⟩ := mem_map.mp h
    cases hright
  · obtain ⟨e, -, rfl⟩ := mem_map.mp h
    cases hleft
  · obtain ⟨e, -, rfl⟩ := mem_map.mp h
    cases hright
  · obtain ⟨e, -, rfl⟩ := mem_map.mp h
    cases hleft

/-- A pair of aligned rows is shown, or its rows are the same and such pairs are not. -/
theorem exists_row {leftUnmatched rightUnmatched : List (Row ν)} {left right : Row ν}
    (h : (key, left, right) ∈ setup.pairs) :
    (setup.includeSameRows = false ∧ setup.isSame unicode sprint (key, left, right) = true) ∨
      ∃ row ∈ (visitRows unicode sprint setup summary leftUnmatched rightUnmatched).rows,
        row.left = some left ∧ row.right = some right := by
  have hshown : ∀ row, setup.pairRow unicode sprint (key, left, right) = some row →
      ∃ row ∈ (visitRows unicode sprint setup summary leftUnmatched rightUnmatched).rows,
        row.left = some left ∧ row.right = some right := by
    intro row hrow
    refine ⟨row, ?_, pairRow_sides unicode sprint setup hrow⟩
    rw [(visitRows_perm unicode sprint setup summary leftUnmatched rightUnmatched).mem_iff]
    simp only [mem_append]
    exact .inl (.inl (.inl (.inl (mem_filterMap.mpr ⟨_, h, hrow⟩))))
  unfold Setup.pairRow at hshown
  dsimp only at hshown
  by_cases hsame : setup.changes unicode sprint key left right = []
  · rw [if_pos hsame] at hshown
    cases hinclude : setup.includeSameRows with
    | false => exact .inl ⟨rfl, by simp [Setup.isSame, hsame]⟩
    | true =>
      rw [hinclude, if_pos rfl] at hshown
      exact .inr (hshown _ rfl)
  · rw [if_neg hsame] at hshown
    exact .inr (hshown _ rfl)

/-! ### The counts -/

theorem visitLeft_counts (report : Report ν) (entry : Text × Row ν) :
    let pair := (get setup.rightMap entry.1).map fun right => (entry.1, entry.2, right)
    let visited := (visitLeft unicode sprint setup report entry).summary
    (visited.same = report.summary.same +
        if (pair.map (setup.isSame unicode sprint)).getD false then 1 else 0) ∧
      visited.changed = report.summary.changed +
        if (pair.map fun pair => !setup.isSame unicode sprint pair).getD false then 1 else 0 := by
  unfold visitLeft Setup.isSame Setup.changes
  dsimp only
  cases get setup.rightMap entry.1 with
  | none => exact ⟨rfl, rfl⟩
  | some right =>
    dsimp only [map_some, getD_some]
    split
    · rename_i hsame
      simp [hsame]
    · rename_i hchanged
      simp [hchanged]

theorem foldl_kept {visit : Report ν → α → Report ν} (value : Report ν → β)
    (h : ∀ report a, value (visit report a) = value report) :
    ∀ (as : List α) (report : Report ν), value (as.foldl visit report) = value report
  | [], _ => rfl
  | a :: as, report => by rw [foldl_cons, foldl_kept value h as, h]

/-- What is not counted on one side only is counted of the pairs. -/
theorem visitRows_count {count : Summary → ℕ} {p : Text × Row ν × Row ν → Bool}
    (hcount : ∀ {s s' : Summary}, s'.same = s.same → s'.changed = s.changed → count s' = count s)
    (hleft : ∀ report entry, count (visitLeft unicode sprint setup report entry).summary =
      count report.summary + if (((get setup.rightMap entry.1).map fun right =>
        (entry.1, entry.2, right)).map p).getD false then 1 else 0)
    (summary : Summary) (leftUnmatched rightUnmatched : List (Row ν)) :
    count (visitRows unicode sprint setup summary leftUnmatched rightUnmatched).summary =
      count summary + setup.pairs.countP p := by
  have hunmatched : ∀ side (report : Report ν) entry,
      count (visitUnmatched unicode setup side report entry).summary = count report.summary :=
    fun _ _ _ => hcount rfl rfl
  have hright : ∀ seen (report : Report ν) entry,
      count (visitRight unicode setup seen report entry).summary = count report.summary := by
    intro seen report entry
    unfold visitRight
    dsimp only
    split <;> exact hcount rfl rfl
  unfold visitRows Setup.pairs
  rw [foldl_kept (fun report => count report.summary) (hunmatched .right),
    foldl_kept (fun report => count report.summary) (hunmatched .left),
    foldl_kept (fun report => count report.summary) (hright _),
    foldl_count (fun report => count report.summary) hleft, countP_filterMap]
  rfl

/-- **The pairs without a changed field are counted as the same.** -/
theorem visitRows_same (summary : Summary) (leftUnmatched rightUnmatched : List (Row ν)) :
    (visitRows unicode sprint setup summary leftUnmatched rightUnmatched).summary.same =
      summary.same + setup.pairs.countP (setup.isSame unicode sprint) :=
  visitRows_count unicode sprint setup (fun hsame _ => hsame)
    (fun report entry => (visitLeft_counts unicode sprint setup report entry).1) ..

/-- **The pairs with a changed field are counted as changed.** -/
theorem visitRows_changed (summary : Summary) (leftUnmatched rightUnmatched : List (Row ν)) :
    (visitRows unicode sprint setup summary leftUnmatched rightUnmatched).summary.changed =
      summary.changed + setup.pairs.countP fun pair => !setup.isSame unicode sprint pair :=
  visitRows_count unicode sprint setup (fun _ hchanged => hchanged)
    (fun report entry => (visitLeft_counts unicode sprint setup report entry).2) ..

end loops

end engine

end GoNavi.Resultdiff
