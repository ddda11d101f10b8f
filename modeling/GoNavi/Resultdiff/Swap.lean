import GoNavi.Resultdiff.Unordered
import GoNavi.Resultdiff.Page

/-! # A comparison with its sides swapped

Where the columns have no case variants, no loop over a map decides what a comparison finds, and
either side can be indexed first.

**Swapping the sides swaps the report** (`swap_report`): rows that were added are removed, the old
values are the new ones, and every count is carried over. -/

namespace GoNavi.Resultdiff

open Scan List

section engine

variable {ν : Type} {unicode : UnicodeTables} {sprint : ν → Text}

/-! ### The order of the report -/

variable {keyColumns : List Text} {opts : CompareOptions}

theorem reportLess_eq_false {a b : DiffRow ν} :
    reportLess unicode sprint keyColumns opts b a = false ↔
      kindOrder a.kind < kindOrder b.kind ∨
        kindOrder a.kind = kindOrder b.kind ∧
          formatKeyMap unicode sprint a.keys keyColumns opts ≤
            formatKeyMap unicode sprint b.keys keyColumns opts := by
  unfold reportLess
  by_cases hkind : kindOrder b.kind = kindOrder a.kind
  · rw [if_neg (by simp [hkind]), decide_eq_false_iff_not, List.not_lt, hkind]
    simp
  · rw [if_pos hkind, decide_eq_false_iff_not]
    constructor
    · intro hle
      exact .inl (by omega)
    · intro hle
      omega

variable (unicode sprint) in
/-- **A report is in the order of its kinds and keys.** -/
theorem sortReport_pairwise (keyColumns : List Text) (opts : CompareOptions)
    (rows : List (DiffRow ν)) :
    (sortReport unicode sprint keyColumns opts rows).Pairwise fun a b =>
      reportLess unicode sprint keyColumns opts b a = false := by
  have : Std.Total fun a b : DiffRow ν =>
      reportLess unicode sprint keyColumns opts b a = false := by
    constructor
    intro a b
    rw [reportLess_eq_false, reportLess_eq_false]
    have htexts := List.le_total (formatKeyMap unicode sprint a.keys keyColumns opts)
      (formatKeyMap unicode sprint b.keys keyColumns opts)
    rcases Nat.lt_trichotomy (kindOrder a.kind) (kindOrder b.kind) with hlt | heq | hgt
    · exact .inl (.inl hlt)
    · cases htexts with
      | inl hle => exact .inl (.inr ⟨heq, hle⟩)
      | inr hle => exact .inr (.inr ⟨heq.symm, hle⟩)
    · exact .inr (.inl hgt)
  have : IsTrans (DiffRow ν) fun a b =>
      reportLess unicode sprint keyColumns opts b a = false := by
    constructor
    intro a b c hab hbc
    rw [reportLess_eq_false] at hab hbc ⊢
    obtain hab | ⟨hab, htext⟩ := hab
    · exact .inl (by omega)
    · obtain hbc | ⟨hbc, htext'⟩ := hbc
      · exact .inl (by omega)
      · exact .inr ⟨hab.trans hbc, List.le_trans htext htext'⟩
  exact List.pairwise_insertionSort _ rows

variable (unicode sprint) in
theorem sortReport_kind (keyColumns : List Text) (opts : CompareOptions)
    (rows : List (DiffRow ν)) (kind : DiffKind) :
    ((sortReport unicode sprint keyColumns opts rows).filter (ofKind kind)).Pairwise fun a b =>
      formatKeyMap unicode sprint a.keys keyColumns opts ≤
        formatKeyMap unicode sprint b.keys keyColumns opts := by
  have hsorted := (sortReport_pairwise unicode sprint keyColumns opts rows).filter (ofKind kind)
  refine hsorted.imp_of_mem ?_
  intro a b ha hb hle
  have hkinds : a.kind = b.kind :=
    (of_decide_eq_true (mem_filter.mp ha).2).trans
      (of_decide_eq_true (mem_filter.mp hb).2).symm
  obtain hlt | ⟨-, hle⟩ := reportLess_eq_false.mp hle
  · rw [hkinds] at hlt
    exact absurd hlt (Nat.lt_irrefl _)
  · exact hle

/-! ### The texts of keys -/

theorem eq_map_of_mapM {α β : Type} {f : α → Option β} {g : α → β}
    (hfg : ∀ a b, f a = some b → g a = b) : ∀ {as : List α} {bs : List β},
    as.mapM f = some bs → bs = as.map g
  | [], bs, h => by
    cases h
    rfl
  | a :: as, bs, h => by
    rw [mapM_cons] at h
    obtain ⟨b, hb, h⟩ := Option.bind_eq_some_iff.mp h
    obtain ⟨bs', hbs', h⟩ := Option.bind_eq_some_iff.mp h
    cases h
    rw [map_cons, hfg a b hb, ← eq_map_of_mapM hfg hbs']

theorem get_foldl_put {β : Type} (value : Text → β) : ∀ (cols : List Text) (m : List (Text × β)),
    cols.Nodup → ∀ col ∈ cols,
    get (cols.foldl (fun out col => put out col (value col)) m) col = some (value col)
  | [], _, _, _, h => by cases h
  | c :: cols, m, hnodup, col, hcol => by
    rw [nodup_cons] at hnodup
    have hkept : ∀ (cols : List Text) (m : List (Text × β)), c ∉ cols →
        get (cols.foldl (fun out col => put out col (value col)) m) c = get m c := by
      intro cols
      induction cols with
      | nil => exact fun _ _ => rfl
      | cons d cols ih =>
        intro m hc
        rw [mem_cons, not_or] at hc
        rw [foldl_cons, ih _ hc.2, get_put, if_neg hc.1]
    rw [foldl_cons]
    by_cases heq : col = c
    · subst heq
      rw [hkept cols _ hnodup.1, get_put, if_pos rfl]
    · exact get_foldl_put value cols _ hnodup.2 col ((mem_cons.mp hcol).resolve_left heq)

/-- **The keys that a row shows have the text under which it is indexed.** -/
theorem formatKeyMap_pickKeys {range : Text → Row ν → Row ν} {row : Row ν} {key : Text}
    (hnodup : keyColumns.Nodup) (h : buildKey unicode sprint range row keyColumns opts = some key) :
    formatKeyMap unicode sprint (pickKeys unicode range row keyColumns) keyColumns opts = key := by
  rw [buildKey_eq] at h
  obtain ⟨parts, hparts, rfl⟩ := Option.map_eq_some_iff.mp h
  unfold formatKeyMap
  congr 1
  unfold keyParts at hparts
  rw [eq_map_of_mapM (g := fun col => normalizeValue unicode sprint
    ((lookupValue unicode (range col row) col).getD none) opts) ?_ hparts]
  · refine map_congr_left fun col hcol => ?_
    have hget := get_foldl_put (fun col => (lookupValue unicode (range col row) col).getD none)
      keyColumns [] hnodup col hcol
    unfold pickKeys lookupValue
    unfold lookupValue at hget
    rw [hget]
    rfl
  · intro col part hpart
    split at hpart
    · rename_i hnone
      rw [hnone]
      split at hpart
      · cases hpart
        rfl
      · cases hpart
    · rename_i hnone
      rw [hnone]
      split at hpart
      · cases hpart
        rfl
      · cases hpart
    · rename_i value _ hvalue
      rw [hvalue]
      exact Option.some.inj hpart

/-- The text of the keys that a row of the report shows. -/
def Setup.textOf (unicode : UnicodeTables) (sprint : ν → Text) (setup : Setup ν)
    (row : DiffRow ν) : Text :=
  formatKeyMap unicode sprint row.keys setup.keys setup.opts

/-- Every row is indexed under the text of its key, whatever the loop over it does. -/
structure Keyed (unicode : UnicodeTables) (sprint : ν → Text) (setup : Setup ν) : Prop where
  keys : setup.keys.Nodup
  leftNodup : (setup.leftMap.map Prod.fst).Nodup
  rightNodup : (setup.rightMap.map Prod.fst).Nodup
  distinct : ∀ e ∈ setup.leftMap ++ setup.rightMap, Distinct unicode e.2
  keyed : ∀ e ∈ setup.leftMap ++ setup.rightMap,
    buildKey unicode sprint (fun _ => id) e.2 setup.keys setup.opts = some e.1

variable {e : Text × Row ν} {pair : Text × Row ν × Row ν} {row : DiffRow ν}

namespace Keyed

variable {setup : Setup ν} (h : Keyed unicode sprint setup)

include h

theorem textOf_pick (he : e ∈ setup.leftMap ++ setup.rightMap) {site : Text → Site}
    (hrow : row.keys = setup.pick unicode site e.2) :
    setup.textOf unicode sprint row = e.1 := by
  unfold Setup.textOf
  rw [hrow]
  unfold Setup.pick
  rw [pickKeys_range (h.distinct e he) fun col => setup.ranging.perm _ _]
  exact formatKeyMap_pickKeys h.keys (h.keyed e he)

omit h in
theorem mem_of_lefts (he : e ∈ setup.lefts) :
    e ∈ setup.leftMap ++ setup.rightMap :=
  mem_append_left _ ((setup.ranging.perm (.indexed .left) setup.leftMap).subset he)

omit h in
theorem mem_of_rights (he : e ∈ setup.rights) :
    e ∈ setup.leftMap ++ setup.rightMap :=
  mem_append_right _ ((setup.ranging.perm (.indexed .right) setup.rightMap).subset he)

omit h in
theorem pairRow_keys (hrow : setup.pairRow unicode sprint pair = some row) :
    row.keys = setup.pick unicode (.reporting .left pair.1) pair.2.1 := by
  unfold Setup.pairRow at hrow
  dsimp only at hrow
  split at hrow
  · split at hrow
    · cases hrow
      rfl
    · cases hrow
  · cases hrow
    rfl

theorem textOf_pairRow (hpair : pair ∈ setup.pairs)
    (hrow : setup.pairRow unicode sprint pair = some row) :
    setup.textOf unicode sprint row = pair.1 := by
  obtain ⟨key, left, right⟩ := pair
  have hleft := ((mem_pairs setup h.leftNodup).mp hpair).1
  exact h.textOf_pick (e := (key, left)) (mem_append_left _ (mem_of_get hleft))
    (pairRow_keys hrow)

end Keyed

/-- The rows of the report that are not unmatched. -/
def Setup.matchedRows (unicode : UnicodeTables) (sprint : ν → Text) (setup : Setup ν) :
    List (DiffRow ν) :=
  setup.pairs.filterMap (setup.pairRow unicode sprint) ++
    setup.leftOnly.map (setup.removedRow unicode) ++ setup.rightOnly.map (setup.addedRow unicode)

theorem map_filterMap_sublist {α β γ : Type} {f : α → Option β} {g : β → γ} {k : α → γ} :
    ∀ {as : List α}, (∀ a ∈ as, ∀ b, f a = some b → g b = k a) →
      ((as.filterMap f).map g).Sublist (as.map k)
  | [], _ => .refl _
  | a :: as, h => by
    have ih := map_filterMap_sublist fun a' ha' => h a' (mem_cons_of_mem a ha')
    rw [filterMap_cons]
    cases hf : f a with
    | none => exact ih.trans (sublist_cons_self _ _)
    | some b =>
      rw [map_cons, map_cons, h a mem_cons_self b hf]
      exact ih.cons_cons _

theorem nodup_pairs {setup : Setup ν} (hnodup : (setup.leftMap.map Prod.fst).Nodup) :
    (setup.pairs.map Prod.fst).Nodup := by
  have hlefts : (setup.lefts.map Prod.fst).Nodup :=
    ((setup.ranging.perm (.indexed .left) setup.leftMap).map Prod.fst).nodup_iff.mpr hnodup
  refine hlefts.sublist (map_filterMap_sublist ?_)
  intro e _ pair hpair
  obtain ⟨right, -, rfl⟩ := Option.map_eq_some_iff.mp hpair
  rfl

/-- **No two of these rows show keys of one text.** -/
theorem Keyed.nodup_texts {setup : Setup ν} (h : Keyed unicode sprint setup) :
    ((setup.matchedRows unicode sprint).map (setup.textOf unicode sprint)).Nodup := by
  have hlefts : (setup.lefts.map Prod.fst).Nodup :=
    ((setup.ranging.perm (.indexed .left) setup.leftMap).map Prod.fst).nodup_iff.mpr h.leftNodup
  have hrights : (setup.rights.map Prod.fst).Nodup :=
    ((setup.ranging.perm (.indexed .right) setup.rightMap).map Prod.fst).nodup_iff.mpr h.rightNodup
  have hpairs : ((setup.pairs.filterMap (setup.pairRow unicode sprint)).map
      (setup.textOf unicode sprint)).Sublist (setup.pairs.map Prod.fst) :=
    map_filterMap_sublist fun pair hpair row hrow => h.textOf_pairRow hpair hrow
  have hremoved : (setup.leftOnly.map (setup.removedRow unicode)).map
      (setup.textOf unicode sprint) = setup.leftOnly.map Prod.fst := by
    rw [map_map]
    exact map_congr_left fun e he =>
      h.textOf_pick (Keyed.mem_of_lefts (mem_of_mem_filter he)) rfl
  have hadded : (setup.rightOnly.map (setup.addedRow unicode)).map
      (setup.textOf unicode sprint) = setup.rightOnly.map Prod.fst := by
    rw [map_map]
    exact map_congr_left fun e he =>
      h.textOf_pick (Keyed.mem_of_rights (mem_of_mem_filter he)) rfl
  -- A key of a pair stands on both sides, the others on one of them.
  have hboth : ∀ key ∈ setup.pairs.map Prod.fst,
      (get setup.leftMap key).isSome = true ∧ (get setup.rightMap key).isSome = true := by
    intro key hkey
    obtain ⟨⟨key', left, right⟩, hpair, rfl⟩ := mem_map.mp hkey
    obtain ⟨hl, hr⟩ := (mem_pairs setup h.leftNodup).mp hpair
    exact ⟨hl ▸ rfl, hr ▸ rfl⟩
  have hleft : ∀ key ∈ setup.leftOnly.map Prod.fst, (get setup.rightMap key).isSome = false := by
    intro key hkey
    obtain ⟨e, he, rfl⟩ := mem_map.mp hkey
    simpa using (mem_filter.mp he).2
  have hright : ∀ key ∈ setup.rightOnly.map Prod.fst, (get setup.leftMap key).isSome = false ∧
      (get setup.rightMap key).isSome = true := by
    intro key hkey
    obtain ⟨e, he, rfl⟩ := mem_map.mp hkey
    refine ⟨by simpa using (mem_filter.mp he).2, get_isSome.mpr ?_⟩
    have hmem := (setup.ranging.perm (.indexed .right) setup.rightMap).subset
      (mem_of_mem_filter he)
    exact mem_map_of_mem hmem
  unfold Setup.matchedRows
  rw [map_append, map_append, hremoved, hadded]
  rw [nodup_append, nodup_append]
  refine ⟨⟨(nodup_pairs h.leftNodup).sublist hpairs,
    hlefts.sublist (filter_sublist.map _), ?_⟩, hrights.sublist (filter_sublist.map _),
    ?_⟩
  · rintro key hkey _ hkey' rfl
    have hsome := (hboth key (hpairs.subset hkey)).2
    rw [hleft key hkey'] at hsome
    cases hsome
  · rintro key hkey _ hkey' rfl
    obtain ⟨hnotleft, hinright⟩ := hright key hkey'
    cases mem_append.mp hkey with
    | inl hkey =>
      have hsome := (hboth key (hpairs.subset hkey)).1
      rw [hnotleft] at hsome
      cases hsome
    | inr hkey =>
      rw [hleft key hkey] at hinright
      cases hinright

variable {kind : DiffKind}

theorem visitRows_kind (setup : Setup ν) (start : Summary)
    (leftUnmatched rightUnmatched : List (Row ν)) (hkind : kind ≠ .unmatched) :
    ((visitRows unicode sprint setup start leftUnmatched rightUnmatched).rows.filter
      (ofKind kind)).Perm ((setup.matchedRows unicode sprint).filter (ofKind kind)) := by
  have hnone : ∀ (side : Side) (entries : List (Row ν × ℕ)),
      (entries.map (setup.unmatchedRow unicode side)).filter (ofKind kind) = [] := by
    intro side entries
    rw [filter_eq_nil_iff]
    intro row hrow
    obtain ⟨e, -, rfl⟩ := mem_map.mp hrow
    have hne : ¬ DiffKind.unmatched = kind := fun heq => hkind heq.symm
    cases side with
    | left => simp [ofKind, Setup.unmatchedRow, hne]
    | right => simp [ofKind, Setup.unmatchedRow, hne]
  refine ((visitRows_perm unicode sprint setup start leftUnmatched rightUnmatched).filter _).trans
    (.of_eq ?_)
  rw [filter_append, filter_append, hnone, hnone, append_nil, append_nil]
  rfl

theorem Keyed.nodup_kind {setup : Setup ν} (h : Keyed unicode sprint setup) (start : Summary)
    (leftUnmatched rightUnmatched : List (Row ν)) (hkind : kind ≠ .unmatched) :
    (((visitRows unicode sprint setup start leftUnmatched rightUnmatched).rows.filter
      (ofKind kind)).map (setup.textOf unicode sprint)).Nodup := by
  rw [((visitRows_kind setup start leftUnmatched rightUnmatched hkind).map _).nodup_iff]
  exact h.nodup_texts.sublist (filter_sublist.map _)

/-! ### Swapped rows -/

def Side.swap : Side → Side
  | .left => .right
  | .right => .left

def DiffKind.swap : DiffKind → DiffKind
  | .added => .removed
  | .removed => .added
  | .changed => .changed
  | .same => .same
  | .unmatched => .unmatched

def FieldChange.swap (change : FieldChange ν) : FieldChange ν :=
  { change with left := change.right, right := change.left }

/-- The row of a report with its sides swapped.  The keys of a pair are those of the row that
stands on the left. -/
def DiffRow.swap (unicode : UnicodeTables) (keyColumns : List Text) (row : DiffRow ν) :
    DiffRow ν where
  kind := row.kind.swap
  keys :=
    match row.left, row.right with
    | some _, some right => pickKeys unicode (fun _ => id) right keyColumns
    | _, _ => row.keys
  left := row.right
  right := row.left
  changedFields := row.changedFields.map FieldChange.swap
  side := row.side.map Side.swap

theorem ofKind_swap (keyColumns : List Text) (kind : DiffKind) :
    ofKind kind.swap ∘ DiffRow.swap unicode keyColumns = ofKind (ν := ν) kind := by
  funext row
  unfold ofKind DiffRow.swap
  rw [Function.comp_apply]
  cases hrow : row.kind <;> cases kind <;> rfl

theorem lists_swap (keyColumns : List Text) (name : Text) :
    lists name ∘ DiffRow.swap unicode keyColumns = lists (ν := ν) name := by
  funext row
  have hnames : (row.swap unicode keyColumns).changedFields.map FieldChange.name =
      row.changedFields.map FieldChange.name := by
    unfold DiffRow.swap
    rw [map_map]
    rfl
  have hkind : (row.swap unicode keyColumns).kind = .changed ↔ row.kind = .changed := by
    unfold DiffRow.swap
    cases hk : row.kind <;> simp [DiffKind.swap]
  unfold lists
  rw [Function.comp_apply, hnames]
  simp only [hkind]

theorem valuesEqual_comm (left right : Option ν) (opts : CompareOptions) :
    valuesEqual unicode sprint left right opts = valuesEqual unicode sprint right left opts := by
  unfold valuesEqual
  rw [Bool.and_comm]
  simp only [eq_comm (a := normalizeValue unicode sprint left opts)]

theorem diffFields_swap (rangeLeft rangeRight : Text → Row ν → Row ν) (left right : Row ν)
    (columns : List Text) (opts : CompareOptions) :
    diffFields unicode sprint rangeRight rangeLeft right left columns opts =
      (diffFields unicode sprint rangeLeft rangeRight left right columns opts).map
        FieldChange.swap := by
  unfold diffFields
  rw [map_filterMap]
  congr 1
  funext col
  dsimp only
  rw [valuesEqual_comm]
  split
  · rfl
  · rfl

/-! ### Swapped setups -/

/-- The setup with the sides exchanged, whatever the loops over its maps do. -/
structure Swapped (unicode : UnicodeTables) (sprint : ν → Text) (setup setup' : Setup ν) :
    Prop where
  keys : setup'.keys = setup.keys
  compared : setup'.compared = setup.compared
  opts : setup'.opts = setup.opts
  includeSameRows : setup'.includeSameRows = setup.includeSameRows
  left : setup'.leftMap = setup.rightMap
  right : setup'.rightMap = setup.leftMap
  keyed : Keyed unicode sprint setup

namespace Swapped

variable {setup setup' : Setup ν} (h : Swapped unicode sprint setup setup')

include h

/-- The keys that are shown do not depend on the loop over the row. -/
theorem pick_eq {row : Row ν} (hrow : Distinct unicode row) (site site' : Text → Site) :
    setup'.pick unicode site row = setup.pick unicode site' row := by
  unfold Setup.pick
  rw [pickKeys_range hrow fun col => setup'.ranging.perm _ _,
    pickKeys_range hrow fun col => setup.ranging.perm _ _, h.keys]

theorem changes_eq {left right : Row ν} (hleft : Distinct unicode left)
    (hright : Distinct unicode right) (key : Text) :
    setup'.changes unicode sprint key right left =
      (setup.changes unicode sprint key left right).map FieldChange.swap := by
  unfold Setup.changes
  rw [diffFields_range hright hleft (fun _ => setup'.ranging.perm _ _)
      (fun _ => setup'.ranging.perm _ _),
    diffFields_range hleft hright (fun _ => setup.ranging.perm _ _)
      (fun _ => setup.ranging.perm _ _), h.compared, h.opts]
  exact diffFields_swap _ _ left right _ _

def swapPair (pair : Text × Row ν × Row ν) : Text × Row ν × Row ν := (pair.1, pair.2.2, pair.2.1)

theorem distinct_of_pair {key : Text} {left right : Row ν}
    (hpair : (key, left, right) ∈ setup.pairs) :
    Distinct unicode left ∧ Distinct unicode right := by
  obtain ⟨hleft, hright⟩ := (mem_pairs setup h.keyed.leftNodup).mp hpair
  exact ⟨h.keyed.distinct _ (mem_append_left _ (mem_of_get hleft)),
    h.keyed.distinct _ (mem_append_right _ (mem_of_get hright))⟩

theorem pairs_perm : setup'.pairs.Perm (setup.pairs.map swapPair) := by
  have hleftNodup : (setup'.leftMap.map Prod.fst).Nodup := h.left ▸ h.keyed.rightNodup
  have hnodup : (setup.pairs.map swapPair).Nodup := by
    apply List.Nodup.of_map Prod.fst
    rw [map_map]
    exact nodup_pairs h.keyed.leftNodup
  rw [perm_ext_iff_of_nodup (nodup_pairs hleftNodup).of_map hnodup]
  rintro ⟨key, right, left⟩
  have hswap : (key, right, left) ∈ setup.pairs.map swapPair ↔
      (key, left, right) ∈ setup.pairs := by
    rw [mem_map]
    constructor
    · rintro ⟨⟨key', left', right'⟩, hmem, heq⟩
      cases heq
      exact hmem
    · exact fun hmem => ⟨_, hmem, rfl⟩
  rw [hswap, mem_pairs setup h.keyed.leftNodup, mem_pairs setup' hleftNodup, h.left, h.right]
  exact and_comm

theorem leftOnly_perm : setup'.leftOnly.Perm setup.rightOnly := by
  have hleft := setup'.ranging.perm (.indexed .left) setup'.leftMap
  have hright := setup.ranging.perm (.indexed .right) setup.rightMap
  unfold Setup.leftOnly Setup.rightOnly Setup.lefts Setup.rights
  rw [h.right]
  rw [h.left] at hleft ⊢
  exact (hleft.trans hright.symm).filter _

theorem rightOnly_perm : setup'.rightOnly.Perm setup.leftOnly := by
  have hleft := setup.ranging.perm (.indexed .left) setup.leftMap
  have hright := setup'.ranging.perm (.indexed .right) setup'.rightMap
  unfold Setup.leftOnly Setup.rightOnly Setup.lefts Setup.rights
  rw [h.left]
  rw [h.right] at hright ⊢
  exact (hright.trans hleft.symm).filter _

/-! ### Swapped reports -/

theorem removedRow_eq (he : e ∈ setup.rightOnly) :
    setup'.removedRow unicode e = (setup.addedRow unicode e).swap unicode setup.keys := by
  unfold Setup.removedRow
  have hrow := h.keyed.distinct e (Keyed.mem_of_rights (mem_of_mem_filter he))
  rw [h.pick_eq hrow _ (.reporting .right e.1)]
  rfl

theorem addedRow_eq (he : e ∈ setup.leftOnly) :
    setup'.addedRow unicode e = (setup.removedRow unicode e).swap unicode setup.keys := by
  unfold Setup.addedRow
  have hrow := h.keyed.distinct e (Keyed.mem_of_lefts (mem_of_mem_filter he))
  rw [h.pick_eq hrow _ (.reporting .left e.1)]
  rfl

theorem pairRow_eq (hpair : pair ∈ setup.pairs) :
    setup'.pairRow unicode sprint (swapPair pair) =
      (setup.pairRow unicode sprint pair).map (DiffRow.swap unicode setup.keys) := by
  obtain ⟨key, left, right⟩ := pair
  obtain ⟨hleft, hright⟩ := h.distinct_of_pair hpair
  have hkeys : setup'.pick unicode (.reporting .left key) right =
      pickKeys unicode (fun _ => id) right setup.keys := by
    unfold Setup.pick
    rw [pickKeys_range hright fun col => setup'.ranging.perm _ _, h.keys]
  unfold Setup.pairRow swapPair
  dsimp only
  rw [h.changes_eq hleft hright, hkeys, h.includeSameRows]
  by_cases hsame : setup.changes unicode sprint key left right = []
  · rw [if_pos hsame, if_pos (by rw [hsame]; rfl)]
    split
    · rfl
    · rfl
  · rw [if_neg hsame, if_neg (by simpa using hsame)]
    rfl

theorem unmatchedRow_eq {e : Row ν × ℕ} (he : Distinct unicode e.1) (side : Side) :
    setup'.unmatchedRow unicode side.swap e =
      (setup.unmatchedRow unicode side e).swap unicode setup.keys := by
  unfold Setup.unmatchedRow
  rw [h.pick_eq he _ (.unmatched side e.2)]
  cases side with
  | left => rfl
  | right => rfl

theorem isSame_eq (hpair : pair ∈ setup.pairs) :
    setup'.isSame unicode sprint (swapPair pair) = setup.isSame unicode sprint pair := by
  obtain ⟨key, left, right⟩ := pair
  obtain ⟨hleft, hright⟩ := h.distinct_of_pair hpair
  unfold Setup.isSame swapPair
  rw [h.changes_eq hleft hright, isEmpty_map]

/-- **The rows of the swapped report are the rows of the report, swapped.** -/
theorem rows_perm (start start' : Summary) {leftUnmatched rightUnmatched : List (Row ν)}
    (hunmatched : ∀ row ∈ leftUnmatched ++ rightUnmatched, Distinct unicode row) :
    (visitRows unicode sprint setup' start' rightUnmatched leftUnmatched).rows.Perm
      ((visitRows unicode sprint setup start leftUnmatched rightUnmatched).rows.map
        (DiffRow.swap unicode setup.keys)) := by
  have hpairs : (setup'.pairs.filterMap (setup'.pairRow unicode sprint)).Perm
      ((setup.pairs.filterMap (setup.pairRow unicode sprint)).map
        (DiffRow.swap unicode setup.keys)) := by
    refine (h.pairs_perm.filterMap _).trans ?_
    rw [filterMap_map, map_filterMap]
    exact .of_eq (filterMap_congr fun pair hpair => h.pairRow_eq hpair)
  have hremoved : (setup'.leftOnly.map (setup'.removedRow unicode)).Perm
      ((setup.rightOnly.map (setup.addedRow unicode)).map (DiffRow.swap unicode setup.keys)) := by
    refine (h.leftOnly_perm.map _).trans ?_
    rw [map_map]
    exact .of_eq (map_congr_left fun e he => h.removedRow_eq he)
  have hadded : (setup'.rightOnly.map (setup'.addedRow unicode)).Perm
      ((setup.leftOnly.map (setup.removedRow unicode)).map (DiffRow.swap unicode setup.keys)) := by
    refine (h.rightOnly_perm.map _).trans ?_
    rw [map_map]
    exact .of_eq (map_congr_left fun e he => h.addedRow_eq he)
  have hleft : rightUnmatched.zipIdx.map (setup'.unmatchedRow unicode .left) =
      (rightUnmatched.zipIdx.map (setup.unmatchedRow unicode .right)).map
        (DiffRow.swap unicode setup.keys) := by
    rw [map_map]
    refine map_congr_left fun e he => h.unmatchedRow_eq (hunmatched _ ?_) .right
    exact mem_append_right _ (fst_mem_of_mem_zipIdx he)
  have hright : leftUnmatched.zipIdx.map (setup'.unmatchedRow unicode .right) =
      (leftUnmatched.zipIdx.map (setup.unmatchedRow unicode .left)).map
        (DiffRow.swap unicode setup.keys) := by
    rw [map_map]
    refine map_congr_left fun e he => h.unmatchedRow_eq (hunmatched _ ?_) .left
    exact mem_append_left _ (fst_mem_of_mem_zipIdx he)
  refine (visitRows_perm unicode sprint setup' start' rightUnmatched leftUnmatched).trans ?_
  refine List.Perm.trans ?_ ((visitRows_perm unicode sprint setup start leftUnmatched
    rightUnmatched).map _).symm
  simp only [map_append]
  rw [hleft, hright]
  refine (List.Perm.append_right _ (List.Perm.append_right _
    ((hpairs.append hremoved).append hadded))).trans ?_
  simp only [append_assoc]
  -- The rows of the two sides change places, and so do the unmatched ones.
  refine List.Perm.append_left _ ((perm_append_comm_assoc _ _ _).trans ?_)
  exact (perm_append_comm.append_left _).append_left _

theorem keyed' : Keyed unicode sprint setup' := by
  have hmem : ∀ e, e ∈ setup'.leftMap ++ setup'.rightMap → e ∈ setup.leftMap ++ setup.rightMap := by
    intro e he
    rw [h.left, h.right] at he
    exact mem_append.mpr (mem_append.mp he).symm
  constructor
  · exact h.keys ▸ h.keyed.keys
  · exact h.left ▸ h.keyed.rightNodup
  · exact h.right ▸ h.keyed.leftNodup
  · exact fun e he => h.keyed.distinct e (hmem e he)
  · intro e he
    rw [h.keys, h.opts]
    exact h.keyed.keyed e (hmem e he)

theorem textOf_swap {start : Summary} {leftUnmatched rightUnmatched : List (Row ν)}
    (hrow : row ∈ (visitRows unicode sprint setup start leftUnmatched rightUnmatched).rows) :
    setup.textOf unicode sprint (row.swap unicode setup.keys) =
      setup.textOf unicode sprint row := by
  have hrow := (visitRows_perm unicode sprint setup start leftUnmatched rightUnmatched).subset hrow
  simp only [mem_append] at hrow
  obtain (((hrow | hrow) | hrow) | hrow) | hrow := hrow
  · obtain ⟨pair, hpair, hrow⟩ := mem_filterMap.mp hrow
    have hswapped := h.pairRow_eq hpair
    rw [hrow, Option.map_some] at hswapped
    have hpair' := h.pairs_perm.symm.subset (mem_map_of_mem (f := swapPair) hpair)
    have htext := h.keyed'.textOf_pairRow hpair' hswapped
    unfold Setup.textOf at htext ⊢
    rw [h.keys, h.opts] at htext
    rw [htext]
    exact (h.keyed.textOf_pairRow hpair hrow).symm
  · obtain ⟨e, -, rfl⟩ := mem_map.mp hrow
    rfl
  · obtain ⟨e, -, rfl⟩ := mem_map.mp hrow
    rfl
  · obtain ⟨e, -, rfl⟩ := mem_map.mp hrow
    rfl
  · obtain ⟨e, -, rfl⟩ := mem_map.mp hrow
    rfl

section sorted

variable (start start' : Summary) {leftUnmatched rightUnmatched : List (Row ν)}
  (hunmatched : ∀ row ∈ leftUnmatched ++ rightUnmatched, Distinct unicode row)

include hunmatched

/-- The rows of a kind are those of the swapped kind, swapped. -/
theorem kind_perm (kind : DiffKind) :
    ((sortReport unicode sprint setup'.keys setup'.opts
        (visitRows unicode sprint setup' start' rightUnmatched leftUnmatched).rows).filter
          (ofKind kind.swap)).Perm
      (((sortReport unicode sprint setup.keys setup.opts
        (visitRows unicode sprint setup start leftUnmatched rightUnmatched).rows).filter
          (ofKind kind)).map (DiffRow.swap unicode setup.keys)) := by
  refine ((perm_insertionSort _ _).filter _).trans ?_
  refine ((h.rows_perm start start' hunmatched).filter _).trans ?_
  rw [filter_map, ofKind_swap]
  exact (((perm_insertionSort _ _).symm).filter _).map _

/-- **A kind other than unmatched is reported in the same order.** -/
theorem kind_eq (hkind : kind ≠ .unmatched) :
    (sortReport unicode sprint setup'.keys setup'.opts
        (visitRows unicode sprint setup' start' rightUnmatched leftUnmatched).rows).filter
          (ofKind kind.swap) =
      ((sortReport unicode sprint setup.keys setup.opts
        (visitRows unicode sprint setup start leftUnmatched rightUnmatched).rows).filter
          (ofKind kind)).map (DiffRow.swap unicode setup.keys) := by
  have hkind' : kind.swap ≠ .unmatched := by
    intro heq
    apply hkind
    cases kind <;> first | rfl | cases heq
  have hsorted := sortReport_kind unicode sprint setup.keys setup.opts
    (visitRows unicode sprint setup start leftUnmatched rightUnmatched).rows kind
  have hsorted' := sortReport_kind unicode sprint setup'.keys setup'.opts
    (visitRows unicode sprint setup' start' rightUnmatched leftUnmatched).rows kind.swap
  have hperm := h.kind_perm start start' hunmatched kind
  have hvisited := (perm_insertionSort (fun a b : DiffRow ν =>
      reportLess unicode sprint setup'.keys setup'.opts b a = false)
    (visitRows unicode sprint setup' start' rightUnmatched leftUnmatched).rows).filter
      (ofKind kind.swap)
  refine hperm.eq_of_pairwise ?_ hsorted' ?_
  · intro a b ha hb hab hba
    -- The texts of the swapped report differ.
    exact inj_on_of_nodup_map
      (h.keyed'.nodup_kind start' rightUnmatched leftUnmatched hkind') (hvisited.subset ha)
      (hvisited.subset (hperm.symm.subset hb)) (List.le_antisymm hab hba)
  · rw [List.pairwise_map]
    refine hsorted.imp_of_mem ?_
    intro a b ha hb hle
    have hmem : ∀ row, row ∈ (sortReport unicode sprint setup.keys setup.opts
        (visitRows unicode sprint setup start leftUnmatched rightUnmatched).rows).filter
          (ofKind kind) →
        row ∈ (visitRows unicode sprint setup start leftUnmatched rightUnmatched).rows :=
      fun row hrow => (perm_insertionSort _ _).subset (mem_of_mem_filter hrow)
    have htexta := h.textOf_swap (hmem a ha)
    have htextb := h.textOf_swap (hmem b hb)
    unfold Setup.textOf at htexta htextb
    rw [h.keys, h.opts, htexta, htextb]
    exact hle

end sorted

end Swapped

/-! ### Whole comparisons -/

namespace Request

variable (request : Request ν)

def swap : Request ν where
  leftRows := request.rightRows
  leftCols := request.rightCols
  rightRows := request.leftRows
  rightCols := request.leftCols
  keyColumns := request.keyColumns
  compareColumns := request.compareColumns
  ignoreColumns := request.ignoreColumns
  opts := request.opts
  includeSameRows := request.includeSameRows

/-- The column names of both sides. -/
def names : List Text :=
  sideNames request.leftCols request.leftRows ++ sideNames request.rightCols request.rightRows

/-- The rows are maps, and no column has another case variant: neither as it stands nor once it
is trimmed. -/
structure Plain (unicode : UnicodeTables) (request : Request ν) : Prop where
  maps : ∀ side, ∀ row ∈ request.rows side, (row.map Prod.fst).Nodup
  names : NoCaseVariants unicode request.names
  trimmed : NoCaseVariants unicode (trimmedNames request.names)

variable {request} (h : request.Plain unicode)

include h

theorem Plain.distinct {side : Side} {row : Row ν} (hrow : row ∈ request.rows side) :
    Distinct unicode row := by
  have hmem : ∀ e ∈ row, e.1 ∈ request.names := by
    intro e he
    have hname : e.1 ∈ (request.rows side).flatMap fun row => row.map Prod.fst :=
      mem_flatMap.mpr ⟨row, hrow, mem_map_of_mem he⟩
    cases side with
    | left => exact mem_append_left _ (mem_append_right _ hname)
    | right => exact mem_append_right _ (mem_append_right _ hname)
  have hmap := h.maps side row hrow
  unfold Distinct
  rw [List.Nodup, pairwise_map] at hmap ⊢
  refine hmap.imp_of_mem ?_
  intro a b ha hb hne heq
  exact hne (h.names a.1 (hmem a ha) b.1 (hmem b hb) heq)

theorem Plain.names_of_side (side : Side) :
    NoCaseVariants unicode (trimmedNames (sideNames (request.cols side) (request.rows side))) := by
  have hsub : ∀ n ∈ trimmedNames (sideNames (request.cols side) (request.rows side)),
      n ∈ trimmedNames request.names := by
    intro n hn
    unfold Request.names
    rw [trimmedNames_append]
    cases side with
    | left => exact mem_append_left _ hn
    | right => exact mem_append_right _ hn
  exact fun n hn n' hn' => h.trimmed n (hsub n hn) n' (hsub n' hn')

theorem Plain.columns_perm (ranging ranging' : Ranging) (side : Side) :
    (request.swap.columns unicode ranging' side.swap).Perm
      (request.columns unicode ranging side) := by
  cases side with
  | left => exact columnSet_perm (h.names_of_side .left) ranging' ranging .right .left
  | right => exact columnSet_perm (h.names_of_side .right) ranging' ranging .left .right

theorem Plain.splitColumns_swap (ranging ranging' : Ranging) :
    splitColumns (request.swap.columns unicode ranging' .left)
        (request.swap.columns unicode ranging' .right) =
      ((splitColumns (request.columns unicode ranging .left)
          (request.columns unicode ranging .right)).1,
        (splitColumns (request.columns unicode ranging .left)
          (request.columns unicode ranging .right)).2.2,
        (splitColumns (request.columns unicode ranging .left)
          (request.columns unicode ranging .right)).2.1) := by
  have hspells : ∀ side, Spells unicode
      (seenNames ranging side (request.cols side) (request.rows side))
      (request.columns unicode ranging side) := fun side => columnSet_spells unicode ranging side _ _
  have hnames : ∀ side, ∀ e ∈ request.columns unicode ranging side,
      e.2 ∈ trimmedNames request.names := by
    intro side e he
    have hseen := mem_seenNames.mp ((hspells side).spelt e he)
    unfold Request.names
    rw [trimmedNames_append]
    cases side with
    | left => exact mem_append_left _ hseen
    | right => exact mem_append_right _ hseen
  apply GoNavi.Resultdiff.splitColumns_swap (h.columns_perm ranging ranging' .left)
    (h.columns_perm ranging ranging' .right)
  · exact (hspells .left).lowered.1
  · exact (hspells .right).lowered.1
  · intro e he e' he' hkey
    have hlower := (hspells .left).lowered.2 e he
    have hlower' := (hspells .right).lowered.2 e' he'
    exact Prod.ext hkey (h.trimmed e.2 (hnames .left e he) e'.2 (hnames .right e' he')
      (hlower.trans (hkey.trans hlower'.symm)))

theorem Plain.common_swap (ranging ranging' : Ranging) :
    request.swap.common unicode ranging' = request.common unicode ranging := by
  unfold Request.common
  rw [h.splitColumns_swap ranging ranging']

variable (sprint) in
theorem Plain.index_swap (ranging ranging' : Ranging) (side : Side) :
    request.swap.index unicode sprint ranging' side.swap =
      request.index unicode sprint ranging side := by
  have hrows : ∀ row ∈ request.rows side, Distinct unicode row := fun row hrow => h.distinct hrow
  cases side with
  | left => exact indexByKeys_range hrows ranging' ranging .right .left _ _
  | right => exact indexByKeys_range hrows ranging' ranging .left .right _ _

theorem Plain.keyed (ranging : Ranging) :
    Keyed unicode sprint (request.setup unicode sprint ranging) := by
  have hindex : ∀ side, ∀ e ∈ (request.index unicode sprint ranging side).1,
      Distinct unicode e.2 ∧
        buildKey unicode sprint (fun _ => id) e.2 (request.keys unicode) request.opts =
          some e.1 := by
    intro side e he
    obtain ⟨hnodup, hperm⟩ := indexByKeys_perm unicode sprint ranging side (request.keys unicode)
      request.opts (request.rows side)
    have hrow : e.2 ∈ request.rows side :=
      hperm.subset (mem_append_left _ (mem_map_of_mem he))
    have hget := (mem_iff_get hnodup).mp he
    have hfirst := request.get_index unicode sprint ranging side e.1
    unfold Request.index at hfirst
    rw [hget] at hfirst
    obtain ⟨⟨row, i⟩, hentry, heq⟩ := Option.map_eq_some_iff.mp hfirst.symm
    obtain rfl : row = e.2 := heq
    have hkey := (firstAt_spec hentry).2
    unfold Request.keyAt at hkey
    rw [buildKey_range (h.distinct hrow) fun col => ranging.perm _ _] at hkey
    exact ⟨h.distinct hrow, hkey⟩
  constructor
  · exact (normalizeColumnList_nodup request.keyColumns).of_map
  · exact (indexByKeys_perm unicode sprint ranging .left _ request.opts request.leftRows).1
  · exact (indexByKeys_perm unicode sprint ranging .right _ request.opts request.rightRows).1
  · intro e he
    cases mem_append.mp he with
    | inl he => exact (hindex .left e he).1
    | inr he => exact (hindex .right e he).1
  · intro e he
    cases mem_append.mp he with
    | inl he => exact (hindex .left e he).2
    | inr he => exact (hindex .right e he).2

variable (sprint) in
theorem Plain.swapped (ranging ranging' : Ranging) :
    Swapped unicode sprint (request.setup unicode sprint ranging)
      (request.swap.setup unicode sprint ranging') where
  keys := rfl
  compared := by
    show resolveComparedColumns unicode (request.swap.common unicode ranging') _ _ =
      resolveComparedColumns unicode (request.common unicode ranging) _ _
    rw [h.common_swap ranging ranging']
    rfl
  opts := rfl
  includeSameRows := rfl
  left := congrArg Prod.fst (h.index_swap sprint ranging ranging' .right)
  right := congrArg Prod.fst (h.index_swap sprint ranging ranging' .left)
  keyed := h.keyed ranging

end Request

theorem Swapped.same_eq {setup setup' : Setup ν} (h : Swapped unicode sprint setup setup')
    (start start' : Summary) (hstart : start'.same = start.same)
    (leftUnmatched rightUnmatched leftUnmatched' rightUnmatched' : List (Row ν)) :
    (visitRows unicode sprint setup' start' leftUnmatched' rightUnmatched').summary.same =
      (visitRows unicode sprint setup start leftUnmatched rightUnmatched).summary.same := by
  rw [visitRows_same, visitRows_same, hstart, h.pairs_perm.countP_eq, countP_map]
  congr 1
  exact countP_congr fun pair hpair => by rw [Function.comp_apply, h.isSame_eq hpair]

/-- The summary with its sides swapped. -/
def Summary.swap (summary : Summary) : Summary :=
  { summary with
    added := summary.removed
    removed := summary.added
    leftRowCount := summary.rightRowCount
    rightRowCount := summary.leftRowCount
    leftOnlyColumns := summary.rightOnlyColumns
    rightOnlyColumns := summary.leftOnlyColumns }

/-- The summary without its counts. -/
def Summary.uncounted (summary : Summary) : Summary :=
  { summary with
    added := 0, removed := 0, changed := 0, same := 0, unmatched := 0, changedColumnFreq := [] }

variable (unicode sprint) in
theorem visitRows_uncounted (setup : Setup ν) (start : Summary)
    (leftUnmatched rightUnmatched : List (Row ν)) :
    (visitRows unicode sprint setup start leftUnmatched rightUnmatched).summary.uncounted =
      start.uncounted := by
  have hleft : ∀ report e,
      (visitLeft unicode sprint setup report e).summary.uncounted = report.summary.uncounted := by
    intro report e
    unfold visitLeft
    dsimp only
    split
    · rfl
    · split
      · rfl
      · rfl
  have hright : ∀ seen report e,
      (visitRight unicode setup seen report e).summary.uncounted = report.summary.uncounted := by
    intro seen report e
    unfold visitRight
    dsimp only
    split
    · rfl
    · rfl
  have hunmatched : ∀ side report e,
      (visitUnmatched unicode setup side report e).summary.uncounted = report.summary.uncounted :=
    fun _ _ _ => rfl
  unfold visitRows
  rw [foldl_kept (fun report => report.summary.uncounted) (hunmatched .right),
    foldl_kept (fun report => report.summary.uncounted) (hunmatched .left),
    foldl_kept (fun report => report.summary.uncounted) (hright _),
    foldl_kept (fun report => report.summary.uncounted) hleft]

namespace Request

variable {request : Request ν} (h : request.Plain unicode)

include h

theorem Plain.start_swap (ranging ranging' : Ranging) :
    (request.swap.start unicode ranging').uncounted =
      (request.start unicode ranging).swap.uncounted := by
  have hcolumns := h.splitColumns_swap ranging ranging'
  have hcompared := (h.swapped (fun _ => []) ranging ranging').compared
  unfold Request.start Summary.swap Summary.uncounted
  rw [hcolumns, h.common_swap ranging ranging']
  have hcompared : request.swap.compared unicode ranging' = request.compared unicode ranging :=
    hcompared
  rw [hcompared]
  rfl

/-- **Swapping the sides swaps the report.** -/
theorem Plain.run_swap (ranging ranging' : Ranging) {summary : Summary} {rows : List (DiffRow ν)}
    (hrun : request.run unicode sprint ranging = .ok (summary, rows)) :
    ∃ summary' rows', request.swap.run unicode sprint ranging' = .ok (summary', rows') ∧
      summary'.uncounted = summary.swap.uncounted ∧
      summary'.added = summary.removed ∧ summary'.removed = summary.added ∧
      summary'.changed = summary.changed ∧ summary'.same = summary.same ∧
      summary'.unmatched = summary.unmatched ∧
      (∀ name, freqOf summary'.changedColumnFreq name = freqOf summary.changedColumnFreq name) ∧
      rows'.Perm (rows.map (DiffRow.swap unicode (request.keys unicode))) ∧
      ∀ kind, kind ≠ DiffKind.unmatched → rows'.filter (ofKind kind.swap) =
        (rows.filter (ofKind kind)).map (DiffRow.swap unicode (request.keys unicode)) := by
  obtain ⟨hkeys, hsummary, hrows⟩ := request.of_run_ok unicode sprint ranging hrun
  have hkeys' : request.swap.keys unicode ≠ [] := hkeys
  have hrun' := request.swap.run_eq unicode sprint ranging' hkeys'
  have hswapped := h.swapped sprint ranging ranging'
  -- The unmatched rows are those of the other side.
  have hindexLeft := h.index_swap sprint ranging ranging' .left
  have hindexRight := h.index_swap sprint ranging ranging' .right
  have hunmatched : ∀ row ∈ (request.index unicode sprint ranging .left).2 ++
      (request.index unicode sprint ranging .right).2, Distinct unicode row := by
    intro row hrow
    have hside : ∀ side, row ∈ (request.index unicode sprint ranging side).2 →
        Distinct unicode row := fun side hmem =>
      h.distinct ((indexByKeys_perm unicode sprint ranging side (request.keys unicode)
        request.opts (request.rows side)).2.subset (mem_append_right _ hmem))
    cases mem_append.mp hrow with
    | inl hrow => exact hside .left hrow
    | inr hrow => exact hside .right hrow
  have hreport : request.swap.report unicode sprint ranging' =
      visitRows unicode sprint (request.swap.setup unicode sprint ranging')
        (request.swap.start unicode ranging') (request.index unicode sprint ranging .right).2
        (request.index unicode sprint ranging .left).2 := by
    rw [← hindexLeft, ← hindexRight]
    rfl
  have hperm : (sortReport unicode sprint (request.swap.keys unicode) request.swap.opts
      (request.swap.report unicode sprint ranging').rows).Perm
        (rows.map (DiffRow.swap unicode (request.keys unicode))) := by
    rw [hrows, hreport]
    refine (perm_insertionSort _ _).trans ?_
    refine (hswapped.rows_perm (request.start unicode ranging) _ hunmatched).trans ?_
    exact (perm_insertionSort _ _).symm.map _
  -- The counts are those of the rows, which are swapped.
  obtain ⟨-, -, -, hremoved, hadded, hchanged, hunmatchedCount, -, hfreq⟩ :=
    computeDiff_conserves hrun
  obtain ⟨-, -, -, hremoved', hadded', hchanged', hunmatchedCount', -, hfreq'⟩ :=
    computeDiff_conserves hrun'
  have hcount : ∀ kind : DiffKind, (sortReport unicode sprint (request.swap.keys unicode)
      request.swap.opts (request.swap.report unicode sprint ranging').rows).countP
        (ofKind kind.swap) = rows.countP (ofKind kind) := by
    intro kind
    rw [hperm.countP_eq, countP_map, ofKind_swap]
  refine ⟨_, _, hrun', ?_, ?_, ?_, ?_, ?_, ?_, ?_, hperm, ?_⟩
  · rw [hsummary, hreport, visitRows_uncounted, h.start_swap ranging ranging']
    have hstart := visitRows_uncounted unicode sprint
      (request.setup unicode sprint ranging) (request.start unicode ranging)
      (request.index unicode sprint ranging .left).2 (request.index unicode sprint ranging .right).2
    exact congrArg Summary.swap hstart.symm
  · exact hadded'.trans ((hcount .removed).trans hremoved.symm)
  · exact hremoved'.trans ((hcount .added).trans hadded.symm)
  · exact hchanged'.trans ((hcount .changed).trans hchanged.symm)
  · rw [hsummary, hreport]
    exact hswapped.same_eq (request.start unicode ranging) (request.swap.start unicode ranging')
      rfl _ _ _ _
  · exact hunmatchedCount'.trans ((hcount .unmatched).trans hunmatchedCount.symm)
  · intro name
    rw [hfreq', hfreq, hperm.countP_eq, countP_map, lists_swap]
  · intro kind hkind
    rw [hrows, hreport]
    exact hswapped.kind_eq _ _ hunmatched hkind

end Request

/-- **Swapping the sides swaps the report, and paging loses nothing**: without case variants the
comparison of the swapped sides has the same counts with added and removed exchanged, and for each
kind the same rows in the same order, with their sides exchanged (the unmatched ones in some
order); and the pages of the limit that is used are the filtered rows in order. -/
theorem swap_and_pages (fold : Text → Text) (request : Request ν) :
    (request.Plain unicode → ∀ ranging ranging',
      (∀ e, request.run unicode sprint ranging = .error e →
        request.swap.run unicode sprint ranging' = .error e) ∧
      ∀ summary rows, request.run unicode sprint ranging = .ok (summary, rows) →
        ∃ summary' rows', request.swap.run unicode sprint ranging' = .ok (summary', rows') ∧
          summary'.uncounted = summary.swap.uncounted ∧
          summary'.added = summary.removed ∧ summary'.removed = summary.added ∧
          summary'.changed = summary.changed ∧ summary'.same = summary.same ∧
          summary'.unmatched = summary.unmatched ∧
          (∀ name, freqOf summary'.changedColumnFreq name =
            freqOf summary.changedColumnFreq name) ∧
          rows'.Perm (rows.map (DiffRow.swap unicode (request.keys unicode))) ∧
          ∀ kind, kind ≠ DiffKind.unmatched → rows'.filter (ofKind kind.swap) =
            (rows.filter (ofKind kind)).map (DiffRow.swap unicode (request.keys unicode))) ∧
      ∀ (all : List (DiffRow ν)) kinds changedColumn size includeSame count,
        (filterRows unicode fold all kinds changedColumn includeSame).length ≤
          count * (pageLimit size).toNat →
        (List.range count).flatMap (fun i : ℕ => (filterPage unicode fold all kinds changedColumn
            (i * pageLimit size) size includeSame).rows) =
          filterRows unicode fold all kinds changedColumn includeSame := by
  constructor
  · intro hplain ranging ranging'
    constructor
    · intro e herror
      by_cases hkeys : request.keys unicode = []
      · have hfails : ∀ request' : Request ν, ∀ ranging', request'.keys unicode = [] →
            request'.run unicode sprint ranging' = .error "key columns required" := by
          intro request' ranging' hkeys'
          exact if_pos hkeys'
        rw [hfails request ranging hkeys] at herror
        rw [hfails request.swap ranging' hkeys]
        exact herror
      · rw [request.run_eq unicode sprint ranging hkeys] at herror
        cases herror
    · intro summary rows hrun
      exact hplain.run_swap ranging ranging' hrun
  · intro all kinds changedColumn size includeSame count hcount
    exact pages_eq unicode fold all kinds changedColumn size includeSame count hcount

end engine

/-- The keys of a pair are spelt as on its left side, so that swapping the sides changes them; and
the pages of a size above the largest limit skip rows. -/
theorem swap_changes_keys :
    let unicode : UnicodeTables := ⟨fun _ => false, fun _ => false, id⟩
    let left := [(bytes "id", some (bytes "1"))]
    let right := [(bytes "id", some (bytes "1 "))]
    let request : Request Text := {
      leftRows := [left], rightRows := [right], keyColumns := [bytes "id"]
      opts := ⟨false, false, false⟩
      includeSameRows := true }
    let all : List (DiffRow Text) := List.replicate 1001 { kind := .added, keys := [] }
    request.Plain unicode ∧
      (request.run unicode id .listed).toOption.map (fun outcome => outcome.2.map DiffRow.keys) =
          some [left] ∧
      (request.swap.run unicode id .listed).toOption.map
        (fun outcome => outcome.2.map DiffRow.keys) = some [right] ∧
      ∀ count : ℕ, ((List.range count).flatMap fun i : ℕ =>
        (filterPage unicode id all [] [] (i * 1001) 1001 false).rows).length ≤ 1000 ∧
          (filterRows unicode id all [] [] false).length = 1001 := by
  intro unicode left right request all
  have hlength : (filterRows unicode id all [] [] false).length = 1001 := by decide +kernel
  have hplain : request.Plain unicode := by
    constructor
    · intro side
      cases side <;> decide
    · unfold NoCaseVariants
      decide
    · unfold NoCaseVariants
      decide
  refine ⟨hplain, by decide, by decide, fun count => ⟨?_, hlength⟩⟩
  have hpage : ∀ i : ℕ, (filterPage unicode id all [] [] (i * 1001) 1001 false).rows =
      ((filterRows unicode id all [] [] false).drop (i * 1001)).take 1000 := by
    intro i
    have hrows := filterPage_rows unicode id all [] [] (i * 1001) 1001 false
    rw [Int.natCast_mul] at hrows
    exact hrows
  have hbehind : ∀ i : ℕ, (filterPage unicode id all [] [] ((i + 1 : ℕ) * 1001) 1001 false).rows
      = [] := by
    intro i
    rw [hpage, drop_eq_nil_of_le (by omega), take_nil]
  cases count with
  | zero => exact Nat.zero_le _
  | succ n =>
    have hnone : ((List.range n).flatMap fun i : ℕ =>
        (filterPage unicode id all [] [] ((i + 1 : ℕ) * 1001) 1001 false).rows) = [] :=
      flatMap_eq_nil_iff.mpr fun i _ => hbehind i
    rw [range_succ_eq_map, flatMap_cons, flatMap_map, hnone, append_nil, hpage]
    exact length_take_le _ _

end GoNavi.Resultdiff
