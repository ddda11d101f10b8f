import GoNavi.Resultdiff.Engine

/-! # A comparison conserves the rows

Every row of either side ends up in one row of the report, or in a pair of equal rows that are
not reported.  `Balanced` says so of a report in the making, against the rows visited so far;
every loop of `computeDiff` keeps it.

**The comparison accounts for every row exactly once** (`computeDiff_conserves`), the counts of
the summary are those of the report, and the frequency of a column is the number of changed rows
that list it. -/

namespace GoNavi.Resultdiff

open Scan List Table

/-! ### Maps -/

section maps

variable {β : Type} {m : List (Text × β)} {key key' : Text} {value : β}

theorem get_isSome : (get m key).isSome = true ↔ key ∈ m.map Prod.fst := by
  unfold get
  cases h : lookup Prod.fst key m with
  | none =>
    have hnone := lookup_eq_none.mp h
    simp only [Option.map_none, Option.isSome_none, Bool.false_eq_true, false_iff]
    intro hmem
    obtain ⟨e, he, hkey⟩ := mem_map.mp hmem
    exact hnone e he hkey
  | some e =>
    simp only [Option.map_some, Option.isSome_some, true_iff]
    exact mem_map.mpr ⟨e, mem_of_lookup h, lookup_key h⟩

theorem put_of_new (h : key ∉ m.map Prod.fst) : put m key value = m ++ [(key, value)] := if_neg h

theorem get_put : get (put m key value) key' = if key' = key then some value else get m key' := by
  by_cases hmem : key ∈ m.map Prod.fst
  · have hput : put m key value = update Prod.fst key (fun e => (e.1, value)) m := if_pos hmem
    rw [hput]
    unfold get
    split
    · rename_i heq
      subst heq
      rw [lookup_update_self (f := fun e : Text × β => (e.1, value)) fun _ => rfl,
        Option.map_map]
      obtain ⟨v, hv⟩ := Option.isSome_iff_exists.mp (get_isSome.mpr hmem)
      unfold get at hv
      obtain ⟨e, he, -⟩ := Option.map_eq_some_iff.mp hv
      rw [he]
      rfl
    · rename_i hne
      rw [lookup_update_of_ne (f := fun e : Text × β => (e.1, value)) (fun _ => rfl) hne]
  · rw [put_of_new hmem]
    unfold get
    have hnone : lookup Prod.fst key m = none := by
      rw [lookup_eq_none]
      intro e he hkey
      exact hmem (mem_map.mpr ⟨e, he, hkey⟩)
    split
    · rename_i heq
      subst heq
      rw [Table.lookup_append_of_none hnone]
      simp [Table.lookup]
    · rename_i hne
      cases h : lookup Prod.fst key' m with
      | some e => rw [Table.lookup_append_of_some h]
      | none =>
        rw [Table.lookup_append_of_none h]
        have hne' : ¬ key = key' := fun heq => hne heq.symm
        simp [Table.lookup, hne']

end maps

/-! ### Frequencies -/

def freqOf (freq : Frequencies) (name : Text) : ℕ := (get freq name).getD 0

theorem freqOf_bump (freq : Frequencies) (name name' : Text) :
    freqOf (bump freq name) name' = freqOf freq name' + if name' = name then 1 else 0 := by
  unfold freqOf bump
  rw [get_put]
  by_cases h : name' = name
  · rw [if_pos h, if_pos h, h]
    rfl
  · rw [if_neg h, if_neg h, Nat.add_zero]

theorem freqOf_foldl {ν : Type} (name : Text) :
    ∀ (changes : List (FieldChange ν)) (freq : Frequencies), (changes.map FieldChange.name).Nodup →
    freqOf (changes.foldl (fun freq ch => bump freq ch.name) freq) name =
      freqOf freq name + if name ∈ changes.map FieldChange.name then 1 else 0
  | [], freq, _ => by simp
  | ch :: changes, freq, h => by
    rw [map_cons, nodup_cons] at h
    rw [foldl_cons, freqOf_foldl name changes _ h.2, freqOf_bump, map_cons]
    by_cases hname : name = ch.name
    · rw [if_pos hname, if_neg (hname ▸ h.1), if_pos (by simp [hname])]
    · rw [if_neg hname, Nat.add_zero]
      simp [hname]

section engine

variable {ν : Type}

/-! ### Indexing -/

section indexing

variable (unicode : UnicodeTables) (sprint : ν → Text) (ranging : Ranging) (side : Side)
  (keyColumns : List Text) (opts : CompareOptions)

theorem indexRow_perm (state : List (Text × Row ν) × List (Row ν)) (entry : Row ν × ℕ)
    (hnodup : (state.1.map Prod.fst).Nodup) :
    let state' := indexRow unicode sprint ranging side keyColumns opts state entry
    (state'.1.map Prod.fst).Nodup ∧
      (state'.1.map Prod.snd ++ state'.2).Perm (entry.1 :: (state.1.map Prod.snd ++ state.2)) := by
  have hunmatched : (state.1.map Prod.snd ++ (state.2 ++ [entry.1])).Perm
      (entry.1 :: (state.1.map Prod.snd ++ state.2)) := by
    rw [← append_assoc]
    exact perm_append_singleton _ _
  unfold indexRow
  dsimp only
  split
  · exact ⟨hnodup, hunmatched⟩
  · split
    · exact ⟨hnodup, hunmatched⟩
    · rename_i hfree
      rw [get_isSome] at hfree
      rw [put_of_new hfree]
      constructor
      · rw [map_append, nodup_append]
        refine ⟨hnodup, nodup_singleton _, ?_⟩
        intro a ha b hb
        obtain rfl := mem_singleton.mp hb
        exact fun heq => hfree (heq ▸ ha)
      · rw [map_append, append_assoc]
        exact perm_middle

theorem indexRows_perm : ∀ (entries : List (Row ν × ℕ))
    (state : List (Text × Row ν) × List (Row ν)), (state.1.map Prod.fst).Nodup →
    let state' := entries.foldl (indexRow unicode sprint ranging side keyColumns opts) state
    (state'.1.map Prod.fst).Nodup ∧
      (state'.1.map Prod.snd ++ state'.2).Perm
        (entries.map Prod.fst ++ (state.1.map Prod.snd ++ state.2))
  | [], _, h => ⟨h, .refl _⟩
  | entry :: entries, state, h => by
    obtain ⟨hnodup, hperm⟩ :=
      indexRow_perm unicode sprint ranging side keyColumns opts state entry h
    obtain ⟨hnodup', hperm'⟩ := indexRows_perm entries _ hnodup
    refine ⟨hnodup', hperm'.trans ?_⟩
    exact (hperm.append_left _).trans perm_middle

/-- **Every row is indexed or stays unmatched**, and the keys are distinct. -/
theorem indexByKeys_perm (rows : List (Row ν)) :
    let state := indexByKeys unicode sprint ranging side rows keyColumns opts
    (state.1.map Prod.fst).Nodup ∧ (state.1.map Prod.snd ++ state.2).Perm rows := by
  have h := indexRows_perm unicode sprint ranging side keyColumns opts rows.zipIdx ([], [])
    nodup_nil
  rw [zipIdx_map_fst, map_nil, nil_append, append_nil] at h
  exact h

end indexing

/-! ### Balanced reports -/

/-- The side an unmatched row comes from. -/
def unmatchedOf (side : Side) (row : DiffRow ν) : Bool :=
  row.kind = .unmatched ∧ row.side = some side

def ofKind (kind : DiffKind) (row : DiffRow ν) : Bool := row.kind = kind

/-- A changed row that lists the column. -/
def lists (name : Text) (row : DiffRow ν) : Bool :=
  row.kind = .changed ∧ name ∈ row.changedFields.map FieldChange.name

/-- The report accounts for the rows visited on both sides; `hidden` are the pairs of equal rows
that it does not show. -/
structure Balanced (report : Report ν) (lefts rights : List (Row ν))
    (hidden : List (Row ν × Row ν)) : Prop where
  left : lefts.Perm (report.rows.filterMap DiffRow.left ++ hidden.map Prod.fst)
  right : rights.Perm (report.rows.filterMap DiffRow.right ++ hidden.map Prod.snd)
  removed : report.summary.removed = report.rows.countP (ofKind .removed)
  added : report.summary.added = report.rows.countP (ofKind .added)
  changed : report.summary.changed = report.rows.countP (ofKind .changed)
  same : report.summary.same = report.rows.countP (ofKind .same) + hidden.length
  unmatched : report.summary.unmatched = report.rows.countP (ofKind .unmatched)
  leftCount : lefts.length = report.summary.removed + report.summary.changed +
    report.summary.same + report.rows.countP (unmatchedOf .left)
  rightCount : rights.length = report.summary.added + report.summary.changed +
    report.summary.same + report.rows.countP (unmatchedOf .right)
  fields : ∀ row ∈ report.rows, row.kind = .changed → row.changedFields ≠ []
  freq : ∀ name, freqOf report.summary.changedColumnFreq name = report.rows.countP (lists name)

theorem perm_report {α β : Type} {xs ys : List α} {hidden : List β} {f : β → α} {x : Option α}
    (h : xs.Perm (ys ++ hidden.map f)) :
    (xs ++ x.toList).Perm (ys ++ x.toList ++ hidden.map f) := by
  refine (h.append_right _).trans ?_
  rw [append_assoc, append_assoc]
  exact perm_append_comm.append_left _

variable {hidden : List (Row ν × Row ν)} {lefts rights : List (Row ν)}

/-- One more row in the report, and in the counts of the summary. -/
theorem Balanced.report {report : Report ν} (h : Balanced report lefts rights hidden)
    (row : DiffRow ν)
    (summary : Summary)
    (hremoved : summary.removed =
      report.summary.removed + if ofKind .removed row then 1 else 0)
    (hadded : summary.added = report.summary.added + if ofKind .added row then 1 else 0)
    (hchanged : summary.changed =
      report.summary.changed + if ofKind .changed row then 1 else 0)
    (hsame : summary.same = report.summary.same + if ofKind .same row then 1 else 0)
    (hunmatched : summary.unmatched =
      report.summary.unmatched + if ofKind .unmatched row then 1 else 0)
    (hleft : row.left.toList.length = (if ofKind .removed row then 1 else 0) +
      (if ofKind .changed row then 1 else 0) + (if ofKind .same row then 1 else 0) +
      if unmatchedOf .left row then 1 else 0)
    (hright : row.right.toList.length = (if ofKind .added row then 1 else 0) +
      (if ofKind .changed row then 1 else 0) + (if ofKind .same row then 1 else 0) +
      if unmatchedOf .right row then 1 else 0)
    (hfields : row.kind = .changed → row.changedFields ≠ [])
    (hfreq : ∀ name, freqOf summary.changedColumnFreq name =
      freqOf report.summary.changedColumnFreq name + if lists name row then 1 else 0) :
    Balanced ⟨summary, report.rows ++ [row]⟩ (lefts ++ row.left.toList)
      (rights ++ row.right.toList) hidden where
  left := by
    rw [filterMap_append]
    convert perm_report h.left using 3
    cases hl : row.left <;> simp [hl]
  right := by
    rw [filterMap_append]
    convert perm_report h.right using 3
    cases hr : row.right <;> simp [hr]
  removed := by rw [hremoved, h.removed, countP_append, countP_singleton]
  added := by rw [hadded, h.added, countP_append, countP_singleton]
  changed := by rw [hchanged, h.changed, countP_append, countP_singleton]
  same := by
    rw [hsame, h.same, countP_append, countP_singleton]
    omega
  unmatched := by rw [hunmatched, h.unmatched, countP_append, countP_singleton]
  leftCount := by
    rw [length_append, hleft, h.leftCount, hremoved, hchanged, hsame, countP_append,
      countP_singleton]
    omega
  rightCount := by
    rw [length_append, hright, h.rightCount, hadded, hchanged, hsame, countP_append,
      countP_singleton]
    omega
  fields := by
    intro r hr
    cases mem_append.mp hr with
    | inl hr => exact h.fields r hr
    | inr hr =>
      rw [mem_singleton.mp hr]
      exact hfields
  freq := by
    intro name
    rw [hfreq, h.freq, countP_append, countP_singleton]

theorem Balanced.hide {report : Report ν} (h : Balanced report lefts rights hidden)
    (left right : Row ν) :
    Balanced ⟨{ report.summary with same := report.summary.same + 1 }, report.rows⟩
      (lefts ++ [left]) (rights ++ [right]) (hidden ++ [(left, right)]) where
  left := by
    rw [map_append, ← append_assoc]
    exact h.left.append_right _
  right := by
    rw [map_append, ← append_assoc]
    exact h.right.append_right _
  removed := h.removed
  added := h.added
  changed := h.changed
  same := by
    have := h.same
    simp only [length_append, length_singleton]
    omega
  unmatched := h.unmatched
  leftCount := by
    have := h.leftCount
    simp only [length_append, length_singleton]
    omega
  rightCount := by
    have := h.rightCount
    simp only [length_append, length_singleton]
    omega
  fields := h.fields
  freq := h.freq

/-- The order of the report does not matter, nor that of the rows visited. -/
theorem Balanced.perm {summary : Summary} {rows rows' : List (DiffRow ν)}
    {lefts' rights' : List (Row ν)} (h : Balanced ⟨summary, rows⟩ lefts rights hidden)
    (hrows : rows'.Perm rows) (hlefts : lefts'.Perm lefts) (hrights : rights'.Perm rights) :
    Balanced ⟨summary, rows'⟩ lefts' rights' hidden where
  left := hlefts.trans (h.left.trans ((hrows.filterMap _).symm.append_right _))
  right := hrights.trans (h.right.trans ((hrows.filterMap _).symm.append_right _))
  removed := h.removed.trans (hrows.countP_eq _).symm
  added := h.added.trans (hrows.countP_eq _).symm
  changed := h.changed.trans (hrows.countP_eq _).symm
  same := by
    show summary.same = rows'.countP _ + _
    rw [hrows.countP_eq]
    exact h.same
  unmatched := h.unmatched.trans (hrows.countP_eq _).symm
  leftCount := by
    show lefts'.length = _ + _ + _ + rows'.countP _
    rw [hrows.countP_eq, hlefts.length_eq]
    exact h.leftCount
  rightCount := by
    show rights'.length = _ + _ + _ + rows'.countP _
    rw [hrows.countP_eq, hrights.length_eq]
    exact h.rightCount
  fields := fun row hrow => h.fields row (hrows.subset hrow)
  freq := fun name => (h.freq name).trans (hrows.countP_eq _).symm

theorem flatMap_nothing {α β : Type} (entries : List α) :
    (entries.flatMap fun _ => ([] : List β)) = [] :=
  flatMap_eq_nil_iff.mpr fun _ _ => rfl

/-- A loop each of whose steps accounts for the rows of one entry. -/
theorem Balanced.foldl {α : Type} {visit : Report ν → α → Report ν}
    {leftsOf rightsOf : α → List (Row ν)}
    (hvisit : ∀ {report : Report ν} {lefts rights : List (Row ν)} {hidden : List (Row ν × Row ν)},
      Balanced report lefts rights hidden → ∀ entry,
      Balanced (visit report entry) (lefts ++ leftsOf entry) (rights ++ rightsOf entry) hidden)
    (entries : List α) :
    ∀ {report : Report ν} {lefts rights : List (Row ν)}, Balanced report lefts rights hidden →
      Balanced (entries.foldl visit report) (lefts ++ entries.flatMap leftsOf)
        (rights ++ entries.flatMap rightsOf) hidden := by
  induction entries with
  | nil =>
    intro report lefts rights h
    rw [flatMap_nil, flatMap_nil, append_nil, append_nil]
    exact h
  | cons entry entries ih =>
    intro report lefts rights h
    have hrest := ih (hvisit h entry)
    rw [append_assoc, append_assoc] at hrest
    exact hrest

/-! ### The loops -/

section loops

variable (unicode : UnicodeTables) (sprint : ν → Text) (setup : Setup ν)

theorem diffFields_names (rangeLeft rangeRight : Text → Row ν → Row ν) (left right : Row ν)
    (opts : CompareOptions) : ∀ columns : List Text,
    ((diffFields unicode sprint rangeLeft rangeRight left right columns opts).map
      FieldChange.name).Sublist columns
  | [] => List.Sublist.refl []
  | col :: columns => by
    have ih := diffFields_names rangeLeft rangeRight left right opts columns
    unfold diffFields at ih ⊢
    rw [filterMap_cons]
    dsimp only
    split
    · exact ih.trans (sublist_cons_self col columns)
    · rename_i ch hch
      split at hch
      · cases hch
      · cases hch
        exact ih.cons_cons col

/-- The rows of the right side that the entries of the left side meet. -/
def met (rightMap : List (Text × Row ν)) (entries : List (Text × Row ν)) : List (Row ν) :=
  entries.filterMap fun e => get rightMap e.1

theorem visitLeft_balanced {report : Report ν} (hcompared : setup.compared.Nodup)
    (h : Balanced report lefts rights hidden) (entry : Text × Row ν) :
    ∃ hidden', Balanced (visitLeft unicode sprint setup report entry) (lefts ++ [entry.2])
        (rights ++ (get setup.rightMap entry.1).toList) hidden' ∧
      (setup.includeSameRows = true → hidden' = hidden) := by
  unfold visitLeft
  dsimp only
  split
  · rename_i hnone
    rw [hnone]
    refine ⟨hidden, h.report _ _ ?_ ?_ ?_ ?_ ?_ ?_ ?_ ?_ ?_, fun _ => rfl⟩ <;>
      simp [ofKind, unmatchedOf, lists]
  · rename_i rightRow hsome
    rw [hsome]
    split
    · split
      · rename_i hinclude
        refine ⟨hidden, h.report _ _ ?_ ?_ ?_ ?_ ?_ ?_ ?_ ?_ ?_, fun _ => rfl⟩ <;>
          simp [ofKind, unmatchedOf, lists]
      · rename_i hinclude
        refine ⟨hidden ++ [(entry.2, rightRow)], ?_, fun hi => absurd hi hinclude⟩
        exact h.hide entry.2 rightRow
    · rename_i hchanges
      have hnodup := (diffFields_names unicode sprint
        (fun col => setup.ranging.range (.comparing .left entry.1 col))
        (fun col => setup.ranging.range (.comparing .right entry.1 col)) entry.2 rightRow
        setup.opts setup.compared).nodup hcompared
      refine ⟨hidden, h.report _ _ ?_ ?_ ?_ ?_ ?_ ?_ ?_ ?_ ?_, fun _ => rfl⟩
      case refine_8 => exact fun _ => hchanges
      case refine_9 =>
        intro name
        rw [freqOf_foldl name _ _ hnodup]
        simp [lists]
      all_goals simp [ofKind, unmatchedOf]

theorem visitLefts_balanced (hcompared : setup.compared.Nodup) : ∀ (entries : List (Text × Row ν))
    {report : Report ν} {lefts rights : List (Row ν)} {hidden : List (Row ν × Row ν)},
    Balanced report lefts rights hidden →
    ∃ hidden', Balanced (entries.foldl (visitLeft unicode sprint setup) report)
        (lefts ++ entries.map Prod.snd) (rights ++ met setup.rightMap entries) hidden' ∧
      (setup.includeSameRows = true → hidden' = hidden)
  | [], _, _, _, hidden, h => ⟨hidden, by simpa [met] using h, fun _ => rfl⟩
  | entry :: entries, _, _, _, _, h => by
    obtain ⟨hidden', h', hsame⟩ := visitLeft_balanced unicode sprint setup hcompared h entry
    obtain ⟨hidden'', h'', hsame'⟩ := visitLefts_balanced hcompared entries h'
    refine ⟨hidden'', ?_, fun hi => (hsame' hi).trans (hsame hi)⟩
    have hmet : met setup.rightMap (entry :: entries) =
        (get setup.rightMap entry.1).toList ++ met setup.rightMap entries := by
      unfold met
      cases hget : get setup.rightMap entry.1 <;> simp [hget]
    rw [hmet, map_cons]
    simpa using h''

/-- The rows of the right side whose key has not been seen. -/
def fresh (seen : List Text) (entries : List (Text × Row ν)) : List (Row ν) :=
  (entries.filter fun e => e.1 ∉ seen).map Prod.snd

theorem fresh_eq_flatMap (seen : List Text) (entries : List (Text × Row ν)) :
    fresh seen entries = entries.flatMap fun entry => fresh seen [entry] := by
  induction entries with
  | nil => rfl
  | cons entry entries ih =>
    rw [flatMap_cons, ← ih]
    unfold fresh
    rw [← map_append, ← filter_append, singleton_append]

theorem visitRight_balanced (seen : List Text) {report : Report ν}
    (h : Balanced report lefts rights hidden) (entry : Text × Row ν) :
    Balanced (visitRight unicode setup seen report entry) (lefts ++ [])
      (rights ++ fresh seen [entry]) hidden := by
  unfold visitRight
  dsimp only
  split
  · rename_i hseen
    have hfresh : fresh seen [entry] = [] := by simp [fresh, hseen]
    rw [hfresh, append_nil, append_nil]
    exact h
  · rename_i hseen
    have hfresh : fresh seen [entry] = [entry.2] := by simp [fresh, hseen]
    rw [hfresh]
    refine h.report _ _ ?_ ?_ ?_ ?_ ?_ ?_ ?_ ?_ ?_ <;> simp [ofKind, unmatchedOf, lists]

theorem visitRights_balanced (seen : List Text) (entries : List (Text × Row ν)) {report : Report ν}
    (h : Balanced report lefts rights hidden) :
    Balanced (entries.foldl (visitRight unicode setup seen) report) lefts
      (rights ++ fresh seen entries) hidden := by
  have hall := h.foldl (fun h => visitRight_balanced unicode setup seen h) entries
  rw [← fresh_eq_flatMap, flatMap_nothing, append_nil] at hall
  exact hall

theorem visitUnmatched_left {report : Report ν} (h : Balanced report lefts rights hidden)
    (entry : Row ν × ℕ) :
    Balanced (visitUnmatched unicode setup .left report entry) (lefts ++ [entry.1]) (rights ++ [])
      hidden := by
  refine h.report _ _ ?_ ?_ ?_ ?_ ?_ ?_ ?_ ?_ ?_ <;> simp [ofKind, unmatchedOf, lists]

theorem visitUnmatched_right {report : Report ν} (h : Balanced report lefts rights hidden)
    (entry : Row ν × ℕ) :
    Balanced (visitUnmatched unicode setup .right report entry) (lefts ++ []) (rights ++ [entry.1])
      hidden := by
  refine h.report _ _ ?_ ?_ ?_ ?_ ?_ ?_ ?_ ?_ ?_ <;> simp [ofKind, unmatchedOf, lists]

theorem visitLeftovers_balanced (entries : List (Row ν × ℕ)) {report : Report ν}
    (h : Balanced report lefts rights hidden) :
    Balanced (entries.foldl (visitUnmatched unicode setup .left) report)
      (lefts ++ entries.map Prod.fst) rights hidden := by
  have hall := h.foldl (fun h => visitUnmatched_left unicode setup h) entries
  rw [← map_eq_flatMap, flatMap_nothing, append_nil] at hall
  exact hall

theorem visitRightovers_balanced (entries : List (Row ν × ℕ)) {report : Report ν}
    (h : Balanced report lefts rights hidden) :
    Balanced (entries.foldl (visitUnmatched unicode setup .right) report) lefts
      (rights ++ entries.map Prod.fst) hidden := by
  have hall := h.foldl (fun h => visitUnmatched_right unicode setup h) entries
  rw [← map_eq_flatMap, flatMap_nothing, append_nil] at hall
  exact hall

end loops

/-! ### Distinct columns -/

section columns

variable {unicode : UnicodeTables}

/-- The names stand under their own lower case, each under another one. -/
def Lowered (unicode : UnicodeTables) (set : List (Text × Text)) : Prop :=
  (set.map Prod.fst).Nodup ∧ ∀ e ∈ set, lower unicode e.2 = e.1

theorem Lowered.put {set : List (Text × Text)} (h : Lowered unicode set) (name : Text) :
    Lowered unicode (put set (lower unicode name) name) := by
  by_cases hmem : lower unicode name ∈ set.map Prod.fst
  · have hput : Resultdiff.put set (lower unicode name) name =
        update Prod.fst (lower unicode name) (fun e => (e.1, name)) set := if_pos hmem
    rw [hput]
    constructor
    · rw [map_key_update (f := fun e : Text × Text => (e.1, name)) fun _ => rfl]
      exact h.1
    · apply forall_update h.2
      intro e _ hkey
      exact hkey.symm
  · rw [put_of_new hmem]
    constructor
    · rw [map_append, nodup_append]
      refine ⟨h.1, nodup_singleton _, ?_⟩
      rintro a ha b hb rfl
      rw [mem_singleton.mp hb] at ha
      exact hmem ha
    · intro e he
      cases mem_append.mp he with
      | inl he => exact h.2 e he
      | inr he => rw [mem_singleton.mp he]

theorem Lowered.foldl {α : Type} {f : List (Text × Text) → α → List (Text × Text)}
    (hf : ∀ set a, Lowered unicode set → Lowered unicode (f set a)) :
    ∀ (as : List α) {set : List (Text × Text)}, Lowered unicode set →
      Lowered unicode (as.foldl f set)
  | [], _, h => h
  | a :: as, _, h => Lowered.foldl hf as (hf _ a h)

theorem columnSet_lowered (ranging : Ranging) (side : Side) (explicit : List Text)
    (rows : List (Row ν)) : Lowered unicode (columnSet unicode ranging side explicit rows) := by
  unfold columnSet
  apply Lowered.foldl
  · intro set entry h
    apply Lowered.foldl _ _ h
    intro set entry h
    dsimp only
    split
    · exact h
    · split
      · exact h
      · exact h.put _
  · apply Lowered.foldl
    · intro set c h
      dsimp only
      split
      · exact h
      · exact h.put _
    · exact ⟨nodup_nil, by simp⟩

theorem splitColumns_nodup {left : List (Text × Text)} (h : Lowered unicode left)
    (right : List (Text × Text)) :
    ((splitColumns left right).1.map (lower unicode)).Nodup := by
  have hperm : ((splitColumns left right).1.map (lower unicode)).Perm
      ((left.filter fun e => (get right e.1).isSome).map fun e => lower unicode e.2) := by
    unfold splitColumns sortStrings
    refine ((perm_insertionSort _ _).map _).trans ?_
    rw [map_map]
    exact .refl _
  rw [hperm.nodup_iff]
  have hkeys : (left.filter fun e => (get right e.1).isSome).map (fun e => lower unicode e.2) =
      (left.filter fun e => (get right e.1).isSome).map Prod.fst :=
    map_congr_left fun e he => h.2 e (mem_of_mem_filter he)
  rw [hkeys]
  exact (filter_sublist.map Prod.fst).nodup h.1

theorem normalizeColumnList_nodup (cols : List Text) :
    ((normalizeColumnList unicode cols).map (lower unicode)).Nodup := by
  -- What has been seen are the lower cases of what has been kept.
  have hfold : ∀ (cols : List Text) (state : List Text × List Text),
      state.2 = state.1.map (lower unicode) → state.2.Nodup →
      ((cols.foldl (fun p c =>
        let c := trimSpace c
        if c = [] then (p.1, p.2)
        else
          let lowered := lower unicode c
          if lowered ∈ p.2 then (p.1, p.2) else (p.1 ++ [c], p.2 ++ [lowered]))
        state).1.map (lower unicode)).Nodup := by
    intro cols
    induction cols with
    | nil =>
      intro state hseen hnodup
      exact hseen ▸ hnodup
    | cons c cols ih =>
      intro state hseen hnodup
      rw [foldl_cons]
      apply ih
      · dsimp only
        split
        · exact hseen
        · split
          · exact hseen
          · simp [hseen]
      · dsimp only
        split
        · exact hnodup
        · split
          · exact hnodup
          · rename_i hfree
            rw [nodup_append]
            refine ⟨hnodup, nodup_singleton _, ?_⟩
            intro a ha b hb
            obtain rfl := mem_singleton.mp hb
            exact fun heq => hfree (heq ▸ ha)
  exact hfold cols ([], []) rfl nodup_nil

theorem mem_of_get {β : Type} {m : List (Text × β)} {key : Text} {value : β}
    (h : get m key = some value) : (key, value) ∈ m := by
  unfold get at h
  obtain ⟨e, he, rfl⟩ := Option.map_eq_some_iff.mp h
  rw [← lookup_key he]
  exact mem_of_lookup he

/-- **No column is compared twice.** -/
theorem resolveComparedColumns_nodup {common : List Text}
    (hcommon : (common.map (lower unicode)).Nodup) (compareColumns ignoreSet : List Text) :
    (resolveComparedColumns unicode common compareColumns ignoreSet).Nodup := by
  unfold resolveComparedColumns
  dsimp only
  split
  · exact (List.Nodup.of_map _ hcommon).filter _
  · have hlowered : Lowered unicode
        (common.foldl (fun set c => put set (lower unicode c) c) []) := by
      apply Lowered.foldl
      · exact fun set c h => h.put c
      · exact ⟨nodup_nil, by simp⟩
    have hwanted : ((normalizeColumnList unicode compareColumns).map (lower unicode)).Nodup :=
      normalizeColumnList_nodup compareColumns
    generalize normalizeColumnList unicode compareColumns = wanted at hwanted
    apply List.Nodup.of_map (lower unicode)
    refine List.Sublist.nodup ?_ hwanted
    clear hwanted
    induction wanted with
    | nil => exact List.Sublist.refl _
    | cons w wanted ih =>
      rw [filterMap_cons]
      split
      · exact ih.trans (sublist_cons_self _ _)
      · rename_i name hname
        split at hname
        · cases hname
        · have hsame : lower unicode name = lower unicode w := hlowered.2 _ (mem_of_get hname)
          rw [map_cons, map_cons, hsame]
          exact ih.cons_cons _

end columns

/-! ### The whole comparison -/

/-- The rows of the right side whose key stands on the left are those that the left side
meets. -/
theorem met_perm {lefts rightMap : List (Text × Row ν)} (hlefts : (lefts.map Prod.fst).Nodup)
    (hright : (rightMap.map Prod.fst).Nodup) :
    (met rightMap lefts ++ fresh (lefts.map Prod.fst) rightMap).Perm (rightMap.map Prod.snd) := by
  have hmet : (lefts.filterMap fun e => lookup Prod.fst e.1 rightMap).Perm
      (rightMap.filter fun e => e.1 ∈ lefts.map Prod.fst) := by
    have hnodup : ((lefts.filterMap fun e => lookup Prod.fst e.1 rightMap).map
        Prod.fst).Sublist (lefts.map Prod.fst) := by
      clear hlefts
      induction lefts with
      | nil => exact List.Sublist.refl _
      | cons e lefts ih =>
        rw [filterMap_cons]
        split
        · exact ih.trans (sublist_cons_self _ _)
        · rename_i entry hentry
          rw [map_cons, map_cons, lookup_key hentry]
          exact ih.cons_cons _
    rw [perm_ext_iff_of_nodup (List.Nodup.of_map _ (hnodup.nodup hlefts))
      ((List.Nodup.of_map _ hright).filter _)]
    intro entry
    simp only [mem_filterMap, mem_filter, decide_eq_true_eq]
    constructor
    · rintro ⟨e, he, hlookup⟩
      refine ⟨mem_of_lookup hlookup, ?_⟩
      rw [lookup_key hlookup]
      exact mem_map_of_mem he
    · rintro ⟨hmem, hkey⟩
      obtain ⟨e, he, hkey⟩ := mem_map.mp hkey
      refine ⟨e, he, ?_⟩
      cases hlookup : lookup Prod.fst e.1 rightMap with
      | none => exact absurd hkey.symm (lookup_eq_none.mp hlookup entry hmem)
      | some r => rw [eq_of_lookup hright hlookup hmem hkey.symm]
  have hvalues : met rightMap lefts =
      (lefts.filterMap fun e => lookup Prod.fst e.1 rightMap).map Prod.snd := by
    rw [map_filterMap]
    rfl
  rw [hvalues, fresh, ← map_append]
  refine ((hmet.append_right _).trans ?_).map _
  simp only [decide_not]
  exact filter_append_perm (fun e : Text × Row ν => decide (e.1 ∈ lefts.map Prod.fst)) rightMap

/-- What the loops start from: no column is compared twice, the indexed and the unmatched rows are
those of the two sides, and nothing is counted. -/
structure Prepared (setup : Setup ν) (start : Summary)
    (leftRows rightRows leftUnmatched rightUnmatched : List (Row ν)) : Prop where
  compared : setup.compared.Nodup
  leftNodup : (setup.leftMap.map Prod.fst).Nodup
  rightNodup : (setup.rightMap.map Prod.fst).Nodup
  left : (setup.leftMap.map Prod.snd ++ leftUnmatched).Perm leftRows
  right : (setup.rightMap.map Prod.snd ++ rightUnmatched).Perm rightRows
  start : Balanced (ν := ν) ⟨start, []⟩ [] [] []

theorem visitRows_balanced (unicode : UnicodeTables) (sprint : ν → Text) {setup : Setup ν}
    {start : Summary} {leftRows rightRows leftUnmatched rightUnmatched : List (Row ν)}
    (h : Prepared setup start leftRows rightRows leftUnmatched rightUnmatched) :
    ∃ hidden, Balanced (visitRows unicode sprint setup start leftUnmatched rightUnmatched)
        leftRows rightRows hidden ∧
      (setup.includeSameRows = true → hidden = []) := by
  have hlefts := setup.ranging.perm (.indexed .left) setup.leftMap
  have hrights := setup.ranging.perm (.indexed .right) setup.rightMap
  obtain ⟨hidden, hbalanced, hnone⟩ := visitLefts_balanced unicode sprint setup h.compared
    (setup.ranging.range (.indexed .left) setup.leftMap) h.start
  have hbalanced := visitRights_balanced unicode setup
    ((setup.ranging.range (.indexed .left) setup.leftMap).map Prod.fst)
    (setup.ranging.range (.indexed .right) setup.rightMap) hbalanced
  have hbalanced := visitLeftovers_balanced unicode setup leftUnmatched.zipIdx hbalanced
  have hbalanced := visitRightovers_balanced unicode setup rightUnmatched.zipIdx hbalanced
  refine ⟨hidden, hbalanced.perm (.refl _) ?_ ?_, hnone⟩
  · rw [zipIdx_map_fst, nil_append]
    exact h.left.symm.trans ((hlefts.map _).symm.append_right _)
  · rw [zipIdx_map_fst, nil_append]
    refine h.right.symm.trans (List.Perm.append_right _ ?_)
    have hfresh := ((hrights.filter fun e => decide (e.1 ∉
      (setup.ranging.range (.indexed .left) setup.leftMap).map Prod.fst)).map Prod.snd)
    refine (met_perm ?_ h.rightNodup).symm.trans (hfresh.symm.append_left _)
    rw [(hlefts.map Prod.fst).nodup_iff]
    exact h.leftNodup

/-- A comparison that succeeds reports what the loops have found. -/
theorem computeDiff_visits {unicode : UnicodeTables} {sprint : ν → Text} {ranging : Ranging}
    {leftRows rightRows : List (Row ν)}
    {leftCols rightCols keyColumns compareColumns ignoreColumns : List Text}
    {opts : CompareOptions} {includeSameRows : Bool} {summary : Summary}
    {rows : List (DiffRow ν)}
    (h : computeDiff unicode sprint ranging leftRows leftCols rightRows rightCols keyColumns
      compareColumns ignoreColumns opts includeSameRows = .ok (summary, rows)) :
    ∃ (setup : Setup ν) (start : Summary) (leftUnmatched rightUnmatched : List (Row ν)),
      Prepared setup start leftRows rightRows leftUnmatched rightUnmatched ∧
      setup.includeSameRows = includeSameRows ∧
      summary = (visitRows unicode sprint setup start leftUnmatched rightUnmatched).summary ∧
      rows.Perm (visitRows unicode sprint setup start leftUnmatched rightUnmatched).rows := by
  unfold computeDiff at h
  dsimp only at h
  split at h
  · cases h
  · cases h
    obtain ⟨hleftNodup, hleft⟩ := indexByKeys_perm unicode sprint ranging .left
      (normalizeColumnList unicode keyColumns) opts leftRows
    obtain ⟨hrightNodup, hright⟩ := indexByKeys_perm unicode sprint ranging .right
      (normalizeColumnList unicode keyColumns) opts rightRows
    have hlowered : Lowered unicode (columnSet unicode ranging .left leftCols leftRows) :=
      columnSet_lowered ranging .left leftCols leftRows
    have hcompared := resolveComparedColumns_nodup
      (splitColumns_nodup hlowered (columnSet unicode ranging .right rightCols rightRows))
      compareColumns (toLowerSet unicode ignoreColumns)
    refine ⟨_, _, _, _, ?_, ?_, rfl, perm_insertionSort _ _⟩
    · exact ⟨hcompared, hleftNodup, hrightNodup, hleft, hright, .refl _, .refl _, rfl, rfl, rfl,
        rfl, rfl, rfl, rfl, by simp, fun _ => rfl⟩
    · rfl

/-- **The comparison accounts for every row exactly once**: it stands in one row of the report or
in a hidden pair of equal rows, the counts of the summary add up to the rows of each side, a
changed row lists a column, and a column's frequency is the number of changed rows that
list it. -/
theorem computeDiff_conserves {unicode : UnicodeTables} {sprint : ν → Text} {ranging : Ranging}
    {leftRows rightRows : List (Row ν)}
    {leftCols rightCols keyColumns compareColumns ignoreColumns : List Text}
    {opts : CompareOptions} {includeSameRows : Bool} {summary : Summary}
    {rows : List (DiffRow ν)}
    (h : computeDiff unicode sprint ranging leftRows leftCols rightRows rightCols keyColumns
      compareColumns ignoreColumns opts includeSameRows = .ok (summary, rows)) :
    leftRows.length = summary.removed + summary.changed + summary.same +
        rows.countP (unmatchedOf .left) ∧
      rightRows.length = summary.added + summary.changed + summary.same +
        rows.countP (unmatchedOf .right) ∧
      (∃ hidden : List (Row ν × Row ν), (includeSameRows = true → hidden = []) ∧
        leftRows.Perm (rows.filterMap DiffRow.left ++ hidden.map Prod.fst) ∧
        rightRows.Perm (rows.filterMap DiffRow.right ++ hidden.map Prod.snd) ∧
        summary.same = rows.countP (ofKind .same) + hidden.length) ∧
      summary.removed = rows.countP (ofKind .removed) ∧
      summary.added = rows.countP (ofKind .added) ∧
      summary.changed = rows.countP (ofKind .changed) ∧
      summary.unmatched = rows.countP (ofKind .unmatched) ∧
      (∀ row ∈ rows, row.kind = .changed → row.changedFields ≠ []) ∧
      ∀ name, freqOf summary.changedColumnFreq name = rows.countP (lists name) := by
  obtain ⟨setup, start, leftUnmatched, rightUnmatched, hprepared, hinclude, rfl, hrows⟩ :=
    computeDiff_visits h
  obtain ⟨hidden, hbalanced, hnone⟩ := visitRows_balanced unicode sprint hprepared
  have hreport := hbalanced.perm hrows (.refl _) (.refl _)
  exact ⟨hreport.leftCount, hreport.rightCount,
    ⟨hidden, hinclude ▸ hnone, hreport.left, hreport.right, hreport.same⟩, hreport.removed,
    hreport.added, hreport.changed, hreport.unmatched, hreport.fields, hreport.freq⟩

end engine

/-- Two sides with a changed, a same, a removed and an added row, and a row without a key. -/
theorem computeDiff_conserves_sides :
    let unicode : UnicodeTables := ⟨fun _ => false, fun _ => false, id⟩
    let cell := fun column value : String => (bytes column, some (bytes value))
    let left := [[cell "id" "1", cell "v" "a"], [cell "id" "2"], [cell "id" "3"], [cell "v" "b"]]
    let right := [[cell "ID" "1", cell "v" "c"], [cell "id" "2"], [cell "id" "4"]]
    ∃ summary rows, computeDiff unicode id .listed left [] right [] [bytes " id"] [] []
        ⟨false, false, false⟩ false = .ok (summary, rows) ∧
      left.length = summary.removed + summary.changed + summary.same +
        rows.countP (unmatchedOf .left) ∧
      right.length = summary.added + summary.changed + summary.same +
        rows.countP (unmatchedOf .right) := by
  intro unicode cell left right
  have hruns : ∃ summary rows, computeDiff unicode id .listed left [] right [] [bytes " id"] [] []
      ⟨false, false, false⟩ false = .ok (summary, rows) := ⟨_, _, rfl⟩
  obtain ⟨summary, rows, h⟩ := hruns
  exact ⟨summary, rows, h, (computeDiff_conserves h).1, (computeDiff_conserves h).2.1⟩

end GoNavi.Resultdiff
