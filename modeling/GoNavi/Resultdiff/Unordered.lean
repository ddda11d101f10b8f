import GoNavi.Resultdiff.Keys

/-! # Comparisons without case variants

A loop over a map sees its entries in any order.  Where no two columns of a row have one lower
case a lookup finds the same value in every order, and where this holds of all the names of a side
its columns are known from them.

**Neither the side nor the loops over its rows change an index** (`indexByKeys_range`) **or the
columns** (`columnSet_perm`), and **swapped sides have the same columns in common**
(`splitColumns_swap`). -/

namespace GoNavi.Resultdiff

open Scan List

/-! ### Lists that hold one of each -/

section unique

variable {α : Type} {l l' : List α}

/-- Where at most one element fits, the order of the list does not matter. -/
theorem find?_perm {p : α → Bool} (hperm : l'.Perm l)
    (hunique : ∀ a ∈ l, ∀ b ∈ l, p a = true → p b = true → a = b) : l'.find? p = l.find? p := by
  cases h : l.find? p with
  | none =>
    rw [find?_eq_none] at h ⊢
    exact fun a ha => h a (hperm.subset ha)
  | some a =>
    have ha := mem_of_find?_eq_some h
    have hpa : p a = true := find?_some h
    cases h' : l'.find? p with
    | none => exact absurd hpa (find?_eq_none.mp h' a (hperm.symm.subset ha))
    | some b =>
      have hb := hperm.subset (mem_of_find?_eq_some h')
      have hpb : p b = true := find?_some h'
      rw [hunique b hb a ha hpb hpa]

theorem get_perm {β : Type} {m m' : List (Text × β)} (hperm : m'.Perm m)
    (hnodup : (m.map Prod.fst).Nodup) (key : Text) : get m' key = get m key := by
  unfold get Table.lookup
  rw [find?_perm hperm]
  intro a ha b hb hpa hpb
  rw [decide_eq_true_eq] at hpa hpb
  exact inj_on_of_nodup_map hnodup ha hb (hpa.trans hpb.symm)

theorem sortStrings_perm {ts ts' : List Text} (h : ts.Perm ts') :
    sortStrings ts = sortStrings ts' := by
  have : Std.Total fun a b : Text => a ≤ b := ⟨fun a b => List.le_total a b⟩
  have : IsTrans Text fun a b => a ≤ b := ⟨fun _ _ _ => List.le_trans⟩
  have hperm : (sortStrings ts).Perm (sortStrings ts') :=
    (List.perm_insertionSort _ ts).trans (h.trans (List.perm_insertionSort _ ts').symm)
  exact hperm.eq_of_pairwise (fun _ _ _ _ => List.le_antisymm)
    (List.pairwise_insertionSort _ ts) (List.pairwise_insertionSort _ ts')

end unique

section engine

variable {ν : Type} {unicode : UnicodeTables} {sprint : ν → Text}

/-! ### Lookups -/

/-- No two columns of a row have one lower case. -/
def Distinct (unicode : UnicodeTables) (row : Row ν) : Prop :=
  (row.map fun e => lower unicode e.1).Nodup

theorem Distinct.keys {row : Row ν} (h : Distinct unicode row) : (row.map Prod.fst).Nodup := by
  have hlower : ((row.map Prod.fst).map (lower unicode)).Nodup := by
    rw [map_map]
    exact h
  exact hlower.of_map _

/-- **A lookup does not depend on the order of the loop over the row.** -/
theorem lookupValue_perm {row row' : Row ν} (h : Distinct unicode row) (hperm : row'.Perm row)
    (col : Text) : lookupValue unicode row' col = lookupValue unicode row col := by
  unfold lookupValue
  rw [get_perm hperm h.keys, find?_perm hperm]
  intro a ha b hb hpa hpb
  rw [decide_eq_true_eq] at hpa hpb
  exact inj_on_of_nodup_map h ha hb (hpa.trans hpb.symm)

section ranged

variable {range : Text → Row ν → Row ν} {row : Row ν} (h : Distinct unicode row)
  (hrange : ∀ col, (range col row).Perm row)

include h hrange

theorem keyParts_range (keyColumns : List Text) (opts : CompareOptions) :
    keyParts unicode sprint range row keyColumns opts =
      keyParts unicode sprint (fun _ => id) row keyColumns opts := by
  unfold keyParts
  congr 1
  funext col
  rw [lookupValue_perm h (hrange col)]
  rfl

theorem buildKey_range (keyColumns : List Text) (opts : CompareOptions) :
    buildKey unicode sprint range row keyColumns opts =
      buildKey unicode sprint (fun _ => id) row keyColumns opts := by
  rw [buildKey_eq, buildKey_eq, keyParts_range h hrange]

theorem pickKeys_range (keyColumns : List Text) :
    pickKeys unicode range row keyColumns = pickKeys unicode (fun _ => id) row keyColumns := by
  unfold pickKeys
  congr 1
  funext out col
  rw [lookupValue_perm h (hrange col)]
  rfl

end ranged

theorem diffFields_range {rangeLeft rangeRight : Text → Row ν → Row ν} {left right : Row ν}
    (hleft : Distinct unicode left) (hright : Distinct unicode right)
    (hrangeLeft : ∀ col, (rangeLeft col left).Perm left)
    (hrangeRight : ∀ col, (rangeRight col right).Perm right) (columns : List Text)
    (opts : CompareOptions) :
    diffFields unicode sprint rangeLeft rangeRight left right columns opts =
      diffFields unicode sprint (fun _ => id) (fun _ => id) left right columns opts := by
  unfold diffFields
  congr 1
  funext col
  rw [lookupValue_perm hleft (hrangeLeft col), lookupValue_perm hright (hrangeRight col)]
  rfl

variable {rows : List (Row ν)}

/-- **Neither the side nor the loops over its rows change an index.** -/
theorem indexByKeys_range (h : ∀ row ∈ rows, Distinct unicode row) (ranging ranging' : Ranging)
    (side side' : Side) (keyColumns : List Text) (opts : CompareOptions) :
    indexByKeys unicode sprint ranging side rows keyColumns opts =
      indexByKeys unicode sprint ranging' side' rows keyColumns opts := by
  unfold indexByKeys
  apply foldl_ext
  intro state entry hentry
  have hrow := h entry.1 (fst_mem_of_mem_zipIdx hentry)
  unfold indexRow
  dsimp only
  rw [buildKey_range hrow fun col => ranging.perm _ _,
    buildKey_range hrow fun col => ranging'.perm _ _]

/-! ### Columns -/

/-- The names that are not blank, trimmed. -/
def trimmedNames (names : List Text) : List Text := (names.map trimSpace).filter fun c => c ≠ []

theorem trimmedNames_append (names names' : List Text) :
    trimmedNames (names ++ names') = trimmedNames names ++ trimmedNames names' := by
  unfold trimmedNames
  rw [map_append, filter_append]

variable {name : Text} {names : List Text}

theorem mem_trimmedNames :
    name ∈ trimmedNames names ↔ (∃ n ∈ names, trimSpace n = name) ∧ name ≠ [] := by
  unfold trimmedNames
  rw [mem_filter, mem_map, decide_eq_true_eq]

/-- The set spells every one of the names, in one of their cases. -/
structure Spells (unicode : UnicodeTables) (names : List Text) (set : List (Text × Text)) :
    Prop where
  lowered : Lowered unicode set
  spelt : ∀ e ∈ set, e.2 ∈ names
  covers : ∀ name ∈ names, lower unicode name ∈ set.map Prod.fst

variable {set : List (Text × Text)}

theorem Spells.put (h : Spells unicode names set) (name : Text) :
    Spells unicode (names ++ [name]) (put set (lower unicode name) name) := by
  have hkeys : ∀ key, key ∈ (Resultdiff.put set (lower unicode name) name).map Prod.fst ↔
      key = lower unicode name ∨ key ∈ set.map Prod.fst := by
    intro key
    rw [← get_isSome, get_put, ← get_isSome]
    by_cases hkey : key = lower unicode name
    · simp [hkey]
    · simp [hkey]
  constructor
  · exact h.lowered.put name
  · intro e he
    unfold Resultdiff.put at he
    split at he
    · obtain ⟨e', he', rfl⟩ := mem_map.mp he
      split
      · simp
      · exact mem_append_left _ (h.spelt e' he')
    · cases mem_append.mp he with
      | inl he => exact mem_append_left _ (h.spelt e he)
      | inr he =>
        rw [mem_singleton.mp he]
        simp
  · intro name' hname'
    rw [hkeys]
    cases mem_append.mp hname' with
    | inl hname' => exact .inr (h.covers name' hname')
    | inr hname' => exact .inl (by rw [mem_singleton.mp hname'])

theorem Spells.keep (h : Spells unicode names set) (hname : lower unicode name ∈ set.map Prod.fst) :
    Spells unicode (names ++ [name]) set where
  lowered := h.lowered
  spelt := fun e he => mem_append_left _ (h.spelt e he)
  covers := by
    intro name' hname'
    cases mem_append.mp hname' with
    | inl hname' => exact h.covers name' hname'
    | inr hname' =>
      rw [mem_singleton.mp hname']
      exact hname

theorem Spells.foldl {α : Type} {f : List (Text × Text) → α → List (Text × Text)}
    {names : α → List Text} (hf : ∀ before set a, Spells unicode before set →
      Spells unicode (before ++ names a) (f set a)) :
    ∀ (as : List α) {before : List Text} {set : List (Text × Text)},
      Spells unicode before set → Spells unicode (before ++ as.flatMap names) (as.foldl f set)
  | [], before, _, h => by
    rw [flatMap_nil, append_nil]
    exact h
  | a :: as, before, _, h => by
    have hrest := Spells.foldl hf as (hf before _ a h)
    rw [append_assoc] at hrest
    exact hrest

/-- The names of a side, as they stand in its columns and its rows. -/
def sideNames (cols : List Text) (rows : List (Row ν)) : List Text :=
  cols ++ rows.flatMap fun row => row.map Prod.fst

theorem trimmedNames_singleton (name : Text) :
    trimmedNames [name] = if trimSpace name = [] then [] else [trimSpace name] := by
  unfold trimmedNames
  by_cases h : trimSpace name = []
  · simp [h]
  · simp [h]

/-- The names that the loops over the columns and the rows of a side see. -/
def seenNames (ranging : Ranging) (side : Side) (cols : List Text) (rows : List (Row ν)) :
    List Text :=
  (cols.flatMap fun c => trimmedNames [c]) ++ rows.zipIdx.flatMap fun entry =>
    (ranging.range (.columns side entry.2) entry.1).flatMap fun e => trimmedNames [e.1]

theorem mem_seenNames {ranging : Ranging} {side : Side} {cols : List Text} :
    name ∈ seenNames ranging side cols rows ↔ name ∈ trimmedNames (sideNames cols rows) := by
  unfold seenNames sideNames
  simp only [mem_append, mem_flatMap, mem_trimmedNames, mem_map,
    mem_singleton, exists_eq_left]
  constructor
  · rintro (⟨c, hc, hname⟩ | ⟨entry, hentry, e, he, hname⟩)
    · exact ⟨⟨c, .inl hc, hname.1⟩, hname.2⟩
    · have he := (ranging.perm _ _).subset he
      exact ⟨⟨e.1, .inr ⟨entry.1, fst_mem_of_mem_zipIdx hentry, e, he, rfl⟩, hname.1⟩,
        hname.2⟩
  · rintro ⟨⟨n, hc | ⟨row, hrow, e, he, rfl⟩, hn⟩, hname⟩
    · exact .inl ⟨n, hc, hn, hname⟩
    · obtain ⟨i, hi, rfl⟩ := mem_iff_getElem.mp hrow
      have hentry : (rows[i], i) ∈ rows.zipIdx := by
        rw [mem_zipIdx_iff_getElem?]
        exact getElem?_eq_getElem hi
      exact .inr ⟨_, hentry, e, (ranging.perm _ _).symm.subset he, hn, hname⟩

variable (unicode) in
/-- **The columns of a side spell the names of its columns and its rows.** -/
theorem columnSet_spells (ranging : Ranging) (side : Side) (cols : List Text)
    (rows : List (Row ν)) : Spells unicode (seenNames ranging side cols rows)
      (columnSet unicode ranging side cols rows) := by
  have hempty : Spells unicode [] [] := ⟨⟨nodup_nil, by simp⟩, by simp, by simp⟩
  unfold seenNames columnSet
  apply Spells.foldl
  · intro before set entry h
    apply Spells.foldl _ _ h
    intro before set e h
    rw [trimmedNames_singleton]
    dsimp only
    split
    · rw [append_nil]
      exact h
    · split
      · rename_i hsome
        exact h.keep (get_isSome.mp hsome)
      · exact h.put _
  · rw [← nil_append (cols.flatMap _)]
    apply Spells.foldl _ cols hempty
    intro before set c h
    rw [trimmedNames_singleton]
    dsimp only
    split
    · rw [append_nil]
      exact h
    · exact h.put _

/-- A list of names in which no two have one lower case. -/
def NoCaseVariants (unicode : UnicodeTables) (names : List Text) : Prop :=
  ∀ n ∈ names, ∀ n' ∈ names, lower unicode n = lower unicode n' → n = n'

/-- Without case variants a set is known from the names it spells. -/
theorem Spells.mem_iff (h : Spells unicode names set) (hnames : NoCaseVariants unicode names)
    {e : Text × Text} :
    e ∈ set ↔ e.2 ∈ names ∧ e.1 = lower unicode e.2 := by
  constructor
  · exact fun he => ⟨h.spelt e he, (h.lowered.2 e he).symm⟩
  · rintro ⟨hname, hkey⟩
    obtain ⟨e', he', hkey'⟩ := mem_map.mp (h.covers e.2 hname)
    have hsame := hnames e'.2 (h.spelt e' he') e.2 hname ((h.lowered.2 e' he').trans hkey')
    have heq : e' = e := Prod.ext (hkey'.trans hkey.symm) hsame
    exact heq ▸ he'

/-- **The columns do not depend on the order of the loops over the rows.** -/
theorem columnSet_perm {cols : List Text}
    (hnames : NoCaseVariants unicode (trimmedNames (sideNames cols rows)))
    (ranging ranging' : Ranging) (side side' : Side) :
    (columnSet unicode ranging side cols rows).Perm
      (columnSet unicode ranging' side' cols rows) := by
  have hspells := columnSet_spells unicode ranging side cols rows
  have hspells' := columnSet_spells unicode ranging' side' cols rows
  rw [perm_ext_iff_of_nodup hspells.lowered.1.of_map hspells'.lowered.1.of_map]
  intro e
  rw [hspells.mem_iff, hspells'.mem_iff, mem_seenNames, mem_seenNames]
  · exact fun n hn n' hn' => hnames n (mem_seenNames.mp hn) n' (mem_seenNames.mp hn')
  · exact fun n hn n' hn' => hnames n (mem_seenNames.mp hn) n' (mem_seenNames.mp hn')

/-- **Swapped sides have the same columns in common.** -/
theorem splitColumns_swap {left left' right right' : List (Text × Text)}
    (hleft : left'.Perm left) (hright : right'.Perm right)
    (hleftNodup : (left.map Prod.fst).Nodup) (hrightNodup : (right.map Prod.fst).Nodup)
    (hspelling : ∀ e ∈ left, ∀ e' ∈ right, e.1 = e'.1 → e = e') :
    splitColumns right' left' =
      ((splitColumns left right).1, (splitColumns left right).2.2,
        (splitColumns left right).2.1) := by
  unfold splitColumns
  simp only [get_perm hleft hleftNodup, get_perm hright hrightNodup, Prod.mk.injEq]
  refine ⟨sortStrings_perm ?_, sortStrings_perm ?_, sortStrings_perm ?_⟩
  · refine List.Perm.map _ ((hright.filter _).trans ?_)
    rw [perm_ext_iff_of_nodup (hrightNodup.of_map.filter _) (hleftNodup.of_map.filter _)]
    intro e
    simp only [mem_filter, get_isSome]
    constructor
    · rintro ⟨hmem, hkey⟩
      obtain ⟨e', he', hkey'⟩ := mem_map.mp hkey
      obtain rfl := hspelling e' he' e hmem hkey'
      exact ⟨he', mem_map_of_mem hmem⟩
    · rintro ⟨hmem, hkey⟩
      obtain ⟨e', he', hkey'⟩ := mem_map.mp hkey
      obtain rfl := hspelling e hmem e' he' hkey'.symm
      exact ⟨he', mem_map_of_mem hmem⟩
  · exact (hright.filter _).map _
  · exact (hleft.filter _).map _

end engine

end GoNavi.Resultdiff
