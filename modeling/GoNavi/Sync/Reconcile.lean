import GoNavi.Sync.ChangeEvents

/-! # What a batch does to the target

An event alone writes its columns over the row of its key, over the defaults when there is none,
or deletes the row (`reconcile`).  A batch does the same to each key with the columns that its
events leave there, but over the row that the key had before the batch (`net`). -/

namespace GoNavi.Sync

open Scan Fallible List

variable {fold : Text → Text} {runtime : TableRuntime fold}

/-! ### Keys -/

/-- The key of a row whose key columns hold the texts. -/
def encodeKey (texts : Text → Text) : List Text → Text
  | [] => []
  | column :: columns =>
    Json.natural (texts column).length ++
      0x3A :: (texts column ++ 0x7C :: encodeKey texts columns)

variable {row : Row}

theorem lookup_of_some {column : Text} {value : Value} (hcolumn : column ≠ [])
    (h : row.lookup column = some value) :
    lookupProjectionSourceValue fold row column = (value, true, false) := by
  unfold lookupProjectionSourceValue
  rw [if_neg hcolumn, h]

/-- The texts, each behind its length. -/
def encodeTexts : List Text → Text
  | [] => []
  | t :: texts => Json.natural t.length ++ 0x3A :: (t ++ 0x7C :: encodeTexts texts)

theorem encodeKey_eq (texts : Text → Text) (columns : List Text) :
    encodeKey texts columns = encodeTexts (columns.map texts) := by
  induction columns with
  | nil => rfl
  | cons column columns ih => rw [encodeKey, ih, map_cons, encodeTexts]

/-- **A key tells its texts**: the length in front of a text says where it ends. -/
theorem encodeTexts_injective : ∀ {texts texts' : List Text},
    encodeTexts texts = encodeTexts texts' → texts = texts' := by
  have hdigits : ∀ n : ℕ, ∀ c ∈ Json.natural n, Json.isToken c = true := by
    intro n c hc
    obtain ⟨hlow, hhigh⟩ := Json.isDigit_natural n c hc
    simp [Json.isToken, hlow, hhigh]
  intro texts
  induction texts with
  | nil =>
    intro texts' h
    cases texts' with
    | nil => rfl
    | cons t texts' => simp [encodeTexts] at h
  | cons t texts ih =>
    intro texts' h
    cases texts' with
    | nil => simp [encodeTexts] at h
    | cons t' texts' =>
      unfold encodeTexts at h
      obtain ⟨hlength, hrest⟩ :=
        Json.token_cancel (by decide) (by decide) (hdigits _) (hdigits _) h
      obtain ⟨htext, htail⟩ :=
        append_inj (List.cons.inj hrest).2 (Json.natural_injective hlength)
      rw [htext, ih (List.cons.inj htail).2]

/-- The columns of a projected row have the comparable texts. -/
def ComparesTexts (fold : Text → Text) (row : Row) (columns texts : List Text) : Prop :=
  Forall₂ (fun column t => lookupProjectionSourceValue fold row column = (some t, true, false))
    columns texts

theorem watermarkCompositeRowKey_texts {columns texts : List Text}
    (h : ComparesTexts fold row columns texts) :
    watermarkCompositeRowKey fold row columns = .ok (encodeTexts texts) := by
  induction h with
  | nil => rfl
  | cons hvalue _ ih =>
    unfold watermarkCompositeRowKey
    rw [hvalue, ih]
    rfl

theorem compositeRowKey_eq {texts : Text → Text} {columns : List Text}
    (hne : ∀ c ∈ columns, c ≠ []) (htexts : ∀ c ∈ columns, row.lookup c = some (some (texts c))) :
    watermarkCompositeRowKey fold row columns = .ok (encodeKey texts columns) := by
  rw [encodeKey_eq]
  refine watermarkCompositeRowKey_texts (forall₂_map_right_iff.mpr (forall₂_same.mpr ?_))
  exact fun c hc => lookup_of_some (hne c hc) (htexts c hc)

theorem encodeKey_injective {texts texts' : Text → Text} {columns : List Text}
    (h : encodeKey texts columns = encodeKey texts' columns) : ∀ c ∈ columns, texts c = texts' c := by
  rw [encodeKey_eq, encodeKey_eq] at h
  exact map_inj_left.mp (encodeTexts_injective h)

/-! ### Stored rows -/

theorem keys_named (k : Text) (hk : k ∈ runtime.targetKeys) : k ≠ [] :=
  runtime.columns_named k (runtime.keys_columns k hk)

theorem dlookup_columns {columns : List Text} (r : {c // c ∈ columns} → Value)
    {c : {c // c ∈ columns}} : ∀ {cs : List {c // c ∈ columns}}, c ∈ cs →
    (cs.map fun c => (⟨c.1, r c⟩ : Sigma fun _ : Text => Value)).dlookup c.1 = some (r c)
  | d :: cs, h => by
    by_cases hd : d = c
    · rw [map_cons, hd, dlookup_cons_eq]
    · have hne : c.1 ≠ d.1 := fun heq => hd (Subtype.ext heq.symm)
      rw [map_cons, dlookup_cons_ne _ _ hne]
      refine dlookup_columns r ?_
      cases mem_cons.mp h with
      | inl h => exact absurd h.symm hd
      | inr h => exact h

theorem lookup_toRow (r : runtime.Stored) (c : {c // c ∈ runtime.targetColumns}) :
    (runtime.toRow r).lookup c.1 = some (r c) := by
  unfold TableRuntime.toRow
  rw [AList.lookup_to_alist]
  exact dlookup_columns r (mem_attach _ c)

theorem overlay_union (row row' : Row) (r : runtime.Stored) :
    runtime.overlay (row ∪ row') r = runtime.overlay row (runtime.overlay row' r) := by
  funext c
  unfold TableRuntime.overlay
  by_cases hc : c.1 ∈ row
  · rw [AList.lookup_union_left hc]
    obtain ⟨v, hv⟩ := Option.isSome_iff_exists.mp (AList.lookup_isSome.mpr hc)
    rw [hv, Option.getD_some, Option.getD_some]
  · rw [AList.lookup_union_right hc, AList.lookup_eq_none.mpr hc, Option.getD_none]

@[simp] theorem overlay_empty (r : runtime.Stored) : runtime.overlay ∅ r = r := by
  funext c
  simp [TableRuntime.overlay]

@[simp] theorem overlay_toRow (r r' : runtime.Stored) :
    runtime.overlay (runtime.toRow r) r' = r := by
  funext c
  simp [TableRuntime.overlay, lookup_toRow]

/-! ### Events -/

/-- The texts of the key of an event. -/
def PreparedChangeEvent.texts (event : PreparedChangeEvent runtime) (c : Text) : Text :=
  ((event.keys.lookup c).getD none).getD []

/-- The key that an event is about. -/
def PreparedChangeEvent.key (event : PreparedChangeEvent runtime) : Text :=
  encodeKey event.texts runtime.targetKeys

theorem lookup_keys (event : PreparedChangeEvent runtime) {c : Text}
    (hc : c ∈ runtime.targetKeys) : event.keys.lookup c = some (some (event.texts c)) := by
  obtain ⟨text, htext⟩ := event.keys_values c hc
  unfold PreparedChangeEvent.texts
  rw [htext]
  rfl

theorem keyOf_keys (event : PreparedChangeEvent runtime) :
    runtime.keyOf event.keys = .ok event.key :=
  compositeRowKey_eq keys_named fun _ hc => lookup_keys event hc

/-- A row whose key columns hold the texts of a key. -/
def AtKey (runtime : TableRuntime fold) (key : Text) (row : Row) : Prop :=
  ∃ texts : Text → Text, key = encodeKey texts runtime.targetKeys ∧
    ∀ c ∈ runtime.targetKeys, row.lookup c = some (some (texts c))

theorem atKey_keys (event : PreparedChangeEvent runtime) : AtKey runtime event.key event.keys :=
  ⟨event.texts, rfl, fun _ hc => lookup_keys event hc⟩

variable {key : Text}

theorem AtKey.keyOf (h : AtKey runtime key row) :
    runtime.keyOf row = .ok key := by
  obtain ⟨texts, hkey, htexts⟩ := h
  rw [hkey]
  exact compositeRowKey_eq keys_named htexts

theorem AtKey.lookup_eq {row' : Row} (h : AtKey runtime key row) (h' : AtKey runtime key row')
    {c : Text} (hc : c ∈ runtime.targetKeys) :
    row.lookup c = row'.lookup c := by
  obtain ⟨texts, hkey, htexts⟩ := h
  obtain ⟨texts', hkey', htexts'⟩ := h'
  rw [htexts c hc, htexts' c hc, encodeKey_injective (hkey.symm.trans hkey') c hc]

theorem AtKey.union (h : AtKey runtime key row) (row' : Row) :
    AtKey runtime key (row ∪ row') := by
  obtain ⟨texts, hkey, htexts⟩ := h
  refine ⟨texts, hkey, ?_⟩
  intro c hc
  rw [AList.lookup_union_left, htexts c hc]
  rw [← AList.lookup_isSome, htexts c hc]
  rfl

theorem AtKey.overlay (h : AtKey runtime key row) (r : runtime.Stored) :
    AtKey runtime key (runtime.toRow (runtime.overlay row r)) := by
  obtain ⟨texts, hkey, htexts⟩ := h
  refine ⟨texts, hkey, ?_⟩
  intro c hc
  rw [lookup_toRow _ ⟨c, runtime.keys_columns c hc⟩]
  unfold TableRuntime.overlay
  rw [htexts c hc, Option.getD_some]

theorem atKey_toRow {r : runtime.Stored} (h : runtime.keyOf (runtime.toRow r) = .ok key) :
    AtKey runtime key (runtime.toRow r) := by
  have hvalues : ∀ columns : List Text, (∀ c ∈ columns, c ∈ runtime.targetKeys) →
      ∀ key, watermarkCompositeRowKey fold (runtime.toRow r) columns = .ok key →
      ∀ c ∈ columns, ∃ text, (runtime.toRow r).lookup c = some (some text) := by
    intro columns
    induction columns with
    | nil => simp
    | cons column columns ih =>
      intro hcolumns key hkey c hc
      have hcolumn := hcolumns column mem_cons_self
      have hfound := lookup_toRow r ⟨column, runtime.keys_columns column hcolumn⟩
      unfold watermarkCompositeRowKey at hkey
      rw [lookup_of_some (keys_named column hcolumn) hfound] at hkey
      cases hvalue : r ⟨column, runtime.keys_columns column hcolumn⟩ with
      | none =>
        rw [hvalue] at hkey
        cases hkey
      | some text =>
        rw [hvalue] at hkey hfound
        cases mem_cons.mp hc with
        | inl hc => exact ⟨text, by rw [hc]; exact hfound⟩
        | inr hc =>
          cases hrest : watermarkCompositeRowKey fold (runtime.toRow r) columns with
          | error err =>
            rw [hrest] at hkey
            cases hkey
          | ok rest =>
            exact ih (fun c hc => hcolumns c (mem_cons_of_mem _ hc)) rest hrest c hc
  let texts : Text → Text := fun c => (((runtime.toRow r).lookup c).getD none).getD []
  have htexts : ∀ c ∈ runtime.targetKeys,
      (runtime.toRow r).lookup c = some (some (texts c)) := by
    intro c hc
    obtain ⟨text, htext⟩ := hvalues runtime.targetKeys (fun _ hc => hc) key h c hc
    simp [texts, htext]
  refine ⟨texts, ?_, htexts⟩
  rw [TableRuntime.keyOf, compositeRowKey_eq keys_named htexts] at h
  exact (Except.ok.inj h).symm

/-! ### Statements -/

/-- Statements about keys that are all different change these keys, each on its own. -/
theorem foldlM_mutate {ι : Type} {keysOf : ι → Row}
    {change : ι → Option runtime.Stored → Except Err (Option runtime.Stored)}
    {item : Text → Option ι} (result : ι → Option runtime.Stored → Option runtime.Stored) :
    ∀ {keys : List Text} {table : runtime.Table}, keys.Nodup →
    (∀ key ∈ keys, ∀ i, item key = some i →
      runtime.keyOf (keysOf i) = .ok key ∧ change i (table key) = .ok (result i (table key))) →
    (keys.filterMap item).foldlM (runtime.mutate keysOf change) table = .ok fun key =>
      if key ∈ keys then ((item key).map fun i => result i (table key)).getD (table key)
      else table key
  | [], table, _, _ => by simp
  | key :: keys, table, hnodup, hitems => by
    obtain ⟨hnew, hkeys⟩ := nodup_cons.mp hnodup
    cases hitem : item key with
    | none =>
      rw [filterMap_cons_none hitem,
        foldlM_mutate result hkeys fun k hk => hitems k (mem_cons_of_mem _ hk)]
      congr 1
      funext k
      by_cases hk : k = key
      · subst hk
        simp [hnew, hitem]
      · simp [hk]
    | some i =>
      obtain ⟨hkey, hchange⟩ := hitems key mem_cons_self i hitem
      have hstep : runtime.mutate keysOf change table i =
          .ok (Function.update table key (result i (table key))) := by
        unfold TableRuntime.mutate
        rw [hkey, ok_bind, hchange]
        rfl
      have hsame : ∀ k ∈ keys, Function.update table key (result i (table key)) k = table k := by
        intro k hk
        have hne : k ≠ key := fun heq => hnew (heq ▸ hk)
        exact Function.update_of_ne hne _ _
      have hrest : ∀ k ∈ keys, ∀ i', item k = some i' →
          runtime.keyOf (keysOf i') = .ok k ∧
            change i' (Function.update table key (result i (table key)) k) =
              .ok (result i' (Function.update table key (result i (table key)) k)) := by
        intro k hk i' hi'
        rw [hsame k hk]
        exact hitems k (mem_cons_of_mem _ hk) i' hi'
      rw [filterMap_cons_some hitem, foldlM_cons, hstep, ok_bind,
        foldlM_mutate result hkeys hrest]
      congr 1
      funext k
      by_cases hk : k = key
      · subst hk
        simp [hnew, hitem]
      · simp [hk]

/-! ### Reading the target -/

theorem mapM_keyOf (events : List (PreparedChangeEvent runtime)) :
    (events.map PreparedChangeEvent.keys).mapM runtime.keyOf =
      .ok (events.map PreparedChangeEvent.key) := by
  induction events with
  | nil => rfl
  | cons event events ih =>
    rw [map_cons, mapM_cons, keyOf_keys, ih]
    rfl

variable {events : List (PreparedChangeEvent runtime)} {table : runtime.Table}

theorem lookupRows_eq (h : events ≠ []) :
    runtime.lookupRows table (events.map PreparedChangeEvent.keys) =
      .ok ((events.map PreparedChangeEvent.key).dedup.filterMap
        fun key => (table key).map runtime.toRow) := by
  unfold TableRuntime.lookupRows
  rw [mapM_keyOf, ok_bind, if_neg (by simpa using h)]
  rfl

theorem indexRows_eq (hkeyed : runtime.Keyed table) {keys : List Text} (hnodup : keys.Nodup) :
    indexRows runtime (keys.filterMap fun key => (table key).map runtime.toRow) =
      .ok fun key => if key ∈ keys then (table key).map runtime.toRow else none := by
  -- from the right, so that the rows already indexed belong to the other keys
  induction keys using List.reverseRecOn with
  | nil => simp [indexRows]
  | append_singleton keys key ih =>
    obtain ⟨hkeys, -, hdisjoint⟩ := nodup_append.mp hnodup
    have hnew : key ∉ keys := fun hmem => hdisjoint key hmem key (by simp) rfl
    have ih := ih hkeys
    unfold indexRows at ih ⊢
    rw [filterMap_append, foldlM_append, ih]
    cases hrow : table key with
    | none =>
      simp only [filterMap_cons, hrow, Option.map_none, filterMap_nil]
      show Except.ok _ = _
      congr 1
      funext k
      by_cases hk : k = key
      · subst hk
        simp [hnew, hrow]
      · simp [hk]
    | some r =>
      simp only [filterMap_cons, hrow, Option.map_some, filterMap_nil]
      have hfree : ¬ (if key ∈ keys then (table key).map runtime.toRow else none).isSome = true := by
        simp [hnew]
      rw [ok_bind, foldlM_cons, hkeyed key r hrow, ok_bind, if_neg hfree]
      show Except.ok _ = _
      congr 1
      funext k
      by_cases hk : k = key
      · subst hk
        simp [hrow]
      · simp [hk]

/-! ### Folding the events -/

/-- What an event leaves of the row of a key. -/
def leave (key : Text) (current : Option Row) (event : PreparedChangeEvent runtime) : Option Row :=
  if event.key = key then
    match event.operation with
    | .delete => none
    | _ => some (writeOver event.keys (some (writeOver event.row current)))
  else current

/-- The keys are in order of their first events, and each has values that name it. -/
structure Ordered (runtime : TableRuntime fold) (folded : Folded) : Prop where
  nodup : folded.orderedKeys.Nodup
  named : ∀ key ∈ folded.orderedKeys, ∃ row, folded.keyValuesByKey key = some row ∧
    runtime.keyOf row = .ok key

/-- What the loop holds once it has seen the key of an event. -/
def noteKey (folded : Folded) (event : PreparedChangeEvent runtime) : Folded :=
  if event.key ∈ folded.orderedKeys then folded
  else { folded with
    orderedKeys := folded.orderedKeys ++ [event.key]
    keyValuesByKey := Function.update folded.keyValuesByKey event.key (some event.keys) }

theorem foldEvent_eq (folded : Folded) (event : PreparedChangeEvent runtime) :
    foldEvent runtime folded event = .ok { noteKey folded event with
      currentByKey := Function.update (noteKey folded event).currentByKey event.key
        (leave event.key ((noteKey folded event).currentByKey event.key) event) } := by
  unfold foldEvent leave
  rw [keyOf_keys, ok_bind, if_pos rfl]
  cases event.operation <;> rfl

theorem currentByKey_noteKey (folded : Folded) (event : PreparedChangeEvent runtime) :
    (noteKey folded event).currentByKey = folded.currentByKey := by
  unfold noteKey
  split <;> rfl

theorem mem_noteKey (folded : Folded) (event : PreparedChangeEvent runtime) (key : Text) :
    key ∈ (noteKey folded event).orderedKeys ↔ key ∈ folded.orderedKeys ∨ event.key = key := by
  unfold noteKey
  split
  · rename_i hmem
    constructor
    · exact .inl
    · intro hkey
      cases hkey with
      | inl hkey => exact hkey
      | inr hkey => exact hkey ▸ hmem
  · rw [mem_append, mem_singleton, eq_comm]

theorem Ordered.noteKey {folded : Folded} (h : Ordered runtime folded)
    (event : PreparedChangeEvent runtime) : Ordered runtime (noteKey folded event) := by
  unfold Sync.noteKey
  split
  · exact h
  · rename_i hnew
    constructor
    · rw [nodup_append]
      refine ⟨h.nodup, nodup_singleton _, ?_⟩
      intro key hkey key' hkey' heq
      rw [mem_singleton] at hkey'
      exact hnew (hkey' ▸ heq ▸ hkey)
    · intro key hkey
      by_cases hsame : key = event.key
      · refine ⟨event.keys, ?_, hsame ▸ keyOf_keys event⟩
        rw [hsame]
        exact Function.update_self _ _ _
      · simp only [mem_append, mem_singleton, hsame, or_false] at hkey
        obtain ⟨row, hrow, hnamed⟩ := h.named key hkey
        refine ⟨row, ?_, hnamed⟩
        rw [← hrow]
        exact Function.update_of_ne hsame _ _

/-- **What the loop over the events holds at its end**; induction on the events. -/
theorem foldlM_foldEvent : ∀ (events : List (PreparedChangeEvent runtime)) {folded : Folded},
    Ordered runtime folded → ∃ folded', events.foldlM (foldEvent runtime) folded = .ok folded' ∧
      Ordered runtime folded' ∧
      (∀ key, key ∈ folded'.orderedKeys ↔
        key ∈ folded.orderedKeys ∨ ∃ event ∈ events, event.key = key) ∧
      ∀ key, folded'.currentByKey key = events.foldl (leave key) (folded.currentByKey key)
  | [], folded, h => ⟨folded, rfl, h, by simp, by simp⟩
  | event :: events, folded, h => by
    have hnoted := h.noteKey event
    have hstep : Ordered runtime { noteKey folded event with
        currentByKey := Function.update (noteKey folded event).currentByKey event.key
          (leave event.key ((noteKey folded event).currentByKey event.key) event) } :=
      ⟨hnoted.nodup, hnoted.named⟩
    obtain ⟨folded', hrun, hordered, hkeys, hcurrent⟩ := foldlM_foldEvent events hstep
    refine ⟨folded', ?_, hordered, ?_, ?_⟩
    · rw [foldlM_cons, foldEvent_eq, ok_bind, hrun]
    · intro key
      rw [hkeys key]
      show key ∈ (noteKey folded event).orderedKeys ∨ _ ↔ _
      rw [mem_noteKey]
      simp only [mem_cons, exists_eq_or_imp]
      exact or_assoc
    · intro key
      rw [hcurrent key, foldl_cons]
      congr 1
      rw [currentByKey_noteKey]
      by_cases hkey : event.key = key
      · rw [hkey]
        exact Function.update_self _ _ _
      · unfold leave
        rw [if_neg hkey]
        exact Function.update_of_ne (Ne.symm hkey) _ _

/-! ### Net changes -/

/-- What a batch makes of the target: for each key the row that its events leave, written over
the row that the key had before the batch. -/
def net (table : runtime.Table) (events : List (PreparedChangeEvent runtime)) : runtime.Table :=
  fun key => (events.foldl (leave key) ((table key).map runtime.toRow)).map fun row =>
    runtime.overlay row ((table key).getD runtime.defaults)

theorem leave_of_ne (h : ∀ event ∈ events, event.key ≠ key) (current : Option Row) :
    events.foldl (leave key) current = current := by
  induction events with
  | nil => rfl
  | cons event events ih =>
    rw [foldl_cons]
    unfold leave
    rw [if_neg (h event mem_cons_self)]
    exact ih fun e he => h e (mem_cons_of_mem _ he)

/-- What the events of a key leave has the texts of the key in its key columns. -/
theorem atKey_leave {current : Option Row} (h : ∀ row, current = some row → AtKey runtime key row)
    (hrow : events.foldl (leave key) current = some row) : AtKey runtime key row := by
  induction events generalizing current with
  | nil => exact h row hrow
  | cons event events ih =>
    apply ih ?_ hrow
    intro left hleft
    unfold leave at hleft
    split at hleft
    · rename_i hkey
      split at hleft
      · cases hleft
      · cases hleft
        exact (hkey ▸ atKey_keys event).union _
    · exact h left hleft

theorem watermarkValuesEqual_iff {left right : Value} :
    watermarkValuesEqual left right = true ↔ left = right := by
  cases left <;> cases right <;> simp [watermarkValuesEqual]

theorem lookup_filter (row : Row) (p : (Sigma fun _ : Text => Value) → Bool)
    (h : (row.entries.filter p).NodupKeys) (c : Text) :
    (AList.mk (row.entries.filter p) h).lookup c = (row.lookup c).filter fun v => p ⟨c, v⟩ := by
  ext v
  rw [← Option.mem_def, AList.mem_lookup_iff, mem_filter, Option.filter_eq_some_iff,
    ← AList.mem_lookup_iff, Option.mem_def]

/-- The changed values, written over the row, are all the values written over it. -/
theorem overlay_changedValues {r : runtime.Stored} {current : Row}
    (h : AtKey runtime key (runtime.toRow r)) (hcurrent : AtKey runtime key current) :
    runtime.overlay (changedValues runtime (runtime.toRow r) current) r =
      runtime.overlay current r := by
  funext c
  have hinitial : (lookupProjectionSourceValue fold (runtime.toRow r) c.1).1 = r c := by
    rw [lookup_of_some (runtime.columns_named c.1 c.2) (lookup_toRow r c)]
  unfold TableRuntime.overlay changedValues
  rw [lookup_filter]
  cases hvalue : current.lookup c.1 with
  | none => rfl
  | some value =>
    rw [Option.filter_some]
    split
    · rfl
    · rename_i hkept
      rw [Option.getD_none, Option.getD_some]
      simp only [hinitial, decide_eq_true_eq, not_and, not_not] at hkept
      by_cases hkey : changeEventContainsFold fold runtime.targetKeys c.1 = true
      · have hc := runtime.keys_apart c.1 c.2 hkey
        have hsame := h.lookup_eq hcurrent hc
        rw [lookup_toRow, hvalue] at hsame
        exact Option.some.inj hsame
      · exact (watermarkValuesEqual_iff.mp (hkept hkey)).symm

/-- **The net changes leave at each key the row that the loop holds for it.** -/
theorem applyChanges_netChanges (hkeyed : runtime.Keyed table)
    {initialByKey : Text → Option Row} {folded : Folded} (hordered : Ordered runtime folded)
    (hinitial : ∀ key ∈ folded.orderedKeys,
      initialByKey key = (table key).map runtime.toRow)
    (hcurrent : ∀ key row, folded.currentByKey key = some row → AtKey runtime key row) :
    runtime.applyChanges (netChanges runtime initialByKey folded) table = .ok fun key =>
      if key ∈ folded.orderedKeys then
        (folded.currentByKey key).map fun row =>
          runtime.overlay row ((table key).getD runtime.defaults)
      else table key := by
  have hnamed : ∀ key ∈ folded.orderedKeys,
      runtime.keyOf ((folded.keyValuesByKey key).getD ∅) = .ok key := by
    intro key hkey
    obtain ⟨row, hrow, hnamed⟩ := hordered.named key hkey
    rw [hrow]
    exact hnamed
  unfold TableRuntime.applyChanges netChanges
  dsimp only
  -- the deletes
  rw [foldlM_mutate (fun _ _ => none) hordered.nodup (by
    intro key hkey i hi
    refine ⟨?_, rfl⟩
    split at hi
    · cases hi
      exact hnamed key hkey
    · cases hi), ok_bind]
  -- the updates
  rw [foldlM_mutate (fun (update : UpdateRow) r =>
    r.map (runtime.overlay update.values)) hordered.nodup (by
    intro key hkey i hi
    refine ⟨?_, rfl⟩
    split at hi
    · split at hi
      · cases hi
      · cases hi
        exact hnamed key hkey
    · cases hi), ok_bind]
  -- the inserts, whose keys are free
  rw [foldlM_mutate (fun row _ => some (runtime.overlay row runtime.defaults))
    hordered.nodup (by
    intro key hkey i hi
    split at hi
    · rename_i hfree hleft
      cases hi
      refine ⟨(hcurrent key _ hleft).keyOf, ?_⟩
      rw [hinitial key hkey, Option.map_eq_none_iff] at hfree
      simp [hkey, hinitial key hkey, hfree]
    · cases hi)]
  congr 1
  funext key
  by_cases hkey : key ∈ folded.orderedKeys
  · simp only [hkey, if_true, hinitial key hkey]
    cases hrow : table key with
    | none => cases folded.currentByKey key <;> simp
    | some r =>
      cases hleft : folded.currentByKey key with
      | none => simp
      | some row =>
        have hoverlay := overlay_changedValues (atKey_toRow (hkeyed key r hrow))
          (hcurrent key row hleft)
        simp only [Option.map_some, Option.getD_some]
        split
        · rename_i hnothing
          have hempty : changedValues runtime (runtime.toRow r) row = ∅ := AList.ext hnothing
          rw [hempty, overlay_empty] at hoverlay
          simp [← hoverlay]
        · simp [hoverlay]
  · simp [hkey]

/-- **What a batch does to the target.** -/
theorem applyPreparedChangeEventBatch_eq (hkeyed : runtime.Keyed table) (hne : events ≠ []) :
    applyPreparedChangeEventBatch runtime table events = .ok (net table events) := by
  let initialByKey : Text → Option Row := fun key =>
    if key ∈ (events.map PreparedChangeEvent.key).dedup then (table key).map runtime.toRow
    else none
  have hstart : Ordered runtime ⟨initialByKey, fun _ => none, []⟩ := ⟨nodup_nil, by simp⟩
  obtain ⟨folded, hrun, hordered, hkeys, hcurrent⟩ := foldlM_foldEvent events hstart
  have hmem : ∀ key, key ∈ folded.orderedKeys ↔ key ∈ (events.map PreparedChangeEvent.key).dedup := by
    intro key
    rw [hkeys key, mem_dedup, mem_map]
    simp
  have hinitial : ∀ key ∈ folded.orderedKeys, initialByKey key = (table key).map runtime.toRow := by
    intro key hkey
    exact if_pos ((hmem key).mp hkey)
  have hleft : ∀ key row, folded.currentByKey key = some row → AtKey runtime key row := by
    intro key row hrow
    rw [hcurrent key] at hrow
    refine atKey_leave ?_ hrow
    intro row' hrow'
    show AtKey runtime key row'
    have hrow' : initialByKey key = some row' := hrow'
    unfold initialByKey at hrow'
    split at hrow'
    · obtain ⟨r, hr, rfl⟩ := Option.map_eq_some_iff.mp hrow'
      exact atKey_toRow (hkeyed key r hr)
    · cases hrow'
  have hnet : (fun key => if key ∈ folded.orderedKeys then
      (folded.currentByKey key).map fun row =>
        runtime.overlay row ((table key).getD runtime.defaults)
      else table key) = net table events := by
    funext key
    unfold net
    by_cases hkey : key ∈ folded.orderedKeys
    · rw [if_pos hkey, hcurrent key]
      show (events.foldl (leave key) (initialByKey key)).map _ = _
      rw [hinitial key hkey]
    · have hnone : ∀ event ∈ events, event.key ≠ key := by
        intro event hevent heq
        exact hkey ((hkeys key).mpr (.inr ⟨event, hevent, heq⟩))
      rw [if_neg hkey, leave_of_ne hnone]
      cases table key with
      | none => rfl
      | some r => simp
  have happly := applyChanges_netChanges hkeyed hordered hinitial hleft
  rw [hnet] at happly
  unfold applyPreparedChangeEventBatch
  rw [lookupRows_eq hne, ok_bind, indexRows_eq hkeyed (nodup_dedup _), ok_bind]
  show (events.foldlM (foldEvent runtime) ⟨initialByKey, fun _ => none, []⟩ >>= _) = _
  rw [hrun, ok_bind]
  dsimp only
  split
  · -- nothing to change: applying no statements is the same
    rename_i hnothing
    rw [← happly]
    have hempty : netChanges runtime initialByKey folded = ⟨[], [], []⟩ := by
      cases hchanges : netChanges runtime initialByKey folded with
      | mk inserts updates deletes =>
        rw [hchanges] at hnothing
        simp only [Nat.add_eq_zero_iff, length_eq_zero_iff] at hnothing
        rw [hnothing.1.1, hnothing.1.2, hnothing.2]
    rw [hempty]
    rfl
  · exact happly

theorem keyed_net (hkeyed : runtime.Keyed table) (events : List (PreparedChangeEvent runtime)) :
    runtime.Keyed (net table events) := by
  intro key r hr
  obtain ⟨row, hrow, rfl⟩ := Option.map_eq_some_iff.mp hr
  have hat : AtKey runtime key row := by
    refine atKey_leave ?_ hrow
    intro row' hrow'
    obtain ⟨r', hr', rfl⟩ := Option.map_eq_some_iff.mp hrow'
    exact atKey_toRow (hkeyed key r' hr')
  exact (hat.overlay _).keyOf

end GoNavi.Sync
