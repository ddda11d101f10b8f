import GoNavi.Resultdiff.Aligned

/-! # Keys as joined texts

The text of a key is its components joined by a separator that is not escaped, so a component
that contains the separator can stand for two.

**A comparison tells different keys apart exactly when no two rows have different components that
are the same once cut at every separator** (`keys_exact_iff`). -/

namespace GoNavi.Resultdiff

open Scan List Option

/-! ### Joined lists -/

section joined

variable {α : Type} [DecidableEq α]

/-- What is left of the lists when each is cut at every `sep`. -/
def pieces (sep : α) (parts : List (List α)) : List (List α) := parts.flatMap (List.splitOn sep)

theorem splitOn_join (sep : α) : ∀ {parts : List (List α)}, parts ≠ [] →
    (List.intercalate [sep] parts).splitOn sep = pieces sep parts
  | [], h => absurd rfl h
  | [p], _ => by
    rw [intercalate_singleton, pieces, flatMap_singleton]
  | p :: q :: parts, _ => by
    have ih := splitOn_join sep (cons_ne_nil q parts)
    rw [intercalate_cons_cons, append_assoc, singleton_append,
      splitOn_append_cons_self, ih]
    rfl

/-- **Two joined lists are equal exactly when their pieces are.** -/
theorem join_eq_join_iff (sep : α) {ps qs : List (List α)} (hlength : ps.length = qs.length) :
    List.intercalate [sep] ps = List.intercalate [sep] qs ↔ pieces sep ps = pieces sep qs := by
  cases ps with
  | nil =>
    obtain rfl := eq_nil_of_length_eq_zero hlength.symm
    exact ⟨fun _ => rfl, fun _ => rfl⟩
  | cons p ps =>
    have hqs : qs ≠ [] := by
      rintro rfl
      cases hlength
    rw [← splitOn_join sep (cons_ne_nil p ps), ← splitOn_join sep hqs]
    constructor
    · intro h
      rw [h]
    · intro h
      have hps := @List.intercalate_splitOn _ (List.intercalate [sep] (p :: ps)) _ _ sep
      rw [h, intercalate_splitOn] at hps
      exact hps.symm

end joined

section engine

variable {ν : Type} (unicode : UnicodeTables) (sprint : ν → Text)

/-! ### Components -/

/-- The normalised components of a row's key, or `none` if a column of it is missing. -/
def keyParts (range : Text → Row ν → Row ν) (row : Row ν) (keyColumns : List Text)
    (opts : CompareOptions) : Option (List Text) :=
  keyColumns.mapM fun col =>
    match lookupValue unicode (range col row) col with
    | none | some none => if opts.nullEqualsEmpty then some [] else none
    | some value => some (normalizeValue unicode sprint value opts)

theorem buildKey_eq (range : Text → Row ν → Row ν) (row : Row ν) (keyColumns : List Text)
    (opts : CompareOptions) :
    buildKey unicode sprint range row keyColumns opts =
      (keyParts unicode sprint range row keyColumns opts).map (List.intercalate keySep) := by
  unfold buildKey keyParts
  rw [map_eq_bind]
  rfl

theorem length_of_mapM {α β : Type} {f : α → Option β} : ∀ {as : List α} {bs : List β},
    as.mapM f = some bs → bs.length = as.length
  | [], bs, h => by
    cases h
    rfl
  | a :: as, bs, h => by
    rw [mapM_cons] at h
    obtain ⟨b, -, h⟩ := bind_eq_some_iff.mp h
    obtain ⟨bs', hbs', h⟩ := bind_eq_some_iff.mp h
    cases h
    rw [length_cons, length_cons, length_of_mapM hbs']

/-- Two different keys that are the same once cut at every separator. -/
def Collide (ps qs : List Text) : Prop := ps ≠ qs ∧ pieces 0x1F ps = pieces 0x1F qs

instance (ps qs : List Text) : Decidable (Collide ps qs) := instDecidableAnd

namespace Request

variable (ranging : Ranging) (request : Request ν)

/-- The components of the key of a row, as the index reads them. -/
def partsAt (side : Side) (entry : Row ν × ℕ) : Option (List Text) :=
  keyParts unicode sprint (fun col => ranging.range (.indexing side entry.2 col)) entry.1
    (request.keys unicode) request.opts

/-- The comparison aligns a row of the left side with one of the right side: they are the rows
indexed under one key. -/
def Aligned (left right : Row ν × ℕ) : Prop :=
  ∃ key, request.firstAt unicode sprint ranging .left key = some left ∧
    request.firstAt unicode sprint ranging .right key = some right

/-- The comparison leaves a row unmatched because its key is taken by another row of its side. -/
def Taken (side : Side) (first later : Row ν × ℕ) : Prop :=
  later ∈ (request.rows side).zipIdx ∧
    ∃ key, request.firstAt unicode sprint ranging side key = some first ∧
      request.keyAt unicode sprint ranging side later = some key

variable {unicode sprint ranging request}

theorem keyAt_eq (side : Side) (entry : Row ν × ℕ) :
    request.keyAt unicode sprint ranging side entry =
      (request.partsAt unicode sprint ranging side entry).map (List.intercalate keySep) :=
  buildKey_eq unicode sprint _ _ _ _

variable {entry : Row ν × ℕ} {key : Text} {side : Side}

theorem firstAt_spec (h : request.firstAt unicode sprint ranging side key = some entry) :
    entry ∈ (request.rows side).zipIdx ∧
      request.keyAt unicode sprint ranging side entry = some key :=
  ⟨mem_of_find?_eq_some h, by simpa using find?_some h⟩

/-- Some row of a side is indexed under the key of any of its rows. -/
theorem exists_firstAt (hmem : entry ∈ (request.rows side).zipIdx)
    (hkey : request.keyAt unicode sprint ranging side entry = some key) :
    ∃ first, request.firstAt unicode sprint ranging side key = some first := by
  apply isSome_iff_exists.mp
  unfold firstAt
  rw [find?_isSome]
  exact ⟨entry, hmem, by simpa using hkey⟩

variable {a b : Row ν × ℕ} {side' : Side}

/-- **Two rows have one key text exactly when the pieces of their components are the same.** -/
theorem keyAt_eq_iff {ps qs : List Text}
    (ha : request.partsAt unicode sprint ranging side a = some ps)
    (hb : request.partsAt unicode sprint ranging side' b = some qs) :
    request.keyAt unicode sprint ranging side a = request.keyAt unicode sprint ranging side' b ↔
      pieces 0x1F ps = pieces 0x1F qs := by
  have hlength : ps.length = qs.length := (length_of_mapM ha).trans (length_of_mapM hb).symm
  rw [keyAt_eq, keyAt_eq, ha, hb, map_some, map_some, some.injEq]
  exact join_eq_join_iff 0x1F hlength

theorem exists_parts (h : request.keyAt unicode sprint ranging side a = some key) :
    ∃ ps, request.partsAt unicode sprint ranging side a = some ps := by
  rw [keyAt_eq] at h
  obtain ⟨ps, hps, -⟩ := map_eq_some_iff.mp h
  exact ⟨ps, hps⟩

/-- Rows with one key text and no collision have equal components. -/
theorem parts_eq_of_keyAt
    (hfree : ∀ ps qs, request.partsAt unicode sprint ranging side a = some ps →
      request.partsAt unicode sprint ranging side' b = some qs → ¬ Collide ps qs)
    (ha : request.keyAt unicode sprint ranging side a = some key)
    (hb : request.keyAt unicode sprint ranging side' b = some key) :
    request.partsAt unicode sprint ranging side a =
      request.partsAt unicode sprint ranging side' b := by
  obtain ⟨ps, hps⟩ := exists_parts ha
  obtain ⟨qs, hqs⟩ := exists_parts hb
  have hpieces := (keyAt_eq_iff hps hqs).mp (ha.trans hb.symm)
  by_contra hne
  apply hfree ps qs hps hqs
  refine ⟨?_, hpieces⟩
  rintro rfl
  exact hne (hps.trans hqs.symm)

/-- The comparison takes two rows for rows of one key only if their components are equal. -/
structure KeysExact (unicode : UnicodeTables) (sprint : ν → Text) (ranging : Ranging)
    (request : Request ν) : Prop where
  aligned : ∀ left right, request.Aligned unicode sprint ranging left right →
    request.partsAt unicode sprint ranging .left left =
      request.partsAt unicode sprint ranging .right right
  taken : ∀ side first later, request.Taken unicode sprint ranging side first later →
    request.partsAt unicode sprint ranging side first =
      request.partsAt unicode sprint ranging side later

/-- Where the comparison is exact, any two rows with one key text have equal components: each has
those of the row of its side that is indexed under the key. -/
theorem KeysExact.parts_eq (h : KeysExact unicode sprint ranging request)
    (hamem : a ∈ (request.rows side).zipIdx) (hbmem : b ∈ (request.rows side').zipIdx)
    (ha : request.keyAt unicode sprint ranging side a = some key)
    (hb : request.keyAt unicode sprint ranging side' b = some key) :
    request.partsAt unicode sprint ranging side a =
      request.partsAt unicode sprint ranging side' b := by
  obtain ⟨first, hfirst⟩ := exists_firstAt hamem ha
  obtain ⟨first', hfirst'⟩ := exists_firstAt hbmem hb
  have hfa := h.taken side first a ⟨hamem, key, hfirst, ha⟩
  have hfb := h.taken side' first' b ⟨hbmem, key, hfirst', hb⟩
  rw [← hfa, ← hfb]
  cases side with
  | left =>
    cases side' with
    | left =>
      cases hfirst.symm.trans hfirst'
      rfl
    | right => exact h.aligned first first' ⟨key, hfirst, hfirst'⟩
  | right =>
    cases side' with
    | left => exact (h.aligned first' first ⟨key, hfirst', hfirst⟩).symm
    | right =>
      cases hfirst.symm.trans hfirst'
      rfl

/-! ### Aligned rows and the report -/

theorem aligned_iff_mem_pairs {left right : Row ν} :
    (∃ i j, request.Aligned unicode sprint ranging (left, i) (right, j)) ↔
      ∃ key, (key, left, right) ∈ (request.setup unicode sprint ranging).pairs := by
  have hnodup : ((request.setup unicode sprint ranging).leftMap.map Prod.fst).Nodup :=
    (indexByKeys_perm unicode sprint ranging .left (request.keys unicode) request.opts
      request.leftRows).1
  have hpairs : ∀ key, (key, left, right) ∈ (request.setup unicode sprint ranging).pairs ↔
      (request.firstAt unicode sprint ranging .left key).map Prod.fst = some left ∧
        (request.firstAt unicode sprint ranging .right key).map Prod.fst = some right := by
    intro key
    rw [← get_index, ← get_index]
    exact mem_pairs _ hnodup
  constructor
  · rintro ⟨i, j, key, hleft, hright⟩
    refine ⟨key, (hpairs key).mpr ?_⟩
    rw [hleft, hright]
    exact ⟨rfl, rfl⟩
  · rintro ⟨key, h⟩
    obtain ⟨hleft, hright⟩ := (hpairs key).mp h
    obtain ⟨⟨_, i⟩, hl, rfl⟩ := map_eq_some_iff.mp hleft
    obtain ⟨⟨_, j⟩, hr, rfl⟩ := map_eq_some_iff.mp hright
    exact ⟨i, j, key, hl, hr⟩

/-- **The report pairs the aligned rows**, all of them when it shows equal rows. -/
theorem reported_iff_aligned {summary : Summary} {rows : List (DiffRow ν)}
    (h : request.run unicode sprint ranging = .ok (summary, rows)) (left right : Row ν) :
    ((∃ row ∈ rows, row.left = some left ∧ row.right = some right) →
        ∃ i j, request.Aligned unicode sprint ranging (left, i) (right, j)) ∧
      (request.includeSameRows = true →
        (∃ i j, request.Aligned unicode sprint ranging (left, i) (right, j)) →
        ∃ row ∈ rows, row.left = some left ∧ row.right = some right) := by
  obtain ⟨-, -, rfl⟩ := request.of_run_ok unicode sprint ranging h
  have hmem : ∀ row, row ∈ sortReport unicode sprint (request.keys unicode) request.opts
      (request.report unicode sprint ranging).rows ↔
        row ∈ (request.report unicode sprint ranging).rows :=
    fun row => (perm_insertionSort _ _).mem_iff
  rw [aligned_iff_mem_pairs]
  constructor
  · rintro ⟨row, hrow, hleft, hright⟩
    exact exists_pair unicode sprint _ ((hmem row).mp hrow) hleft hright
  · rintro hinclude ⟨key, hpair⟩
    obtain ⟨hhidden, -⟩ | ⟨row, hrow, hsides⟩ := exists_row unicode sprint _ hpair
    · cases hinclude.symm.trans hhidden
    · exact ⟨row, (hmem row).mpr hrow, hsides⟩

end Request

/-- **The comparison takes two rows for rows of one key only if their components are equal,
exactly when no two rows have components that collide**; the rows that a report pairs are the
aligned ones. -/
theorem keys_exact_iff (ranging : Ranging) (request : Request ν) :
    (request.KeysExact unicode sprint ranging ↔
      ∀ side side' a b ps qs, a ∈ (request.rows side).zipIdx →
        b ∈ (request.rows side').zipIdx →
        request.partsAt unicode sprint ranging side a = some ps →
        request.partsAt unicode sprint ranging side' b = some qs → ¬ Collide ps qs) ∧
      ∀ summary rows, request.run unicode sprint ranging = .ok (summary, rows) →
        ∀ left right, (∃ row ∈ rows, row.left = some left ∧ row.right = some right) →
          ∃ i j, request.Aligned unicode sprint ranging (left, i) (right, j) := by
  constructor
  · constructor
    · intro hexact side side' a b ps qs ha hb hps hqs hcollide
      have hkeys := (Request.keyAt_eq_iff hps hqs).mpr hcollide.2
      have hkey : request.keyAt unicode sprint ranging side a =
          some (List.intercalate keySep ps) := by rw [Request.keyAt_eq, hps, map_some]
      have hparts := hexact.parts_eq ha hb hkey (hkeys ▸ hkey)
      exact hcollide.1 (some.inj (hps.symm.trans (hparts.trans hqs)))
    · intro hfree
      constructor
      · rintro left right ⟨key, hleft, hright⟩
        obtain ⟨hl, hlkey⟩ := Request.firstAt_spec hleft
        obtain ⟨hr, hrkey⟩ := Request.firstAt_spec hright
        exact Request.parts_eq_of_keyAt (fun ps qs hps hqs => hfree _ _ _ _ ps qs hl hr hps hqs)
          hlkey hrkey
      · rintro side first later ⟨hl, key, hfirst, hlkey⟩
        obtain ⟨hf, hfkey⟩ := Request.firstAt_spec hfirst
        exact Request.parts_eq_of_keyAt (fun ps qs hps hqs => hfree _ _ _ _ ps qs hf hl hps hqs)
          hfkey hlkey
  · intro summary rows h left right
    exact (Request.reported_iff_aligned h left right).1

end engine

/-- Two rows whose key columns hold other values, of which one holds the separator: they are
aligned, and reported as one changed row. -/
theorem keys_joined :
    let unicode : UnicodeTables := ⟨fun _ => false, fun _ => false, id⟩
    let cell := fun (column : String) (value : Text) => (bytes column, some value)
    let sep : Text := [0x1F]
    let left := [cell "a" (bytes "x" ++ sep ++ bytes "y"), cell "b" (bytes "z"),
      cell "v" (bytes "1")]
    let right := [cell "a" (bytes "x"), cell "b" (bytes "y" ++ sep ++ bytes "z"),
      cell "v" (bytes "1")]
    let request : Request Text := {
      leftRows := [left], rightRows := [right], keyColumns := [bytes "a", bytes "b"]
      compareColumns := [bytes "a", bytes "v"], opts := ⟨false, false, false⟩ }
    request.partsAt unicode id .listed .left (left, 0) ≠
        request.partsAt unicode id .listed .right (right, 0) ∧
      ∃ summary row, request.run unicode id .listed = .ok (summary, [row]) ∧
        row.kind = .changed ∧ row.left = some left ∧ row.right = some right := by
  refine ⟨by decide, ?_⟩
  exact ⟨_, _, rfl, rfl, rfl, rfl⟩

end GoNavi.Resultdiff
