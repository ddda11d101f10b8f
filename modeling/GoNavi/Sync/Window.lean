import GoNavi.Sync.Watermark

/-! # What a watermark run delivers

The predicates of the page query are the lexicographic order of positions
(`lexicographicPredicate_lt`, `lexicographicPredicate_le`), so that a page is the beginning of what
is left of the window (`page_behind`).

**A run that succeeds has delivered the window, and a cursor is durable behind the rows up to it,
if and only if no page ends before the upper bound at a position that compares as if it were
past it** (`runWatermarkSync_sound_iff`). -/

namespace GoNavi.Sync

open Scan List

variable {V : Type} [LinearOrder V]

/-! ### Predicates -/

theorem lexicographicPredicate_cons (greater inclusive : Bool) (literal column : V)
    (values columns : List V) :
    lexicographicPredicate greater inclusive (literal :: values) (column :: columns) =
      (((if greater then literal < column else column < literal) ||
          (inclusive && columns.isEmpty && column = literal)) ||
        (column = literal && lexicographicPredicate greater inclusive values columns)) := by
  have hfirst : lexicographicClause greater inclusive (literal :: values) (column :: columns) 0 =
      ((if greater then literal < column else column < literal) ||
        (inclusive && columns.isEmpty && column = literal)) := by
    cases columns <;> simp [lexicographicClause]
  have hnext : ∀ index, lexicographicClause greater inclusive (literal :: values)
      (column :: columns) (index + 1) = (decide (column = literal) &&
        lexicographicClause greater inclusive values columns index) := by
    intro index
    unfold lexicographicClause
    rw [range_succ_eq_map, all_cons, all_map]
    simp [Function.comp_def, Bool.and_assoc]
  unfold lexicographicPredicate
  rw [length_cons, range_succ_eq_map, any_cons, any_map, hfirst]
  congr 1
  simp only [Function.comp_def, hnext]
  cases decide (column = literal) <;> simp

/-- The lower bound of a page: the position is past that of the cursor. -/
theorem lexicographicPredicate_lt : ∀ {values columns : List V},
    values.length = columns.length →
    (lexicographicPredicate true false values columns = true ↔ values < columns)
  | [], [], _ => by simp [lexicographicPredicate]
  | literal :: values, column :: columns, h => by
    rw [lexicographicPredicate_cons, cons_lt_cons_iff]
    have ih := lexicographicPredicate_lt (Nat.succ.inj h)
    simp only [Bool.or_eq_true, Bool.and_eq_true, decide_eq_true_eq, if_true, ih,
      Bool.false_and, Bool.false_eq_true, or_false]
    rw [eq_comm]

theorem cons_le_cons_iff {a b : V} {l l' : List V} : a :: l ≤ b :: l' ↔ a < b ∨ a = b ∧ l ≤ l' := by
  rw [← not_lt, ← not_lt, cons_lt_cons_iff]
  constructor
  · intro h
    cases lt_trichotomy a b with
    | inl hlt => exact .inl hlt
    | inr hge =>
      cases hge with
      | inl heq => exact .inr ⟨heq, fun hlt => h (.inr ⟨heq.symm, hlt⟩)⟩
      | inr hgt => exact absurd (.inl hgt) h
  · intro h hlt
    cases h with
    | inl h =>
      cases hlt with
      | inl hlt => exact absurd hlt h.asymm
      | inr hlt => exact absurd hlt.1 h.ne'
    | inr h =>
      cases hlt with
      | inl hlt => exact absurd h.1 hlt.ne'
      | inr hlt => exact h.2 hlt.2

/-- The upper bound of a page: the position is not past that of the bound. -/
theorem lexicographicPredicate_le : ∀ {values columns : List V},
    values.length = columns.length → columns ≠ [] →
    (lexicographicPredicate false true values columns = true ↔ columns ≤ values)
  | [], [], _, h => absurd rfl h
  | [literal], [column], _, _ => by
    rw [lexicographicPredicate_cons, ← not_lt, cons_lt_cons_iff]
    simp [lexicographicPredicate, le_iff_lt_or_eq]
  | literal :: literal' :: values, column :: column' :: columns, h, _ => by
    have ih : lexicographicPredicate false true (literal' :: values) (column' :: columns) = true ↔
        column' :: columns ≤ literal' :: values :=
      lexicographicPredicate_le (Nat.succ.inj h) (cons_ne_nil _ _)
    rw [lexicographicPredicate_cons]
    simp only [Bool.or_eq_true, Bool.and_eq_true, decide_eq_true_eq, ih, isEmpty_cons,
      Bool.false_eq_true, if_false, and_false, or_false, false_and]
    exact (cons_le_cons_iff).symm

/-! ### The window -/

variable {cursor : WatermarkCursor}

section window

variable {ρ : Type} (source : WatermarkSource ρ V)

/-- The rows past a position, up to the upper bound, in order. -/
def WatermarkSource.window (lower : Option (List V)) (upper : List V) : List ρ :=
  Paging.sortBy source.key (source.rows.filter fun row =>
    (source.position row).isSome && (lower.all fun p => p < source.key row) &&
      source.key row ≤ upper)

variable {source}

theorem key_of_position {row : ρ} {p : List V} (h : source.position row = some p) :
    source.key row = p := by
  unfold WatermarkSource.key
  rw [h]
  rfl

variable {lower : Option (List V)}

theorem mem_window {upper : List V} {row : ρ} :
    row ∈ source.window lower upper ↔ row ∈ source.rows ∧ (source.position row).isSome ∧
      (∀ p, lower = some p → p < source.key row) ∧ source.key row ≤ upper := by
  unfold WatermarkSource.window
  rw [Paging.mem_sortBy, mem_filter]
  cases lower <;> simp [and_assoc]

theorem map_key_filter (rows : List ρ) :
    (rows.filter fun row => (source.position row).isSome).map source.key =
      rows.filterMap source.position := by
  induction rows with
  | nil => rfl
  | cons row rows ih =>
    cases hposition : source.position row with
    | none => simp [hposition, ih]
    | some p => simp [hposition, ih, WatermarkSource.key]

theorem nodup_key (q : ρ → Bool) : ((source.rows.filter fun row =>
    (source.position row).isSome && q row).map source.key).Nodup := by
  have hunique := source.unique
  rw [← map_key_filter] at hunique
  rw [← filter_filter, filter_comm]
  exact hunique.sublist (filter_sublist.map _)

theorem nodup_key_window (lower : Option (List V)) (upper : List V) :
    ((source.rows.filter fun row => (source.position row).isSome &&
      (lower.all fun p => p < source.key row) && source.key row ≤ upper).map source.key).Nodup := by
  simp only [Bool.and_assoc]
  exact nodup_key _

theorem ascending_window (lower : Option (List V)) (upper : List V) :
    Paging.Ascending source.key (source.window lower upper) :=
  Paging.ascending_sortBy (nodup_key_window lower upper)

theorem window_filter {upper : List V} {row : ρ} (hrow : row ∈ source.window lower upper) :
    source.window (some (source.key row)) upper =
      (source.window lower upper).filter fun r => source.key row < source.key r := by
  have hpast := (mem_window.mp hrow).2.2.1
  unfold WatermarkSource.window
  rw [← Paging.sortBy_filter (nodup_key_window lower upper), filter_filter]
  congr 1
  apply filter_congr
  intro r _
  rw [Bool.eq_iff_iff]
  simp only [Option.all_some, Bool.and_eq_true, decide_eq_true_eq]
  constructor
  · intro h
    refine ⟨h.1.2, ⟨h.1.1, ?_⟩, h.2⟩
    cases hlower : lower with
    | none => rfl
    | some p =>
      simp only [Option.all_some, decide_eq_true_eq]
      exact (hpast p hlower).trans h.1.2
  · intro h
    exact ⟨⟨h.2.1.1, h.1⟩, h.2.2⟩

/-! ### Pages -/

/-- A cursor with a value for every column. -/
def WatermarkSource.Fits (source : WatermarkSource ρ V) (cursor : WatermarkCursor) : Prop :=
  cursor.tieBreakers.length = source.tieColumns

theorem length_place (h : source.Fits cursor) :
    (source.place cursor).length = source.tieColumns + 1 := by
  unfold WatermarkSource.place watermarkPositionValues
  rw [length_map, length_cons, h]

theorem place_cursorFromRow {row : ρ} (hrow : row ∈ source.rows)
    (hposition : (source.position row).isSome) :
    source.place (source.cursorFromRow row) = source.key row := by
  obtain ⟨p, hp⟩ := Option.isSome_iff_exists.mp hposition
  unfold WatermarkSource.place
  rw [source.literal row hrow p hp, key_of_position hp]

theorem fits_cursorFromRow {row : ρ} (hrow : row ∈ source.rows)
    (hposition : (source.position row).isSome) : source.Fits (source.cursorFromRow row) := by
  obtain ⟨p, hp⟩ := Option.isSome_iff_exists.mp hposition
  have hlength := congrArg List.length (source.literal row hrow p hp)
  rw [source.width row hrow p hp] at hlength
  unfold watermarkPositionValues at hlength
  rw [length_map, length_cons] at hlength
  exact Nat.succ.inj hlength

/-- **A page is the beginning of the window behind its cursor.** -/
theorem page_eq {lower : Option WatermarkCursor} {upper : WatermarkCursor}
    (hlower : ∀ cursor, lower = some cursor → source.Fits cursor) (hupper : source.Fits upper)
    (batchSize : ℕ) : source.page lower upper batchSize =
      (source.window (lower.map source.place) (source.place upper)).take batchSize := by
  unfold WatermarkSource.page WatermarkSource.window
  congr 2
  apply filter_congr
  intro row hrow
  rw [Bool.eq_iff_iff]
  cases hposition : source.position row with
  | none => simp
  | some p =>
    have hwidth := source.width row hrow p hposition
    have hne : p ≠ [] := ne_nil_of_length_eq_add_one hwidth
    have hle := lexicographicPredicate_le ((length_place hupper).trans hwidth.symm) hne
    rw [key_of_position hposition]
    cases hcursor : lower with
    | none => simpa using hle
    | some cursor =>
      have hlt := lexicographicPredicate_lt
        ((length_place (hlower cursor hcursor)).trans hwidth.symm)
      simp [hle, hlt]

end window

/-! ### Progress through the window -/

variable {n : ℕ}

section progress

variable {ρ : Type} {source : WatermarkSource ρ V} {start : Option WatermarkCursor}
  {upper : WatermarkCursor}

/-- The window of a run that starts at a stored cursor. -/
def WatermarkSource.ahead (source : WatermarkSource ρ V) (start : Option WatermarkCursor)
    (upper : WatermarkCursor) : List ρ :=
  source.window (start.map source.place) (source.place upper)

/-- The durable cursor behind some rows of the window. -/
def WatermarkSource.behind (source : WatermarkSource ρ V) (start : Option WatermarkCursor)
    (upper : WatermarkCursor) (n : ℕ) : Option WatermarkCursor :=
  if n = 0 then start else (source.ahead start upper)[n - 1]?.map source.cursorFromRow

/-- A cursor that is given fits the columns. -/
def WatermarkSource.Valid (source : WatermarkSource ρ V) (start : Option WatermarkCursor) : Prop :=
  ∀ cursor, start = some cursor → source.Fits cursor

theorem behind_succ {row : ρ} (hrow : (source.ahead start upper)[n]? = some row) :
    source.behind start upper (n + 1) = some (source.cursorFromRow row) := by
  unfold WatermarkSource.behind
  rw [if_neg (Nat.succ_ne_zero n), Nat.add_sub_cancel, hrow]
  rfl

theorem valid_behind (hstart : source.Valid start) (n : ℕ) :
    source.Valid (source.behind start upper n) := by
  intro cursor hcursor
  unfold WatermarkSource.behind at hcursor
  split at hcursor
  · exact hstart cursor hcursor
  · obtain ⟨row, hrow, rfl⟩ := Option.map_eq_some_iff.mp hcursor
    have hmem := mem_window.mp (mem_of_getElem? hrow)
    exact fits_cursorFromRow hmem.1 hmem.2.1

/-- **The page behind some rows of the window is the beginning of the others.** -/
theorem page_behind (hstart : source.Valid start) (hupper : source.Fits upper) (batchSize : ℕ)
    (hn : n ≤ (source.ahead start upper).length) :
    source.page (source.behind start upper n) upper batchSize =
      ((source.ahead start upper).drop n).take batchSize := by
  rw [page_eq (valid_behind hstart n) hupper]
  congr 1
  cases n with
  | zero => rfl
  | succ n =>
    have hrow := getElem?_eq_getElem (Nat.lt_of_succ_le hn)
    have hmem : (source.ahead start upper)[n] ∈ source.ahead start upper := getElem_mem _
    have hwindow := mem_window.mp hmem
    rw [behind_succ hrow, Option.map_some, place_cursorFromRow hwindow.1 hwindow.2.1,
      window_filter hmem]
    have hpage : (source.ahead start upper).take (n + 1) ≠ [] := by
      intro hnil
      have hlength := congrArg List.length hnil
      rw [length_take, length_nil] at hlength
      omega
    have hlast : ((source.ahead start upper).take (n + 1)).getLast hpage =
        (source.ahead start upper)[n] := by
      rw [getLast_eq_getElem, getElem_take]
      congr 1
      rw [length_take]
      omega
    rw [← hlast]
    refine Eq.trans (filter_congr fun r _ => ?_)
      ((ascending_window (start.map source.place) (source.place upper)).filter_last hpage)
    exact decide_eq_decide.mpr Iff.rfl

end progress

/-! ### The upper bound -/

section bound

variable {ρ : Type} {source : WatermarkSource ρ V}

theorem upperBound_eq_none (h : source.upperBound = none) :
    ∀ row ∈ source.rows, source.position row = none := by
  intro row hrow
  unfold WatermarkSource.upperBound at h
  rw [head?_eq_none_iff] at h
  cases hposition : source.position row with
  | none => rfl
  | some p =>
    have hmem : row ∈ Paging.sortBy (fun row => OrderDual.toDual (source.key row))
        (source.rows.filter fun row => (source.position row).isSome) := by
      rw [Paging.mem_sortBy, mem_filter, hposition]
      exact ⟨hrow, rfl⟩
    rw [h] at hmem
    cases hmem

/-- **The upper bound is the last position.** -/
theorem upperBound_eq_some {row : ρ} (h : source.upperBound = some row) :
    row ∈ source.rows ∧ (source.position row).isSome ∧
      ∀ r ∈ source.rows, (source.position r).isSome → source.key r ≤ source.key row := by
  unfold WatermarkSource.upperBound at h
  have hmem := mem_of_head? h
  rw [Paging.mem_sortBy, mem_filter] at hmem
  refine ⟨hmem.1, hmem.2, ?_⟩
  intro r hr hposition
  have hnodup : ((source.rows.filter fun row => (source.position row).isSome).map
      fun row => OrderDual.toDual (source.key row)).Nodup := by
    have hkeys : ((source.rows.filter fun row =>
        (source.position row).isSome && true).map source.key).Nodup := nodup_key fun _ => true
    simp only [Bool.and_true] at hkeys
    have hdual := hkeys.map OrderDual.toDual.injective
    rw [map_map] at hdual
    exact hdual
  have hsorted := Paging.ascending_sortBy hnodup
  obtain ⟨rest, hrest⟩ := head?_eq_some_iff.mp h
  have hr' : r ∈ Paging.sortBy (fun row => OrderDual.toDual (source.key row))
      (source.rows.filter fun row => (source.position row).isSome) := by
    rw [Paging.mem_sortBy, mem_filter]
    exact ⟨hr, hposition⟩
  rw [hrest] at hr' hsorted
  cases mem_cons.mp hr' with
  | inl hr' => rw [hr']
  | inr hr' => exact (OrderDual.toDual_lt_toDual.mp ((pairwise_cons.mp hsorted).1 r hr')).le

end bound

/-! ### Runs -/

variable {batchSize : ℕ}

section runs

variable {ρ : Type}

/-- The rows that a run has applied, in order. -/
def delivered (trace : List (WatermarkEvent ρ)) : List ρ :=
  trace.flatMap fun
    | .applied rows => rows
    | .checkpoint _ => []

variable (source : WatermarkSource ρ V) (start : Option WatermarkCursor)

/-- The rows between the stored cursor and another one have been applied. -/
def Covers (trace : List (WatermarkEvent ρ)) (cursor : WatermarkCursor) : Prop :=
  ∀ row ∈ source.rows, (source.position row).isSome →
    (∀ stored, start = some stored → source.place stored < source.key row) →
    source.key row ≤ source.place cursor → row ∈ delivered trace

/-- Whenever a cursor is checkpointed, the rows up to it have been applied. -/
def Checkpointed (trace : List (WatermarkEvent ρ)) : Prop :=
  ∀ before cursor after, trace = before ++ .checkpoint cursor :: after →
    Covers source start before cursor

/-- What a run promises: when it succeeds, the rows of the window have been applied, each once and
in order; and the rows up to a cursor that it checkpoints or reports have been applied before. -/
structure Sound (result : WatermarkResult ρ) : Prop where
  success : result.success = true → ∀ upper, result.upperBound = some upper →
    delivered result.trace = source.ahead start upper
  nothing : result.success = true → result.upperBound = none →
    delivered result.trace = [] ∧ ∀ row ∈ source.rows, source.position row = none
  checkpointed : Checkpointed source start result.trace
  reported : ∀ cursor, result.cursor = some cursor → Covers source start result.trace cursor

/-- A position compares as if it were at or past another one. -/
def SeesEnd (left right : WatermarkCursor) : Prop :=
  atOrPast (compareWatermarkValues (watermarkPositionValues left)
    (watermarkPositionValues right)) = true

/-- Neither the stored cursor nor a page that ends before the upper bound compares as if it were at
or past the bound while rows are left. -/
def NoEarlyEnd (batchSize : ℕ) : Prop :=
  ∀ bound, source.upperBound = some bound →
    (∀ stored, start = some stored → SeesEnd stored (source.cursorFromRow bound) →
      source.ahead start (source.cursorFromRow bound) = []) ∧
    ∀ k row, 0 < k → k * batchSize < (source.ahead start (source.cursorFromRow bound)).length →
      (source.ahead start (source.cursorFromRow bound))[k * batchSize - 1]? = some row →
      ¬ SeesEnd (source.cursorFromRow row) (source.cursorFromRow bound)

variable {source start} {upper : WatermarkCursor} {trace : List (WatermarkEvent ρ)}

@[simp] theorem delivered_append (trace trace' : List (WatermarkEvent ρ)) :
    delivered (trace ++ trace') = delivered trace ++ delivered trace' :=
  flatMap_append

@[simp] theorem delivered_applied (rows : List ρ) :
    delivered [WatermarkEvent.applied rows] = rows := by
  simp [delivered]

@[simp] theorem delivered_checkpoint (cursor : WatermarkCursor) :
    delivered [(.checkpoint cursor : WatermarkEvent ρ)] = [] := by
  simp [delivered]

/-- Once the first rows of the window have been applied, the cursor behind them may be durable. -/
theorem covers_behind {m : ℕ} (hnm : n ≤ m)
    (hdelivered : delivered trace = (source.ahead start upper).take m)
    (hcursor : source.behind start upper n = some cursor) : Covers source start trace cursor := by
  intro row hrow hposition hpast hle
  cases n with
  | zero =>
    have hstored : start = some cursor := hcursor
    exact absurd hle (hpast cursor hstored).not_ge
  | succ n =>
    unfold WatermarkSource.behind at hcursor
    rw [if_neg (Nat.succ_ne_zero n), Nat.add_sub_cancel] at hcursor
    obtain ⟨last, hlast, rfl⟩ := Option.map_eq_some_iff.mp hcursor
    have hwindow := mem_window.mp (mem_of_getElem? hlast)
    rw [place_cursorFromRow hwindow.1 hwindow.2.1] at hle
    have hmem : row ∈ source.ahead start upper := by
      refine mem_window.mpr ⟨hrow, hposition, ?_, hle.trans hwindow.2.2.2⟩
      intro p hp
      obtain ⟨stored, hstored, rfl⟩ := Option.map_eq_some_iff.mp hp
      exact hpast stored hstored
    obtain ⟨i, hi, hrow'⟩ := List.mem_iff_getElem.mp hmem
    obtain ⟨hn, hlast⟩ := List.getElem?_eq_some_iff.mp hlast
    rw [hdelivered, List.mem_take_iff_getElem]
    refine ⟨i, ?_, hrow'⟩
    rw [Nat.lt_min]
    refine ⟨?_, hi⟩
    -- a row behind the last one would have a later position
    by_contra hlate
    have hni : n < i := by omega
    have hlt := pairwise_iff_getElem.mp
      (ascending_window (start.map source.place) (source.place upper)) n i hn hi hni
    have hlt : source.key last < source.key row := by
      rw [← hlast, ← hrow']
      exact hlt
    exact hlt.not_ge hle

theorem checkpointed_nil : Checkpointed source start [] := by
  intro before cursor after h
  cases before <;> cases h

theorem Checkpointed.concat (h : Checkpointed source start trace) {event : WatermarkEvent ρ}
    (hevent : ∀ cursor, event = .checkpoint cursor → Covers source start trace cursor) :
    Checkpointed source start (trace ++ [event]) := by
  intro before cursor after heq
  rcases after.eq_nil_or_concat with rfl | ⟨after, last, rfl⟩
  · obtain ⟨rfl, hlast⟩ := append_inj' heq rfl
    exact hevent cursor (head_eq_of_cons_eq hlast)
  · rw [concat_eq_append, ← cons_append, ← append_assoc] at heq
    exact h before cursor after (append_inj' heq rfl).1

theorem compareWatermarkCursorPositions_eq {left right : WatermarkCursor}
    (hleft : source.Fits left) (hright : source.Fits right) :
    compareWatermarkCursorPositions left right = .ok (compareWatermarkValues
      (watermarkPositionValues left) (watermarkPositionValues right)) := by
  unfold compareWatermarkCursorPositions
  rw [if_neg]
  unfold watermarkPositionValues
  rw [length_cons, length_cons, hleft, hright]
  exact not_not.mpr rfl

/-- A page of the window ends at a row of the window, and is short only at the end. -/
theorem page_last {ws : List ρ} {row : ρ} (h : ((ws.drop n).take batchSize).getLast? = some row) :
    0 < ((ws.drop n).take batchSize).length ∧
      n + ((ws.drop n).take batchSize).length ≤ ws.length ∧
      ws[n + ((ws.drop n).take batchSize).length - 1]? = some row ∧
      (((ws.drop n).take batchSize).length < batchSize →
        n + ((ws.drop n).take batchSize).length = ws.length) := by
  have hne : ((ws.drop n).take batchSize) ≠ [] := by
    intro hnil
    rw [hnil] at h
    cases h
  have hpos := length_pos_of_ne_nil hne
  rw [getLast?_eq_getElem?, getElem?_take, if_pos (by
    have hle := length_take_le batchSize (ws.drop n)
    omega), getElem?_drop] at h
  have hlength : ((ws.drop n).take batchSize).length = min batchSize (ws.length - n) := by
    rw [length_take, length_drop]
  refine ⟨hpos, by omega, ?_, by omega⟩
  rw [Nat.add_sub_assoc hpos]
  exact h

end runs

/-! ### The loop -/

section loop

variable {ρ : Type} {source : WatermarkSource ρ V} {start : Option WatermarkCursor}
  {upper : WatermarkCursor}

/-- A result is sound that reports a cursor behind rows that have been applied, and all of them
when it is a success. -/
theorem sound_of_behind {success : Bool} {m : ℕ} {trace : List (WatermarkEvent ρ)} (hnm : n ≤ m)
    (hdelivered : delivered trace = (source.ahead start upper).take m)
    (hcheckpointed : Checkpointed source start trace)
    (hall : success = true → (source.ahead start upper).length ≤ m) :
    Sound source start ⟨success, source.behind start upper n, some upper, trace⟩ where
  success := by
    intro hsuccess upper' hupper
    cases hupper
    rw [hdelivered, take_of_length_le (hall hsuccess)]
  nothing := nofun
  checkpointed := hcheckpointed
  reported := fun cursor hcursor => covers_behind hnm hdelivered hcursor

/-- **The loop is sound** when no page ends early; induction on the fuel, which is enough for the
rows that are left. -/
theorem scanPages_sound (hstart : source.Valid start) (hupper : source.Fits upper)
    (hsize : 0 < batchSize)
    (hnoEnd : ∀ k row, 0 < k → k * batchSize < (source.ahead start upper).length →
      (source.ahead start upper)[k * batchSize - 1]? = some row →
      ¬ SeesEnd (source.cursorFromRow row) upper)
    (world : RunWorld) {fuel page : ℕ} {trace : List (WatermarkEvent ρ)}
    (hpage : page * batchSize ≤ (source.ahead start upper).length)
    (hfuel : (source.ahead start upper).length - page * batchSize < fuel)
    (hdelivered : delivered trace = (source.ahead start upper).take (page * batchSize))
    (hcheckpointed : Checkpointed source start trace) :
    ∃ result, scanPages source batchSize world upper fuel page
      (source.behind start upper (page * batchSize)) trace = some result ∧
        Sound source start result := by
  induction fuel generalizing page trace with
  | zero => omega
  | succ fuel ih =>
    unfold scanPages
    dsimp only
    rw [page_behind hstart hupper batchSize hpage]
    generalize hn : page * batchSize = n at hpage hfuel hdelivered ⊢
    split
    · exact ⟨_, rfl, sound_of_behind le_rfl hdelivered hcheckpointed nofun⟩
    · split
      · -- an empty page: nothing is left
        rename_i hnone
        refine ⟨_, rfl, sound_of_behind le_rfl hdelivered hcheckpointed ?_⟩
        intro _
        have hempty := getLast?_eq_none_iff.mp hnone
        have hlength := congrArg List.length hempty
        rw [length_take, length_drop, length_nil] at hlength
        omega
      · rename_i row hrow
        obtain ⟨hpos, hle, hlast, hshort⟩ := page_last hrow
        have hsizeLe := length_take_le batchSize ((source.ahead start upper).drop n)
        generalize hlength : (((source.ahead start upper).drop n).take batchSize).length = count
          at hpos hle hlast hshort hsizeLe
        have hmem := mem_window.mp (mem_of_getElem? hlast)
        have hfits := fits_cursorFromRow hmem.1 hmem.2.1
        have hbehind : source.behind start upper (n + count) = some (source.cursorFromRow row) := by
          have hsucc : n + count = n + count - 1 + 1 := by omega
          rw [hsucc]
          exact behind_succ hlast
        split
        · exact ⟨_, rfl, sound_of_behind le_rfl hdelivered hcheckpointed nofun⟩
        · have hdelivered' : delivered
              (trace ++ [.applied (((source.ahead start upper).drop n).take batchSize)]) =
                (source.ahead start upper).take (n + count) := by
            rw [delivered_append, delivered_applied, hdelivered, take_add]
            congr 1
            rw [length_take] at hlength
            rw [take_eq_take_iff]
            omega
          have hcheckpointed' : Checkpointed source start (trace ++
              [.applied (((source.ahead start upper).drop n).take batchSize)]) :=
            hcheckpointed.concat nofun
          split
          · exact ⟨_, rfl, sound_of_behind (by omega) hdelivered' hcheckpointed' nofun⟩
          · generalize htrace : (if world.hasCheckpoint = true then _ else _ :
              List (WatermarkEvent ρ)) = trace'
            have hcovers := covers_behind le_rfl hdelivered' hbehind
            have hkept : delivered trace' = (source.ahead start upper).take (n + count) ∧
                Checkpointed source start trace' := by
              rw [← htrace]
              split
              · rw [delivered_append, delivered_checkpoint, append_nil]
                exact ⟨hdelivered', hcheckpointed'.concat fun _ h => by cases h; exact hcovers⟩
              · exact ⟨hdelivered', hcheckpointed'⟩
            split
            · exact ⟨_, rfl, sound_of_behind (by omega) hkept.1 hkept.2 nofun⟩
            · rw [compareWatermarkCursorPositions_eq hfits hupper, ← hbehind]
              dsimp only
              have hnext : ¬ count < batchSize → n + count = (page + 1) * batchSize := by
                intro hfull
                rw [Nat.add_mul, hn]
                omega
              split
              · rename_i hseen
                refine ⟨_, rfl, sound_of_behind le_rfl hkept.1 hkept.2 fun _ => ?_⟩
                by_contra hleft
                have hnext := hnext fun hcount => hleft (hshort hcount).ge
                rw [hnext] at hlast hleft
                exact hnoEnd (page + 1) row (Nat.succ_pos page) (not_le.mp hleft) hlast hseen
              · split
                · rename_i hcount
                  exact ⟨_, rfl, sound_of_behind le_rfl hkept.1 hkept.2
                    fun _ => (hshort hcount).ge⟩
                · rename_i hfull
                  have hnext := hnext hfull
                  rw [hnext] at hkept hle ⊢
                  exact ih hle (by omega) hkept.1 hkept.2

/-- A page in which nothing else happens. -/
def quietPage : PageWorld := ⟨false, false, false, false, false, false, false, false⟩

def quietWorld : RunWorld := ⟨false, false, false, false, fun _ => quietPage⟩

/-- When a page ends early, the loop succeeds without the rows behind it; induction on the fuel. -/
theorem scanPages_misses (hstart : source.Valid start) (hupper : source.Fits upper)
    (hsize : 0 < batchSize) {k : ℕ} {row : ρ}
    (hk : k * batchSize < (source.ahead start upper).length)
    (hrow : (source.ahead start upper)[k * batchSize - 1]? = some row)
    (hseen : SeesEnd (source.cursorFromRow row) upper) {fuel page : ℕ}
    {trace : List (WatermarkEvent ρ)} (hpage : page < k)
    (hfuel : (source.ahead start upper).length - page * batchSize < fuel)
    (hdelivered : delivered trace = (source.ahead start upper).take (page * batchSize)) :
    ∃ cursor trace', scanPages source batchSize quietWorld upper fuel page
      (source.behind start upper (page * batchSize)) trace =
        some ⟨true, cursor, some upper, trace'⟩ ∧
      delivered trace' ≠ source.ahead start upper := by
  induction fuel generalizing page trace with
  | zero => omega
  | succ fuel ih =>
    have hpageLe : (page + 1) * batchSize ≤ k * batchSize := Nat.mul_le_mul_right _ hpage
    have hsum : (page + 1) * batchSize = page * batchSize + batchSize := Nat.succ_mul _ _
    have hcount : (((source.ahead start upper).drop (page * batchSize)).take batchSize).length =
        batchSize := by
      rw [length_take, length_drop]
      omega
    unfold scanPages
    rw [page_behind hstart hupper batchSize (by omega), if_neg (by simp [quietWorld, quietPage])]
    cases hlast :
        (((source.ahead start upper).drop (page * batchSize)).take batchSize).getLast? with
    | none =>
      rw [getLast?_eq_none_iff.mp hlast] at hcount
      exact absurd hcount (by simp; omega)
    | some last =>
      obtain ⟨_, _, hlast', _⟩ := page_last hlast
      rw [hcount, ← hsum] at hlast'
      have hmem := mem_window.mp (mem_of_getElem? hlast')
      have hfits := fits_cursorFromRow hmem.1 hmem.2.1
      have hdelivered' : delivered (trace ++
          [.applied (((source.ahead start upper).drop (page * batchSize)).take batchSize)]) =
            (source.ahead start upper).take ((page + 1) * batchSize) := by
        rw [delivered_append, delivered_applied, hdelivered, hsum, take_add]
      dsimp only
      rw [if_neg (by simp [quietWorld, quietPage]), if_neg (by simp [quietWorld, quietPage]),
        if_neg (by simp [quietWorld]), if_neg (by simp [quietWorld]),
        compareWatermarkCursorPositions_eq hfits hupper]
      dsimp only
      split
      · refine ⟨_, _, rfl, ?_⟩
        rw [hdelivered']
        intro hall
        have hlength := congrArg List.length hall
        rw [length_take] at hlength
        omega
      · rename_i hpast
        rw [if_neg (by omega)]
        have hlt : page + 1 < k := by
          refine lt_of_le_of_ne hpage fun heq => hpast ?_
          rw [heq, hrow] at hlast'
          cases hlast'
          exact hseen
        have hbehind : some (source.cursorFromRow last) =
            source.behind start upper ((page + 1) * batchSize) := by
          have hsucc : (page + 1) * batchSize = (page + 1) * batchSize - 1 + 1 := by omega
          rw [hsucc]
          exact (behind_succ hlast').symm
        rw [hbehind]
        exact ih hlt (by omega) hdelivered'

theorem length_ahead_le : (source.ahead start upper).length ≤ source.rows.length := by
  unfold WatermarkSource.ahead WatermarkSource.window
  rw [(Paging.sortBy_perm _).length_eq]
  exact length_filter_le _ _

/-- A run that delivers nothing and reports the stored cursor. -/
theorem sound_start {success : Bool} {bound : Option WatermarkCursor}
    (hsome : success = true → ∀ upper, bound = some upper → source.ahead start upper = [])
    (hnone : success = true → bound = none →
      ∀ row ∈ source.rows, source.position row = none) :
    Sound source start ⟨success, start, bound, []⟩ where
  success := fun hsuccess upper hupper => (hsome hsuccess upper hupper).symm
  nothing := fun hsuccess hbound => ⟨rfl, hnone hsuccess hbound⟩
  checkpointed := checkpointed_nil
  reported := by
    intro cursor hcursor row _ _ hpast hle
    exact absurd hle (hpast cursor hcursor).not_ge

end loop

/-! ### Main result -/

section main

variable {ρ : Type} {source : WatermarkSource ρ V} {start : Option WatermarkCursor}

theorem noEarlyEnd_of_sound (hstart : source.Valid start) (hsize : 0 < batchSize)
    (h : ∀ world, ∃ result, runWatermarkSync source batchSize world start = some result ∧
      Sound source start result) : NoEarlyEnd source start batchSize := by
  intro bound hbound
  obtain ⟨hrow, hposition, _⟩ := upperBound_eq_some hbound
  have hupper := fits_cursorFromRow hrow hposition
  obtain ⟨result, hrun, hsound⟩ := h quietWorld
  unfold runWatermarkSync at hrun
  rw [if_neg (by simp [quietWorld]), hbound] at hrun
  dsimp only at hrun
  rw [if_neg (by simp [quietWorld])] at hrun
  have hearly : ∀ stored, start = some stored →
      SeesEnd stored (source.cursorFromRow bound) →
      source.ahead start (source.cursorFromRow bound) = [] := by
    intro stored hstored hseen
    subst hstored
    dsimp only at hrun
    rw [compareWatermarkCursorPositions_eq (hstart stored rfl) hupper] at hrun
    dsimp only at hrun
    unfold SeesEnd at hseen
    rw [if_pos hseen] at hrun
    cases hrun
    exact (hsound.success rfl _ rfl).symm
  refine ⟨hearly, ?_⟩
  intro k row' hk hleft hrow' hseen
  have hfuel : (source.ahead start (source.cursorFromRow bound)).length ≤ source.rows.length :=
    length_ahead_le
  have hfirst : delivered ([] : List (WatermarkEvent ρ)) =
      (source.ahead start (source.cursorFromRow bound)).take (0 * batchSize) := by
    rw [Nat.zero_mul, take_zero]
    rfl
  obtain ⟨cursor, trace, hscan, hmisses⟩ := scanPages_misses hstart hupper hsize hleft hrow'
    hseen hk (Nat.lt_succ_of_le ((Nat.sub_le _ _).trans hfuel)) hfirst
  rw [Nat.zero_mul] at hscan
  have hresult : result = ⟨true, cursor, some (source.cursorFromRow bound), trace⟩ := by
    cases hcursor : start with
    | none =>
      rw [hcursor] at hrun hscan
      exact Option.some.inj (hrun.symm.trans hscan)
    | some stored =>
      rw [hcursor] at hrun hscan
      dsimp only at hrun
      rw [compareWatermarkCursorPositions_eq (hstart stored hcursor) hupper] at hrun
      dsimp only at hrun
      split at hrun
      · rename_i hstored
        have hempty := hearly stored hcursor hstored
        rw [hempty] at hleft
        exact absurd hleft (Nat.not_lt_zero _)
      · exact Option.some.inj (hrun.symm.trans hscan)
  subst hresult
  exact hmisses (hsound.success rfl _ rfl)

theorem sound_of_noEarlyEnd (hstart : source.Valid start) (hsize : 0 < batchSize)
    (hnoEnd : NoEarlyEnd source start batchSize) (world : RunWorld) :
    ∃ result, runWatermarkSync source batchSize world start = some result ∧
      Sound source start result := by
  unfold runWatermarkSync
  split
  · exact ⟨_, rfl, sound_start nofun nofun⟩
  · cases hbound : source.upperBound with
    | none =>
      exact ⟨_, rfl, sound_start nofun fun _ _ => upperBound_eq_none hbound⟩
    | some bound =>
      obtain ⟨hrow, hposition, _⟩ := upperBound_eq_some hbound
      have hupper := fits_cursorFromRow hrow hposition
      obtain ⟨hstored, hpages⟩ := hnoEnd bound hbound
      dsimp only
      split
      · exact ⟨_, rfl, sound_start nofun nofun⟩
      · have hfuel : (source.ahead start (source.cursorFromRow bound)).length ≤
            source.rows.length := length_ahead_le
        have hfirst : delivered ([] : List (WatermarkEvent ρ)) =
            (source.ahead start (source.cursorFromRow bound)).take (0 * batchSize) := by
          rw [Nat.zero_mul, take_zero]
          rfl
        have hscan := scanPages_sound hstart hupper hsize hpages world (by omega)
          (Nat.lt_succ_of_le ((Nat.sub_le _ _).trans hfuel)) hfirst checkpointed_nil
        rw [Nat.zero_mul] at hscan
        cases hcursor : start with
        | none =>
          rw [hcursor] at hscan
          exact hscan
        | some stored =>
          dsimp only
          rw [compareWatermarkCursorPositions_eq (hstart stored hcursor) hupper]
          dsimp only
          split
          · rename_i hseen
            refine ⟨_, rfl, sound_start ?_ nofun⟩
            intro _ upper hupper'
            cases hupper'
            rw [← hcursor]
            exact hstored stored hcursor hseen
          · rw [hcursor] at hscan
            exact hscan

/-- **A run is sound if and only if no page ends early**: when it succeeds, it has delivered the
window, each row once and in order, and the rows up to a durable cursor have been applied before
the cursor was made durable, whatever happens to the pages. -/
theorem runWatermarkSync_sound_iff (hstart : source.Valid start) {batchSize : ℕ}
    (hsize : 0 < batchSize) :
    (∀ world, ∃ result, runWatermarkSync source batchSize world start = some result ∧
      Sound source start result) ↔ NoEarlyEnd source start batchSize :=
  ⟨noEarlyEnd_of_sound hstart hsize, sound_of_noEarlyEnd hstart hsize⟩

end main

/-! ### Positions beyond 256 bits -/

/-- A source whose rows are their positions, a watermark and one other column of integers. -/
def integerSource (rows : List (ℤ × ℤ)) (hnodup : rows.Nodup) : WatermarkSource (ℤ × ℤ) ℤ where
  rows
  position := fun row => some [row.1, row.2]
  denote
    | .number q => ⌊q⌋
    | _ => 0
  cursorFromRow := fun row => ⟨.number row.1, [.number row.2]⟩
  tieColumns := 1
  unique := by
    have hinjective : Function.Injective fun row : ℤ × ℤ => [row.1, row.2] := by
      intro row row' h
      simp only [List.cons.injEq, and_true] at h
      exact Prod.ext h.1 h.2
    have hmap := hnodup.map hinjective
    rw [filterMap_eq_map']
    exact hmap
  width := by
    intro row _ p hp
    cases hp
    rfl
  literal := by
    intro row _ p hp
    cases hp
    simp [watermarkPositionValues]

theorem parseFloat_pow :
    parseFloat (2 ^ 256) = 2 ^ 256 ∧ parseFloat (2 ^ 256 + 1) = 2 ^ 256 := by
  decide +kernel

/-- Two rows whose watermarks are the same number to 256 bits. -/
def wideSource : WatermarkSource (ℤ × ℤ) ℤ :=
  integerSource [(2 ^ 256, 1), (2 ^ 256 + 1, 1)] (by decide)

theorem wideSource_upperBound : wideSource.upperBound = some (2 ^ 256 + 1, 1) ∧
    wideSource.ahead none (wideSource.cursorFromRow (2 ^ 256 + 1, 1)) = wideSource.rows := by
  decide

theorem wideSource_seesEnd :
    SeesEnd (wideSource.cursorFromRow (2 ^ 256, 1))
      (wideSource.cursorFromRow (2 ^ 256 + 1, 1)) := by
  show atOrPast (compareWatermarkValues [.number ((2 ^ 256 : ℤ) : ℚ), .number ((1 : ℤ) : ℚ)]
    [.number ((2 ^ 256 + 1 : ℤ) : ℚ), .number ((1 : ℤ) : ℚ)]) = true
  have hsucc : parseFloat ((2 ^ 256 + 1 : ℤ) : ℚ) = 2 ^ 256 := by
    rw [← parseFloat_pow.2]
    norm_cast
  have hpow : parseFloat ((2 ^ 256 : ℤ) : ℚ) = 2 ^ 256 := by
    rw [← parseFloat_pow.1]
    norm_cast
  have hself : ∀ q : ℚ, compare q q = .eq := fun q => compare_eq_iff_eq.mpr rfl
  simp only [compareWatermarkValues, compareWatermarkCursorValue, hsucc, hpow, hself, atOrPast]

/-- **A page that ends early is the last**: with pages of one row, the second row is not read. -/
theorem wideSource_not_sound :
    ¬ ∀ world, ∃ result, runWatermarkSync wideSource 1 world none = some result ∧
      Sound wideSource none result := by
  intro h
  have hnoEnd := noEarlyEnd_of_sound (by nofun) one_pos h
  obtain ⟨_, hpages⟩ := hnoEnd _ wideSource_upperBound.1
  rw [wideSource_upperBound.2] at hpages
  exact hpages 1 (2 ^ 256, 1) one_pos (by decide) rfl wideSource_seesEnd

/-- Two rows whose watermarks differ, read one by one. -/
def narrowSource : WatermarkSource (ℤ × ℤ) ℤ := integerSource [(1, 1), (2, 1)] (by decide)

theorem narrowSource_sound :
    (∀ world, ∃ result, runWatermarkSync narrowSource 1 world none = some result ∧
      Sound narrowSource none result) ↔ NoEarlyEnd narrowSource none 1 :=
  runWatermarkSync_sound_iff (by nofun) one_pos

end GoNavi.Sync
