import GoNavi.Sqlparam.Convert
import GoNavi.Sync.Rounding
import Mathlib.Order.WithBot
import Mathlib.Order.WithBotTop

/-! # Comparing cursors

`compareWatermarkCursorPositions` compares two cursors value by value: a value is a text with a
type, and the texts are read by the parsers of the standard library.  What a text spells is a
`Spelling`; a number is read to 256 bits, an instant to nanoseconds.

**The order that is reported of two cursors is that of what they spell if and only if the first
values that differ are not read alike, or the first later ones that are not read alike do not
decide otherwise** (`positions_faithful_iff`). -/

namespace GoNavi.Sync.Typed

open Scan Option

/-! ### Values -/

structure WatermarkCursorValue where
  type : Text
  value : Text
  deriving DecidableEq

structure WatermarkCursor where
  watermark : WatermarkCursorValue
  tieBreakers : List WatermarkCursorValue
  deriving DecidableEq

def watermarkPositionValues (cursor : WatermarkCursor) : List WatermarkCursorValue :=
  cursor.watermark :: cursor.tieBreakers

/-- A number, or an infinite one. -/
abbrev Extended := WithBot (WithTop ℚ)

/-- What texts spell, where they are parsed without an error: a decimal number, an instant of
RFC 3339 in nanoseconds with all the digits of its fraction, a day, bytes in base 64. -/
structure Spelling where
  number : Text → Option Extended
  instant : Text → Option ℚ
  day : Text → Option ℤ
  base64 : Text → Option Text

/-- The `big.Float` of a number. -/
def readNumber : Extended → ℚ
  | none => -2 ^ maxExp
  | some none => 2 ^ maxExp
  | some (some q) => parseFloat q

/-- The `time.Time` of an instant: what is behind the nanoseconds is cut off. -/
def readInstant (t : ℚ) : ℤ := ⌊t⌋

/-- The type that a value is compared as. -/
def WatermarkCursorValue.typeName (value : WatermarkCursorValue) : Text :=
  toLower (trimSpace value.type)

def watermarkCursorNumericType (valueType : Text) : Bool :=
  valueType ∈ [bytes "int64", bytes "uint64", bytes "decimal", bytes "float64"]

def isTextType (valueType : Text) : Bool := valueType ∈ [bytes "string", bytes "bytes"]

section compare

variable (spelling : Spelling)

/-- The type is not trimmed here: a padded `string` is read as base 64. -/
def watermarkCursorText (value : WatermarkCursorValue) : Option Text :=
  if toLower value.type = bytes "string" then some value.value else spelling.base64 value.value

/-- Both values are parsed before they are compared. -/
def compareParsed {β : Type} (parse : WatermarkCursorValue → Option β)
    (order : β → β → Option Ordering) (left right : WatermarkCursorValue) :
    Except Unit (Option Ordering) :=
  match parse left, parse right with
  | some leftParsed, some rightParsed => .ok (order leftParsed rightParsed)
  | _, _ => .error ()

/-- Nothing when the values are not comparable: the order of texts depends on the collation. -/
def compareWatermarkCursorValue (left right : WatermarkCursorValue) :
    Except Unit (Option Ordering) :=
  let leftType := left.typeName
  let rightType := right.typeName
  if watermarkCursorNumericType leftType ∧ watermarkCursorNumericType rightType then
    compareParsed (fun v => (spelling.number v.value).map readNumber)
      (fun l r => some (compare l r)) left right
  else if leftType = bytes "timestamp" ∧ rightType = bytes "timestamp" then
    compareParsed (fun v => (spelling.instant v.value).map readInstant)
      (fun l r => some (compare l r)) left right
  else if leftType = bytes "date" ∧ rightType = bytes "date" then
    compareParsed (fun v => spelling.day v.value) (fun l r => some (compare l r)) left right
  else if leftType = bytes "bool" ∧ rightType = bytes "bool" then
    compareParsed (fun v => Sqlparam.parseBool v.value) (fun l r => some (compare l r)) left right
  else if isTextType leftType ∧ isTextType rightType then
    compareParsed (watermarkCursorText spelling) (fun l r => if l = r then some .eq else none)
      left right
  else .ok none

def compareWatermarkValues : List WatermarkCursorValue → List WatermarkCursorValue →
    Except Unit (Option Ordering)
  | left :: lefts, right :: rights =>
    match compareWatermarkCursorValue spelling left right with
    | .error err => .error err
    | .ok none => .ok none
    | .ok (some .eq) => compareWatermarkValues lefts rights
    | .ok (some comparison) => .ok (some comparison)
  | _, _ => .ok (some .eq)

/-- An error when the positions do not have the same length. -/
def compareWatermarkCursorPositions (left right : WatermarkCursor) :
    Except Unit (Option Ordering) :=
  if (watermarkPositionValues left).length ≠ (watermarkPositionValues right).length then .error ()
  else compareWatermarkValues spelling (watermarkPositionValues left)
    (watermarkPositionValues right)

/-! ### What the values stand for -/

/-- The bytes that a text value stands for. -/
def textOf (value : WatermarkCursorValue) : Option Text :=
  if value.typeName = bytes "string" then some value.value else spelling.base64 value.value

/-- The order of what two values stand for. -/
def orderOf {α : Type} [Ord α] (meaning : WatermarkCursorValue → Option α)
    (left right : WatermarkCursorValue) : Option Ordering :=
  match meaning left, meaning right with
  | some l, some r => some (compare l r)
  | _, _ => none

/-- The exact order of two values of a type.  Of texts only equality is exact. -/
def exactOrder (left right : WatermarkCursorValue) : Option Ordering :=
  let leftType := left.typeName
  let rightType := right.typeName
  if watermarkCursorNumericType leftType ∧ watermarkCursorNumericType rightType then
    orderOf (fun v => spelling.number v.value) left right
  else if leftType = bytes "timestamp" ∧ rightType = bytes "timestamp" then
    orderOf (fun v => spelling.instant v.value) left right
  else if leftType = bytes "date" ∧ rightType = bytes "date" then
    orderOf (fun v => spelling.day v.value) left right
  else if leftType = bytes "bool" ∧ rightType = bytes "bool" then
    orderOf (fun v => Sqlparam.parseBool v.value) left right
  else if isTextType leftType ∧ isTextType rightType then
    match textOf spelling left, textOf spelling right with
    | some l, some r => if l = r then some .eq else none
    | _, _ => none
  else none

/-- The first values that differ decide. -/
def exactValues : List WatermarkCursorValue → List WatermarkCursorValue → Option Ordering
  | left :: lefts, right :: rights =>
    match exactOrder spelling left right with
    | some .eq => exactValues lefts rights
    | order => order
  | _, _ => some .eq

def exactPositions (left right : WatermarkCursor) : Option Ordering :=
  exactValues spelling (watermarkPositionValues left) (watermarkPositionValues right)

/-! ### What is read of them -/

/-- What a comparison reads of a value. -/
def reading (value : WatermarkCursorValue) : Option CursorValue :=
  let type := value.typeName
  if watermarkCursorNumericType type then
    (spelling.number value.value).map fun n => .number (readNumber n)
  else if type = bytes "timestamp" then
    (spelling.instant value.value).map fun t => .timestamp (readInstant t)
  else if type = bytes "date" then (spelling.day value.value).map .date
  else if type = bytes "bool" then (Sqlparam.parseBool value.value).map .bool
  else if isTextType type then (watermarkCursorText spelling value).map .text
  else none

def ReadAlike (left right : WatermarkCursorValue) : Prop :=
  ∃ c, reading spelling left = some c ∧ reading spelling right = some c

/-- The first values that are not read alike, if they can be compared, stand in an order. -/
def Decided (order : Option Ordering) :
    List WatermarkCursorValue → List WatermarkCursorValue → Prop
  | left :: lefts, right :: rights =>
    (ReadAlike spelling left right → Decided order lefts rights) ∧
      (¬ ReadAlike spelling left right →
        ∀ s, s ≠ .eq → exactOrder spelling left right = some s → order = some s)
  | _, _ => False

/-- When the first values that differ are read alike, the values behind them decide no other
order. -/
def Faithful : List WatermarkCursorValue → List WatermarkCursorValue → Prop
  | left :: lefts, right :: rights =>
    ReadAlike spelling left right →
      (exactOrder spelling left right = some .eq → Faithful lefts rights) ∧
        (exactOrder spelling left right ≠ some .eq →
          Decided spelling (exactOrder spelling left right) lefts rights)
  | _, _ => True

end compare

/-! ### Two values -/

/-- What a comparison of two values comes to, of values that are read alike or not: they are
reported equal, their exact order is reported, or nothing is. -/
inductive Outcome (alike : Prop) : Except Unit (Option Ordering) → Option Ordering → Prop
  | equal (exact : Option Ordering) : alike → Outcome alike (.ok (some .eq)) exact
  | ordered (s : Ordering) : ¬ alike → s ≠ .eq → Outcome alike (.ok (some s)) (some s)
  | silent (reported : Except Unit (Option Ordering)) (exact : Option Ordering) : ¬ alike →
      (∀ s, reported ≠ .ok (some s)) → (∀ s, s ≠ .eq → exact ≠ some s) →
      Outcome alike reported exact

section values

variable {spelling : Spelling} {left right : WatermarkCursorValue}

theorem compare_of_monotone {α β : Type} [LinearOrder α] [LinearOrder β] {read : α → β}
    (hread : Monotone read) {a b : α} (h : read a ≠ read b) :
    compare (read a) (read b) = compare a b := by
  cases h.lt_or_gt with
  | inl hlt => rw [compare_lt_iff_lt.mpr hlt, compare_lt_iff_lt.mpr (hread.reflect_lt hlt)]
  | inr hgt => rw [compare_gt_iff_gt.mpr hgt, compare_gt_iff_gt.mpr (hread.reflect_lt hgt)]

theorem not_readAlike_of_none (h : reading spelling left = none ∨ reading spelling right = none) :
    ¬ ReadAlike spelling left right := by
  intro halike
  obtain ⟨c, hleft, hright⟩ := halike
  rw [hleft, hright] at h
  simp at h

theorem outcome_of_monotone {α β : Type} [LinearOrder α] [LinearOrder β] {read : α → β}
    (hread : Monotone read) {wrap : β → CursorValue} (hwrap : Function.Injective wrap)
    {parse : WatermarkCursorValue → Option β} {meaning : WatermarkCursorValue → Option α}
    (hparse : ∀ v, parse v = (meaning v).map read)
    (hleft : reading spelling left = (parse left).map wrap)
    (hright : reading spelling right = (parse right).map wrap) :
    Outcome (ReadAlike spelling left right)
      (compareParsed parse (fun l r => some (compare l r)) left right)
      (orderOf meaning left right) := by
  unfold compareParsed orderOf
  rw [hparse] at hleft hright
  rw [hparse, hparse]
  cases hl : meaning left with
  | none =>
    rw [hl] at hleft
    exact .silent _ _ (not_readAlike_of_none (.inl hleft)) nofun nofun
  | some a =>
    cases hr : meaning right with
    | none =>
      rw [hr] at hright
      exact .silent _ _ (not_readAlike_of_none (.inr hright)) nofun nofun
    | some b =>
      rw [hl, map_some, map_some] at hleft
      rw [hr, map_some, map_some] at hright
      by_cases heq : read a = read b
      · have hcompare : compare (read a) (read b) = .eq := compare_eq_iff_eq.mpr heq
        simp only [map_some, hcompare]
        rw [← heq] at hright
        exact .equal _ ⟨_, hleft, hright⟩
      · simp only [map_some]
        rw [compare_of_monotone hread heq]
        refine .ordered _ ?_ ?_
        · intro halike
          obtain ⟨c, hcl, hcr⟩ := halike
          rw [hleft] at hcl
          rw [hright, ← hcl] at hcr
          exact heq (hwrap (some.inj hcr)).symm
        · intro hcompare
          exact heq (congrArg read (compare_eq_iff_eq.mp hcompare))

theorem outcome_of_text
    (hleft : reading spelling left = (watermarkCursorText spelling left).map .text)
    (hright : reading spelling right = (watermarkCursorText spelling right).map .text)
    {exact : Option Ordering} (hexact : ∀ s, s ≠ .eq → exact ≠ some s) :
    Outcome (ReadAlike spelling left right)
      (compareParsed (watermarkCursorText spelling) (fun l r => if l = r then some .eq else none)
        left right) exact := by
  unfold compareParsed
  cases hl : watermarkCursorText spelling left with
  | none =>
    rw [hl] at hleft
    exact .silent _ _ (not_readAlike_of_none (.inl hleft)) nofun hexact
  | some a =>
    cases hr : watermarkCursorText spelling right with
    | none =>
      rw [hr] at hright
      exact .silent _ _ (not_readAlike_of_none (.inr hright)) nofun hexact
    | some b =>
      rw [hl] at hleft
      rw [hr] at hright
      dsimp only
      split
      · rename_i heq
        subst heq
        exact .equal _ ⟨_, hleft, hright⟩
      · rename_i hne
        refine .silent _ _ ?_ nofun hexact
        intro halike
        obtain ⟨c, hcl, hcr⟩ := halike
        rw [hleft] at hcl
        rw [hright, ← hcl] at hcr
        cases hcr
        exact hne rfl

/-! ### Types -/

variable {v : WatermarkCursorValue}

/-- No type is one of those that are asked for before it, which stand behind it here. -/
theorem types_apart :
    (∀ type ∈ [bytes "string", bytes "bytes", bytes "bool", bytes "date", bytes "timestamp"],
      ¬watermarkCursorNumericType type) ∧
    [bytes "string", bytes "bytes", bytes "bool", bytes "date", bytes "timestamp"].Nodup := by
  decide

theorem reading_number (h : watermarkCursorNumericType v.typeName) :
    reading spelling v = ((spelling.number v.value).map readNumber).map .number := by
  unfold reading
  rw [map_map]
  exact if_pos h

theorem reading_timestamp (h : v.typeName = bytes "timestamp") :
    reading spelling v = ((spelling.instant v.value).map readInstant).map .timestamp := by
  unfold reading
  rw [h, map_map]
  exact if_neg (types_apart.1 _ (by simp))

theorem reading_date (h : v.typeName = bytes "date") :
    reading spelling v = (spelling.day v.value).map .date := by
  obtain ⟨hnumeric, hapart⟩ := types_apart
  simp only [List.nodup_cons, List.mem_cons, not_or] at hapart
  simp [reading, h, hnumeric, hapart]

theorem reading_bool (h : v.typeName = bytes "bool") :
    reading spelling v = (Sqlparam.parseBool v.value).map .bool := by
  obtain ⟨hnumeric, hapart⟩ := types_apart
  simp only [List.nodup_cons, List.mem_cons, not_or] at hapart
  simp [reading, h, hnumeric, hapart]

theorem reading_text (h : isTextType v.typeName) :
    reading spelling v = (watermarkCursorText spelling v).map .text := by
  obtain ⟨hnumeric, hapart⟩ := types_apart
  simp only [List.nodup_cons, List.mem_cons, not_or] at hapart
  unfold isTextType at h
  rw [decide_eq_true_eq, List.mem_cons, List.mem_singleton] at h
  cases h with
  | inl h => simp [reading, isTextType, h, hnumeric, hapart]
  | inr h => simp [reading, isTextType, h, hnumeric, hapart]

theorem type_of_reading {c : CursorValue} (h : reading spelling v = some c) :
    match c with
    | .number _ => watermarkCursorNumericType v.typeName = true
    | .timestamp _ => v.typeName = bytes "timestamp"
    | .date _ => v.typeName = bytes "date"
    | .bool _ => v.typeName = bytes "bool"
    | .text _ => isTextType v.typeName = true := by
  unfold reading at h
  dsimp only at h
  split at h
  · obtain ⟨_, _, rfl⟩ := map_eq_some_iff.mp h
    assumption
  split at h
  · obtain ⟨_, _, rfl⟩ := map_eq_some_iff.mp h
    assumption
  split at h
  · obtain ⟨_, _, rfl⟩ := map_eq_some_iff.mp h
    assumption
  split at h
  · obtain ⟨_, _, rfl⟩ := map_eq_some_iff.mp h
    assumption
  split at h
  · obtain ⟨_, _, rfl⟩ := map_eq_some_iff.mp h
    assumption
  · cases h

theorem monotone_readNumber : Monotone readNumber := by
  have hinf : (0 : ℚ) < 2 ^ maxExp := zpow_pos (by norm_num) _
  have hbot : ∀ n, -2 ^ maxExp ≤ readNumber n := by
    intro n
    cases n using WithBot.recBotCoe with
    | bot => exact le_rfl
    | coe n =>
      cases n using WithTop.recTopCoe with
      | top => exact (neg_neg_of_pos hinf).le.trans hinf.le
      | coe q => exact (parseFloat_bounds q).1
  intro a b hle
  cases a using WithBot.recBotCoe with
  | bot => exact hbot b
  | coe a =>
    cases b using WithBot.recBotCoe with
    | bot => exact absurd hle (WithBot.not_coe_le_bot a)
    | coe b =>
      have hle' := WithBot.coe_le_coe.mp hle
      cases b using WithTop.recTopCoe with
      | top =>
        cases a using WithTop.recTopCoe with
        | top => exact le_rfl
        | coe q => exact (parseFloat_bounds q).2
      | coe q' =>
        cases a using WithTop.recTopCoe with
        | top => exact absurd hle' (WithTop.not_top_le_coe q')
        | coe q => exact monotone_parseFloat (WithTop.coe_le_coe.mp hle')

variable (spelling) in
/-- **What a comparison of two values comes to.** -/
theorem compareWatermarkCursorValue_outcome (left right : WatermarkCursorValue) :
    Outcome (ReadAlike spelling left right) (compareWatermarkCursorValue spelling left right)
      (exactOrder spelling left right) := by
  unfold compareWatermarkCursorValue exactOrder
  by_cases hnumber : watermarkCursorNumericType left.typeName ∧
    watermarkCursorNumericType right.typeName
  · rw [if_pos hnumber, if_pos hnumber]
    exact outcome_of_monotone monotone_readNumber (fun _ _ => CursorValue.number.inj)
      (fun _ => rfl) (reading_number hnumber.1) (reading_number hnumber.2)
  rw [if_neg hnumber, if_neg hnumber]
  by_cases htimestamp : left.typeName = bytes "timestamp" ∧ right.typeName = bytes "timestamp"
  · rw [if_pos htimestamp, if_pos htimestamp]
    exact outcome_of_monotone Int.floor_mono (fun _ _ => CursorValue.timestamp.inj)
      (fun _ => rfl) (reading_timestamp htimestamp.1) (reading_timestamp htimestamp.2)
  rw [if_neg htimestamp, if_neg htimestamp]
  by_cases hdate : left.typeName = bytes "date" ∧ right.typeName = bytes "date"
  · rw [if_pos hdate, if_pos hdate]
    exact outcome_of_monotone monotone_id (fun _ _ => CursorValue.date.inj)
      (fun _ => (congrFun map_id _).symm) (reading_date hdate.1) (reading_date hdate.2)
  rw [if_neg hdate, if_neg hdate]
  by_cases hbool : left.typeName = bytes "bool" ∧ right.typeName = bytes "bool"
  · rw [if_pos hbool, if_pos hbool]
    exact outcome_of_monotone monotone_id (fun _ _ => CursorValue.bool.inj)
      (fun _ => (congrFun map_id _).symm) (reading_bool hbool.1) (reading_bool hbool.2)
  rw [if_neg hbool, if_neg hbool]
  by_cases htext : isTextType left.typeName ∧ isTextType right.typeName
  · rw [if_pos htext, if_pos htext]
    apply outcome_of_text (reading_text htext.1) (reading_text htext.2)
    intro s hs
    split
    · split
      · intro heq
        exact hs (some.inj heq).symm
      · nofun
    · nofun
  · rw [if_neg htext, if_neg htext]
    refine .silent _ _ ?_ nofun nofun
    intro halike
    obtain ⟨c, hleft, hright⟩ := halike
    have hl := type_of_reading hleft
    have hr := type_of_reading hright
    cases c with
    | number => exact hnumber ⟨hl, hr⟩
    | timestamp => exact htimestamp ⟨hl, hr⟩
    | date => exact hdate ⟨hl, hr⟩
    | bool => exact hbool ⟨hl, hr⟩
    | text => exact htext ⟨hl, hr⟩

end values

/-! ### Positions -/

section positions

variable {spelling : Spelling} {left right : WatermarkCursorValue}
  {lefts rights : List WatermarkCursorValue}

theorem compareWatermarkValues_cons : compareWatermarkValues spelling (left :: lefts)
    (right :: rights) = match compareWatermarkCursorValue spelling left right with
      | .error err => .error err
      | .ok none => .ok none
      | .ok (some .eq) => compareWatermarkValues spelling lefts rights
      | .ok (some comparison) => .ok (some comparison) := rfl

/-- Values that are reported equal leave the comparison to those behind them. -/
theorem compareWatermarkValues_of_equal
    (h : compareWatermarkCursorValue spelling left right = .ok (some .eq)) :
    compareWatermarkValues spelling (left :: lefts) (right :: rights) =
      compareWatermarkValues spelling lefts rights := by
  rw [compareWatermarkValues_cons, h]

theorem compareWatermarkValues_of_ordered {s : Ordering} (hs : s ≠ .eq)
    (h : compareWatermarkCursorValue spelling left right = .ok (some s)) :
    compareWatermarkValues spelling (left :: lefts) (right :: rights) = .ok (some s) := by
  rw [compareWatermarkValues_cons, h]
  cases s with
  | eq => exact absurd rfl hs
  | lt => rfl
  | gt => rfl

/-- Values without a reported order leave the positions without one. -/
theorem compareWatermarkValues_of_silent
    (h : ∀ s, compareWatermarkCursorValue spelling left right ≠ .ok (some s)) (s : Ordering) :
    compareWatermarkValues spelling (left :: lefts) (right :: rights) ≠ .ok (some s) := by
  rw [compareWatermarkValues_cons]
  cases hreported : compareWatermarkCursorValue spelling left right with
  | error => nofun
  | ok comparison =>
    cases comparison with
    | none => nofun
    | some s' => exact absurd hreported (h s')

theorem exactValues_of_equal (h : exactOrder spelling left right = some .eq) :
    exactValues spelling (left :: lefts) (right :: rights) = exactValues spelling lefts rights := by
  rw [exactValues, h]

theorem exactValues_of_ne (h : exactOrder spelling left right ≠ some .eq) :
    exactValues spelling (left :: lefts) (right :: rights) = exactOrder spelling left right := by
  rw [exactValues]
  split
  · rename_i heq
    exact absurd heq h
  · rfl

/-- The values decide an order as far as they are reported to have one. -/
theorem decided_iff {order : Option Ordering} (horder : order ≠ some .eq)
    (hlength : lefts.length = rights.length) :
    Decided spelling order lefts rights ↔
      ∀ s, compareWatermarkValues spelling lefts rights = .ok (some s) → order = some s := by
  induction lefts generalizing rights with
  | nil =>
    cases rights with
    | nil =>
      constructor
      · exact False.elim
      · intro h
        exact horder (h .eq rfl)
    | cons => cases hlength
  | cons left lefts ih =>
    cases rights with
    | nil => cases hlength
    | cons right rights =>
      have ih := ih (Nat.succ.inj hlength)
      have houtcome := compareWatermarkCursorValue_outcome spelling left right
      unfold Decided
      generalize hreported : compareWatermarkCursorValue spelling left right = reported at houtcome
      generalize exactOrder spelling left right = exact at houtcome ⊢
      cases houtcome with
      | equal _ halike =>
        rw [compareWatermarkValues_of_equal hreported, ← ih]
        constructor
        · intro h
          exact h.1 halike
        · intro h
          exact ⟨fun _ => h, fun hnot => absurd halike hnot⟩
      | ordered s halike hs =>
        rw [compareWatermarkValues_of_ordered hs hreported]
        constructor
        · intro h s' hs'
          cases hs'
          exact h.2 halike s hs rfl
        · intro h
          refine ⟨fun hyes => absurd hyes halike, ?_⟩
          intro _ s' _ hs'
          cases hs'
          exact h s rfl
      | silent _ _ halike hnone hexact =>
        subst hreported
        constructor
        · intro _ s hs
          exact absurd hs (compareWatermarkValues_of_silent hnone s)
        · intro _
          exact ⟨fun hyes => absurd hyes halike, fun _ s hs h => absurd h (hexact s hs)⟩

theorem faithful_iff (hlength : lefts.length = rights.length) :
    Faithful spelling lefts rights ↔
      ∀ s, compareWatermarkValues spelling lefts rights = .ok (some s) →
        exactValues spelling lefts rights = some s := by
  induction lefts generalizing rights with
  | nil =>
    cases rights with
    | nil =>
      constructor
      · intro _ s hs
        cases hs
        rfl
      · intro _
        exact trivial
    | cons => cases hlength
  | cons left lefts ih =>
    cases rights with
    | nil => cases hlength
    | cons right rights =>
      have htail := Nat.succ.inj hlength
      have houtcome := compareWatermarkCursorValue_outcome spelling left right
      unfold Faithful
      generalize hreported : compareWatermarkCursorValue spelling left right = reported at houtcome
      generalize hexact : exactOrder spelling left right = exact at houtcome ⊢
      cases houtcome with
      | equal _ halike =>
        rw [compareWatermarkValues_of_equal hreported]
        by_cases hequal : exact = some .eq
        · subst hequal
          rw [exactValues_of_equal hexact, ← ih htail]
          constructor
          · intro h
            exact (h halike).1 rfl
          · intro h _
            exact ⟨fun _ => h, fun hne => absurd rfl hne⟩
        · rw [exactValues_of_ne (hexact ▸ hequal), hexact, ← decided_iff hequal htail]
          constructor
          · intro h
            exact (h halike).2 hequal
          · intro h _
            exact ⟨fun heq => absurd heq hequal, fun _ => h⟩
      | ordered s halike hs =>
        rw [compareWatermarkValues_of_ordered hs hreported]
        constructor
        · intro _ s' hs'
          cases hs'
          rw [exactValues_of_ne (hexact ▸ fun heq => hs (some.inj heq)), hexact]
        · intro _ hyes
          exact absurd hyes halike
      | silent _ _ halike hnone _ =>
        subst hreported
        constructor
        · intro _ s hs
          exact absurd hs (compareWatermarkValues_of_silent hnone s)
        · intro _ hyes
          exact absurd hyes halike

end positions

/-! ### Main result -/

/-- A comparison that ends a scan. -/
def EndsScan (spelling : Spelling) (cursor upper : WatermarkCursor) : Prop :=
  ∃ comparison, compareWatermarkCursorPositions spelling cursor upper = .ok comparison ∧
    atOrPast comparison = true

/-- The positions have the same length, and their values are faithful. -/
def FaithfulPositions (spelling : Spelling) (left right : WatermarkCursor) : Prop :=
  (watermarkPositionValues left).length = (watermarkPositionValues right).length →
    Faithful spelling (watermarkPositionValues left) (watermarkPositionValues right)

theorem reported_iff {spelling : Spelling} {left right : WatermarkCursor} :
    (∀ s, compareWatermarkCursorPositions spelling left right = .ok (some s) →
      exactPositions spelling left right = some s) ↔ FaithfulPositions spelling left right := by
  unfold compareWatermarkCursorPositions FaithfulPositions exactPositions
  split
  · rename_i hne
    constructor
    · intro _ heq
      exact absurd heq hne
    · intro _ s hs
      cases hs
  · rename_i hlength
    rw [not_not] at hlength
    rw [← faithful_iff hlength]
    constructor
    · intro h _
      exact h
    · intro h
      exact h hlength

/-- **A reported order is the exact order if and only if the positions are faithful**; then a
comparison ends a scan at the upper bound or past it only. -/
theorem positions_faithful_iff (spelling : Spelling) (left right : WatermarkCursor) :
    ((∀ s, compareWatermarkCursorPositions spelling left right = .ok (some s) →
      exactPositions spelling left right = some s) ↔ FaithfulPositions spelling left right) ∧
    (FaithfulPositions spelling left right → EndsScan spelling left right →
      exactPositions spelling left right = some .eq ∨
        exactPositions spelling left right = some .gt) := by
  refine ⟨reported_iff, ?_⟩
  intro hfaithful hends
  obtain ⟨comparison, hreported, hpast⟩ := hends
  cases comparison with
  | none => cases hpast
  | some s =>
    have hexact := reported_iff.mpr hfaithful s hreported
    cases s with
    | lt => cases hpast
    | eq => exact .inl hexact
    | gt => exact .inr hexact

/-- Texts of digits. -/
def digitSpelling : Spelling where
  number := fun t =>
    if t ≠ [] ∧ t.all Sql.isDigit then
      some ((t.foldl (fun n d => n * 10 + (d.toNat - 48)) 0 : ℕ) : ℚ)
    else none
  instant := fun _ => none
  day := fun _ => none
  base64 := fun _ => none

/-- Positions of a decimal, `2 ^ 256` and the next one. -/
def widePosition : WatermarkCursor :=
  ⟨⟨bytes "decimal", bytes
    "115792089237316195423570985008687907853269984665640564039457584007913129639936"⟩, []⟩

def nextPosition : WatermarkCursor :=
  ⟨⟨bytes "decimal", bytes
    "115792089237316195423570985008687907853269984665640564039457584007913129639937"⟩, []⟩

/-- **Two numbers that are the same to 256 bits are reported equal.** -/
theorem not_positions_faithful : ¬ ∀ (spelling : Spelling) (left right : WatermarkCursor) s,
    compareWatermarkCursorPositions spelling left right = .ok (some s) →
      exactPositions spelling left right = some s := by
  intro h
  have hreported : compareWatermarkCursorPositions digitSpelling widePosition nextPosition =
      .ok (some .eq) := by
    decide +kernel
  have hexact : exactPositions digitSpelling widePosition nextPosition = some .lt := by
    decide +kernel
  rw [h digitSpelling widePosition nextPosition .eq hreported] at hexact
  cases hexact

end GoNavi.Sync.Typed
