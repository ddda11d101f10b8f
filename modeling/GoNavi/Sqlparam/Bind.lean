import GoNavi.Sqlparam.Convert

/-! # Binding the parameters of a query

`Bind` of `sqlparam/rewrite.go`: every parameter span of the text is replaced by
placeholders of the dialect, and the values go to the argument list.  The loop over the
spans (`bindSpans`) carries the text written so far, the cache of converted values, the slots
of the names and the values of the slots (`BindState`). -/

namespace GoNavi.Sqlparam

open Scan GoNavi.Sql

inductive Dialect where
  /-- `?` placeholders. -/
  | qmark
  /-- `$1`, `$2` placeholders. -/
  | dollar
  /-- `:1`, `:2` placeholders. -/
  | oracle
deriving DecidableEq

def dialectForDBType (dbType : Text) : Dialect :=
  let normalized := normalizeDBType dbType
  if normalized = bytes "oracle" then .oracle
  else if normalized ∈ postgresTypes then .dollar
  else .qmark

inductive BindError where
  | missingParameter (name : Text)
  | invalidParameter (name : Text) (e : ConvertError)
deriving DecidableEq

structure BindResult (F T : Type) where
  sql : Text
  args : List (Value F T)

variable {F T : Type}

/-- The values by the names of the parameters. -/
abbrev Values (F T : Type) := Text → Option (TypedValue F T)

/-! ### Templates -/

def renderRawValue (rt : Runtime F T) : Value F T → Text
  | .nil => []
  | .string s => s
  | .bool b => formatBool b
  | .float64 x => rt.formatFloat x
  | .int64 n => formatInt n
  | .int n => formatInt n
  | v => rt.sprint v

def templateParamValue (rt : Runtime F T) (name : Text) (values : Values F T) :
    Except BindError Text :=
  match values name with
  | none => .error (.missingParameter name)
  | some typed => .ok (renderRawValue rt typed.value)

/-- The loop of `renderTemplate`: the text rendered so far, or the error it stops with. -/
def templateRenderer (rt : Runtime F T) (values : Values F T) :
    Scanner UInt8 (Except BindError Text) where
  step rendered c t :=
    match rendered with
    | .error _ => none
    | .ok out =>
      -- the `$` of `${name}` goes with the parameter
      match (if c = dollar then templateParamAt t else templateParamAt (c :: t)) with
      | none => some (.ok (out ++ [c]), t)
      | some (name, rest) => some ((templateParamValue rt name values).map (out ++ ·), rest)
  step_suffix := by
    intro s c t s' t' h
    cases s with
    | error e => cases h
    | ok out =>
      simp only at h
      split at h
      · cases h
        exact List.suffix_refl _
      · next hp =>
        cases h
        split_ifs at hp
        · cases t with
          | nil => cases hp
          | cons d t => exact (templateParamAt_suffix hp).trans (List.suffix_cons _ _)
        · exact templateParamAt_suffix hp

def renderTemplate (rt : Runtime F T) (content : Text) (values : Values F T) :
    Except BindError Text :=
  ((templateRenderer rt values).run (.ok []) content).1

/-! ### Spans -/

structure BindState (F T : Type) where
  out : Text
  convertedCache : List (Text × Value F T)
  nameSlots : List (Text × List ℕ)
  nextSlot : ℕ
  slots : List (ℕ × Value F T)
  qmarkArgs : List (Value F T)

def BindState.init : BindState F T := ⟨[], [], [], 1, [], []⟩

/-- The conversion of a named value, without the cache. -/
def convertNamed (rt : Runtime F T) (name : Text) (values : Values F T) :
    Except BindError (Value F T) :=
  match values name with
  | none => .error (.missingParameter name)
  | some typed =>
    match convertTypedValue rt typed.type typed.value with
    | .error e => .error (.invalidParameter name e)
    | .ok converted => .ok converted

/-- The converted value of a name and the cache with it. -/
def convertOnce (rt : Runtime F T) (name : Text) (values : Values F T)
    (cache : List (Text × Value F T)) :
    Except BindError (Value F T × List (Text × Value F T)) :=
  match cache.lookup name with
  | some cached => .ok (cached, cache)
  | none =>
    match convertNamed rt name values with
    | .error e => .error e
    | .ok converted => .ok (converted, (name, converted) :: cache)

/-- One placeholder. -/
def placeholder : Dialect → ℕ → Text
  | .qmark, _ => bytes "?"
  | .dollar, slot => bytes "$" ++ formatInt slot
  | .oracle, slot => bytes ":" ++ formatInt slot

/-- The placeholders of one span, with commas between them. -/
def placeholders (dialect : Dialect) (slots : List ℕ) : Text :=
  (bytes ",").intercalate (slots.map (placeholder dialect))

/-- `slots[slot] = value`, unless the slot has a value. -/
def assignSlot (slots : List (ℕ × Value F T)) (p : ℕ × Value F T) : List (ℕ × Value F T) :=
  match slots.lookup p.1 with
  | some _ => slots
  | none => p :: slots

/-- The values a converted value stands for: its elements, if it is a list. -/
def Value.expand (v : Value F T) : List (Value F T) := v.items?.getD [v]

/-- The span of a template. -/
def bindTemplate (dialect : Dialect) (rendered : Text) (st : BindState F T) : BindState F T :=
  match dialect with
  | .qmark =>
    { st with out := st.out ++ bytes "?", qmarkArgs := st.qmarkArgs ++ [.string rendered] }
  | _ =>
    { st with out := st.out ++ placeholder dialect st.nextSlot
              slots := (st.nextSlot, .string rendered) :: st.slots
              nextSlot := st.nextSlot + 1 }

/-- The span of a name with a converted value. -/
def bindNamed (dialect : Dialect) (name : Text) (converted : Value F T) (st : BindState F T) :
    BindState F T :=
  let items := converted.expand
  match dialect with
  | .qmark =>
    { st with out := st.out ++ placeholders .qmark (List.range' 1 items.length)
              qmarkArgs := st.qmarkArgs ++ items }
  | _ =>
    match st.nameSlots.lookup name with
    | some spanSlots =>
      { st with out := st.out ++ placeholders dialect spanSlots
                slots := (spanSlots.zip items).foldl assignSlot st.slots }
    | none =>
      let spanSlots := List.range' st.nextSlot items.length
      { st with out := st.out ++ placeholders dialect spanSlots
                nameSlots := (name, spanSlots) :: st.nameSlots
                nextSlot := st.nextSlot + items.length
                slots := (spanSlots.zip items).foldl assignSlot st.slots }

def bindSpan (rt : Runtime F T) (dialect : Dialect) (values : Values F T) (span : Span)
    (st : BindState F T) : Except BindError (BindState F T) :=
  if span.template ≠ [] then
    match renderTemplate rt span.template values with
    | .error e => .error e
    | .ok rendered => .ok (bindTemplate dialect rendered st)
  else
    match convertOnce rt span.name values st.convertedCache with
    | .error e => .error e
    | .ok (converted, cache) =>
      .ok (bindNamed dialect span.name converted { st with convertedCache := cache })

/-- The loop over the spans; `lo` is the end of the span before. -/
def bindSpans (rt : Runtime F T) (dialect : Dialect) (values : Values F T) (sql : Text) :
    ℕ → List Span → BindState F T → Except BindError (BindState F T)
  | lo, [], st => .ok { st with out := st.out ++ sql.drop lo }
  | lo, span :: spans, st =>
    match bindSpan rt dialect values span
        { st with out := st.out ++ (sql.take span.start).drop lo } with
    | .error e => .error e
    | .ok st' => bindSpans rt dialect values sql span.stop spans st'

def bind (rt : Runtime F T) (sql dbType : Text) (values : Values F T) :
    Except BindError (BindResult F T) :=
  let spans := scan sql (optionsForDBType dbType)
  let dialect := dialectForDBType dbType
  if spans = [] then .ok ⟨sql, []⟩
  else
    match bindSpans rt dialect values sql 0 spans .init with
    | .error e => .error e
    | .ok st =>
      match dialect with
      | .qmark => .ok ⟨st.out, st.qmarkArgs⟩
      | _ => .ok ⟨st.out, (List.range (st.nextSlot - 1)).map fun slot =>
          (st.slots.lookup (slot + 1)).getD .nil⟩

end GoNavi.Sqlparam
