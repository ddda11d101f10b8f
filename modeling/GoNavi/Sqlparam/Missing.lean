import GoNavi.Sqlparam.Aligned
import Mathlib.Data.List.Sort

/-! # Which parameters are missing

`MissingParameterNames` of `sqlparam/rewrite.go` tells the names of a query that have no value,
`Bind` fails on the first span that it cannot bind.  A template needs every name it holds, but
its span carries the first of them only.

`missing_agrees_iff` says for which values the two agree. -/

namespace GoNavi.Sqlparam

open Scan GoNavi.Sql List

variable {F T : Type}

/-- The names of the spans without a value, each once, in the order of the text. -/
def missingLoop (values : Values F T) : List Text → List Span → List Text
  | missing, [] => missing
  | missing, span :: spans =>
    if (values span.name).isSome ∨ span.name ∈ missing then missingLoop values missing spans
    else missingLoop values (missing ++ [span.name]) spans

def missingParameterNames (sql dbType : Text) (values : Values F T) : List Text :=
  (missingLoop values [] (scan sql (optionsForDBType dbType))).insertionSort (· ≤ ·)

/-- `errors.Is(err, ErrMissingParameter)` of the result of a binding. -/
def LacksParameter {R : Type} (result : Except BindError R) : Prop :=
  ∃ name, result = .error (.missingParameter name)

/-- The names whose values the binding of a span takes. -/
def Span.names (span : Span) : List Text :=
  if span.template ≠ [] then extractTemplateNames span.template else [span.name]

/-- The span needs a name that has no value. -/
def Span.Lacks (values : Values F T) (span : Span) : Prop :=
  ∃ name ∈ span.names, values name = none

/-- The span stands for a value that `ConvertTypedValue` refuses. -/
def Span.Refused (rt : Runtime F T) (values : Values F T) (span : Span) : Prop :=
  span.template = [] ∧ ∃ typed, values span.name = some typed ∧
    ∃ e, convertTypedValue rt typed.type typed.value = .error e

/-- A span needs a name without a value, and every value in front of it converts. -/
def LacksFirst (rt : Runtime F T) (values : Values F T) (spans : List Span) : Prop :=
  ∃ before span after, spans = before ++ span :: after ∧ span.Lacks values ∧
    ∀ s ∈ before, ¬ s.Refused rt values

/-! ### The names of a template -/

section Template

variable (rt : Runtime F T) (values : Values F T)

/-- A rendering ends with a text if the names found all have values, else it misses one. -/
def Rendered (result : Except BindError Text) (found : List Text) : Prop :=
  (∃ out, result = .ok out) ∧ (∀ name ∈ found, values name ≠ none) ∨
    LacksParameter result ∧ ∃ name ∈ found, values name = none

theorem templateNames_subset (names : List Text) (t : Text) :
    names ⊆ (templateNames.run names t).1 := by
  refine Scanner.run_induction (P := fun found _ => names ⊆ found) ?_ (List.Subset.refl _)
  intro found c t found' t' hsub hstep
  simp only [templateNames] at hstep
  split at hstep
  · cases hstep
    exact hsub
  · cases hstep
    split_ifs
    · exact hsub
    · exact List.Subset.trans hsub (subset_append_left _ _)

theorem templateNames_skip {names : List Text} {c : UInt8} {t : Text}
    (h : templateParamAt (c :: t) = none) :
    templateNames.run names (c :: t) = templateNames.run names t :=
  Scanner.run_step (by simp only [templateNames, h])

theorem templateNames_found {names : List Text} {c : UInt8} {t name rest : Text}
    (h : templateParamAt (c :: t) = some (name, rest)) :
    templateNames.run names (c :: t) =
      templateNames.run (if name ∈ names then names else names ++ [name]) rest :=
  Scanner.run_step (by simp only [templateNames, h])

theorem templateParamAt_dollar (t : Text) : templateParamAt (dollar :: t) = none := by
  rw [templateParamAt, if_neg]
  exact fun h => absurd h.1 (by decide)

theorem mem_addName {name m : Text} {names : List Text} :
    m ∈ (if name ∈ names then names else names ++ [name]) ↔ m ∈ names ∨ m = name := by
  split_ifs with h
  · constructor
    · exact .inl
    · rintro (hm | rfl)
      · exact hm
      · exact h
  · simp

theorem rendered_param {out name rest : Text} {names : List Text}
    (hnames : ∀ m ∈ names, values m ≠ none)
    (ih : ∀ (out : Text) (names : List Text), (∀ m ∈ names, values m ≠ none) →
      Rendered values ((templateRenderer rt values).run (.ok out) rest).1
        (templateNames.run names rest).1) :
    Rendered values
      ((templateRenderer rt values).run ((templateParamValue rt name values).map (out ++ ·)) rest).1
      (templateNames.run (if name ∈ names then names else names ++ [name]) rest).1 := by
  cases hv : values name with
  | none =>
    refine .inr ⟨⟨name, ?_⟩, name, ?_, hv⟩
    · have hvalue : (templateParamValue rt name values).map (out ++ ·) =
          .error (.missingParameter name) := by
        simp only [templateParamValue, hv, Except.map]
      rw [hvalue]
      cases rest with
      | nil => rfl
      | cons c t => rw [Scanner.run_stop (by simp only [templateRenderer])]
    · exact templateNames_subset _ _ (mem_addName.mpr (.inr rfl))
  | some typed =>
    have hvalue : (templateParamValue rt name values).map (out ++ ·) =
        .ok (out ++ renderRawValue rt typed.value) := by
      simp only [templateParamValue, hv, Except.map]
    rw [hvalue]
    apply ih
    intro m hm
    rcases mem_addName.mp hm with hm | rfl
    · exact hnames m hm
    · simp [hv]

theorem rendered_run : ∀ (n : ℕ) (t : Text), t.length ≤ n → ∀ (out : Text) (names : List Text),
    (∀ m ∈ names, values m ≠ none) →
    Rendered values ((templateRenderer rt values).run (.ok out) t).1
      (templateNames.run names t).1 := by
  intro n
  induction n with
  | zero =>
    intro t ht out names hnames
    rw [eq_nil_of_length_eq_zero (Nat.le_zero.mp ht)]
    exact .inl ⟨⟨out, rfl⟩, hnames⟩
  | succ n ih =>
    intro t ht out names hnames
    cases t with
    | nil => exact .inl ⟨⟨out, rfl⟩, hnames⟩
    | cons c t =>
      rw [length_cons] at ht
      by_cases hc : c = dollar
      · -- the dollar is no name; the parameter behind it is found at the next byte
        subst hc
        rw [templateNames_skip (templateParamAt_dollar t)]
        cases hp : templateParamAt t with
        | none =>
          have hstep : (templateRenderer rt values).step (.ok out) dollar t =
              some (.ok (out ++ [dollar]), t) := by
            simp only [templateRenderer, if_true, hp]
          rw [Scanner.run_step hstep]
          exact ih t (by omega) _ names hnames
        | some p =>
          obtain ⟨name, rest⟩ := p
          have hstep : (templateRenderer rt values).step (.ok out) dollar t =
              some ((templateParamValue rt name values).map (out ++ ·), rest) := by
            simp only [templateRenderer, if_true, hp]
          rw [Scanner.run_step hstep]
          cases t with
          | nil => cases hp
          | cons d t =>
            have hle : rest.length ≤ t.length := (templateParamAt_suffix hp).length_le
            rw [length_cons] at ht
            rw [templateNames_found hp]
            exact rendered_param rt values hnames (ih rest (by omega))
      · cases hp : templateParamAt (c :: t) with
        | none =>
          have hstep : (templateRenderer rt values).step (.ok out) c t =
              some (.ok (out ++ [c]), t) := by
            simp only [templateRenderer, if_neg hc, hp]
          rw [templateNames_skip hp, Scanner.run_step hstep]
          exact ih t (by omega) _ names hnames
        | some p =>
          obtain ⟨name, rest⟩ := p
          have hstep : (templateRenderer rt values).step (.ok out) c t =
              some ((templateParamValue rt name values).map (out ++ ·), rest) := by
            simp only [templateRenderer, if_neg hc, hp]
          have hle : rest.length ≤ t.length := (templateParamAt_suffix hp).length_le
          rw [templateNames_found hp, Scanner.run_step hstep]
          exact rendered_param rt values hnames (ih rest (by omega))

/-- A template renders when all its names have values, and misses one of them otherwise. -/
theorem renderTemplate_rendered (content : Text) :
    Rendered values (renderTemplate rt content values) (extractTemplateNames content) :=
  rendered_run rt values content.length content le_rfl [] [] fun m hm => by cases hm

end Template

/-! ### The spans of a scan -/

/-! ### The loops over the spans -/

theorem missingLoop_eq_nil {values : Values F T} : ∀ {missing : List Text} {spans : List Span},
    missingLoop values missing spans = [] ↔
      missing = [] ∧ ∀ span ∈ spans, values span.name ≠ none := by
  intro missing spans
  induction spans generalizing missing with
  | nil => simp [missingLoop]
  | cons span spans ih =>
    simp only [missingLoop]
    split_ifs with h
    · rw [ih]
      constructor
      · rintro ⟨rfl, hspans⟩
        refine ⟨rfl, forall_mem_cons.mpr ⟨?_, hspans⟩⟩
        rcases h with h | h
        · exact Option.isSome_iff_ne_none.mp h
        · cases h
      · rintro ⟨hnil, hspans⟩
        exact ⟨hnil, (forall_mem_cons.mp hspans).2⟩
    · rw [ih]
      constructor
      · rintro ⟨hnil, -⟩
        exact absurd hnil (by simp)
      · rintro ⟨-, hspans⟩
        have hname := (forall_mem_cons.mp hspans).1
        exact absurd (.inl (Option.isSome_iff_ne_none.mpr hname)) h

theorem missingParameterNames_eq_nil {sql dbType : Text} {values : Values F T} :
    missingParameterNames sql dbType values = [] ↔
      ∀ span ∈ scan sql (optionsForDBType dbType), values span.name ≠ none := by
  unfold missingParameterNames
  rw [← length_eq_zero_iff, length_insertionSort, length_eq_zero_iff,
    missingLoop_eq_nil]
  simp

theorem lacksFirst_nil {rt : Runtime F T} {values : Values F T} : ¬ LacksFirst rt values [] := by
  rintro ⟨before, span, after, h, -⟩
  simp at h

theorem lacksFirst_cons {rt : Runtime F T} {values : Values F T} {span : Span}
    {spans : List Span} : LacksFirst rt values (span :: spans) ↔
      span.Lacks values ∨ ¬ span.Refused rt values ∧ LacksFirst rt values spans := by
  constructor
  · rintro ⟨before, s, after, heq, hlacks, hbefore⟩
    cases before with
    | nil =>
      cases heq
      exact .inl hlacks
    | cons b before =>
      cases heq
      have hb := forall_mem_cons.mp hbefore
      exact .inr ⟨hb.1, before, s, after, rfl, hlacks, hb.2⟩
  · rintro (hlacks | ⟨hspan, before, s, after, rfl, hlacks, hbefore⟩)
    · exact ⟨[], span, spans, rfl, hlacks, fun s hs => by cases hs⟩
    · exact ⟨span :: before, s, after, rfl, hlacks, forall_mem_cons.mpr ⟨hspan, hbefore⟩⟩

theorem bindTemplate_cache (dialect : Dialect) (rendered : Text) (st : BindState F T) :
    (bindTemplate dialect rendered st).convertedCache = st.convertedCache := by
  cases dialect <;> rfl

theorem bindNamed_cache (dialect : Dialect) (name : Text) (converted : Value F T)
    (st : BindState F T) :
    (bindNamed dialect name converted st).convertedCache = st.convertedCache := by
  unfold bindNamed
  cases dialect with
  | qmark => rfl
  | dollar => simp only; split <;> rfl
  | oracle => simp only; split <;> rfl

variable {rt : Runtime F T} {values : Values F T}

/-- The error of a conversion through the cache is that of the conversion. -/
theorem convertOnce_error {name : Text} {cache : List (Text × Value F T)}
    (hcache : CacheOK rt values cache) {e : BindError} :
    convertOnce rt name values cache = .error e ↔ convertNamed rt name values = .error e := by
  unfold convertOnce
  cases hl : cache.lookup name with
  | some v => simp [hcache name v hl]
  | none =>
    cases hn : convertNamed rt name values with
    | error e' => simp
    | ok v => simp

/-- What the binding of one span comes to. -/
inductive SpanOutcome (rt : Runtime F T) (values : Values F T) (span : Span) :
    Except BindError (BindState F T) → Prop where
  | bound {st : BindState F T} (cache : CacheOK rt values st.convertedCache)
      (supplied : ¬ span.Lacks values) (converts : ¬ span.Refused rt values) :
      SpanOutcome rt values span (.ok st)
  | missing {name : Text} (lacks : span.Lacks values) :
      SpanOutcome rt values span (.error (.missingParameter name))
  | invalid {name : Text} {e : ConvertError} (supplied : ¬ span.Lacks values)
      (refused : span.Refused rt values) :
      SpanOutcome rt values span (.error (.invalidParameter name e))

theorem bindSpan_outcome {dialect : Dialect} {span : Span} {st : BindState F T}
    (hcache : CacheOK rt values st.convertedCache) :
    SpanOutcome rt values span (bindSpan rt dialect values span st) := by
  unfold bindSpan
  split_ifs with ht
  · have hnames : span.names = extractTemplateNames span.template := if_pos ht
    have hconverts : ¬ span.Refused rt values := fun h => ht h.1
    rcases renderTemplate_rendered rt values span.template with
      ⟨⟨out, hout⟩, hall⟩ | ⟨⟨name, herr⟩, n, hn, hv⟩
    · rw [hout]
      refine .bound ?_ ?_ hconverts
      · rwa [bindTemplate_cache]
      · rintro ⟨n, hn, hv⟩
        exact hall n (hnames ▸ hn) hv
    · rw [herr]
      exact .missing ⟨n, hnames ▸ hn, hv⟩
  · have hempty : span.template = [] := not_not.mp ht
    have hnames : span.names = [span.name] := if_neg ht
    have hlacks : span.Lacks values ↔ values span.name = none := by
      unfold Span.Lacks
      rw [hnames]
      simp
    cases hv : values span.name with
    | none =>
      have herr : convertNamed rt span.name values = .error (.missingParameter span.name) := by
        simp only [convertNamed, hv]
      rw [(convertOnce_error hcache).mpr herr]
      exact .missing (hlacks.mpr hv)
    | some typed =>
      have hsupplied : ¬ span.Lacks values := fun h => absurd (hlacks.mp h) (by simp [hv])
      cases hc : convertTypedValue rt typed.type typed.value with
      | error e =>
        have herr : convertNamed rt span.name values = .error (.invalidParameter span.name e) := by
          simp only [convertNamed, hv, hc]
        rw [(convertOnce_error hcache).mpr herr]
        exact .invalid hsupplied ⟨hempty, typed, hv, e, hc⟩
      | ok v =>
        have hconverts : ¬ span.Refused rt values := by
          rintro ⟨-, typed', hv', e, he⟩
          rw [hv] at hv'
          cases hv'
          rw [hc] at he
          cases he
        cases ho : convertOnce rt span.name values st.convertedCache with
        | error e =>
          have := (convertOnce_error hcache).mp ho
          simp [convertNamed, hv, hc] at this
        | ok p =>
          refine .bound ?_ hsupplied hconverts
          rw [bindNamed_cache]
          exact (convertOnce_spec hcache ho).2

theorem bindSpans_lacks {dialect : Dialect} {sql : Text} {spans : List Span} :
    ∀ {lo : ℕ} {st : BindState F T}, CacheOK rt values st.convertedCache →
      (LacksParameter (bindSpans rt dialect values sql lo spans st) ↔
        LacksFirst rt values spans) := by
  induction spans with
  | nil =>
    intro lo st hcache
    refine iff_of_false ?_ lacksFirst_nil
    rintro ⟨name, h⟩
    cases h
  | cons span spans ih =>
    intro lo st hcache
    rw [lacksFirst_cons]
    simp only [bindSpans]
    have houtcome : SpanOutcome rt values span (bindSpan rt dialect values span
        { st with out := st.out ++ (sql.take span.start).drop lo }) := bindSpan_outcome hcache
    generalize bindSpan rt dialect values span
      { st with out := st.out ++ (sql.take span.start).drop lo } = result at houtcome
    cases houtcome with
    | bound cache supplied converts =>
      rw [ih cache]
      exact ⟨fun h => .inr ⟨converts, h⟩, fun h => (h.resolve_left supplied).2⟩
    | missing lacks => exact iff_of_true ⟨_, rfl⟩ (.inl lacks)
    | invalid supplied refused =>
      refine iff_of_false ?_ fun h => (h.resolve_left supplied).1 refused
      rintro ⟨name, h⟩
      cases h

theorem bind_lacks (sql dbType : Text) :
    LacksParameter (bind rt sql dbType values) ↔
      LacksFirst rt values (scan sql (optionsForDBType dbType)) := by
  have hinit : CacheOK rt values (@BindState.init F T).convertedCache := by
    intro name v h
    cases h
  have hspans : LacksParameter (bindSpans rt (dialectForDBType dbType) values sql 0
      (scan sql (optionsForDBType dbType)) .init) ↔
      LacksFirst rt values (scan sql (optionsForDBType dbType)) := bindSpans_lacks hinit
  unfold bind
  simp only
  split_ifs with hs
  · rw [hs]
    refine iff_of_false ?_ lacksFirst_nil
    rintro ⟨name, h⟩
    cases h
  · rw [← hspans]
    cases bindSpans rt (dialectForDBType dbType) values sql 0
        (scan sql (optionsForDBType dbType)) .init with
    | error e => simp [LacksParameter]
    | ok st => cases dialectForDBType dbType <;> simp [LacksParameter]

/-! ### When the two agree -/

/-- Where a span is called after a name without a value, the first span that lacks a name comes
ahead of every refused value; where none is, a template that lacks another of its names stands
behind one. -/
structure Reported (rt : Runtime F T) (values : Values F T) (spans : List Span) : Prop where
  called : (∃ span ∈ spans, values span.name = none) → LacksFirst rt values spans
  templates : (∀ span ∈ spans, values span.name ≠ none) →
    ∀ before span after, spans = before ++ span :: after → span.Lacks values →
      ∃ s ∈ before, s.Refused rt values

/-- A query whose template holds two names, and a value for the first of them. -/
def twoNames : Text := bytes "select '\x7ba\x7d \x7bb\x7d'"

def firstName : Values Unit Unit := fun name =>
  if name = bytes "a" then some ⟨bytes "string", .string (bytes "1")⟩ else none

end GoNavi.Sqlparam
