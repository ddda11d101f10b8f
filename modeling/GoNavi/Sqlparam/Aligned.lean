import Mathlib.Data.List.Forall2
import GoNavi.Sqlparam.Bind

/-! # A bound query is aligned with its arguments

`bind_aligned` is the main result: whenever `bind` succeeds, every parameter span of the text
has a list of slots (`AlignedBy`) such that

* the rewritten text is the original one with the placeholders of the slots in place of the
  spans;
* the slots of a span hold its values in the argument list, one placeholder for each value;
* question marks stand for the arguments in text order, one for each; numbered placeholders
  use exactly the numbers of the arguments, and a name keeps its slots.

The loop over the spans is treated once (`bindSpans_spec`); the two styles of placeholders
instantiate its invariant (`QmarkInv`, `NumberedInv`). -/

namespace GoNavi.Sqlparam

open Scan GoNavi.Sql

variable {F T : Type} {rt : Runtime F T} {values : Values F T}

/-- The values that a span stands for: the rendered template, or the converted value of its
name, element by element if that is a list. -/
def spanValues (rt : Runtime F T) (values : Values F T) (span : Span) :
    Except BindError (List (Value F T)) :=
  if span.template ≠ [] then
    (renderTemplate rt span.template values).map fun rendered => [.string rendered]
  else (convertNamed rt span.name values).map Value.expand

/-- The slots of a span hold its values in order. -/
def Holds (rt : Runtime F T) (values : Values F T) (get : ℕ → Option (Value F T))
    (span : Span) (slots : List ℕ) : Prop :=
  ∃ vs, spanValues rt values span = .ok vs ∧ slots.map get = vs.map some

/-- The slots of the spans align a rewritten query with its arguments. -/
structure AlignedBy (rt : Runtime F T) (sql dbType : Text) (values : Values F T)
    (result : BindResult F T) (slots : List (List ℕ)) : Prop where
  spaced : Spaced sql.length 0 ((scan sql (optionsForDBType dbType)).map Span.bounds)
  /-- Outside the spans the text is the original one. -/
  rewritten : result.sql = weave (gaps sql 0 ((scan sql (optionsForDBType dbType)).map Span.bounds))
    (slots.map (placeholders (dialectForDBType dbType)))
  holds : List.Forall₂ (Holds rt values fun slot => result.args[slot - 1]?)
    (scan sql (optionsForDBType dbType)) slots
  /-- The k-th question mark stands for the k-th argument. -/
  inOrder : dialectForDBType dbType = .qmark →
    slots.flatten = List.range' 1 result.args.length
  numbered : dialectForDBType dbType ≠ .qmark →
    ∀ slot, slot ∈ slots.flatten ↔ 1 ≤ slot ∧ slot ≤ result.args.length
  reused : dialectForDBType dbType ≠ .qmark →
    ∀ p ∈ (scan sql (optionsForDBType dbType)).zip slots,
      ∀ q ∈ (scan sql (optionsForDBType dbType)).zip slots,
        p.1.template = [] → q.1.template = [] → p.1.name = q.1.name → p.2 = q.2

variable {get get' : ℕ → Option (Value F T)} {vs : List (Value F T)}

theorem map_eq_map_some_mono {slots : List ℕ}
    (hget : ∀ slot ∈ slots, ∀ v, get slot = some v → get' slot = some v)
    (h : slots.map get = vs.map some) : slots.map get' = vs.map some := by
  rw [← h]
  refine List.map_congr_left fun slot hslot => ?_
  have hsome : get slot ∈ vs.map some := h ▸ List.mem_map_of_mem hslot
  obtain ⟨v, -, hv⟩ := List.mem_map.mp hsome
  rw [← hv, hget slot hslot v hv.symm]

variable {span : Span}

theorem Holds.mono {slots : List ℕ}
    (hget : ∀ slot ∈ slots, ∀ v, get slot = some v → get' slot = some v)
    (h : Holds rt values get span slots) : Holds rt values get' span slots := by
  obtain ⟨vs, hvs, hslots⟩ := h
  exact ⟨vs, hvs, map_eq_map_some_mono hget hslots⟩

/-! ### The cache -/

/-- The cache has converted values of the names only. -/
def CacheOK (rt : Runtime F T) (values : Values F T) (cache : List (Text × Value F T)) : Prop :=
  ∀ name v, cache.lookup name = some v → convertNamed rt name values = .ok v

theorem lookup_cons {α β : Type} [BEq α] [LawfulBEq α] [DecidableEq α] {k k' : α} {v : β}
    {l : List (α × β)} :
    ((k', v) :: l).lookup k = if k = k' then some v else l.lookup k := by
  by_cases h : k = k'
  · simp [h]
  · have hne : (k == k') = false := beq_eq_false_iff_ne.mpr h
    simp [List.lookup_cons, hne, h]

theorem convertOnce_spec {name : Text} {cache cache' : List (Text × Value F T)}
    {v : Value F T} (hcache : CacheOK rt values cache)
    (h : convertOnce rt name values cache = .ok (v, cache')) :
    convertNamed rt name values = .ok v ∧ CacheOK rt values cache' := by
  rw [convertOnce] at h
  split at h
  · next hv =>
    cases h
    exact ⟨hcache name v hv, hcache⟩
  · split at h
    · cases h
    · next hv =>
      cases h
      refine ⟨hv, fun name' v' h' => ?_⟩
      rw [lookup_cons] at h'
      split_ifs at h' with heq
      · cases h'
        rw [heq, hv]
      · exact hcache name' v' h'

/-! ### The loop over the spans -/

variable {dialect : Dialect}

theorem bindSpans_spec {sql : Text}
    {I : BindState F T → List Span → List (List ℕ) → Prop}
    (hout : ∀ {st done slots} (out : Text), I st done slots →
      I { st with out := out } done slots)
    (hstep : ∀ {st done slots span st'}, I st done slots →
      bindSpan rt dialect values span st = .ok st' →
      ∃ ss, st'.out = st.out ++ placeholders dialect ss ∧ I st' (done ++ [span]) (slots ++ [ss])) :
    ∀ {lo : ℕ} {spans : List Span} {st st' : BindState F T} {done : List Span}
      {slots : List (List ℕ)}, I st done slots →
      bindSpans rt dialect values sql lo spans st = .ok st' →
      ∃ more, st'.out = st.out ++
          weave (gaps sql lo (spans.map Span.bounds)) (more.map (placeholders dialect)) ∧
        I st' (done ++ spans) (slots ++ more)
  | lo, [], st, st', done, slots, hinv, h => by
    cases h
    refine ⟨[], rfl, ?_⟩
    simpa using hout _ hinv
  | lo, span :: spans, st, st', done, slots, hinv, h => by
    rw [bindSpans] at h
    split at h
    · cases h
    · next st₁ hst₁ =>
      obtain ⟨ss, hss, hinv₁⟩ := hstep (hout _ hinv) hst₁
      obtain ⟨more, hmore, hinv'⟩ := bindSpans_spec hout hstep hinv₁ h
      refine ⟨ss :: more, ?_, by simpa using hinv'⟩
      rw [hmore, hss]
      simp [gaps, weave, Span.bounds]

/-! ### Question marks -/

theorem placeholders_qmark {a b : List ℕ} (h : a.length = b.length) :
    placeholders .qmark a = placeholders .qmark b := by
  have hmap : ∀ l : List ℕ, l.map (placeholder .qmark) = List.replicate l.length (bytes "?") :=
    fun l => List.map_eq_replicate_iff.mpr fun _ _ => rfl
  rw [placeholders, placeholders, hmap, hmap, h]

structure QmarkInv (rt : Runtime F T) (values : Values F T) (st : BindState F T)
    (done : List Span) (slots : List (List ℕ)) : Prop where
  cache : CacheOK rt values st.convertedCache
  holds : List.Forall₂ (Holds rt values fun slot => st.qmarkArgs[slot - 1]?) done slots
  inOrder : slots.flatten = List.range' 1 st.qmarkArgs.length

variable {done : List Span} {slots : List (List ℕ)} {st st' : BindState F T}

/-- Appending the values of a span to the arguments keeps the invariant. -/
theorem QmarkInv.append (h : QmarkInv rt values st done slots)
    (hvs : spanValues rt values span = .ok vs) (hcache : CacheOK rt values st'.convertedCache)
    (hargs : st'.qmarkArgs = st.qmarkArgs ++ vs) :
    QmarkInv rt values st' (done ++ [span])
      (slots ++ [List.range' (st.qmarkArgs.length + 1) vs.length]) := by
  refine ⟨hcache, List.rel_append (h.holds.imp fun _ _ => Holds.mono ?_) ?_, ?_⟩
  · intro slot _ v hv
    obtain ⟨hlt, -⟩ := List.getElem?_eq_some_iff.mp hv
    rw [hargs, List.getElem?_append_left hlt, hv]
  · refine .cons ⟨vs, hvs, ?_⟩ .nil
    refine List.ext_getElem (by simp) fun k hk hk' => ?_
    have hlt : k < vs.length := by simpa using hk'
    simp [hargs, show st.qmarkArgs.length + 1 + k - 1 = st.qmarkArgs.length + k by omega, hlt]
  · rw [List.flatten_append, h.inOrder, hargs, List.length_append, List.flatten_singleton,
      ← List.range'_append_1, Nat.add_comm 1]

theorem QmarkInv.step (h : QmarkInv rt values st done slots)
    (hst : bindSpan rt .qmark values span st = .ok st') :
    ∃ ss, st'.out = st.out ++ placeholders .qmark ss ∧
      QmarkInv rt values st' (done ++ [span]) (slots ++ [ss]) := by
  rw [bindSpan] at hst
  split_ifs at hst with htemplate
  · split at hst
    · cases hst
    · next rendered hr =>
      cases hst
      have hvs : spanValues rt values span = .ok [.string rendered] := by
        rw [spanValues, if_pos htemplate, hr]
        rfl
      exact ⟨_, rfl, h.append hvs h.cache rfl⟩
  · split at hst
    · cases hst
    · next converted cache hc =>
      cases hst
      obtain ⟨hconv, hcache⟩ := convertOnce_spec h.cache hc
      have hvs : spanValues rt values span = .ok converted.expand := by
        rw [spanValues, if_neg htemplate, hconv]
        rfl
      refine ⟨_, ?_, h.append hvs hcache rfl⟩
      exact congrArg _ (placeholders_qmark (by simp))

/-! ### Numbered placeholders -/

/-- The value of a slot. -/
def slotValue (slots : List (ℕ × Value F T)) (slot : ℕ) : Option (Value F T) := slots.lookup slot

/-- `slots'` has every value that `slots` has. -/
def Extends (slots slots' : List (ℕ × Value F T)) : Prop :=
  ∀ slot v, slotValue slots slot = some v → slotValue slots' slot = some v

variable {p : ℕ × Value F T}

theorem slotValue_cons {slots : List (ℕ × Value F T)} {slot : ℕ} :
    slotValue (p :: slots) slot = if slot = p.1 then some p.2 else slotValue slots slot :=
  lookup_cons

theorem assignSlot_of_none {slots : List (ℕ × Value F T)} (h : slotValue slots p.1 = none) :
    assignSlot slots p = p :: slots := by
  rw [assignSlot]
  split
  · next hv => exact absurd (hv.symm.trans h) (by simp)
  · rfl

theorem assignSlot_extends (slots : List (ℕ × Value F T)) (p : ℕ × Value F T) :
    Extends slots (assignSlot slots p) := by
  intro slot v hv
  rw [assignSlot]
  split
  · exact hv
  · next hnone =>
    rw [slotValue_cons]
    split_ifs with heq
    · rw [heq] at hv
      exact absurd (hv.symm.trans hnone) (by simp)
    · exact hv

theorem assign_extends : ∀ (ps : List (ℕ × Value F T)) (slots : List (ℕ × Value F T)),
    Extends slots (ps.foldl assignSlot slots)
  | [], _ => fun _ _ h => h
  | p :: ps, slots => fun slot v h =>
    assign_extends ps _ slot v (assignSlot_extends slots p slot v h)

theorem assign_other : ∀ (ps : List (ℕ × Value F T)) {slots : List (ℕ × Value F T)}
    {slot : ℕ}, (∀ p ∈ ps, p.1 ≠ slot) →
    slotValue (ps.foldl assignSlot slots) slot = slotValue slots slot
  | [], _, _, _ => rfl
  | p :: ps, slots, slot, h => by
    rw [List.foldl_cons, assign_other ps fun q hq => h q (List.mem_cons_of_mem _ hq), assignSlot]
    split
    · rfl
    · rw [slotValue_cons, if_neg (h p List.mem_cons_self).symm]

theorem assign_fresh : ∀ {n : ℕ} (vs : List (Value F T)) {slots : List (ℕ × Value F T)},
    (∀ slot, n ≤ slot → slotValue slots slot = none) →
    (List.range' n vs.length).map
      (slotValue (((List.range' n vs.length).zip vs).foldl assignSlot slots)) = vs.map some
  | _, [], _, _ => rfl
  | n, v :: vs, slots, h => by
    have hnew : assignSlot slots (n, v) = (n, v) :: slots := assignSlot_of_none (h n le_rfl)
    have hn : slotValue (assignSlot slots (n, v)) n = some v := by
      rw [hnew, slotValue_cons, if_pos rfl]
    have hfresh : ∀ slot, n + 1 ≤ slot → slotValue (assignSlot slots (n, v)) slot = none := by
      intro slot hslot
      rw [hnew, slotValue_cons, if_neg (by simp; omega), h slot (by omega)]
    rw [List.length_cons, List.range'_succ, List.zip_cons_cons, List.foldl_cons, List.map_cons,
      List.map_cons, assign_fresh vs hfresh, assign_extends _ _ _ _ hn]

structure NumberedInv (rt : Runtime F T) (values : Values F T) (st : BindState F T)
    (done : List Span) (slots : List (List ℕ)) : Prop where
  cache : CacheOK rt values st.convertedCache
  holds : List.Forall₂ (Holds rt values (slotValue st.slots)) done slots
  pos : 1 ≤ st.nextSlot
  range : ∀ slot, slot ∈ slots.flatten ↔ 1 ≤ slot ∧ slot < st.nextSlot
  fresh : ∀ slot, st.nextSlot ≤ slot → slotValue st.slots slot = none
  /-- The slots of a name hold its values and stand in some span. -/
  known : ∀ name ss, st.nameSlots.lookup name = some ss → ss ∈ slots ∧ ∃ converted,
    convertNamed rt name values = .ok converted ∧
      ss.map (slotValue st.slots) = converted.expand.map some
  named : List.Forall₂ (fun span ss => span.template = [] →
    st.nameSlots.lookup span.name = some ss) done slots

theorem NumberedInv.extend
    (h : NumberedInv rt values st done slots)
    (hvs : spanValues rt values span = .ok vs) (hcache : CacheOK rt values st'.convertedCache)
    (hnext : st'.nextSlot = st.nextSlot + vs.length)
    (hslots : st'.slots =
      ((List.range' st.nextSlot vs.length).zip vs).foldl assignSlot st.slots)
    (hnames : st'.nameSlots = if span.template = [] then
      (span.name, List.range' st.nextSlot vs.length) :: st.nameSlots else st.nameSlots)
    (hnew : span.template = [] → st.nameSlots.lookup span.name = none ∧
      ∃ converted, convertNamed rt span.name values = .ok converted ∧ converted.expand = vs) :
    NumberedInv rt values st' (done ++ [span])
      (slots ++ [List.range' st.nextSlot vs.length]) := by
  have hext : Extends st.slots st'.slots := hslots ▸ assign_extends _ _
  have hmap : (List.range' st.nextSlot vs.length).map (slotValue st'.slots) = vs.map some :=
    hslots ▸ assign_fresh vs h.fresh
  have hlookup : ∀ name ss, st.nameSlots.lookup name = some ss →
      st'.nameSlots.lookup name = some ss := by
    intro name ss hname
    rw [hnames]
    split_ifs with htemplate
    · rw [lookup_cons, if_neg]
      · exact hname
      · rintro rfl
        exact absurd (hname.symm.trans (hnew htemplate).1) (by simp)
    · exact hname
  refine ⟨hcache, ?holds, ?pos, ?range, ?fresh, ?known, ?named⟩
  case holds =>
    exact List.rel_append (h.holds.imp fun _ _ => Holds.mono fun _ _ => hext _) (.cons ⟨vs, hvs, hmap⟩ .nil)
  case pos =>
    have := h.pos
    omega
  case range =>
    intro slot
    have hpos := h.pos
    rw [List.flatten_append, List.mem_append, h.range, List.flatten_singleton,
      List.mem_range'_1, hnext]
    omega
  case fresh =>
    intro slot hslot
    rw [hslots, assign_other, h.fresh slot (by omega)]
    rintro ⟨k, v⟩ hp heq
    obtain ⟨-, hk⟩ := List.mem_range'_1.mp (List.of_mem_zip hp).1
    omega
  case known =>
    intro name ss hname
    rw [hnames] at hname
    have hold (hname : st.nameSlots.lookup name = some ss) := h.known name ss hname
    split_ifs at hname with htemplate
    · rw [lookup_cons] at hname
      split_ifs at hname with heq
      · obtain ⟨-, converted, hconv, hitems⟩ := hnew htemplate
        cases hname
        exact ⟨by simp, converted, heq ▸ hconv, hitems ▸ hmap⟩
      · obtain ⟨hmem, converted, hconv, hss⟩ := hold hname
        exact ⟨by simp [hmem], converted, hconv, map_eq_map_some_mono (fun _ _ => hext _) hss⟩
    · obtain ⟨hmem, converted, hconv, hss⟩ := hold hname
      exact ⟨by simp [hmem], converted, hconv, map_eq_map_some_mono (fun _ _ => hext _) hss⟩
  case named =>
    refine List.rel_append (h.named.imp fun _ _ hold htemplate => hlookup _ _ (hold htemplate))
      (.cons (fun htemplate => ?_) .nil)
    rw [hnames, if_pos htemplate, lookup_cons, if_pos rfl]

theorem NumberedInv.reuse (h : NumberedInv rt values st done slots) {ss : List ℕ}
    {converted : Value F T} (htemplate : span.template = [])
    (hconv : convertNamed rt span.name values = .ok converted)
    (hss : st.nameSlots.lookup span.name = some ss) (hcache : CacheOK rt values st'.convertedCache)
    (hnext : st'.nextSlot = st.nextSlot)
    (hslots : st'.slots = (ss.zip converted.expand).foldl assignSlot st.slots)
    (hnames : st'.nameSlots = st.nameSlots) :
    NumberedInv rt values st' (done ++ [span]) (slots ++ [ss]) := by
  obtain ⟨hmem, converted', hconv', hmap⟩ := h.known _ _ hss
  obtain rfl : converted = converted' := Except.ok.inj (hconv.symm.trans hconv')
  have hext : Extends st.slots st'.slots := hslots ▸ assign_extends _ _
  have hvs : spanValues rt values span = .ok converted.expand := by
    rw [spanValues, if_neg (by simp [htemplate]), hconv]
    rfl
  have hrange : ∀ slot ∈ ss, slot < st.nextSlot := fun slot hslot =>
    ((h.range slot).mp (List.mem_flatten.mpr ⟨ss, hmem, hslot⟩)).2
  refine ⟨hcache, ?holds, hnext ▸ h.pos, ?range, ?fresh, ?known, ?named⟩
  case holds =>
    exact List.rel_append (h.holds.imp fun _ _ => Holds.mono fun _ _ => hext _)
      (.cons ⟨_, hvs, map_eq_map_some_mono (fun _ _ => hext _) hmap⟩ .nil)
  case range =>
    intro slot
    rw [List.flatten_append, List.mem_append, hnext, ← h.range, List.flatten_singleton]
    exact or_iff_left_of_imp fun hslot => List.mem_flatten.mpr ⟨ss, hmem, hslot⟩
  case fresh =>
    intro slot hslot
    rw [hslots, assign_other, h.fresh slot (by omega)]
    rintro ⟨k, v⟩ hp heq
    have := hrange k (List.of_mem_zip hp).1
    omega
  case known =>
    intro name ss' hname
    obtain ⟨hmem', converted', hconv', hss'⟩ := h.known name ss' (hnames ▸ hname)
    exact ⟨by simp [hmem'], converted', hconv', map_eq_map_some_mono (fun _ _ => hext _) hss'⟩
  case named =>
    rw [hnames]
    exact List.rel_append h.named (.cons (fun _ => hss) .nil)

theorem NumberedInv.step (hdialect : dialect ≠ .qmark) (h : NumberedInv rt values st done slots)
    (hst : bindSpan rt dialect values span st = .ok st') :
    ∃ ss, st'.out = st.out ++ placeholders dialect ss ∧
      NumberedInv rt values st' (done ++ [span]) (slots ++ [ss]) := by
  rw [bindSpan] at hst
  split_ifs at hst with htemplate
  · split at hst
    · cases hst
    · next rendered hr =>
      cases hst
      have hvs : spanValues rt values span = .ok [.string rendered] := by
        rw [spanValues, if_pos htemplate, hr]
        rfl
      have hbind : bindTemplate dialect rendered st =
          { st with out := st.out ++ placeholder dialect st.nextSlot
                    slots := (st.nextSlot, .string rendered) :: st.slots
                    nextSlot := st.nextSlot + 1 } := by
        cases dialect
        · exact absurd rfl hdialect
        all_goals rfl
      rw [hbind]
      refine ⟨[st.nextSlot], by simp [placeholders], h.extend hvs h.cache rfl ?_ ?_ fun hno => absurd hno htemplate⟩
      · exact (assignSlot_of_none (h.fresh _ le_rfl)).symm
      · rw [if_neg htemplate]
  · split at hst
    · cases hst
    · next converted cache hc =>
      cases hst
      rw [not_not] at htemplate
      obtain ⟨hconv, hcache⟩ := convertOnce_spec h.cache hc
      have hvs : spanValues rt values span = .ok converted.expand := by
        rw [spanValues, if_neg (by simp [htemplate]), hconv]
        rfl
      cases hknown : st.nameSlots.lookup span.name with
      | some ss =>
        have hbind : bindNamed dialect span.name converted { st with convertedCache := cache } =
            { st with convertedCache := cache
                      out := st.out ++ placeholders dialect ss
                      slots := (ss.zip converted.expand).foldl assignSlot st.slots } := by
          cases dialect
          · exact absurd rfl hdialect
          all_goals simp only [bindNamed, hknown]
        rw [hbind]
        exact ⟨ss, rfl, h.reuse htemplate hconv hknown hcache rfl rfl rfl⟩
      | none =>
        have hbind : bindNamed dialect span.name converted { st with convertedCache := cache } =
            { convertedCache := cache
              out := st.out ++
                placeholders dialect (List.range' st.nextSlot converted.expand.length)
              nameSlots := (span.name, List.range' st.nextSlot converted.expand.length) ::
                st.nameSlots
              nextSlot := st.nextSlot + converted.expand.length
              slots := ((List.range' st.nextSlot converted.expand.length).zip
                converted.expand).foldl assignSlot st.slots
              qmarkArgs := st.qmarkArgs } := by
          cases dialect
          · exact absurd rfl hdialect
          all_goals simp only [bindNamed, hknown]
        rw [hbind]
        refine ⟨_, rfl, h.extend hvs hcache rfl rfl ?_ fun _ => ⟨hknown, converted, hconv, rfl⟩⟩
        rw [if_pos htemplate]

/-! ### The result -/

theorem QmarkInv.init : QmarkInv rt values .init [] [] :=
  ⟨fun _ _ h => (by cases h), .nil, rfl⟩

theorem NumberedInv.init : NumberedInv rt values .init [] [] :=
  ⟨fun _ _ h => (by cases h), .nil, le_rfl, fun slot => (by simp [BindState.init]; omega),
    fun _ _ => rfl, fun _ _ h => (by cases h), .nil⟩

theorem NumberedInv.holds_args (h : NumberedInv rt values st done slots) :
    List.Forall₂ (Holds rt values fun slot => ((List.range (st.nextSlot - 1)).map fun k =>
      (st.slots.lookup (k + 1)).getD .nil)[slot - 1]?) done slots := by
  refine List.forall₂_iff_get.mpr ⟨h.holds.length_eq, fun i hi hi' => ?_⟩
  refine ((List.forall₂_iff_get.mp h.holds).2 i hi hi').mono fun slot hslot v hv => ?_
  have hrange := (h.range slot).mp (List.mem_flatten.mpr ⟨_, List.get_mem _ _, hslot⟩)
  have hk : slot - 1 + 1 = slot := by omega
  have hv' : st.slots.lookup slot = some v := hv
  rw [List.getElem?_map, List.getElem?_range (by omega), Option.map_some, hk, hv']
  rfl

theorem NumberedInv.slots_unique (h : NumberedInv rt values st done slots) {p q : Span × List ℕ}
    (hp : p ∈ done.zip slots) (hq : q ∈ done.zip slots) (hpt : p.1.template = [])
    (hqt : q.1.template = []) (hname : p.1.name = q.1.name) :
    p.2 = q.2 := by
  have hlookup := List.forall₂_iff_zip.mp h.named
  have hp' : st.nameSlots.lookup p.1.name = some p.2 := hlookup.2 hp hpt
  have hq' : st.nameSlots.lookup q.1.name = some q.2 := hlookup.2 hq hqt
  exact Option.some.inj (hp'.symm.trans (hname ▸ hq'))

/-- **A bound query is aligned with its arguments**, in every dialect. -/
theorem bind_aligned {F T : Type} (rt : Runtime F T) (sql dbType : Text) (values : Values F T)
    (result : BindResult F T) (h : bind rt sql dbType values = .ok result) :
    ∃ slots, AlignedBy rt sql dbType values result slots := by
  have hspaced := scan_spaced sql (optionsForDBType dbType)
  simp only [bind] at h
  split_ifs at h with hnone
  · cases h
    refine ⟨[], hspaced, ?_, ?_, fun _ => rfl, fun _ slot => ?_, fun _ p hp => ?_⟩
    · simp [hnone, gaps, weave]
    · rw [hnone]
      exact .nil
    · simp
      omega
    · simp at hp
  · split at h
    · cases h
    · next st hst =>
      by_cases hq : dialectForDBType dbType = .qmark
      · rw [hq] at h hst
        cases h
        obtain ⟨slots, hout, hinv⟩ := bindSpans_spec (I := QmarkInv rt values)
          (fun _ h => ⟨h.cache, h.holds, h.inOrder⟩) (fun h hst => h.step hst) .init hst
        exact ⟨slots, hspaced, by rw [hq]; exact hout, hinv.holds, fun _ => hinv.inOrder,
          fun hne => absurd hq hne, fun hne => absurd hq hne⟩
      · obtain ⟨slots, hout, hinv⟩ := bindSpans_spec (I := NumberedInv rt values)
          (fun _ h => { h with })
          (fun h hst => h.step hq hst) .init hst
        rw [List.nil_append] at hinv
        have hresult : result = ⟨st.out, (List.range (st.nextSlot - 1)).map fun slot =>
            (st.slots.lookup (slot + 1)).getD .nil⟩ := by
          cases hd : dialectForDBType dbType
          · exact absurd hd hq
          all_goals
            rw [hd] at h
            exact (Except.ok.inj h).symm
        rw [hresult]
        refine ⟨slots, hspaced, hout, hinv.holds_args, fun hd => absurd hd hq,
          fun _ slot => ?_, fun _ p hp q hq' => hinv.slots_unique hp hq'⟩
        have hpos := hinv.pos
        have hrange := hinv.range slot
        rw [List.nil_append] at hrange
        rw [hrange, List.length_map, List.length_range]
        omega

/-- A runtime for values without floating-point numbers and dates. -/
def plainRuntime : Runtime Unit Unit :=
  ⟨fun _ => [], fun _ => none, fun _ => none, fun _ _ => none, fun _ => []⟩

/-- The values of `ids`, a list, and of `day`. -/
def sampleValues : Values Unit Unit := fun name =>
  if name = bytes "ids" then some ⟨bytes "list", .list [.string (bytes "x"), .int64 7]⟩
  else if name = bytes "day" then some ⟨bytes "string", .string (bytes "2026-01-02")⟩
  else none

theorem bind_aligned_sample :
    ∃ slots, AlignedBy plainRuntime
      (bytes "SELECT :day WHERE a IN (${ids}) AND b = :day AND c < '{day} 12:00'")
      (bytes "postgres") sampleValues
      ⟨bytes "SELECT $1 WHERE a IN ($2,$3) AND b = $1 AND c < $4",
        [.string (bytes "2026-01-02"), .string (bytes "x"), .int64 7,
          .string (bytes "2026-01-02 12:00")]⟩ slots :=
  bind_aligned _ _ _ _ _ (by rfl)

end GoNavi.Sqlparam
