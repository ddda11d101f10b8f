import GoNavi.Scan.Scanner

/-! # Two runs side by side

A `Lexing` says where the quotes and comments of a list are: in front of a symbol, `skip` gives
what is behind the region that starts there, if one does.  Two lists are `Alike` when they are
equal but for the contents of the regions that start with a `free` symbol.

* `Along u u' w w'`: reading `u` and `u'` side by side, one comes to `w` and `w'`; `Beside`
  says that what is left is alike as well.
* `Alike.word` passes over a word, `Along.cut` cuts both lists off at the place reached.
* **`Alike.run`** is the rule for two runs: what a step of both scanners preserves, the runs
  preserve. -/

namespace Scan

open List

universe u v w

/-- Where the regions of a list are, and whose contents do not matter. -/
structure Lexing (α : Type u) where
  /-- What is behind the region that starts with a symbol, if one does. -/
  skip : α → List α → Option (List α)
  /-- A region ends behind its first symbol. -/
  skip_suffix : ∀ {c t u}, skip c t = some u → u <:+ t
  /-- The regions whose contents are free. -/
  free : α → Bool

namespace Lexing

variable {α : Type u} (L : Lexing α)

/-- `L.Along u u' w w'`: reading `u` and `u'` side by side, one comes to `w` and `w'`. -/
inductive Along : List α → List α → List α → List α → Prop where
  | refl (w w' : List α) : Along w w' w w'
  | symbol {c : α} {t t' w w' : List α} : L.skip c t = none → L.skip c t' = none →
      Along t t' w w' → Along (c :: t) (c :: t') w w'
  | region {c : α} {v v' t t' w w' : List α} : L.skip c v = some t → L.skip c v' = some t' →
      (L.free c = true ∨ ∃ r, v = r ++ t ∧ v' = r ++ t') → Along t t' w w' →
      Along (c :: v) (c :: v') w w'

/-- The lists are equal but for the contents of free regions. -/
def Alike (u u' : List α) : Prop := L.Along u u' [] []

variable {L} {c : α} {t t' u u' v v' w w' : List α}

theorem Along.suffix (h : L.Along u u' w w') : w <:+ u ∧ w' <:+ u' := by
  induction h with
  | refl => exact ⟨suffix_refl _, suffix_refl _⟩
  | symbol _ _ _ ih =>
    exact ⟨ih.1.trans (suffix_cons _ _), ih.2.trans (suffix_cons _ _)⟩
  | region h h' _ _ ih =>
    exact ⟨(ih.1.trans (L.skip_suffix h)).trans (suffix_cons _ _),
      (ih.2.trans (L.skip_suffix h')).trans (suffix_cons _ _)⟩

theorem Along.trans (h : L.Along u u' v v') (h' : L.Along v v' w w') : L.Along u u' w w' := by
  induction h with
  | refl => exact h'
  | symbol hs hs' _ ih => exact .symbol hs hs' (ih h')
  | region hs hs' hr _ ih => exact .region hs hs' hr (ih h')

theorem Along.one (h : L.skip c t = none) (h' : L.skip c t' = none) :
    L.Along (c :: t) (c :: t') t t' :=
  .symbol h h' (.refl _ _)

theorem Along.over (h : L.skip c v = some t) (h' : L.skip c v' = some t')
    (hr : L.free c = true ∨ ∃ r, v = r ++ t ∧ v' = r ++ t') : L.Along (c :: v) (c :: v') t t' :=
  .region h h' hr (.refl _ _)

theorem Alike.nil : L.Alike [] [] := .refl _ _

theorem Alike.refl (t : List α) : L.Alike t t := by
  induction hn : t.length using Nat.strong_induction_on generalizing t with
  | _ n ih =>
    cases t with
    | nil => exact .nil
    | cons c t =>
      rw [length_cons] at hn
      cases hs : L.skip c t with
      | none => exact .symbol hs hs (ih t.length (by omega) t rfl)
      | some u =>
        have hlen := (L.skip_suffix hs).length_le
        obtain ⟨r, hr⟩ := L.skip_suffix hs
        exact .region hs hs (.inr ⟨r, hr.symm, hr.symm⟩) (ih u.length (by omega) u rfl)

theorem Alike.symbols {p : List α} (hp : ∀ c ∈ p, ∀ t, L.skip c t = none) (h : L.Alike t t') :
    L.Alike (p ++ t) (p ++ t') := by
  induction p with
  | nil => exact h
  | cons c p ih =>
    have hc := hp c (mem_cons_self ..)
    exact .symbol (hc _) (hc _) (ih fun d hd => hp d (mem_cons_of_mem _ hd))

theorem Alike.head?_eq (h : L.Alike u u') : u.head? = u'.head? := by
  cases h <;> rfl

theorem Alike.nil_iff (h : L.Alike u u') : u = [] ↔ u' = [] := by
  cases h <;> simp

/-- Places `u` and `u'` that one comes to, reading two lists that are alike side by side. -/
structure Beside (L : Lexing α) (t t' u u' : List α) : Prop where
  along : L.Along t t' u u'
  alike : L.Alike u u'

theorem Alike.beside (h : L.Alike t t') : L.Beside t t' t t' := ⟨.refl _ _, h⟩

theorem Beside.trans (h : L.Beside t t' u u') (h' : L.Beside u u' w w') : L.Beside t t' w w' :=
  ⟨h.along.trans h'.along, h'.alike⟩

/-- In front of a symbol, both lists have the same symbol, and both step over it or over a
region. -/
theorem Alike.cases_cons (h : L.Alike (c :: t) u') : ∃ t', u' = c :: t' ∧
    ((L.skip c t = none ∧ L.skip c t' = none ∧ L.Beside (c :: t) (c :: t') t t') ∨
      ∃ v v', L.skip c t = some v ∧ L.skip c t' = some v' ∧
        (L.free c = true ∨ ∃ r, t = r ++ v ∧ t' = r ++ v') ∧
        L.Beside (c :: t) (c :: t') v v') := by
  cases h with
  | symbol hs hs' h => exact ⟨_, rfl, .inl ⟨hs, hs', .one hs hs', h⟩⟩
  | region hs hs' hr h => exact ⟨_, rfl, .inr ⟨_, _, hs, hs', hr, .over hs hs' hr, h⟩⟩

/-- A word in which no region starts is the same in both lists. -/
theorem Alike.word {p : α → Bool} (hp : ∀ c t, p c = true → L.skip c t = none)
    (h : L.Alike t t') : t.takeWhile p = t'.takeWhile p ∧
      L.Beside t t' (t.dropWhile p) (t'.dropWhile p) := by
  induction t generalizing t' with
  | nil =>
    obtain rfl := h.nil_iff.mp rfl
    exact ⟨rfl, h.beside⟩
  | cons c t ih =>
    obtain ⟨t', rfl, hcase⟩ := h.cases_cons
    cases hc : p c with
    | false =>
      simp only [List.takeWhile, List.dropWhile, hc]
      exact ⟨trivial, h.beside⟩
    | true =>
      simp only [List.takeWhile, List.dropWhile, hc]
      rcases hcase with ⟨-, -, hstep⟩ | ⟨v, v', hs, -⟩
      · obtain ⟨htake, hrest⟩ := ih hstep.alike
        exact ⟨by rw [htake], hstep.trans hrest⟩
      · rw [hp c t hc] at hs
        cases hs

/-- What is skipped in front of a place is skipped when the list ends there. -/
structure Local (L : Lexing α) : Prop where
  none_of_append : ∀ {c t w}, L.skip c (t ++ w) = none → L.skip c t = none
  some_of_append : ∀ {c t v w}, L.skip c (t ++ (v ++ w)) = some (v ++ w) →
    L.skip c (t ++ v) = some v

theorem Along.cut (hL : L.Local) {b b' : List α} (h : L.Along (b ++ w) (b' ++ w') w w') :
    L.Alike b b' := by
  generalize hx : b ++ w = x, hx' : b' ++ w' = x' at h
  induction h generalizing b b' with
  | refl w w' =>
    obtain rfl : b = [] := by simpa using hx
    obtain rfl : b' = [] := by simpa using hx'
    exact .nil
  | @symbol c t t' w w' hs hs' h ih =>
    obtain ⟨⟨a, rfl⟩, ⟨a', rfl⟩⟩ := h.suffix
    rw [← cons_append] at hx hx'
    obtain rfl := append_cancel_right hx
    obtain rfl := append_cancel_right hx'
    exact .symbol (hL.none_of_append hs) (hL.none_of_append hs') (ih rfl rfl)
  | @region c v v' t t' w w' hs hs' hr h ih =>
    obtain ⟨⟨a, rfl⟩, ⟨a', rfl⟩⟩ := h.suffix
    obtain ⟨r, rfl⟩ := L.skip_suffix hs
    obtain ⟨r', rfl⟩ := L.skip_suffix hs'
    rw [← append_assoc, ← cons_append] at hx hx'
    obtain rfl := append_cancel_right hx
    obtain rfl := append_cancel_right hx'
    refine .region (hL.some_of_append hs) (hL.some_of_append hs') ?_ (ih rfl rfl)
    rcases hr with hr | ⟨q, hq, hq'⟩
    · exact .inl hr
    · obtain rfl := append_cancel_right hq
      obtain rfl := append_cancel_right hq'
      exact .inr ⟨_, rfl, rfl⟩

/-! ### Lists without free regions -/

/-- Reading `t`, one comes to `u` without a region whose contents are free. -/
inductive Bare (L : Lexing α) : List α → List α → Prop where
  | here (u : List α) : L.Bare u u
  | symbol {c : α} {t u : List α} : L.skip c t = none → L.Bare t u → L.Bare (c :: t) u
  | region {c : α} {v t u : List α} : L.free c = false → L.skip c v = some t → L.Bare t u →
      L.Bare (c :: v) u

theorem Bare.suffix (h : L.Bare t u) : u <:+ t := by
  induction h with
  | here => exact suffix_refl _
  | symbol _ _ ih => exact ih.trans (suffix_cons _ _)
  | region _ hs _ ih => exact (ih.trans (L.skip_suffix hs)).trans (suffix_cons _ _)

theorem Bare.eq_of_alike (h : L.Bare t []) (h' : L.Alike t t') : t' = t := by
  generalize hu : ([] : List α) = u at h
  induction h generalizing t' with
  | here u =>
    subst hu
    exact h'.nil_iff.mp rfl
  | symbol hs _ ih =>
    obtain ⟨v, rfl, ⟨-, -, hnext⟩ | ⟨x, x', hx, -⟩⟩ := h'.cases_cons
    · rw [ih hnext.alike hu]
    · rw [hs] at hx
      cases hx
  | region hfree hs _ ih =>
    obtain ⟨v, rfl, ⟨hx, -, -⟩ | ⟨x, x', hx, hx', hr, hnext⟩⟩ := h'.cases_cons
    · rw [hs] at hx
      cases hx
    · obtain rfl := Option.some.inj (hs.symm.trans hx)
      rcases hr with hr | ⟨r, rfl, rfl⟩
      · rw [hfree] at hr
        cases hr
      · rw [ih hnext.alike hu]

theorem bare_or_exists (t : List α) :
    L.Bare t [] ∨ ∃ c v w, L.Bare t (c :: v) ∧ L.free c = true ∧ L.skip c v = some w := by
  induction hn : t.length using Nat.strong_induction_on generalizing t with
  | _ n ih =>
    cases t with
    | nil => exact .inl (.here _)
    | cons c t =>
      rw [length_cons] at hn
      cases hs : L.skip c t with
      | none =>
        rcases ih t.length (by omega) t rfl with h | ⟨d, v, w, h, hd⟩
        · exact .inl (.symbol hs h)
        · exact .inr ⟨d, v, w, .symbol hs h, hd⟩
      | some u =>
        have hlen := (L.skip_suffix hs).length_le
        cases hfree : L.free c with
        | true => exact .inr ⟨c, t, u, .here _, hfree, hs⟩
        | false =>
          rcases ih u.length (by omega) u rfl with h | ⟨d, v, w, h, hd⟩
          · exact .inl (.region hfree hs h)
          · exact .inr ⟨d, v, w, .region hfree hs h, hd⟩

/-- What is read in front of `u` is read in front of `u'`, if the steps do not tell them apart. -/
theorem Bare.along {p : List α} (h : L.Bare (p ++ u) u)
    (hnone : ∀ {c y}, L.skip c (y ++ u) = none → L.skip c (y ++ u') = none)
    (hsome : ∀ {c y z}, L.free c = false → L.skip c (y ++ u) = some (z ++ u) →
      L.skip c (y ++ u') = some (z ++ u')) :
    L.Along (p ++ u) (p ++ u') u u' := by
  generalize hx : p ++ u = x at h
  induction h generalizing p with
  | here u =>
    obtain rfl : p = [] := by simpa using hx
    exact .refl _ _
  | @symbol c t u hs h ih =>
    obtain ⟨y, rfl⟩ := h.suffix
    rw [← cons_append] at hx
    obtain rfl := append_cancel_right hx
    exact .symbol hs (hnone hs) (ih hnone hsome rfl)
  | @region c v t u hfree hs h ih =>
    obtain ⟨z, rfl⟩ := h.suffix
    obtain ⟨r, rfl⟩ := L.skip_suffix hs
    rw [← append_assoc, ← cons_append] at hx
    obtain rfl := append_cancel_right hx
    rw [← append_assoc] at hs
    have hs' := hsome hfree hs
    rw [append_assoc] at hs hs'
    rw [cons_append, append_assoc]
    exact .region hs hs' (.inr ⟨r, rfl, rfl⟩) (ih hnone hsome rfl)

end Lexing

/-! ### Scanners -/

namespace Scanner

variable {α : Type u} {σ : Type v} {τ : Type w} {M : Scanner α σ} {N : Scanner α τ}
  {R : σ → List α → τ → List α → Prop}

/-- If two scanners that stand in related places both stop, or both step to
related places, then their runs end in related places. -/
theorem run_beside
    (hstep : ∀ {s c t r d u}, R s (c :: t) r (d :: u) →
      (M.step s c t = none ∧ N.step r d u = none) ∨
        ∃ s' t' r' u', M.step s c t = some (s', t') ∧ N.step r d u = some (r', u') ∧
          R s' t' r' u')
    (hnil : ∀ {s t r u}, R s t r u → (t = [] ↔ u = []))
    {s : σ} {r : τ} {t u : List α} (h : R s t r u) :
    R (M.run s t).1 (M.run s t).2 (N.run r u).1 (N.run r u).2 := by
  induction hn : t.length using Nat.strong_induction_on generalizing s t r u with
  | _ n ih =>
    cases t with
    | nil =>
      obtain rfl := (hnil h).mp rfl
      exact h
    | cons c t =>
      cases u with
      | nil => exact absurd ((hnil h).mpr rfl) (by simp)
      | cons d u =>
        rcases hstep h with ⟨hM, hN⟩ | ⟨s', t', r', u', hM, hN, h'⟩
        · rw [run_stop hM, run_stop hN]
          exact h
        · rw [run_step hM, run_step hN]
          have hlen := step_length hM
          rw [length_cons] at hn
          exact ih t'.length (by omega) h' rfl

/-- A run in front of `u` is a run in front of `u'`, if its steps do not tell them apart. -/
theorem Reach.replace {t t' u : List α} {s s' : σ}
    (hstep : ∀ {s c y s' y'}, M.step s c (y ++ t) = some (s', y' ++ t) →
      M.step s c (y ++ t') = some (s', y' ++ t'))
    {x y : List α} (h : M.Reach s (x ++ t) s' u) (hu : u = y ++ t) :
    M.Reach s (x ++ t') s' (y ++ t') := by
  induction h generalizing y with
  | refl =>
    obtain rfl := append_cancel_right hu
    exact .refl
  | @tail s₁ s₂ c t₁ t₂ _ hst ih =>
    subst hu
    obtain ⟨r, rfl⟩ := M.step_suffix hst
    rw [← append_assoc] at hst ih
    have hst' := hstep hst
    exact (ih (y := c :: (r ++ y)) rfl).tail hst'

end Scanner

/-- **Two runs over lists that are alike.** If two scanners in front of the same symbol both stop
or step on side by side, and in front of a region both stop or pass over it, then their runs end
side by side. -/
theorem Lexing.Alike.run {α : Type u} {σ : Type v} {τ : Type w} {L : Lexing α} {M : Scanner α σ}
    {N : Scanner α τ} {P : σ → τ → Prop} {t t' : List α}
    (hsymbol : ∀ {s r c v v'}, P s r → L.skip c v = none → L.skip c v' = none →
      L.Beside t t' (c :: v) (c :: v') → L.Beside (c :: v) (c :: v') v v' →
      (M.step s c v = none ∧ N.step r c v' = none) ∨
        ∃ s' x r' x', M.step s c v = some (s', x) ∧ N.step r c v' = some (r', x') ∧ P s' r' ∧
          L.Beside v v' x x')
    (hregion : ∀ {s r c v v' x x'}, P s r → L.skip c v = some x → L.skip c v' = some x' →
      L.Beside t t' (c :: v) (c :: v') →
      (M.step s c v = none ∧ N.step r c v' = none) ∨
        ∃ s' r', M.step s c v = some (s', x) ∧ N.step r c v' = some (r', x') ∧ P s' r')
    (h : L.Alike t t') {s : σ} {r : τ} (hP : P s r) :
    P (M.run s t).1 (N.run r t').1 ∧ L.Beside t t' (M.run s t).2 (N.run r t').2 := by
  apply Scanner.run_beside (R := fun s u r u' => P s r ∧ L.Beside t t' u u')
  · rintro s c v r d v' ⟨hP, hat⟩
    obtain ⟨w, hw, hcase⟩ := hat.alike.cases_cons
    obtain ⟨rfl, rfl⟩ := List.cons.inj hw
    rcases hcase with ⟨hs, hs', hnext⟩ | ⟨x, x', hs, hs', -, hnext⟩
    · rcases hsymbol hP hs hs' hat hnext with hstop | ⟨s', y, r', y', hM, hN, hP', hy⟩
      · exact .inl hstop
      · exact .inr ⟨s', y, r', y', hM, hN, hP', hat.trans (hnext.trans hy)⟩
    · rcases hregion hP hs hs' hat with hstop | ⟨s', r', hM, hN, hP'⟩
      · exact .inl hstop
      · exact .inr ⟨s', x, r', x', hM, hN, hP', hat.trans hnext⟩
  · rintro s u r u' ⟨-, hat⟩
    exact hat.alike.nil_iff
  · exact ⟨hP, h.beside⟩

end Scan
