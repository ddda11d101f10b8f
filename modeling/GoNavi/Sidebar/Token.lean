import GoNavi.Scan.Text
import GoNavi.Machine.Distinct

/-! # Order tokens

The orders of the connection sidebar are lists of tokens, `tag:` or `connection:` with an id.
`sanitizeConnectionSidebarOrderTokens` brings tokens into one form and drops those that are no
tokens or occur again; `appendMissingConnectionSidebarTokens` completes an order.
`mem_appendMissing` and `nodup_appendMissing` say that a completed order has each token of the
defaults once, and `appendMissing_eq_self` that it is complete. -/

namespace GoNavi.Sidebar

open Scan Distinct List

/-! ### White space -/

/-- A text that is not trimmed at its end is not when other text stands in front of it. -/
theorem stripOne_append_none {rs : List Text} {t : Text} {c : UInt8} {u : Text}
    (hrs : ∀ r ∈ rs, c ∉ r) (ht : stripOne rs t = none) : stripOne rs (t ++ c :: u) = none := by
  refine findSome?_eq_none_iff.mpr fun r hr => if_neg fun hp => ?_
  have hnot := findSome?_eq_none_iff.mp ht r hr
  rw [List.isPrefixOf_iff_prefix] at hp
  obtain hshort | hlong := List.prefix_or_prefix_of_prefix hp (List.prefix_append t (c :: u))
  · rw [if_pos (List.isPrefixOf_iff_prefix.mpr hshort)] at hnot
    cases hnot
  · obtain ⟨v, rfl⟩ := hlong
    cases v with
    | nil =>
      rw [append_nil, if_pos (List.isPrefixOf_iff_prefix.mpr (List.prefix_refl t))] at hnot
      cases hnot
    | cons a v =>
      rw [List.prefix_append_right_inj, List.cons_prefix_cons] at hp
      exact hrs _ hr (hp.1 ▸ mem_append_right t mem_cons_self)

theorem trimSpace_append {p t : Text} (hne : p ≠ []) (hp : ∀ c ∈ p, c ∉ spaceRunes.flatten)
    (ht : trimSpace t = t) : trimSpace (p ++ t) = p ++ t := by
  have hmem : ∀ c ∈ p, ∀ r ∈ spaceRunes, c ∉ r := fun c hc r hr hcr =>
    hp c hc (mem_flatten.mpr ⟨r, hr, hcr⟩)
  have hleft : trimLeft (p ++ t) = p ++ t := by
    obtain ⟨a, q, rfl⟩ := exists_cons_of_ne_nil hne
    exact stripper_run_of_stuck _
      (stripOne_append_none (t := []) (hmem a mem_cons_self) (by decide))
  have hright : stripOne (spaceRunes.map List.reverse) t.reverse = none := by
    rw [← ht, trimSpace, trimRight, reverse_reverse]
    exact stripper_run_stuck _ _
  obtain ⟨b, q, hq⟩ := exists_cons_of_ne_nil (reverse_ne_nil_iff.mpr hne)
  have hb : b ∈ p := by
    rw [← mem_reverse, hq]
    exact mem_cons_self
  have hstuck : stripOne (spaceRunes.map List.reverse) (p ++ t).reverse = none := by
    rw [reverse_append, hq]
    refine stripOne_append_none (fun r hr => ?_) hright
    obtain ⟨rune, hrune, rfl⟩ := mem_map.mp hr
    rw [mem_reverse]
    exact hmem b hb rune hrune
  rw [trimSpace, hleft, trimRight, stripper_run_of_stuck _ hstuck, reverse_reverse]

/-! ### Tokens -/

/-- What a token stands for. -/
inductive Kind
  | tag
  | connection
  deriving DecidableEq

def connectionSidebarTagTokenPrefix : Text := bytes "tag:"
def connectionSidebarHostTokenPrefix : Text := bytes "connection:"

/-- The token of a tag. -/
def buildConnectionSidebarTagToken (id : Text) : Text :=
  connectionSidebarTagTokenPrefix ++ trimSpace id

/-- The token of a connection. -/
def buildConnectionSidebarHostToken (id : Text) : Text :=
  connectionSidebarHostTokenPrefix ++ trimSpace id

/-- The token of an id of a kind. -/
def buildToken : Kind → Text → Text
  | .tag => buildConnectionSidebarTagToken
  | .connection => buildConnectionSidebarHostToken

/-- The kind and the id of a token. -/
def parseConnectionSidebarToken (token : Text) : Option (Kind × Text) :=
  let token := trimSpace token
  if connectionSidebarTagTokenPrefix.isPrefixOf token then
    let id := trimSpace (token.drop connectionSidebarTagTokenPrefix.length)
    if id.isEmpty then none else some (.tag, id)
  else if connectionSidebarHostTokenPrefix.isPrefixOf token then
    let id := trimSpace (token.drop connectionSidebarHostTokenPrefix.length)
    if id.isEmpty then none else some (.connection, id)
  else none

/-- An id as it is stored: without white space around it, and not empty. -/
def Trimmed (id : Text) : Prop := trimSpace id = id ∧ id ≠ []

instance (id : Text) : Decidable (Trimmed id) :=
  inferInstanceAs (Decidable (trimSpace id = id ∧ id ≠ []))

theorem trimmed_trimSpace {t : Text} (h : trimSpace t ≠ []) : Trimmed (trimSpace t) :=
  ⟨trimSpace_trimSpace t, h⟩

/-- **Parsing a token gives what it was built from.** -/
theorem parse_buildToken {kind : Kind} {id : Text} (h : Trimmed id) :
    parseConnectionSidebarToken (buildToken kind id) = some (kind, id) := by
  have hempty : id.isEmpty = false := by
    rw [isEmpty_eq_false_iff]
    exact h.2
  cases kind with
  | tag =>
    have htrim : trimSpace (bytes "tag:" ++ id) = bytes "tag:" ++ id :=
      trimSpace_append (by decide +kernel) (by decide +kernel) h.1
    have hprefix : (bytes "tag:").isPrefixOf (bytes "tag:" ++ id) = true := by
      rw [List.isPrefixOf_iff_prefix]
      exact List.prefix_append (bytes "tag:") id
    simp only [parseConnectionSidebarToken, buildToken, buildConnectionSidebarTagToken,
      connectionSidebarTagTokenPrefix, h.1, htrim, hprefix, if_true, drop_left, hempty]
    rfl
  | connection =>
    have htrim : trimSpace (bytes "connection:" ++ id) = bytes "connection:" ++ id :=
      trimSpace_append (by decide +kernel) (by decide +kernel) h.1
    have hprefix : (bytes "connection:").isPrefixOf (bytes "connection:" ++ id) = true := by
      rw [List.isPrefixOf_iff_prefix]
      exact List.prefix_append (bytes "connection:") id
    have hother : (bytes "tag:").isPrefixOf (bytes "connection:" ++ id) = false := rfl
    simp only [parseConnectionSidebarToken, buildToken, buildConnectionSidebarHostToken,
      connectionSidebarTagTokenPrefix, connectionSidebarHostTokenPrefix, h.1, htrim, hprefix,
      hother, if_true, drop_left, hempty]
    rfl

theorem buildToken_inj {kind kind' : Kind} {id id' : Text} (h : Trimmed id) (h' : Trimmed id')
    (he : buildToken kind id = buildToken kind' id') : kind = kind' ∧ id = id' := by
  have hparse := (parse_buildToken h).symm.trans ((congrArg _ he).trans (parse_buildToken h'))
  cases hparse
  exact ⟨rfl, rfl⟩

/-! ### Orders -/

/-- The one form of a token. -/
def canonicalToken (raw : Text) : Option Text :=
  (parseConnectionSidebarToken raw).map fun parsed => buildToken parsed.1 parsed.2

/-- The tokens of an order, each once and in one form. -/
def sanitizeConnectionSidebarOrderTokens (tokens : List Text) : List Text :=
  distinct [] (tokens.filterMap canonicalToken)

/-- The tokens of an order that occur in the defaults, and then the other defaults. -/
def appendMissingConnectionSidebarTokens (order defaults : List Text) : List Text :=
  let kept := distinct [] ((sanitizeConnectionSidebarOrderTokens order).filter (· ∈ defaults))
  kept ++ distinct kept defaults

/-- A token in its one form. -/
def Canonical (token : Text) : Prop := ∃ kind id, Trimmed id ∧ token = buildToken kind id

theorem canonicalToken_of_canonical {token : Text} (h : Canonical token) :
    canonicalToken token = some token := by
  obtain ⟨kind, id, hid, rfl⟩ := h
  rw [canonicalToken, parse_buildToken hid]
  rfl

theorem sanitize_eq_self {tokens : List Text} (hcanonical : ∀ token ∈ tokens, Canonical token)
    (hnodup : tokens.Nodup) : sanitizeConnectionSidebarOrderTokens tokens = tokens := by
  have hsame : tokens.filterMap canonicalToken = tokens :=
    (filterMap_congr fun token htoken =>
      canonicalToken_of_canonical (hcanonical token htoken)).trans filterMap_some
  rw [sanitizeConnectionSidebarOrderTokens, hsame]
  exact distinct_eq_self hnodup fun _ _ => not_mem_nil

theorem mem_appendMissing {order defaults : List Text} {token : Text} :
    token ∈ appendMissingConnectionSidebarTokens order defaults ↔ token ∈ defaults := by
  simp only [appendMissingConnectionSidebarTokens, mem_append, mem_distinct,
    mem_filter, decide_eq_true_eq]
  constructor
  · rintro (h | h)
    · exact h.1.2
    · exact h.1
  · intro h
    by_cases hk : (token ∈ sanitizeConnectionSidebarOrderTokens order ∧ token ∈ defaults) ∧
        token ∉ ([] : List Text)
    · exact .inl hk
    · exact .inr ⟨h, hk⟩

theorem nodup_appendMissing {order defaults : List Text} :
    (appendMissingConnectionSidebarTokens order defaults).Nodup := by
  rw [appendMissingConnectionSidebarTokens, nodup_append']
  exact ⟨nodup_distinct, nodup_distinct, fun token hkept hrest => (mem_distinct.mp hrest).2 hkept⟩

theorem appendMissing_eq_self {order defaults : List Text}
    (hcanonical : ∀ token ∈ order, Canonical token) (hnodup : order.Nodup)
    (hmem : ∀ token, token ∈ order ↔ token ∈ defaults) :
    appendMissingConnectionSidebarTokens order defaults = order := by
  have hfilter : order.filter (· ∈ defaults) = order :=
    filter_eq_self.mpr fun token htoken => decide_eq_true ((hmem token).mp htoken)
  rw [appendMissingConnectionSidebarTokens, sanitize_eq_self hcanonical hnodup, hfilter,
    distinct_eq_self hnodup fun _ _ => not_mem_nil,
    distinct_eq_nil fun token htoken => (hmem token).mpr htoken, append_nil]

end GoNavi.Sidebar
