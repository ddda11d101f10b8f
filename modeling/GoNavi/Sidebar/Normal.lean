import GoNavi.Sidebar.Layout

/-! # Normal layouts

A layout is `Normal` when its tags have different ids and parents that form a forest, no
connection has two tags, and each order is complete.  **`normalizeUnlocked_normal`**: what
`normalizeUnlocked` answers is normal.  **`normalizeUnlocked_eq_self`**: a normal layout within
the limits is a fixed point. -/

namespace GoNavi.Sidebar

open Scan Distinct List

variable {conns root : List Text} {tags : List ConnectionTag} {tag : ConnectionTag}

/-! ### Normal layouts -/

/-- A mode that is kept. -/
def SortMode (mode : Text) : Prop :=
  mode = bytes "manual" ∨ mode = bytes "name" ∨ mode = bytes "createdAt"

/-- A tag by itself. -/
structure ReadTag (conns : List Text) (tag : ConnectionTag) : Prop where
  id : Trimmed tag.id
  name : Trimmed tag.name
  parent : trimSpace tag.parentTagID = tag.parentTagID
  connections : ∀ c ∈ tag.connectionIDs, c ∈ conns
  nodup : tag.connectionIDs.Nodup
  sortMode : tag.sortMode = bytes "manual"
  connectionSortMode : SortMode tag.connectionSortMode

/-- The parent of a tag is another tag. -/
def ParentOk (ids : List Text) (tag : ConnectionTag) : Prop :=
  tag.parentTagID = [] ∨ tag.parentTagID ≠ tag.id ∧ tag.parentTagID ∈ ids

/-- The tags form a forest and share no connection. -/
structure Grouped (conns : List Text) (tags : List ConnectionTag) : Prop where
  nodup : (tags.map ConnectionTag.id).Nodup
  read : ∀ tag ∈ tags, ReadTag conns tag
  parents : ∀ tag ∈ tags, ParentOk (tags.map ConnectionTag.id) tag
  ends : ∀ tag ∈ tags,
    Forest.Ends (parentOf tags) [] connectionSidebarLayoutMaxTreeDepth tag.id
  disjoint : tags.Pairwise fun t t' => List.Disjoint t.connectionIDs t'.connectionIDs

/-- An order that has each token of the defaults once. -/
structure CompleteOrder (defaults order : List Text) : Prop where
  canonical : ∀ token ∈ order, Canonical token
  nodup : order.Nodup
  mem : ∀ token, token ∈ order ↔ token ∈ defaults

/-- A layout in its normal form. -/
structure Normal (conns : List Text) (tags : List ConnectionTag) (root : List Text) : Prop
    extends Grouped conns tags where
  children : ∀ tag ∈ tags, CompleteOrder (childDefaults tags tag) tag.childOrder
  hosts : ∀ tag ∈ tags, tag.connectionIDs = tag.childOrder.filterMap hostOfToken
  root : CompleteOrder (rootDefaults tags conns) root

/-! ### Reading tags -/

theorem normalizeSortMode_mem (value legacyValue : Text) :
    SortMode (normalizeConnectionSidebarConnectionSortMode value legacyValue) := by
  unfold normalizeConnectionSidebarConnectionSortMode
  split
  · assumption
  · split
    · next h => exact .inr h
    · exact .inr (.inr rfl)

theorem normalizeSortMode_eq_self {mode : Text} (h : SortMode mode) (legacyValue : Text) :
    normalizeConnectionSidebarConnectionSortMode mode legacyValue = mode :=
  if_pos h

theorem readTag_some {now : ℤ} {total rawIndex : ℕ} {raw : ConnectionTag}
    (h : readTag conns now total raw rawIndex = some tag) : ReadTag conns tag := by
  unfold readTag at h
  simp only at h
  split at h
  · cases h
  · next hid =>
    have hid : Trimmed (trimSpace raw.id) := trimmed_trimSpace (by simpa using hid)
    cases h
    refine ⟨hid, ?_, trimSpace_trimSpace _, ?_, nodup_distinct, rfl, normalizeSortMode_mem _ _⟩
    · show Trimmed (if (trimSpace raw.name).isEmpty then trimSpace raw.id else trimSpace raw.name)
      split
      · exact hid
      · next hname => exact trimmed_trimSpace (by simpa using hname)
    · intro c hc
      exact of_decide_eq_true (mem_filter.mp (mem_distinct.mp hc).1).2

theorem readTags_nodup (now : ℤ) :
    ((readTags conns now tags).map ConnectionTag.id).Nodup := nodup_map_distinctBy

theorem readTags_read {now : ℤ} (h : tag ∈ readTags conns now tags) : ReadTag conns tag := by
  have hmem := (distinctBy_sublist _ _).subset h
  obtain ⟨⟨raw, rawIndex⟩, -, hread⟩ := mem_filterMap.mp hmem
  exact readTag_some hread

theorem readTag_eq_self {now : ℤ} {total rawIndex : ℕ} (hconns : ∀ c ∈ conns, Trimmed c)
    (hread : ReadTag conns tag) (hcreated : 0 < tag.createdAt)
    (hcanonical : ∀ token ∈ tag.childOrder, Canonical token) (hnodup : tag.childOrder.Nodup) :
    readTag conns now total tag rawIndex = some tag := by
  have hconnections : distinct [] ((tag.connectionIDs.map trimSpace).filter (· ∈ conns)) =
      tag.connectionIDs := by
    have hmap : tag.connectionIDs.map trimSpace = tag.connectionIDs :=
      (map_congr_left fun c hc => (hconns c (hread.connections c hc)).1).trans
        (map_id _)
    rw [hmap, filter_eq_self.mpr fun c hc => decide_eq_true (hread.connections c hc)]
    exact distinct_eq_self hread.nodup fun _ _ => not_mem_nil
  unfold readTag
  simp only [hread.id.1, hread.name.1, hread.parent, hconnections,
    sanitize_eq_self hcanonical hnodup, normalizeSortMode_eq_self hread.connectionSortMode,
    List.isEmpty_iff, if_neg hread.id.2, if_neg hread.name.2, if_neg (not_le.mpr hcreated),
    ← hread.sortMode]

theorem readTags_eq_self (now : ℤ) (hconns : ∀ c ∈ conns, Trimmed c)
    (hids : (tags.map ConnectionTag.id).Nodup) (hread : ∀ tag ∈ tags, ReadTag conns tag)
    (hcreated : ∀ tag ∈ tags, 0 < tag.createdAt)
    (hcanonical : ∀ tag ∈ tags, ∀ token ∈ tag.childOrder, Canonical token)
    (hnodup : ∀ tag ∈ tags, tag.childOrder.Nodup) : readTags conns now tags = tags := by
  have hsame : (tags.zipIdx.filterMap fun p => readTag conns now tags.length p.1 p.2) = tags := by
    have hmap : ∀ p ∈ tags.zipIdx, readTag conns now tags.length p.1 p.2 = some p.1 := by
      intro p hp
      have hmem := fst_mem_of_mem_zipIdx hp
      exact readTag_eq_self hconns (hread _ hmem) (hcreated _ hmem) (hcanonical _ hmem)
        (hnodup _ hmem)
    refine (filterMap_congr hmap).trans ((congrFun filterMap_eq_map' _).trans ?_)
    exact zipIdx_map_fst 0 tags
  refine (congrArg (distinctBy ConnectionTag.id []) hsame).trans ?_
  exact distinctBy_eq_self hids fun _ _ => not_mem_nil

/-! ### Parents -/

theorem dropParent_read {ids : List Text} (h : ReadTag conns tag) :
    ReadTag conns (dropParent ids tag) := by
  unfold dropParent
  split
  · exact { h with parent := trimSpace_nil }
  · exact h

theorem dropParent_ok (ids : List Text) (tag : ConnectionTag) :
    ParentOk ids (dropParent ids tag) := by
  unfold dropParent
  split
  · exact .inl rfl
  · next h =>
    rw [not_or, not_or, not_not] at h
    exact .inr h.2

theorem dropParent_id (ids : List Text) (tag : ConnectionTag) : (dropParent ids tag).id = tag.id := by
  unfold dropParent
  split
  · rfl
  · rfl

theorem dropParents_ids (tags : List ConnectionTag) :
    (dropParents tags).map ConnectionTag.id = tags.map ConnectionTag.id := by
  rw [dropParents, map_map]
  exact map_congr_left fun tag _ => dropParent_id _ tag

theorem dropParents_eq_self (h : ∀ tag ∈ tags, ParentOk (tags.map ConnectionTag.id) tag) :
    dropParents tags = tags := by
  refine (map_congr_left fun tag htag => ?_).trans (map_id tags)
  unfold dropParent
  split
  · next hdrop =>
    have hnil : tag.parentTagID = [] := by
      rcases h tag htag with hnil | ⟨hne, hmem⟩
      · exact hnil
      · rcases hdrop with hnil | heq | hnot
        · exact hnil
        · exact absurd heq hne
        · exact absurd hmem hnot
    rw [← hnil]
    rfl
  · rfl

/-! ### Cycles -/

theorem parentOf_cutTags (cycle : List Text) (tags : List ConnectionTag) :
    parentOf (cutTags cycle tags) = Forest.cut cycle [] (parentOf tags) := by
  funext id
  rw [parentOf, cutTags, Table.lookup_map (by intro tag; split <;> rfl), Forest.cut, parentOf]
  cases hlookup : Table.lookup ConnectionTag.id id tags with
  | none => simp
  | some tag =>
    have hid := Table.lookup_key hlookup
    simp only [Option.map_some, Option.getD_some, hid]
    split
    · rfl
    · rfl

theorem cutTags_nil (tags : List ConnectionTag) : cutTags [] tags = tags := by
  simp [cutTags]

theorem cutTags_ids (cycle : List Text) (tags : List ConnectionTag) :
    (cutTags cycle tags).map ConnectionTag.id = tags.map ConnectionTag.id := by
  rw [cutTags, map_map]
  refine map_congr_left fun tag _ => ?_
  rw [Function.comp_apply]
  split
  · rfl
  · rfl

/-- A property of tags that does not depend on the parent passes through a cut. -/
theorem forall_cutTags {P : ConnectionTag → Prop} {cycle : List Text}
    (hP : ∀ tag, P tag → P { tag with parentTagID := [] }) (h : ∀ tag ∈ tags, P tag) :
    ∀ tag ∈ cutTags cycle tags, P tag := by
  intro tag htag
  obtain ⟨old, hold, rfl⟩ := mem_map.mp htag
  split
  · exact hP old (h old hold)
  · exact h old hold

/-- **Cutting the cycles leaves a forest.** -/
theorem cutCycles_ok : ∀ {ids : List Text} {tags tags' : List ConnectionTag},
    cutCycles ids tags = .ok tags' →
      tags'.map ConnectionTag.id = tags.map ConnectionTag.id ∧
        (∀ P : ConnectionTag → Prop, (∀ tag, P tag → P { tag with parentTagID := [] }) →
          (∀ tag ∈ tags, P tag) → ∀ tag ∈ tags', P tag) ∧
        (∀ id, Forest.Ends (parentOf tags) [] connectionSidebarLayoutMaxTreeDepth id →
          Forest.Ends (parentOf tags') [] connectionSidebarLayoutMaxTreeDepth id) ∧
        ∀ id ∈ ids, Forest.Ends (parentOf tags') [] connectionSidebarLayoutMaxTreeDepth id
  | [], tags, tags', h => by
    cases h
    exact ⟨rfl, fun _ _ h => h, fun _ h => h, forall_mem_nil _⟩
  | id :: ids, tags, tags', h => by
    rw [cutCycles] at h
    split at h
    · cases h
    · next cycle hclimb =>
      obtain ⟨hids, hP, hkeep, hends⟩ := cutCycles_ok h
      have hcut := Forest.ends_cut_of_climb hclimb
      rw [← parentOf_cutTags] at hcut
      refine ⟨hids.trans (cutTags_ids cycle tags), fun P hdrop hall => ?_, fun x hx => ?_,
        fun x hx => ?_⟩
      · exact hP P hdrop (forall_cutTags hdrop hall)
      · have hx' := hx.cut cycle
        rw [← parentOf_cutTags] at hx'
        exact hkeep x hx'
      · cases mem_cons.mp hx with
        | inl he => exact he ▸ hkeep id hcut
        | inr hx => exact hends x hx

theorem cutCycles_eq_self : ∀ {ids : List Text},
    (∀ id ∈ ids, Forest.Ends (parentOf tags) [] connectionSidebarLayoutMaxTreeDepth id) →
      cutCycles ids tags = .ok tags
  | [], _ => rfl
  | id :: ids, h => by
    rw [cutCycles, Forest.climb_of_ends (h id mem_cons_self)]
    show cutCycles ids (cutTags [] tags) = .ok tags
    rw [cutTags_nil]
    exact cutCycles_eq_self fun x hx => h x (mem_cons_of_mem id hx)

/-! ### Owners -/

/-- The id and the parent of a tag. -/
def link (tag : ConnectionTag) : Text × Text := (tag.id, tag.parentTagID)

theorem parentOf_congr : ∀ {tags tags' : List ConnectionTag}, tags.map link = tags'.map link →
    parentOf tags = parentOf tags'
  | [], tags', h => by
    rw [map_nil, eq_comm, map_eq_nil_iff] at h
    rw [h]
  | tag :: tags, [], h => by simp at h
  | tag :: tags, tag' :: tags', h => by
    simp only [map_cons, List.cons.injEq, link, Prod.mk.injEq] at h
    obtain ⟨⟨hid, hparent⟩, hrest⟩ := h
    have ih := parentOf_congr hrest
    funext id
    have ihid := congrFun ih id
    simp only [parentOf, Table.lookup, find?_cons, hid] at ihid ⊢
    cases decide (tag'.id = id) with
    | true => exact congrArg (fun parent => (some parent).getD []) hparent
    | false => exact ihid

theorem childrenOf_congr {tags tags' : List ConnectionTag} (h : tags.map link = tags'.map link)
    (id : Text) : childrenOf tags id = childrenOf tags' id := by
  have hlinks : ∀ tags : List ConnectionTag, childrenOf tags id =
      ((tags.map link).filter fun l => l.2 ≠ [] ∧ l.2 = id).map Prod.fst := by
    intro tags
    rw [filter_map, map_map]
    rfl
  rw [hlinks, hlinks, h]

theorem ids_of_links {tags tags' : List ConnectionTag} (h : tags.map link = tags'.map link) :
    tags.map ConnectionTag.id = tags'.map ConnectionTag.id := by
  have hfst := congrArg (List.map Prod.fst) h
  rwa [map_map, map_map] at hfst

theorem ownConnections_links : ∀ (owned : List Text) (tags : List ConnectionTag),
    (ownConnections owned tags).map link = tags.map link
  | _, [] => rfl
  | owned, tag :: tags => by
    rw [ownConnections, map_cons, map_cons, ownConnections_links]
    rfl

theorem mem_ownConnections : ∀ {owned : List Text} {tags : List ConnectionTag}
    {tag : ConnectionTag}, tag ∈ ownConnections owned tags →
      (∀ c ∈ tag.connectionIDs, c ∉ owned) ∧ ∃ old ∈ tags, ∃ seen,
        tag = { old with connectionIDs := distinct seen old.connectionIDs }
  | _, [], _, h => absurd h not_mem_nil
  | owned, first :: tags, tag, h => by
    rw [ownConnections] at h
    cases mem_cons.mp h with
    | inl he =>
      subst he
      exact ⟨fun c hc => (mem_distinct.mp hc).2, first, mem_cons_self, owned, rfl⟩
    | inr h =>
      obtain ⟨hnew, old, hold, seen, htag⟩ := mem_ownConnections h
      exact ⟨fun c hc hin => hnew c hc (mem_append_right _ hin), old,
        mem_cons_of_mem first hold, seen, htag⟩

theorem ownConnections_disjoint : ∀ {owned : List Text} {tags : List ConnectionTag},
    (ownConnections owned tags).Pairwise fun t t' =>
      List.Disjoint t.connectionIDs t'.connectionIDs
  | _, [] => .nil
  | owned, first :: tags => by
    rw [ownConnections, pairwise_cons]
    refine ⟨fun tag htag c hc hc' => ?_, ownConnections_disjoint⟩
    exact (mem_ownConnections htag).1 c hc' (mem_append_left _ hc)

theorem ownConnections_eq_self : ∀ {owned : List Text} {tags : List ConnectionTag},
    (∀ tag ∈ tags, tag.connectionIDs.Nodup) →
      (tags.Pairwise fun t t' => List.Disjoint t.connectionIDs t'.connectionIDs) →
        (∀ tag ∈ tags, ∀ c ∈ tag.connectionIDs, c ∉ owned) → ownConnections owned tags = tags
  | _, [], _, _, _ => rfl
  | owned, first :: tags, hnodup, hdisjoint, hnew => by
    rw [pairwise_cons] at hdisjoint
    have hself : distinct owned first.connectionIDs = first.connectionIDs :=
      distinct_eq_self (hnodup first mem_cons_self) (hnew first mem_cons_self)
    rw [ownConnections, hself]
    refine congrArg (first :: ·) (ownConnections_eq_self
      (fun tag htag => hnodup tag (mem_cons_of_mem first htag)) hdisjoint.2 ?_)
    intro tag htag c hc hin
    cases mem_append.mp hin with
    | inl h => exact hdisjoint.1 tag htag h hc
    | inr h => exact hnew tag (mem_cons_of_mem first htag) c hc h

/-! ### Orders -/

theorem buildHost_eq (c : Text) : buildConnectionSidebarHostToken c = buildToken .connection c := rfl

theorem buildTag_eq (id : Text) : buildConnectionSidebarTagToken id = buildToken .tag id := rfl

variable {c : Text}

theorem hostToken_inj {c' : Text} (h : Trimmed c) (h' : Trimmed c')
    (he : buildConnectionSidebarHostToken c = buildConnectionSidebarHostToken c') : c = c' := by
  rw [buildHost_eq, buildHost_eq] at he
  exact (buildToken_inj h h' he).2

theorem tagToken_inj {id id' : Text} (h : Trimmed id) (h' : Trimmed id')
    (he : buildConnectionSidebarTagToken id = buildConnectionSidebarTagToken id') : id = id' := by
  rw [buildTag_eq, buildTag_eq] at he
  exact (buildToken_inj h h' he).2

theorem tagToken_ne_hostToken {id : Text} (h : Trimmed id) (h' : Trimmed c) :
    buildConnectionSidebarTagToken id ≠ buildConnectionSidebarHostToken c := by
  intro he
  rw [buildTag_eq, buildHost_eq] at he
  cases (buildToken_inj h h' he).1

theorem hostOfToken_host (h : Trimmed c) :
    hostOfToken (buildConnectionSidebarHostToken c) = some c := by
  rw [hostOfToken, buildHost_eq, parse_buildToken h]

theorem hostOfToken_tag {id : Text} (h : Trimmed id) :
    hostOfToken (buildConnectionSidebarTagToken id) = none := by
  rw [hostOfToken, buildTag_eq, parse_buildToken h]

theorem nodup_map_buildToken (kind : Kind) {ids : List Text} (hids : ∀ id ∈ ids, Trimmed id)
    (hnodup : ids.Nodup) : (ids.map (buildToken kind)).Nodup := by
  refine List.Nodup.map_on (fun x hx y hy he => ?_) hnodup
  exact (buildToken_inj (hids x hx) (hids y hy) he).2

theorem nodup_hosts_tags {hosts ids : List Text} (hhosts : ∀ c ∈ hosts, Trimmed c)
    (hids : ∀ id ∈ ids, Trimmed id) (hh : hosts.Nodup) (hi : ids.Nodup) :
    (hosts.map buildConnectionSidebarHostToken ++
      ids.map buildConnectionSidebarTagToken).Nodup := by
  rw [nodup_append']
  refine ⟨nodup_map_buildToken .connection hhosts hh,
    nodup_map_buildToken .tag hids hi, fun token hhost htag => ?_⟩
  obtain ⟨c, hc, rfl⟩ := mem_map.mp hhost
  obtain ⟨id, hid, he⟩ := mem_map.mp htag
  exact tagToken_ne_hostToken (hids id hid) (hhosts c hc) he

section orders

variable (hconns : ∀ c ∈ conns, Trimmed c)

theorem mem_childrenOf {id x : Text} : x ∈ childrenOf tags id ↔
    ∃ tag ∈ tags, (tag.parentTagID ≠ [] ∧ tag.parentTagID = id) ∧ tag.id = x := by
  simp [childrenOf, and_assoc]

theorem childrenOf_nodup (hnodup : (tags.map ConnectionTag.id).Nodup) (id : Text) :
    (childrenOf tags id).Nodup :=
  (filter_sublist.map _).nodup hnodup

include hconns

theorem childDefaults_nodup (hnodup : (tags.map ConnectionTag.id).Nodup)
    (hread : ∀ tag ∈ tags, ReadTag conns tag) (htag : tag ∈ tags) :
    (childDefaults tags tag).Nodup := by
  refine nodup_hosts_tags (fun c hc => hconns c ((hread tag htag).connections c hc))
    (fun id hid => ?_) (hread tag htag).nodup (childrenOf_nodup hnodup tag.id)
  obtain ⟨child, hchild, -, rfl⟩ := mem_childrenOf.mp hid
  exact (hread child hchild).id

theorem childDefaults_canonical (hread : ∀ tag ∈ tags, ReadTag conns tag) (htag : tag ∈ tags) :
    ∀ token ∈ childDefaults tags tag, Canonical token := by
  intro token htoken
  rw [childDefaults, mem_append] at htoken
  rcases htoken with h | h
  · obtain ⟨c, hc, rfl⟩ := mem_map.mp h
    exact ⟨.connection, c, hconns c ((hread tag htag).connections c hc), rfl⟩
  · obtain ⟨id, hid, rfl⟩ := mem_map.mp h
    obtain ⟨child, hchild, -, rfl⟩ := mem_childrenOf.mp hid
    exact ⟨.tag, child.id, (hread child hchild).id, rfl⟩

theorem childDefaults_hosts (hread : ∀ tag ∈ tags, ReadTag conns tag) (htag : tag ∈ tags) :
    (childDefaults tags tag).filterMap hostOfToken = tag.connectionIDs := by
  rw [childDefaults, filterMap_append, filterMap_map, filterMap_map]
  have hhosts : tag.connectionIDs.filterMap (hostOfToken ∘ buildConnectionSidebarHostToken) =
      tag.connectionIDs :=
    (filterMap_congr fun c hc =>
      hostOfToken_host (hconns c ((hread tag htag).connections c hc))).trans filterMap_some
  have htags : (childrenOf tags tag.id).filterMap
      (hostOfToken ∘ buildConnectionSidebarTagToken) = [] := by
    rw [filterMap_eq_nil_iff]
    intro id hid
    obtain ⟨child, hchild, -, rfl⟩ := mem_childrenOf.mp hid
    exact hostOfToken_tag (hread child hchild).id
  rw [hhosts, htags, append_nil]

theorem orderTag_connections (hnodup : (tags.map ConnectionTag.id).Nodup)
    (hread : ∀ tag ∈ tags, ReadTag conns tag) (htag : tag ∈ tags) :
    (orderTag tags tag).connectionIDs.Perm tag.connectionIDs := by
  have hperm : (orderTag tags tag).childOrder.Perm (childDefaults tags tag) :=
    (perm_ext_iff_of_nodup nodup_appendMissing
      (childDefaults_nodup hconns hnodup hread htag)).mpr fun _ => mem_appendMissing
  have hhosts := hperm.filterMap hostOfToken
  rwa [childDefaults_hosts hconns hread htag] at hhosts

end orders

/-! ### Normalization -/

theorem savedConnectionIDs_trimmed {items : List Text} :
    ∀ c ∈ savedConnectionIDs items, Trimmed c := by
  intro c hc
  obtain ⟨hmap, hne⟩ := mem_filter.mp (mem_distinct.mp hc).1
  obtain ⟨item, -, rfl⟩ := mem_map.mp hmap
  exact trimmed_trimSpace (of_decide_eq_true hne)

section stages

variable {now : ℤ}

/-- The tags after the cycles are cut and the connections have their owners. -/
theorem grouped_of_cut {raw cut : List ConnectionTag}
    (hcut : cutCycles ((dropParents (readTags conns now raw)).map ConnectionTag.id)
      (dropParents (readTags conns now raw)) = .ok cut) :
    Grouped conns (ownConnections [] cut) := by
  obtain ⟨hids, hP, -, hends⟩ := cutCycles_ok hcut
  have hcutids : cut.map ConnectionTag.id = (readTags conns now raw).map ConnectionTag.id :=
    hids.trans (dropParents_ids _)
  have hread : ∀ tag ∈ cut, ReadTag conns tag := by
    refine hP _ (fun tag h => { h with parent := trimSpace_nil }) fun tag htag => ?_
    obtain ⟨old, hold, rfl⟩ := mem_map.mp htag
    exact dropParent_read (readTags_read hold)
  have hparents : ∀ tag ∈ cut, ParentOk (cut.map ConnectionTag.id) tag := by
    rw [hcutids]
    refine hP _ (fun tag _ => .inl rfl) fun tag htag => ?_
    obtain ⟨old, -, rfl⟩ := mem_map.mp htag
    exact dropParent_ok _ old
  have hlinks := ownConnections_links [] cut
  have hownids := ids_of_links hlinks
  refine ⟨?_, fun tag htag => ?_, fun tag htag => ?_, fun tag htag => ?_,
    ownConnections_disjoint⟩
  · rw [hownids, hcutids]
    exact readTags_nodup now
  · obtain ⟨-, old, hold, seen, rfl⟩ := mem_ownConnections htag
    have h := hread old hold
    exact { h with
      connections := fun c hc => h.connections c (mem_distinct.mp hc).1
      nodup := nodup_distinct }
  · obtain ⟨-, old, hold, seen, rfl⟩ := mem_ownConnections htag
    rw [hownids]
    exact hparents old hold
  · rw [parentOf_congr hlinks]
    refine hends tag.id ?_
    rw [← hids, ← hownids]
    exact mem_map_of_mem htag

theorem ordered_links : (tags.map (orderTag tags)).map link = tags.map link := by
  rw [map_map]
  rfl

section ordered

variable (hconns : ∀ c ∈ conns, Trimmed c) (hgrouped : Grouped conns tags)

include hconns hgrouped

theorem mem_orderTag_connections (htag : tag ∈ tags) :
    c ∈ (orderTag tags tag).connectionIDs ↔ c ∈ tag.connectionIDs :=
  (orderTag_connections hconns hgrouped.nodup hgrouped.read htag).mem_iff

/-- Completing the orders leaves what they have to contain as it is. -/
theorem mem_childDefaults_ordered (htag : tag ∈ tags) {token : Text} :
    token ∈ childDefaults (tags.map (orderTag tags)) (orderTag tags tag) ↔
      token ∈ childDefaults tags tag := by
  rw [childDefaults, childDefaults, mem_append, mem_append, childrenOf_congr ordered_links,
    ((orderTag_connections hconns hgrouped.nodup hgrouped.read htag).map _).mem_iff]
  rfl

theorem rootDefaults_ordered (ids : List Text) :
    rootDefaults (tags.map (orderTag tags)) ids = rootDefaults tags ids := by
  have hroots : ∀ tags : List ConnectionTag, ((tags.filter fun tag => tag.parentTagID = []).map
      fun tag => buildConnectionSidebarTagToken tag.id) =
      ((tags.map link).filter fun l => l.2 = []).map fun l =>
        buildConnectionSidebarTagToken l.1 := by
    intro tags
    rw [filter_map, map_map]
    rfl
  have howned : ∀ c, c ∈ (tags.map (orderTag tags)).flatMap ConnectionTag.connectionIDs ↔
      c ∈ tags.flatMap ConnectionTag.connectionIDs := by
    intro c
    simp only [mem_flatMap, mem_map, exists_exists_and_eq_and]
    refine exists_congr fun tag => and_congr_right fun htag => ?_
    exact mem_orderTag_connections hconns hgrouped htag
  rw [rootDefaults, rootDefaults, hroots, hroots, ordered_links]
  simp only [howned]

theorem ordered_grouped : Grouped conns (tags.map (orderTag tags)) := by
  have hids : (tags.map (orderTag tags)).map ConnectionTag.id = tags.map ConnectionTag.id :=
    ids_of_links ordered_links
  refine ⟨?_, fun tag htag => ?_, fun tag htag => ?_, fun tag htag => ?_, ?_⟩
  · rw [hids]
    exact hgrouped.nodup
  · obtain ⟨old, hold, rfl⟩ := mem_map.mp htag
    have h := hgrouped.read old hold
    have hperm := orderTag_connections hconns hgrouped.nodup hgrouped.read hold
    exact ⟨h.id, h.name, h.parent, fun c hc => h.connections c (hperm.mem_iff.mp hc),
      hperm.nodup_iff.mpr h.nodup, h.sortMode, h.connectionSortMode⟩
  · obtain ⟨old, hold, rfl⟩ := mem_map.mp htag
    rw [hids]
    exact hgrouped.parents old hold
  · obtain ⟨old, hold, rfl⟩ := mem_map.mp htag
    rw [parentOf_congr ordered_links]
    exact hgrouped.ends old hold
  · rw [pairwise_map]
    refine hgrouped.disjoint.imp_of_mem fun {t t'} ht ht' hdisjoint c hc hc' => ?_
    exact hdisjoint ((mem_orderTag_connections hconns hgrouped ht).mp hc)
      ((mem_orderTag_connections hconns hgrouped ht').mp hc')

theorem rootDefaults_canonical :
    ∀ token ∈ rootDefaults tags conns, Canonical token := by
  intro token htoken
  rw [rootDefaults, mem_append] at htoken
  rcases htoken with h | h
  · obtain ⟨tag, htag, rfl⟩ := mem_map.mp h
    exact ⟨.tag, tag.id, (hgrouped.read tag (mem_of_mem_filter htag)).id, rfl⟩
  · obtain ⟨c, hc, rfl⟩ := mem_map.mp h
    exact ⟨.connection, c, hconns c (mem_of_mem_filter hc), rfl⟩

/-- The completed orders of a forest without shared connections are those of a normal layout. -/
theorem ordered_normal (order : List Text) :
    Normal conns (tags.map (orderTag tags))
      (appendMissingConnectionSidebarTokens order (rootDefaults tags conns)) := by
  refine { ordered_grouped hconns hgrouped with
    children := fun tag htag => ?_
    hosts := fun tag htag => ?_
    root := ⟨fun token htoken => ?_, nodup_appendMissing, fun token => ?_⟩ }
  · obtain ⟨old, hold, rfl⟩ := mem_map.mp htag
    refine ⟨fun token htoken => ?_, nodup_appendMissing, fun token => ?_⟩
    · exact childDefaults_canonical hconns hgrouped.read hold token (mem_appendMissing.mp htoken)
    · rw [mem_childDefaults_ordered hconns hgrouped hold]
      exact mem_appendMissing
  · obtain ⟨old, -, rfl⟩ := mem_map.mp htag
    rfl
  · exact rootDefaults_canonical hconns hgrouped token (mem_appendMissing.mp htoken)
  · rw [rootDefaults_ordered hconns hgrouped]
    exact mem_appendMissing

end ordered

variable {input : ConnectionSidebarLayoutInput} {items : Except LayoutError (List Text)}
variable {output : ConnectionSidebarLayoutInput}

theorem normalizeUnlocked_ok (h : normalizeUnlocked items now input = .ok output) :
    ∃ saved cut, items = .ok saved ∧ validateConnectionSidebarLayoutLimits input = .ok () ∧
      cutCycles ((dropParents (readTags (savedConnectionIDs saved) now input.connectionTags)).map
        ConnectionTag.id)
        (dropParents (readTags (savedConnectionIDs saved) now input.connectionTags)) = .ok cut ∧
      output = {
        connectionTags := (ownConnections [] cut).map (orderTag (ownConnections [] cut))
        sidebarRootOrder := appendMissingConnectionSidebarTokens input.sidebarRootOrder
          (rootDefaults (ownConnections [] cut) (savedConnectionIDs saved))
        rootSortMode := bytes "manual"
        rootConnectionSortMode := normalizeConnectionSidebarConnectionSortMode
          input.rootConnectionSortMode input.rootSortMode } := by
  unfold normalizeUnlocked at h
  obtain ⟨⟨⟩, hvalid, h⟩ := Fallible.bind_eq_ok.mp h
  obtain ⟨saved, hsaved, h⟩ := Fallible.bind_eq_ok.mp h
  obtain ⟨cut, hcut, h⟩ := Fallible.bind_eq_ok.mp h
  exact ⟨saved, cut, hsaved, hvalid, hcut, (Fallible.pure_eq_ok.mp h).symm⟩

/-- **What normalization answers is normal.** -/
theorem normalizeUnlocked_normal (h : normalizeUnlocked items now input = .ok output) :
    ∃ saved, items = .ok saved ∧
      Normal (savedConnectionIDs saved) output.connectionTags output.sidebarRootOrder ∧
      output.rootSortMode = bytes "manual" ∧ SortMode output.rootConnectionSortMode := by
  obtain ⟨saved, cut, hsaved, -, hcut, rfl⟩ := normalizeUnlocked_ok h
  exact ⟨saved, hsaved, ordered_normal savedConnectionIDs_trimmed (grouped_of_cut hcut) _, rfl,
    normalizeSortMode_mem _ _⟩

/-! ### Fixed points -/

theorem orderTag_eq_self (h : CompleteOrder (childDefaults tags tag) tag.childOrder)
    (hhosts : tag.connectionIDs = tag.childOrder.filterMap hostOfToken) :
    orderTag tags tag = tag := by
  rw [orderTag, appendMissing_eq_self h.canonical h.nodup h.mem, ← hhosts]

/-- **A normal layout within the limits is a fixed point.** -/
theorem normalizeUnlocked_eq_self {saved : List Text} {layout : ConnectionSidebarLayoutInput}
    (hvalid : validateConnectionSidebarLayoutLimits layout = .ok ())
    (h : Normal (savedConnectionIDs saved) layout.connectionTags layout.sidebarRootOrder)
    (hcreated : ∀ tag ∈ layout.connectionTags, 0 < tag.createdAt)
    (hroot : layout.rootSortMode = bytes "manual") (hmode : SortMode layout.rootConnectionSortMode) :
    normalizeUnlocked (.ok saved) now layout = .ok layout := by
  have hread := readTags_eq_self now savedConnectionIDs_trimmed h.nodup h.read hcreated
    (fun tag htag => (h.children tag htag).canonical) fun tag htag => (h.children tag htag).nodup
  have hcut : cutCycles (layout.connectionTags.map ConnectionTag.id) layout.connectionTags =
      .ok layout.connectionTags := by
    refine cutCycles_eq_self fun id hid => ?_
    obtain ⟨tag, htag, rfl⟩ := mem_map.mp hid
    exact h.ends tag htag
  have hown : ownConnections [] layout.connectionTags = layout.connectionTags :=
    ownConnections_eq_self (fun tag htag => (h.read tag htag).nodup) h.disjoint
      fun _ _ _ _ => not_mem_nil
  have horder : layout.connectionTags.map (orderTag layout.connectionTags) =
      layout.connectionTags :=
    (map_congr_left fun tag htag =>
      orderTag_eq_self (h.children tag htag) (h.hosts tag htag)).trans (map_id _)
  have hrootorder := appendMissing_eq_self h.root.canonical h.root.nodup h.root.mem
  unfold normalizeUnlocked
  rw [hvalid, Fallible.ok_bind, Fallible.ok_bind]
  simp only [hread, dropParents_eq_self h.parents, hcut, Fallible.ok_bind, hown, horder,
    hrootorder, normalizeSortMode_eq_self hmode, ← hroot]
  rfl

/-- Tags get a time when the clock is past the first seconds of 1970. -/
theorem normalizeUnlocked_created (h : normalizeUnlocked items now input = .ok output)
    (hnow : connectionSidebarLayoutMaxTags < now) :
    ∀ tag ∈ output.connectionTags, 0 < tag.createdAt := by
  obtain ⟨saved, cut, -, hvalid, hcut, rfl⟩ := normalizeUnlocked_ok h
  have hcount : input.connectionTags.length ≤ connectionSidebarLayoutMaxTags := by
    unfold validateConnectionSidebarLayoutLimits at hvalid
    by_contra hmany
    rw [if_pos (not_le.mp hmany)] at hvalid
    cases hvalid
  have hread : ∀ tag ∈ readTags (savedConnectionIDs saved) now input.connectionTags,
      0 < tag.createdAt := by
    intro tag htag
    have hmem := (distinctBy_sublist _ _).subset htag
    obtain ⟨⟨raw, rawIndex⟩, -, hraw⟩ := mem_filterMap.mp hmem
    unfold readTag at hraw
    simp only at hraw
    split at hraw
    · cases hraw
    · cases hraw
      show 0 < if raw.createdAt ≤ 0 then now - (input.connectionTags.length - rawIndex)
        else raw.createdAt
      split
      · omega
      · omega
  have hcuttags : ∀ tag ∈ cut, 0 < tag.createdAt := by
    refine (cutCycles_ok hcut).2.1 _ (fun tag h => h) fun tag htag => ?_
    obtain ⟨old, hold, rfl⟩ := mem_map.mp htag
    unfold dropParent
    split
    · exact hread old hold
    · exact hread old hold
  intro tag htag
  obtain ⟨old, hold, rfl⟩ := mem_map.mp htag
  obtain ⟨-, first, hfirst, seen, rfl⟩ := mem_ownConnections hold
  exact hcuttags first hfirst

end stages

/-! ### Complete forests -/

/-- All tokens that a layout has in its orders. -/
def placedTokens (tags : List ConnectionTag) (root : List Text) : List Text :=
  root ++ tags.flatMap ConnectionTag.childOrder

/-- A forest of tags of bounded depth that has each saved connection and each tag once, in the
place where it belongs. -/
structure CompleteForest (conns : List Text) (tags : List ConnectionTag) (root : List Text) :
    Prop where
  ids : (tags.map ConnectionTag.id).Nodup
  parents : ∀ tag ∈ tags, tag.parentTagID = [] ∨ tag.parentTagID ∈ tags.map ConnectionTag.id
  forest : ∀ tag ∈ tags,
    Forest.Ends (parentOf tags) [] connectionSidebarLayoutMaxTreeDepth tag.id
  once : (placedTokens tags root).Nodup
  placed : ∀ token, token ∈ placedTokens tags root ↔
    (∃ tag ∈ tags, token = buildConnectionSidebarTagToken tag.id) ∨
      ∃ c ∈ conns, token = buildConnectionSidebarHostToken c
  rootTags : ∀ tag ∈ tags,
    buildConnectionSidebarTagToken tag.id ∈ root ↔ tag.parentTagID = []
  childTags : ∀ tag ∈ tags, ∀ parent ∈ tags,
    buildConnectionSidebarTagToken tag.id ∈ parent.childOrder ↔ tag.parentTagID = parent.id
  hosts : ∀ c ∈ conns, ∀ tag ∈ tags,
    buildConnectionSidebarHostToken c ∈ tag.childOrder ↔ c ∈ tag.connectionIDs

section complete

variable (hconns : ∀ c ∈ conns, Trimmed c) (h : Normal conns tags root)

include hconns h

theorem tag_mem_childOrder {parent : ConnectionTag} (htag : tag ∈ tags) (hparent : parent ∈ tags) :
    buildConnectionSidebarTagToken tag.id ∈ parent.childOrder ↔ tag.parentTagID = parent.id := by
  rw [(h.children parent hparent).mem, childDefaults, mem_append]
  constructor
  · rintro (hhost | hchild)
    · obtain ⟨c, hc, he⟩ := mem_map.mp hhost
      exact absurd he.symm (tagToken_ne_hostToken (h.read tag htag).id
        (hconns c ((h.read parent hparent).connections c hc)))
    · obtain ⟨id, hid, he⟩ := mem_map.mp hchild
      obtain ⟨child, hchild, ⟨-, hof⟩, rfl⟩ := mem_childrenOf.mp hid
      have hsame := tagToken_inj (h.read child hchild).id (h.read tag htag).id he
      rw [← inj_on_of_nodup_map h.nodup hchild htag hsame]
      exact hof
  · intro hof
    refine .inr (mem_map_of_mem (mem_childrenOf.mpr ⟨tag, htag, ⟨?_, hof⟩, rfl⟩))
    rw [hof]
    exact (h.read parent hparent).id.2

theorem host_mem_childOrder (hc : c ∈ conns) (htag : tag ∈ tags) :
    buildConnectionSidebarHostToken c ∈ tag.childOrder ↔ c ∈ tag.connectionIDs := by
  rw [(h.children tag htag).mem, childDefaults, mem_append]
  constructor
  · rintro (hhost | hchild)
    · obtain ⟨c', hc', he⟩ := mem_map.mp hhost
      exact hostToken_inj (hconns c' ((h.read tag htag).connections c' hc')) (hconns c hc) he ▸ hc'
    · obtain ⟨id, hid, he⟩ := mem_map.mp hchild
      obtain ⟨child, hchild, -, rfl⟩ := mem_childrenOf.mp hid
      exact absurd he (tagToken_ne_hostToken (h.read child hchild).id (hconns c hc))
  · exact fun hc => .inl (mem_map_of_mem hc)

theorem tag_mem_root (htag : tag ∈ tags) :
    buildConnectionSidebarTagToken tag.id ∈ root ↔ tag.parentTagID = [] := by
  rw [h.root.mem, rootDefaults, mem_append]
  constructor
  · rintro (htags | hhost)
    · obtain ⟨other, hother, he⟩ := mem_map.mp htags
      obtain ⟨hmem, hnone⟩ := mem_filter.mp hother
      have hsame := tagToken_inj (h.read other hmem).id (h.read tag htag).id he
      rw [← inj_on_of_nodup_map h.nodup hmem htag hsame]
      exact of_decide_eq_true hnone
    · obtain ⟨c, hc, he⟩ := mem_map.mp hhost
      exact absurd he.symm (tagToken_ne_hostToken (h.read tag htag).id
        (hconns c (mem_of_mem_filter hc)))
  · intro hnone
    exact .inl (mem_map.mpr ⟨tag, mem_filter.mpr ⟨htag, decide_eq_true hnone⟩, rfl⟩)

theorem host_mem_root (hc : c ∈ conns) :
    buildConnectionSidebarHostToken c ∈ root ↔ ∀ tag ∈ tags, c ∉ tag.connectionIDs := by
  rw [h.root.mem, rootDefaults, mem_append]
  constructor
  · rintro (htags | hhost)
    · obtain ⟨other, hother, he⟩ := mem_map.mp htags
      exact absurd he (tagToken_ne_hostToken (h.read other (mem_of_mem_filter hother)).id
        (hconns c hc))
    · obtain ⟨c', hc', he⟩ := mem_map.mp hhost
      obtain ⟨hmem, hfree⟩ := mem_filter.mp hc'
      have hsame := hostToken_inj (hconns c' hmem) (hconns c hc) he
      intro tag htag hin
      exact of_decide_eq_true hfree (mem_flatMap.mpr ⟨tag, htag, hsame ▸ hin⟩)
  · intro hfree
    refine .inr (mem_map_of_mem (mem_filter.mpr ⟨hc, decide_eq_true fun hin => ?_⟩))
    obtain ⟨tag, htag, hin⟩ := mem_flatMap.mp hin
    exact hfree tag htag hin

omit hconns in
theorem token_of_placed {token : Text} (htoken : token ∈ placedTokens tags root) :
    (∃ tag ∈ tags, token = buildConnectionSidebarTagToken tag.id) ∨
      ∃ c ∈ conns, token = buildConnectionSidebarHostToken c := by
  rw [placedTokens, mem_append] at htoken
  rcases htoken with hroot | hchild
  · rw [h.root.mem, rootDefaults, mem_append] at hroot
    rcases hroot with htags | hhost
    · obtain ⟨tag, htag, rfl⟩ := mem_map.mp htags
      exact .inl ⟨tag, mem_of_mem_filter htag, rfl⟩
    · obtain ⟨c, hc, rfl⟩ := mem_map.mp hhost
      exact .inr ⟨c, mem_of_mem_filter hc, rfl⟩
  · obtain ⟨parent, hparent, hin⟩ := mem_flatMap.mp hchild
    rw [(h.children parent hparent).mem, childDefaults, mem_append] at hin
    rcases hin with hhost | htags
    · obtain ⟨c, hc, rfl⟩ := mem_map.mp hhost
      exact .inr ⟨c, (h.read parent hparent).connections c hc, rfl⟩
    · obtain ⟨id, hid, rfl⟩ := mem_map.mp htags
      obtain ⟨child, hmem, -, rfl⟩ := mem_childrenOf.mp hid
      exact .inl ⟨child, hmem, rfl⟩

theorem placed_tag (htag : tag ∈ tags) :
    buildConnectionSidebarTagToken tag.id ∈ placedTokens tags root := by
  rw [placedTokens, mem_append]
  rcases h.parents tag htag with hnone | ⟨-, hmem⟩
  · exact .inl ((tag_mem_root hconns h htag).mpr hnone)
  · obtain ⟨parent, hparent, hof⟩ := mem_map.mp hmem
    exact .inr (mem_flatMap.mpr
      ⟨parent, hparent, (tag_mem_childOrder hconns h htag hparent).mpr hof.symm⟩)

theorem placed_host (hc : c ∈ conns) :
    buildConnectionSidebarHostToken c ∈ placedTokens tags root := by
  rw [placedTokens, mem_append]
  by_cases hfree : ∀ tag ∈ tags, c ∉ tag.connectionIDs
  · exact .inl ((host_mem_root hconns h hc).mpr hfree)
  · simp only [not_forall, not_not] at hfree
    obtain ⟨tag, htag, hin⟩ := hfree
    exact .inr (mem_flatMap.mpr ⟨tag, htag, (host_mem_childOrder hconns h hc htag).mpr hin⟩)

theorem placed_nodup : (placedTokens tags root).Nodup := by
  rw [placedTokens, nodup_append', nodup_flatMap]
  refine ⟨h.root.nodup, ⟨fun tag htag => (h.children tag htag).nodup, ?_⟩, ?_⟩
  · have hdistinct : tags.Pairwise fun t t' => t.id ≠ t'.id := pairwise_map.mp h.nodup
    refine (hdistinct.and h.disjoint).imp_of_mem fun {t t'} ht ht' hapart token hin hin' => ?_
    rcases token_of_placed h (mem_append_right _ (mem_flatMap.mpr ⟨t, ht, hin⟩))
      with ⟨tag, htag, rfl⟩ | ⟨c, hc, rfl⟩
    · have hof := (tag_mem_childOrder hconns h htag ht).mp hin
      have hof' := (tag_mem_childOrder hconns h htag ht').mp hin'
      exact hapart.1 (hof.symm.trans hof')
    · exact hapart.2 ((host_mem_childOrder hconns h hc ht).mp hin)
        ((host_mem_childOrder hconns h hc ht').mp hin')
  · intro token hroot hchild
    obtain ⟨parent, hparent, hin⟩ := mem_flatMap.mp hchild
    rcases token_of_placed h (mem_append_left _ hroot) with
      ⟨tag, htag, rfl⟩ | ⟨c, hc, rfl⟩
    · have hnone := (tag_mem_root hconns h htag).mp hroot
      have hof := (tag_mem_childOrder hconns h htag hparent).mp hin
      exact (h.read parent hparent).id.2 (hof.symm.trans hnone)
    · exact (host_mem_root hconns h hc).mp hroot parent hparent
        ((host_mem_childOrder hconns h hc hparent).mp hin)

/-- **A normal layout is a complete forest.** -/
theorem Normal.completeForest : CompleteForest conns tags root where
  ids := h.nodup
  parents := fun tag htag => (h.parents tag htag).imp_right And.right
  forest := h.ends
  once := placed_nodup hconns h
  placed := by
    intro token
    refine ⟨token_of_placed h, ?_⟩
    rintro (⟨tag, htag, rfl⟩ | ⟨c, hc, rfl⟩)
    · exact placed_tag hconns h htag
    · exact placed_host hconns h hc
  rootTags := fun _ htag => tag_mem_root hconns h htag
  childTags := fun _ htag _ hparent => tag_mem_childOrder hconns h htag hparent
  hosts := fun _ hc _ htag => host_mem_childOrder hconns h hc htag

end complete

end GoNavi.Sidebar
