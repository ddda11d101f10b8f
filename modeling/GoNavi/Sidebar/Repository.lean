import GoNavi.Machine.Machine
import GoNavi.Sidebar.Normal

/-! # The stored layout

The layout is kept in a file with a revision.  `Load` answers its normal form, `Bootstrap`
also stores it, and `Save` and `replaceUnlocked` store the normal form of what they are given;
`Save` only when the caller knows the stored revision.

**`layouts_sound`**: over every sequence of these operations, with any inputs and any failures of
the file system, a layout that is answered is a complete forest of the connections saved at that
time, a saved layout that is within the limits is answered unchanged afterwards, and a `Save`
that is refused or fails leaves the file as loading it does. -/

namespace GoNavi.Sidebar

open Scan

/-! ### Data -/

/-- A layout with its revision. -/
structure ConnectionSidebarLayout extends ConnectionSidebarLayoutInput where
  initialized : Bool
  revision : UInt64
  deriving DecidableEq

/-- The content of the file. -/
structure ConnectionSidebarLayoutDiskFile extends ConnectionSidebarLayoutInput where
  version : ℤ
  revision : UInt64
  deriving DecidableEq

/-- What is stored: no file, something that is no layout, or a layout in a file of a size. -/
inductive Stored
  | absent
  | unreadable
  | file (content : ConnectionSidebarLayoutDiskFile) (bytes : ℕ)
  deriving DecidableEq

/-- How replacing the file ends.  The directory is synchronized after the file was replaced. -/
inductive Write
  | written
  | failed
  | unsynced
  deriving DecidableEq

/-- What an operation finds around it. -/
structure Surroundings where
  /-- The ids of the saved connections. -/
  items : Except LayoutError (List Text)
  /-- Milliseconds since 1970, past the first seconds. -/
  now : ℤ
  late : connectionSidebarLayoutMaxTags < now
  /-- The time of the file, zero when it is not known. -/
  modTime : ℤ
  locks : Bool
  reads : Bool
  migration : Write
  write : Write
  unlocks : Bool

def connectionSidebarLayoutFormatVersion : ℤ := 2

/-- `^uint64(0)`. -/
def maxRevision : UInt64 := 0xFFFFFFFFFFFFFFFF

def emptyConnectionSidebarLayout : ConnectionSidebarLayout where
  connectionTags := []
  sidebarRootOrder := []
  rootSortMode := bytes "manual"
  rootConnectionSortMode := bytes "createdAt"
  initialized := false
  revision := 0

section operations

-- `size` is the length of a file's JSON.
variable (size : ConnectionSidebarLayoutDiskFile → ℕ) (e : Surroundings)

/-! ### Reading and writing -/

/-- The file of a layout. -/
def diskFile (layout : ConnectionSidebarLayout) : ConnectionSidebarLayoutDiskFile where
  version := connectionSidebarLayoutFormatVersion
  revision := layout.revision
  connectionTags := layout.connectionTags
  sidebarRootOrder := layout.sidebarRootOrder
  rootSortMode := bytes "manual"
  rootConnectionSortMode := normalizeConnectionSidebarConnectionSortMode
    layout.rootConnectionSortMode layout.rootSortMode

def saveUnlocked (outcome : Write) (layout : ConnectionSidebarLayout) (stored : Stored) :
    Except LayoutError Unit × Stored :=
  let content := diskFile layout
  if size content > connectionSidebarLayoutMaxFileBytes then (.error .fileLimit, stored)
  else
    match outcome with
    | .written => (.ok (), .file content (size content))
    | .failed => (.error .write, stored)
    | .unsynced => (.error .write, .file content (size content))

/-- A tag of the file.  A tag of an old file without a time gets the time of the file. -/
def readStoredTag (modTime : ℤ) (tag : ConnectionTag) (index : ℕ) : ConnectionTag :=
  { tag with
    createdAt := if tag.createdAt ≤ 0 ∧ 0 < modTime then modTime - index else tag.createdAt
    sortMode := bytes "manual"
    connectionSortMode :=
      normalizeConnectionSidebarConnectionSortMode tag.connectionSortMode tag.sortMode }

/-- The layout in a file. -/
def storedLayout (modTime : ℤ) (content : ConnectionSidebarLayoutDiskFile) :
    ConnectionSidebarLayout where
  connectionTags := content.connectionTags.zipIdx.map fun (tag, index) =>
    readStoredTag modTime tag index
  sidebarRootOrder := content.sidebarRootOrder
  rootSortMode := bytes "manual"
  rootConnectionSortMode := normalizeConnectionSidebarConnectionSortMode
    content.rootConnectionSortMode content.rootSortMode
  initialized := true
  revision := content.revision

/-- Some tag is given a time. -/
def legacyTagCreatedAtChanged (modTime : ℤ) (content : ConnectionSidebarLayoutDiskFile) : Bool :=
  content.connectionTags.any fun tag => decide (tag.createdAt ≤ 0 ∧ 0 < modTime)

def loadUnlocked (stored : Stored) : Except LayoutError ConnectionSidebarLayout × Stored :=
  if !e.reads then (.error .unreadable, stored)
  else
    match stored with
    | .absent => (.ok emptyConnectionSidebarLayout, stored)
    | .unreadable => (.error .unreadable, stored)
    | .file content bytes =>
      if bytes > connectionSidebarLayoutMaxFileBytes then (.error .fileLimit, stored)
      else if content.version ≠ 1 ∧ content.version ≠ connectionSidebarLayoutFormatVersion then
        (.error .unsupportedVersion, stored)
      else if content.revision = 0 then (.error .revisionNotPositive, stored)
      else if legacyTagCreatedAtChanged e.modTime content ∧ content.revision ≠ maxRevision then
        match saveUnlocked size e.migration (storedLayout e.modTime content) stored with
        | (.error err, stored) => (.error err, stored)
        | (.ok (), stored) => (.ok (storedLayout e.modTime content), stored)
      else (.ok (storedLayout e.modTime content), stored)

/-- The normal form of a stored layout. -/
def normalizeStored (current : ConnectionSidebarLayout) :
    Except LayoutError ConnectionSidebarLayout :=
  match normalizeUnlocked e.items e.now current.toConnectionSidebarLayoutInput with
  | .error err => .error err
  | .ok normalized =>
    .ok { normalized with initialized := current.initialized, revision := current.revision }

/-! ### Operations -/

/-- What an operation answers. -/
structure Reply where
  layout : ConnectionSidebarLayout
  conflict : Bool := false
  deriving DecidableEq

/-- A layout under the next revision. -/
def nextLayout (current : ConnectionSidebarLayout) (normalized : ConnectionSidebarLayoutInput) :
    ConnectionSidebarLayout :=
  { normalized with
    initialized := true
    revision := if current.initialized then current.revision + 1 else 1 }

/-- Store a layout under the next revision. -/
def storeNext (current : ConnectionSidebarLayout) (normalized : ConnectionSidebarLayoutInput)
    (stored : Stored) : Except LayoutError Reply × Stored :=
  if current.initialized && current.revision == maxRevision then (.error .revisionOverflow, stored)
  else
    match saveUnlocked size e.write (nextLayout current normalized) stored with
    | (.error err, stored) => (.error err, stored)
    | (.ok (), stored) => (.ok { layout := nextLayout current normalized }, stored)

def replaceUnlocked (input : ConnectionSidebarLayoutInput) (stored : Stored) :
    Except LayoutError Reply × Stored :=
  match loadUnlocked size e stored with
  | (.error err, stored) => (.error err, stored)
  | (.ok current, stored) =>
    match normalizeUnlocked e.items e.now input with
    | .error err => (.error err, stored)
    | .ok normalized => storeNext size e current normalized stored

def bootstrapLocked (candidate : ConnectionSidebarLayoutInput) (stored : Stored) :
    Except LayoutError Reply × Stored :=
  match loadUnlocked size e stored with
  | (.error err, stored) => (.error err, stored)
  | (.ok current, stored) =>
    if current.initialized then
      match normalizeUnlocked e.items e.now current.toConnectionSidebarLayoutInput with
      | .error err => (.error err, stored)
      | .ok normalized =>
        if current.toConnectionSidebarLayoutInput ≠ normalized then
          storeNext size e current normalized stored
        else (.ok { layout := current }, stored)
    else if candidate.connectionTags.isEmpty then
      (.ok { layout := emptyConnectionSidebarLayout }, stored)
    else
      match normalizeUnlocked e.items e.now candidate with
      | .error err => (.error err, stored)
      | .ok normalized =>
        if normalized.connectionTags.isEmpty then
          (.ok { layout := emptyConnectionSidebarLayout }, stored)
        else storeNext size e current normalized stored

def loadLocked (stored : Stored) : Except LayoutError Reply × Stored :=
  match loadUnlocked size e stored with
  | (.error err, stored) => (.error err, stored)
  | (.ok current, stored) =>
    if !current.initialized then (.ok { layout := current }, stored)
    else
      match normalizeStored e current with
      | .error err => (.error err, stored)
      | .ok layout => (.ok { layout }, stored)

def saveLocked (expectedRevision : UInt64) (input : ConnectionSidebarLayoutInput)
    (stored : Stored) : Except LayoutError Reply × Stored :=
  match loadUnlocked size e stored with
  | (.error err, stored) => (.error err, stored)
  | (.ok current, stored) =>
    if (!current.initialized && expectedRevision != 0) ||
        (current.initialized && expectedRevision != current.revision) then
      if current.initialized then
        match normalizeStored e current with
        | .error err => (.error err, stored)
        | .ok layout => (.ok { layout, conflict := true }, stored)
      else (.ok { layout := current, conflict := true }, stored)
    else
      match normalizeUnlocked e.items e.now input with
      | .error err => (.error err, stored)
      | .ok normalized => storeNext size e current normalized stored

/-- Run an operation between locking and unlocking.  What was done stays when unlocking fails. -/
def withLock (operation : Stored → Except LayoutError Reply × Stored) (stored : Stored) :
    Except LayoutError Reply × Stored :=
  if !e.locks then (.error .lock, stored)
  else
    match operation stored with
    | (.error err, stored) => (.error err, stored)
    | (.ok reply, stored) => if e.unlocks then (.ok reply, stored) else (.error .lock, stored)

end operations

/-- An operation on the layout. -/
inductive Call
  | bootstrap (candidate : ConnectionSidebarLayoutInput)
  | load
  | save (expectedRevision : UInt64) (layout : ConnectionSidebarLayoutInput)
  | replace (input : ConnectionSidebarLayoutInput)

/-- An operation with what it finds around it. -/
structure Event where
  call : Call
  around : Surroundings

/-- Perform an operation. -/
def perform (size : ConnectionSidebarLayoutDiskFile → ℕ) (stored : Stored) (event : Event) :
    Except LayoutError Reply × Stored :=
  match event.call with
  | .bootstrap candidate =>
    withLock event.around (bootstrapLocked size event.around candidate) stored
  | .load => withLock event.around (loadLocked size event.around) stored
  | .save expectedRevision layout =>
    withLock event.around (saveLocked size event.around expectedRevision layout) stored
  | .replace input => replaceUnlocked size event.around input stored

/-- What is stored afterwards. -/
def step (size : ConnectionSidebarLayoutDiskFile → ℕ) (stored : Stored) (event : Event) : Stored :=
  (perform size stored event).2

section proofs

variable {size : ConnectionSidebarLayoutDiskFile → ℕ} {e : Surroundings} {s : Stored}

/-! ### Loading -/

/-- All tags of the file have a time. -/
def Stamped : Stored → Prop
  | .file content _ => ∀ tag ∈ content.connectionTags, 0 < tag.createdAt
  | _ => True

theorem loadUnlocked_stamped (h : Stamped s) : (loadUnlocked size e s).2 = s := by
  unfold loadUnlocked
  split
  · rfl
  · cases s with
    | absent => rfl
    | unreadable => rfl
    | file content bytes =>
      have hnone : legacyTagCreatedAtChanged e.modTime content = false := by
        rw [legacyTagCreatedAtChanged, List.any_eq_false]
        intro tag htag
        have hpos := h tag htag
        simp only [decide_eq_true_eq, not_and]
        omega
      simp only [hnone]
      split
      · rfl
      · split
        · rfl
        · split
          · rfl
          · rfl

variable {current : ConnectionSidebarLayout} {s' : Stored}

theorem loadUnlocked_ok (h : loadUnlocked size e s = (.ok current, s')) :
    (current = emptyConnectionSidebarLayout ∧ s = .absent) ∨
      ∃ content bytes, s = .file content bytes ∧ current = storedLayout e.modTime content := by
  unfold loadUnlocked at h
  split at h
  · cases h
  · cases s with
    | absent =>
      cases h
      exact .inl ⟨rfl, rfl⟩
    | unreadable => cases h
    | file content bytes =>
      right
      refine ⟨content, bytes, rfl, ?_⟩
      simp only at h
      split at h
      · cases h
      · split at h
        · cases h
        · split at h
          · cases h
          · split at h
            · split at h
              · cases h
              · cases h
                rfl
            · cases h
              rfl

/-- The stored revision, zero when there is no layout. -/
def revisionOf : Stored → UInt64
  | .file content _ => content.revision
  | _ => 0

/-! ### Storing -/

variable {layout : ConnectionSidebarLayout} {outcome : Write}

theorem saveUnlocked_ok (h : saveUnlocked size outcome layout s = (.ok (), s')) :
    s' = .file (diskFile layout) (size (diskFile layout)) ∧
      size (diskFile layout) ≤ connectionSidebarLayoutMaxFileBytes := by
  unfold saveUnlocked at h
  simp only at h
  split at h
  · cases h
  · next hsize =>
    cases outcome with
    | written =>
      cases h
      exact ⟨rfl, not_lt.mp hsize⟩
    | failed => cases h
    | unsynced => cases h

variable {err : LayoutError}

theorem saveUnlocked_error (h : saveUnlocked size outcome layout s = (.error err, s'))
    (hsynced : outcome ≠ .unsynced) :
    s' = s := by
  unfold saveUnlocked at h
  simp only at h
  split at h
  · cases h
    rfl
  · cases outcome with
    | written => cases h
    | failed =>
      cases h
      rfl
    | unsynced => exact absurd rfl hsynced

variable {normalized : ConnectionSidebarLayoutInput} {reply : Reply}

theorem storeNext_ok (h : storeNext size e current normalized s = (.ok reply, s')) :
    reply.layout.toConnectionSidebarLayoutInput = normalized ∧ reply.layout.initialized ∧
      reply.layout.revision ≠ 0 ∧
      s' = .file (diskFile reply.layout) (size (diskFile reply.layout)) ∧
      size (diskFile reply.layout) ≤ connectionSidebarLayoutMaxFileBytes := by
  unfold storeNext at h
  split at h
  · cases h
  · next hrevision =>
    split at h
    · cases h
    · next hsave =>
      cases h
      obtain ⟨hstored, hsize⟩ := saveUnlocked_ok hsave
      refine ⟨rfl, rfl, ?_, hstored, hsize⟩
      show (if current.initialized then current.revision + 1 else 1) ≠ 0
      split
      · next hinit =>
        rw [hinit, Bool.true_and, beq_iff_eq] at hrevision
        rw [maxRevision] at hrevision
        grind
      · decide

theorem storeNext_error (h : storeNext size e current normalized s = (.error err, s'))
    (hsynced : e.write ≠ .unsynced) :
    s' = s := by
  unfold storeNext at h
  split at h
  · cases h
    rfl
  · split at h
    · next hsave =>
      cases h
      exact saveUnlocked_error hsave hsynced
    · cases h

/-! ### Answers -/

/-- The layout is a complete forest of the connections that are saved. -/
def Sound (e : Surroundings) (layout : ConnectionSidebarLayout) : Prop :=
  layout.initialized → ∃ saved, e.items = .ok saved ∧
    CompleteForest (savedConnectionIDs saved) layout.connectionTags layout.sidebarRootOrder

variable {input : ConnectionSidebarLayoutInput}

theorem sound_of_normalized
    (h : normalizeUnlocked e.items e.now input = .ok layout.toConnectionSidebarLayoutInput) :
    Sound e layout := by
  intro _
  obtain ⟨saved, hsaved, hnormal, -⟩ := normalizeUnlocked_normal h
  exact ⟨saved, hsaved, hnormal.completeForest savedConnectionIDs_trimmed⟩

theorem sound_storeNext (hnormal : normalizeUnlocked e.items e.now input = .ok normalized)
    (h : storeNext size e current normalized s = (.ok reply, s')) : Sound e reply.layout := by
  obtain ⟨hlayout, -⟩ := storeNext_ok h
  exact sound_of_normalized (hnormal.trans (congrArg Except.ok hlayout.symm))

theorem sound_uninitialized (h : layout.initialized = false) :
    Sound e layout := by
  intro hinit
  rw [h] at hinit
  cases hinit

theorem sound_normalizeStored (h : normalizeStored e current = .ok layout) : Sound e layout := by
  unfold normalizeStored at h
  split at h
  · cases h
  · next hnormal =>
    cases h
    exact sound_of_normalized hnormal

theorem replaceUnlocked_sound (h : replaceUnlocked size e input s = (.ok reply, s')) :
    Sound e reply.layout := by
  unfold replaceUnlocked at h
  split at h
  · cases h
  · split at h
    · cases h
    · next hnormal => exact sound_storeNext hnormal h

theorem bootstrapLocked_sound {candidate : ConnectionSidebarLayoutInput}
    (h : bootstrapLocked size e candidate s = (.ok reply, s')) :
    Sound e reply.layout := by
  unfold bootstrapLocked at h
  split at h
  · cases h
  · split at h
    · split at h
      · cases h
      · next hnormal =>
        split at h
        · exact sound_storeNext hnormal h
        · next hsame =>
          cases h
          rw [not_not] at hsame
          exact sound_of_normalized (hnormal.trans (congrArg Except.ok hsame.symm))
    · split at h
      · cases h
        exact sound_uninitialized rfl
      · split at h
        · cases h
        · next hnormal =>
          split at h
          · cases h
            exact sound_uninitialized rfl
          · exact sound_storeNext hnormal h

theorem loadLocked_sound (h : loadLocked size e s = (.ok reply, s')) :
    Sound e reply.layout := by
  unfold loadLocked at h
  split at h
  · cases h
  · split at h
    · next hinit =>
      cases h
      exact sound_uninitialized (by simpa using hinit)
    · split at h
      · cases h
      · next hnormal =>
        cases h
        exact sound_normalizeStored hnormal

theorem saveLocked_sound {expectedRevision : UInt64}
    (h : saveLocked size e expectedRevision input s = (.ok reply, s')) :
    Sound e reply.layout := by
  unfold saveLocked at h
  split at h
  · cases h
  · split at h
    · split at h
      · split at h
        · cases h
        · next hnormal =>
          cases h
          exact sound_normalizeStored hnormal
      · next hinit =>
        cases h
        exact sound_uninitialized (by simpa using hinit)
    · split at h
      · cases h
      · next hnormal => exact sound_storeNext hnormal h

variable {operation : Stored → Except LayoutError Reply × Stored}

theorem withLock_ok (h : withLock e operation s = (.ok reply, s')) :
    operation s = (.ok reply, s') := by
  unfold withLock at h
  split at h
  · cases h
  · split at h
    · cases h
    · next hop =>
      split at h
      · cases h
        exact hop
      · cases h

/-- **Every layout that is answered is a complete forest.** -/
theorem perform_sound {event : Event} (h : perform size s event = (.ok reply, s')) :
    Sound event.around reply.layout := by
  unfold perform at h
  split at h
  · exact bootstrapLocked_sound (withLock_ok h)
  · exact loadLocked_sound (withLock_ok h)
  · exact saveLocked_sound (withLock_ok h)
  · exact replaceUnlocked_sound h

/-! ### Saved layouts -/

theorem saveLocked_stores {expectedRevision : UInt64}
    (h : saveLocked size e expectedRevision input s = (.ok reply, s'))
    (haccepted : reply.conflict = false) :
    normalizeUnlocked e.items e.now input = .ok reply.layout.toConnectionSidebarLayoutInput ∧
      reply.layout.initialized ∧ reply.layout.revision ≠ 0 ∧
      s' = .file (diskFile reply.layout) (size (diskFile reply.layout)) ∧
      size (diskFile reply.layout) ≤ connectionSidebarLayoutMaxFileBytes := by
  unfold saveLocked at h
  split at h
  · cases h
  · split at h
    · split at h
      · split at h
        · cases h
        · cases h
          cases haccepted
      · cases h
        cases haccepted
    · split at h
      · cases h
      · next hnormal =>
        obtain ⟨hlayout, hstored⟩ := storeNext_ok h
        exact ⟨hnormal.trans (congrArg Except.ok hlayout.symm), hstored⟩

/-- A layout as an accepted save leaves it in the file. -/
structure Settled (saved : List Text) (layout : ConnectionSidebarLayout) : Prop where
  normal : Normal (savedConnectionIDs saved) layout.connectionTags layout.sidebarRootOrder
  created : ∀ tag ∈ layout.connectionTags, 0 < tag.createdAt
  rootSortMode : layout.rootSortMode = bytes "manual"
  rootConnectionSortMode : SortMode layout.rootConnectionSortMode
  initialized : layout.initialized
  revision : layout.revision ≠ 0

variable {saved : List Text}

theorem readStoredTag_eq_self {tag : ConnectionTag} {modTime : ℤ} {index : ℕ}
    (hread : ReadTag saved tag) (hcreated : 0 < tag.createdAt) :
    readStoredTag modTime tag index = tag := by
  unfold readStoredTag
  rw [normalizeSortMode_eq_self hread.connectionSortMode, ← hread.sortMode,
    if_neg fun h => absurd h.1 (not_le.mpr hcreated)]

theorem Settled.stored (h : Settled saved layout) (modTime : ℤ) :
    storedLayout modTime (diskFile layout) = layout := by
  have htags : (layout.connectionTags.zipIdx.map fun (tag, index) =>
      readStoredTag modTime tag index) = layout.connectionTags := by
    refine (List.map_congr_left fun p hp => ?_).trans (List.zipIdx_map_fst 0 _)
    have hmem := List.fst_mem_of_mem_zipIdx hp
    exact readStoredTag_eq_self (h.normal.read _ hmem) (h.created _ hmem)
  have hmode := h.rootConnectionSortMode
  cases layout with
  | mk input initialized revision =>
    obtain ⟨tags, order, rootMode, mode⟩ := input
    obtain rfl : initialized = true := h.initialized
    obtain rfl : rootMode = bytes "manual" := h.rootSortMode
    simp only [storedLayout, diskFile] at htags ⊢
    rw [htags, normalizeSortMode_eq_self hmode, normalizeSortMode_eq_self hmode]

theorem Settled.loads (h : Settled saved layout) (hreads : e.reads) {bytes : ℕ}
    (hbytes : bytes ≤ connectionSidebarLayoutMaxFileBytes) :
    loadUnlocked size e (.file (diskFile layout) bytes) =
      (.ok layout, .file (diskFile layout) bytes) := by
  have hstamped : legacyTagCreatedAtChanged e.modTime (diskFile layout) = false := by
    rw [legacyTagCreatedAtChanged, List.any_eq_false]
    intro tag htag
    have hpos := h.created tag htag
    simp only [decide_eq_true_eq, not_and]
    omega
  have hversion : ¬ ((diskFile layout).version ≠ 1 ∧
      (diskFile layout).version ≠ connectionSidebarLayoutFormatVersion) :=
    fun hne => hne.2 rfl
  have hrevision : ¬ (diskFile layout).revision = 0 := h.revision
  unfold loadUnlocked
  simp only [hreads, Bool.not_true, Bool.false_eq_true, if_false, if_neg (not_lt.mpr hbytes),
    if_neg hversion, if_neg hrevision, hstamped, false_and, h.stored]

variable {saved' : List Text}

theorem Settled.normalize (h : Settled saved layout)
    (hvalid : validateConnectionSidebarLayoutLimits layout.toConnectionSidebarLayoutInput = .ok ())
    (hitems : e.items = .ok saved') (hsame : savedConnectionIDs saved' = savedConnectionIDs saved) :
    normalizeUnlocked e.items e.now layout.toConnectionSidebarLayoutInput =
      .ok layout.toConnectionSidebarLayoutInput := by
  rw [hitems]
  exact normalizeUnlocked_eq_self hvalid (hsame ▸ h.normal) h.created h.rootSortMode
    h.rootConnectionSortMode

theorem Settled.answered (h : Settled saved layout) {stored : Stored}
    (hstored : stored = .file (diskFile layout) (size (diskFile layout)))
    (hsize : size (diskFile layout) ≤ connectionSidebarLayoutMaxFileBytes)
    (hvalid : validateConnectionSidebarLayoutLimits layout.toConnectionSidebarLayoutInput = .ok ())
    (hitems : e.items = .ok saved') (hsame : savedConnectionIDs saved' = savedConnectionIDs saved)
    (hlocks : e.locks) (hreads : e.reads) (hunlocks : e.unlocks) :
    perform size stored ⟨.load, e⟩ = (.ok { layout }, stored) ∧
      ∀ candidate, perform size stored ⟨.bootstrap candidate, e⟩ = (.ok { layout }, stored) := by
  subst hstored
  have hload : loadUnlocked size e _ = _ := h.loads hreads hsize
  have hnormalize := h.normalize hvalid hitems hsame
  constructor
  · simp only [perform, withLock, hlocks, loadLocked, hload, h.initialized, normalizeStored,
      hnormalize, hunlocks, Bool.not_true, Bool.false_eq_true, if_false, if_true]
    rw [← h.initialized]
  · intro candidate
    simp only [perform, withLock, hlocks, bootstrapLocked, hload, h.initialized, hnormalize,
      hunlocks, Bool.not_true, Bool.false_eq_true, if_false, if_true, ne_eq, not_true_eq_false]

/-! ### Refused and failing saves -/

/-- A save under a revision that is not the stored one stores nothing. -/
theorem saveLocked_refused {expectedRevision : UInt64} (h : expectedRevision ≠ revisionOf s) :
    (saveLocked size e expectedRevision input s).2 = (loadUnlocked size e s).2 := by
  unfold saveLocked
  split
  · next hload => rw [hload]
  · next current stored hload =>
    have hrefuse : ((!current.initialized && expectedRevision != 0) ||
        (current.initialized && expectedRevision != current.revision)) = true := by
      rcases loadUnlocked_ok hload with ⟨rfl, rfl⟩ | ⟨content, bytes, rfl, rfl⟩
      · simpa [emptyConnectionSidebarLayout, revisionOf] using h
      · simpa [storedLayout, revisionOf] using h
    rw [if_pos hrefuse, hload]
    split
    · split
      · rfl
      · rfl
    · rfl

/-- A save that fails before the file is replaced stores nothing. -/
theorem saveLocked_failed {expectedRevision : UInt64}
    (h : saveLocked size e expectedRevision input s = (.error err, s'))
    (hsynced : e.write ≠ .unsynced) : s' = (loadUnlocked size e s).2 := by
  unfold saveLocked at h
  split at h
  · next hload =>
    cases h
    rw [hload]
  · next hload =>
    rw [hload]
    split at h
    · split at h
      · split at h
        · cases h
          rfl
        · cases h
      · cases h
    · split at h
      · cases h
        rfl
      · exact storeNext_error h hsynced

/-- A save that is refused, or fails before the file is replaced. -/
def Declined (size : ConnectionSidebarLayoutDiskFile → ℕ) (s : Stored) (event : Event) : Prop :=
  ∃ expectedRevision layout, event.call = .save expectedRevision layout ∧
    (expectedRevision ≠ revisionOf s ∨
      (∃ err, (perform size s event).1 = .error err) ∧ event.around.write ≠ .unsynced ∧
        event.around.unlocks)

/-- What a declined save leaves is what was stored, or what loading makes of it. -/
theorem step_declined {event : Event} (h : Declined size s event) :
    step size s event = s ∨ step size s event = (loadUnlocked size event.around s).2 := by
  obtain ⟨expectedRevision, layout, hcall, hdeclined⟩ := h
  have hperform : perform size s event =
      withLock event.around (saveLocked size event.around expectedRevision layout) s := by
    rw [perform, hcall]
  rw [step, hperform]
  rw [hperform] at hdeclined
  unfold withLock at hdeclined ⊢
  split
  · exact .inl rfl
  · next hlocks =>
    right
    rw [if_neg hlocks] at hdeclined
    rcases hdeclined with hrevision | ⟨⟨err, herr⟩, hsynced, hunlocks⟩
    · have hsave : (saveLocked size event.around expectedRevision layout s).2 =
          (loadUnlocked size event.around s).2 := saveLocked_refused hrevision
      split
      · next hop =>
        rw [hop] at hsave
        exact hsave
      · next hop =>
        rw [hop] at hsave
        split
        · exact hsave
        · exact hsave
    · split
      · next hop => exact saveLocked_failed hop hsynced
      · next hop =>
        rw [hop] at herr
        simp only [hunlocks, if_true] at herr
        cases herr

/-! ### Files with times -/

theorem stamped_diskFile {bytes : ℕ} (h : ∀ tag ∈ layout.connectionTags, 0 < tag.createdAt) :
    Stamped (.file (diskFile layout) bytes) := h

theorem saveUnlocked_cases (size : ConnectionSidebarLayoutDiskFile → ℕ) (outcome : Write)
    (layout : ConnectionSidebarLayout) (s : Stored) :
    (saveUnlocked size outcome layout s).2 = s ∨
      (saveUnlocked size outcome layout s).2 =
        .file (diskFile layout) (size (diskFile layout)) := by
  unfold saveUnlocked
  simp only
  split
  · exact .inl rfl
  · cases outcome with
    | written => exact .inr rfl
    | failed => exact .inl rfl
    | unsynced => exact .inr rfl

theorem stamped_storeNext (hnormal : normalizeUnlocked e.items e.now input = .ok normalized)
    (h : Stamped s) :
    Stamped (storeNext size e current normalized s).2 := by
  have hcreated := normalizeUnlocked_created hnormal e.late
  have hstamped : Stamped (saveUnlocked size e.write (nextLayout current normalized) s).2 := by
    rcases saveUnlocked_cases size e.write (nextLayout current normalized) s with hs | hs
    · rw [hs]
      exact h
    · rw [hs]
      exact stamped_diskFile hcreated
  unfold storeNext
  split
  · exact h
  · split
    · next hsave =>
      rw [hsave] at hstamped
      exact hstamped
    · next hsave =>
      rw [hsave] at hstamped
      exact hstamped

/-- The state after loading has times when the one before has. -/
theorem stamped_load {current : Except LayoutError ConnectionSidebarLayout}
    (hload : loadUnlocked size e s = (current, s')) (h : Stamped s) : Stamped s' := by
  have hsame : (loadUnlocked size e s).2 = s := loadUnlocked_stamped h
  rw [hload] at hsame
  obtain rfl : s' = s := hsame
  exact h

theorem stamped_replaceUnlocked (input : ConnectionSidebarLayoutInput) (h : Stamped s) :
    Stamped (replaceUnlocked size e input s).2 := by
  unfold replaceUnlocked
  split
  · next hload => exact stamped_load hload h
  · next hload =>
    have hs := stamped_load hload h
    split
    · exact hs
    · next hnormal => exact stamped_storeNext hnormal hs

theorem stamped_bootstrapLocked (candidate : ConnectionSidebarLayoutInput) (h : Stamped s) :
    Stamped (bootstrapLocked size e candidate s).2 := by
  unfold bootstrapLocked
  split
  · next hload => exact stamped_load hload h
  · next hload =>
    have hs := stamped_load hload h
    split
    · split
      · exact hs
      · next hnormal =>
        split
        · exact stamped_storeNext hnormal hs
        · exact hs
    · split
      · exact hs
      · split
        · exact hs
        · next hnormal =>
          split
          · exact hs
          · exact stamped_storeNext hnormal hs

theorem stamped_loadLocked (h : Stamped s) : Stamped (loadLocked size e s).2 := by
  unfold loadLocked
  split
  · next hload => exact stamped_load hload h
  · next hload =>
    have hs := stamped_load hload h
    split
    · exact hs
    · split
      · exact hs
      · exact hs

theorem stamped_saveLocked (expectedRevision : UInt64) (input : ConnectionSidebarLayoutInput)
    (h : Stamped s) : Stamped (saveLocked size e expectedRevision input s).2 := by
  unfold saveLocked
  split
  · next hload => exact stamped_load hload h
  · next hload =>
    have hs := stamped_load hload h
    split
    · split
      · split
        · exact hs
        · exact hs
      · exact hs
    · split
      · exact hs
      · next hnormal => exact stamped_storeNext hnormal hs

theorem stamped_withLock (hoperation : Stamped (operation s).2) (h : Stamped s) :
    Stamped (withLock e operation s).2 := by
  unfold withLock
  split
  · exact h
  · split
    · next hop =>
      rw [hop] at hoperation
      exact hoperation
    · next hop =>
      rw [hop] at hoperation
      split
      · exact hoperation
      · exact hoperation

theorem step_stamped (event : Event) (h : Stamped s) : Stamped (step size s event) := by
  unfold step perform
  split
  · exact stamped_withLock (stamped_bootstrapLocked _ h) h
  · exact stamped_withLock (stamped_loadLocked h) h
  · exact stamped_withLock (stamped_saveLocked _ _ h) h
  · exact stamped_replaceUnlocked _ h

end proofs

/-! ### Runs -/

section runs

variable (size : ConnectionSidebarLayoutDiskFile → ℕ)

/-- A layout that is answered is a complete forest. -/
def Answers (s : Stored) (event : Event) (s' : Stored) : Prop :=
  ∀ reply, perform size s event = (.ok reply, s') → Sound event.around reply.layout

/-- A layout that a save accepts is answered unchanged when the same connections are saved. -/
def Keeps (s : Stored) (event : Event) (s' : Stored) : Prop :=
  ∀ expectedRevision input reply, event.call = .save expectedRevision input →
    perform size s event = (.ok reply, s') → reply.conflict = false →
    validateConnectionSidebarLayoutLimits reply.layout.toConnectionSidebarLayoutInput = .ok () →
    ∀ (next : Surroundings) (saved saved' : List Text), event.around.items = .ok saved →
      next.items = .ok saved' → savedConnectionIDs saved' = savedConnectionIDs saved →
      next.locks → next.reads → next.unlocks →
        perform size s' ⟨.load, next⟩ = (.ok { layout := reply.layout }, s') ∧
          ∀ candidate, perform size s' ⟨.bootstrap candidate, next⟩ =
            (.ok { layout := reply.layout }, s')

/-- A save that is refused or fails leaves the file, or what loading makes of an old one. -/
def Leaves (s : Stored) (event : Event) (s' : Stored) : Prop :=
  Declined size s event → s' = s ∨ (¬ Stamped s ∧ s' = (loadUnlocked size event.around s).2)

theorem step_keeps (s : Stored) (event : Event) : Keeps size s event (step size s event) := by
  intro expectedRevision input reply hcall hperform haccepted hvalid next saved saved' hsaved
    hsaved' hsame hlocks hreads hunlocks
  unfold perform at hperform
  rw [hcall] at hperform
  obtain ⟨hnormal, hinit, hrevision, hstored, hsize⟩ :=
    saveLocked_stores (withLock_ok hperform) haccepted
  obtain ⟨found, hfound, hform, hroot, hmode⟩ := normalizeUnlocked_normal hnormal
  obtain rfl : found = saved := Except.ok.inj (hfound.symm.trans hsaved)
  have hsettled : Settled found reply.layout :=
    ⟨hform, normalizeUnlocked_created hnormal event.around.late, hroot, hmode, hinit, hrevision⟩
  exact hsettled.answered hstored hsize hvalid hsaved' hsame hlocks hreads hunlocks

theorem step_leaves (s : Stored) (event : Event) : Leaves size s event (step size s event) := by
  intro hdeclined
  by_cases hstamped : Stamped s
  · left
    rcases step_declined hdeclined with h | h
    · exact h
    · exact h.trans (loadUnlocked_stamped hstamped)
  · rcases step_declined hdeclined with h | h
    · exact .inl h
    · exact .inr ⟨hstamped, h⟩

/-- **The stored layout over every run.**  A layout that is answered is a complete forest, one
that a save accepts is answered unchanged if it is within the limits itself, and a save that is
refused or fails changes nothing in a file whose tags have times. -/
theorem layouts_sound (start : Stored) (events : List Event) :
    Machine.Throughout (step size) (fun s event s' =>
        Answers size s event s' ∧ Keeps size s event s' ∧ Leaves size s event s') start events ∧
      (Stamped start → Machine.Throughout (step size)
        (fun s event s' => Declined size s event → s' = s) start events) := by
  constructor
  · refine Machine.throughout_of_step (C := fun _ _ => True) (P := fun _ => True)
      (fun _ _ _ _ => trivial) (fun s event _ _ => ?_) (Machine.along_of_forall (D := fun _ => True)
        (fun _ _ => trivial)) trivial
    exact ⟨fun reply hreply => perform_sound hreply, step_keeps size s event,
      step_leaves size s event⟩
  · intro hstamped
    refine Machine.throughout_of_step (C := fun _ _ => True) (P := Stamped)
      (fun s event _ h => step_stamped event h) (fun s event _ h hdeclined => ?_)
      (Machine.along_of_forall (D := fun _ => True) fun _ _ => trivial) hstamped
    rcases step_leaves size s event hdeclined with hs | ⟨hnot, -⟩
    · exact hs
    · exact absurd h hnot

end runs

/-! ### No layout -/

/-- One connection is saved, and nothing fails. -/
def oneConnection : Surroundings where
  items := .ok [bytes "local"]
  now := 1700000000000
  late := by decide
  modTime := 0
  locks := true
  reads := true
  migration := .written
  write := .written
  unlocks := true

/-- One tag, with the connection in it. -/
def oneTag : ConnectionSidebarLayoutInput where
  connectionTags := [{
    id := bytes "work"
    name := bytes "Work"
    createdAt := 1600000000000
    parentTagID := []
    connectionIDs := [bytes "local"]
    childOrder := [bytes "connection:local"]
    sortMode := bytes "manual"
    connectionSortMode := bytes "name" }]
  sidebarRootOrder := [bytes "tag:work"]
  rootSortMode := bytes "manual"
  rootConnectionSortMode := bytes "createdAt"

theorem oneTag_loads :
    perform (fun _ => 0) (step (fun _ => 0) .absent ⟨.save 0 oneTag, oneConnection⟩)
        ⟨.load, oneConnection⟩ =
      (.ok { layout := { oneTag with initialized := true, revision := 1 } },
        step (fun _ => 0) .absent ⟨.save 0 oneTag, oneConnection⟩) := by
  have hrun := (layouts_sound (fun _ => 0) .absent [⟨.save 0 oneTag, oneConnection⟩]).1.1.2.1
  have hvalid : validateConnectionSidebarLayoutLimits oneTag = .ok () := by decide
  exact (hrun 0 oneTag { layout := { oneTag with initialized := true, revision := 1 } } rfl
    (by decide) rfl hvalid oneConnection _ _ rfl rfl rfl rfl rfl rfl).1

/-- Where no layout is stored an empty one is answered, without the saved connection. -/
theorem load_absent :
    perform (fun _ => 0) .absent ⟨.load, oneConnection⟩ =
        (.ok { layout := emptyConnectionSidebarLayout }, .absent) ∧
      oneConnection.items = .ok [bytes "local"] ∧
      ¬ CompleteForest (savedConnectionIDs [bytes "local"])
        emptyConnectionSidebarLayout.connectionTags
        emptyConnectionSidebarLayout.sidebarRootOrder := by
  refine ⟨rfl, rfl, fun h => ?_⟩
  have hmem : buildConnectionSidebarHostToken (bytes "local") ∈
      placedTokens emptyConnectionSidebarLayout.connectionTags
        emptyConnectionSidebarLayout.sidebarRootOrder :=
    (h.placed _).mpr (.inr ⟨bytes "local", by decide, rfl⟩)
  cases hmem

end GoNavi.Sidebar
