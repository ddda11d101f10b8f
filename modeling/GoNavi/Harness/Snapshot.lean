import GoNavi.Harness.Rows
import Mathlib.Data.List.MinMax

/-! # Workspace snapshots

The table `workspace_snapshots` with `PutWorkspaceSnapshotWithLeaseDuration`,
`WorkspaceSnapshotByReference` and `OptimizeStorage`.  A run is bound to a source instance by
two ids, which are stored as they were given; snapshots are stored under normalised ids.  The
workers of a run read the newest snapshot of its source, and record references to what they
have read.

Publication of a newer revision deletes the older ones if no active run is bound to the source
instance.  The test compares the stored ids with the normalised ones, so a run with a space
around its ids is not seen, and what it refers to is deleted (`reference_deleted`).  If the
runs that are active are seen, every reference of an active run is resolved
(`references_resolvable`).

`OptimizeStorage` counts the active runs and deletes in two statements; another process can
write in between.  The content of a snapshot stands for its hash. -/

namespace GoNavi.Harness

open Scan RunLedger Machine List Table

/-! ### Rows -/

structure SnapshotRow where
  sourceID : Text
  sourceInstanceID : Text
  revision : ℕ
  contentHash : ℕ
  leaseExpiresAt : ℕ
deriving DecidableEq

/-- `workspaceSnapshotReference`. -/
def SnapshotRow.ref (s : SnapshotRow) : WorkspaceRef :=
  ⟨s.sourceID, s.sourceInstanceID, s.revision, s.contentHash⟩

/-- A run with the ids of its source as they were given, and what its workers have read. -/
structure BoundRun where
  id : ℕ
  contextSourceID : Text
  contextSourceInstanceID : Text
  rows : RunLedger
  held : List WorkspaceRef
deriving DecidableEq

def BoundRun.active (r : BoundRun) : Bool := !r.rows.run.state.terminal

/-- Whether the stored ids of a run are those of a source instance. -/
def BoundRun.boundTo (r : BoundRun) (sourceID instanceID : Text) : Bool :=
  r.contextSourceID = sourceID ∧ r.contextSourceInstanceID = instanceID

/-- Whether a run works with a source instance: its ids are trimmed when it reads. -/
def BoundRun.worksWith (r : BoundRun) (sourceID instanceID : Text) : Bool :=
  trimSpace r.contextSourceID = sourceID ∧ trimSpace r.contextSourceInstanceID = instanceID

structure Archive where
  snapshots : List SnapshotRow
  runs : List BoundRun
  /-- How many calls of `OptimizeStorage` have counted the active runs and found none. -/
  optimizing : ℕ
  /-- All that was ever inserted, in order. -/
  published : List WorkspaceRef
deriving DecidableEq

namespace Archive

def empty : Archive := ⟨[], [], 0, []⟩

def run? (A : Archive) (id : ℕ) : Option BoundRun := lookup BoundRun.id id A.runs

/-! ### Snapshots -/

/-- The newest snapshot of a source instance: `ORDER BY revision DESC LIMIT 1`. -/
def latest? (A : Archive) (sourceID instanceID : Text) : Option SnapshotRow :=
  (A.snapshots.filter fun s => s.sourceID = sourceID ∧ s.sourceInstanceID = instanceID).argmax
    SnapshotRow.revision

/-- The test in front of the deletion: an active run is bound to the source instance. -/
def protects (A : Archive) (sourceID instanceID : Text) : Bool :=
  A.runs.any fun r => r.boundTo sourceID instanceID ∧ r.active

/-- Delete the older revisions of a source instance. -/
def prune (A : Archive) (sourceID instanceID : Text) (revision : ℕ) : Archive :=
  if A.protects sourceID instanceID then A
  else { A with snapshots := A.snapshots.filter fun s =>
    ¬ (s.sourceID = sourceID ∧ s.sourceInstanceID = instanceID ∧ s.revision < revision) }

/-- Insert a snapshot. -/
def insert (A : Archive) (s : SnapshotRow) : Archive :=
  { A with snapshots := A.snapshots ++ [s], published := A.published ++ [s.ref] }

/-- Renew the lease of a revision. -/
def renew (A : Archive) (s : SnapshotRow) : Archive :=
  { A with snapshots := A.snapshots.map fun row =>
      if row.ref = s.ref then { row with leaseExpiresAt := s.leaseExpiresAt } else row }

/-- `PutWorkspaceSnapshotWithLeaseDuration`. -/
def putWorkspaceSnapshot (A : Archive) (now : ℕ) (sourceID instanceID : Text)
    (revision contentHash leaseDuration : ℕ) : Except Err Archive :=
  let s : SnapshotRow :=
    ⟨trimSpace sourceID, trimSpace instanceID, revision, contentHash, now + leaseDuration⟩
  if s.sourceID = [] ∨ s.sourceInstanceID = [] ∨ revision = 0 then .error .invalidRequest
  else
    match A.latest? s.sourceID s.sourceInstanceID with
    | none => .ok ((A.insert s).prune s.sourceID s.sourceInstanceID revision)
    | some newest =>
      if revision < newest.revision then .error .snapshotConflict
      else if revision = newest.revision ∧ contentHash ≠ newest.contentHash then
        .error .snapshotConflict
      else if revision = newest.revision then .ok (A.renew s)
      else .ok ((A.insert s).prune s.sourceID s.sourceInstanceID revision)

/-- `WorkspaceSnapshotByReference`: the snapshot and whether its lease has expired. -/
def workspaceSnapshotByReference (A : Archive) (now : ℕ) (ref : WorkspaceRef) :
    Except Err (SnapshotRow × Bool) :=
  if trimSpace ref.sourceID = [] ∨ trimSpace ref.sourceInstanceID = [] ∨ ref.revision = 0 then
    .error .invalidRequest
  else
    match A.snapshots.find? fun s => s.ref = ref with
    | none => .error .notFound
    | some s => .ok (s, s.leaseExpiresAt ≤ now)

/-- The newest revisions alone. -/
def newestOnly (A : Archive) : Archive :=
  { A with snapshots := A.snapshots.filter fun s =>
      (A.latest? s.sourceID s.sourceInstanceID).any fun newest => s.revision = newest.revision }

end Archive

/-! ### The machine -/

inductive ArchiveOp where
  | put (now : ℕ) (sourceID instanceID : Text) (revision contentHash leaseDuration : ℕ)
  | createRun (id : ℕ) (sourceID instanceID content : Text) (maxTotalTokens : Int64)
  /-- A worker reads the newest snapshot of the source, live or stale. -/
  | read (runID : ℕ)
  /-- A mutation of a run, which records references that were read or recorded before. -/
  | mutate (runID : ℕ) (a : Act)
  /-- The two statements of `OptimizeStorage`. -/
  | optimizeCount
  | optimizeDelete

def Archive.setRun (A : Archive) (r : BoundRun) : Archive :=
  { A with runs := update BoundRun.id r.id (fun _ => r) A.runs }

def Archive.step (A : Archive) : ArchiveOp → Archive
  | .put now sourceID instanceID revision contentHash leaseDuration =>
    match A.putWorkspaceSnapshot now sourceID instanceID revision contentHash leaseDuration with
    | .error _ => A
    | .ok A' => A'
  | .createRun id sourceID instanceID content maxTotalTokens =>
    if (A.run? id).isSome then A
    else { A with runs := A.runs ++
      [⟨id, sourceID, instanceID, RunLedger.create maxTotalTokens content, []⟩] }
  | .read runID =>
    match A.run? runID with
    | none => A
    | some r =>
      match A.latest? (trimSpace r.contextSourceID) (trimSpace r.contextSourceInstanceID) with
      | none => A
      | some s => A.setRun { r with held := r.held ++ [s.ref] }
  | .mutate runID a =>
    match A.run? runID with
    | none => A
    | some r =>
      if a.op.references.all fun ref => ref ∈ r.rows.references ∨ ref ∈ r.held then
        A.setRun { r with rows := Harness.step r.rows a }
      else A
  | .optimizeCount =>
    if A.runs.any BoundRun.active then A else { A with optimizing := A.optimizing + 1 }
  | .optimizeDelete =>
    if A.optimizing = 0 then A
    else { A.newestOnly with optimizing := A.optimizing - 1 }

/-! ### The property -/

/-- A stored revision stays, or a newer one has taken its place; a revision that is inserted is
newer than all that are stored of its source instance. -/
structure Replaces (A A' : Archive) : Prop where
  kept : ∀ s ∈ A.snapshots, ∃ s' ∈ A'.snapshots, s'.sourceID = s.sourceID ∧
    s'.sourceInstanceID = s.sourceInstanceID ∧ (s'.ref = s.ref ∨ s.revision < s'.revision)
  newer : ∀ s' ∈ A'.snapshots, (∃ s ∈ A.snapshots, s.ref = s'.ref) ∨
    ∀ s ∈ A.snapshots, s.sourceID = s'.sourceID → s.sourceInstanceID = s'.sourceInstanceID →
      s.revision < s'.revision

/-- Every reference of an active run is resolved to its content. -/
def Resolvable (A : Archive) : Prop :=
  ∀ r ∈ A.runs, r.active = true → ∀ ref ∈ r.rows.references, ∀ now,
    ∃ s expired, A.workspaceSnapshotByReference now ref = .ok (s, expired) ∧ s.ref = ref

/-- The revisions of a source instance are stored with one content. -/
def SameContent (A A' : Archive) : Prop :=
  ∀ s ∈ A.snapshots, ∀ s' ∈ A'.snapshots, s.sourceID = s'.sourceID →
    s.sourceInstanceID = s'.sourceInstanceID → s.revision = s'.revision →
      s.contentHash = s'.contentHash

/-- The deletions see the active runs: older revisions are deleted only if no active run works
with the source instance, and `OptimizeStorage` deletes only if no run is active. -/
def seen (A : Archive) : ArchiveOp → Bool
  | .put _ sourceID instanceID revision _ _ =>
    (A.latest? (trimSpace sourceID) (trimSpace instanceID)).all (fun s => revision ≤ s.revision) ||
      A.protects (trimSpace sourceID) (trimSpace instanceID) ||
        A.runs.all fun r => !(r.active && r.worksWith (trimSpace sourceID) (trimSpace instanceID))
  | .optimizeDelete => A.runs.all fun r => !r.active
  | _ => true

variable {A A' : Archive}

/-! ### Snapshots of a source instance -/

variable {instanceID sourceID : Text} {s : SnapshotRow}

theorem latest?_eq_none (h : A.latest? sourceID instanceID = none) (hs : s ∈ A.snapshots)
    (hsource : s.sourceID = sourceID) (hinstance : s.sourceInstanceID = instanceID) : False := by
  rw [Archive.latest?, argmax_eq_none, filter_eq_nil_iff] at h
  exact h s hs (by simp [hsource, hinstance])

/-- The newest snapshot is one of the source instance, and none of it is newer. -/
theorem latest?_eq_some {newest : SnapshotRow} (h : A.latest? sourceID instanceID = some newest) :
    newest ∈ A.snapshots ∧ newest.sourceID = sourceID ∧ newest.sourceInstanceID = instanceID ∧
      ∀ s ∈ A.snapshots, s.sourceID = sourceID → s.sourceInstanceID = instanceID →
        s.revision ≤ newest.revision := by
  obtain ⟨hmem, hsource⟩ := mem_filter.mp (argmax_mem h)
  simp only [decide_eq_true_eq] at hsource
  refine ⟨hmem, hsource.1, hsource.2, ?_⟩
  intro s hs hs' hi
  exact le_of_mem_argmax (mem_filter.mpr ⟨hs, by simp [hs', hi]⟩) h

/-- A snapshot is not newer than the newest of its source instance. -/
theorem exists_latest (hs : s ∈ A.snapshots) :
    ∃ newest, A.latest? s.sourceID s.sourceInstanceID = some newest ∧ newest ∈ A.snapshots ∧
      newest.sourceID = s.sourceID ∧ newest.sourceInstanceID = s.sourceInstanceID ∧
      s.revision ≤ newest.revision := by
  cases h : A.latest? s.sourceID s.sourceInstanceID with
  | none => exact (latest?_eq_none h hs rfl rfl).elim
  | some newest =>
    obtain ⟨hmem, hsource, hinstance, hle⟩ := latest?_eq_some h
    exact ⟨newest, rfl, hmem, hsource, hinstance, hle s hs rfl rfl⟩

theorem renew_ref {row : SnapshotRow} :
    (if row.ref = s.ref then { row with leaseExpiresAt := s.leaseExpiresAt } else row).ref =
      row.ref := by
  split <;> rfl

theorem mem_renew {row : SnapshotRow} (h : row ∈ (A.renew s).snapshots) :
    ∃ a ∈ A.snapshots, a.ref = row.ref := by
  obtain ⟨a, ha, rfl⟩ := mem_map.mp h
  exact ⟨a, ha, renew_ref.symm⟩

theorem renew_mem {row : SnapshotRow} (h : row ∈ A.snapshots) :
    ∃ a ∈ (A.renew s).snapshots, a.ref = row.ref :=
  ⟨_, mem_map_of_mem h, renew_ref⟩

@[simp] theorem prune_runs (sourceID instanceID : Text) (revision : ℕ) :
    (A.prune sourceID instanceID revision).runs = A.runs := by
  rw [Archive.prune]
  split <;> rfl

@[simp] theorem prune_published (sourceID instanceID : Text) (revision : ℕ) :
    (A.prune sourceID instanceID revision).published = A.published := by
  rw [Archive.prune]
  split <;> rfl

theorem mem_of_mem_prune {revision : ℕ} (h : s ∈ (A.prune sourceID instanceID revision).snapshots) :
    s ∈ A.snapshots := by
  rw [Archive.prune] at h
  split at h
  · exact h
  · exact (mem_filter.mp h).1

/-- A snapshot that is deleted is an older revision of a source instance that is not protected. -/
theorem mem_prune {revision : ℕ} (h : s ∈ A.snapshots) :
    s ∈ (A.prune sourceID instanceID revision).snapshots ∨
      s.sourceID = sourceID ∧ s.sourceInstanceID = instanceID ∧ s.revision < revision ∧
        A.protects sourceID instanceID = false := by
  rw [Archive.prune]
  split
  · exact .inl h
  · rename_i hprotects
    by_cases hs : s.sourceID = sourceID ∧ s.sourceInstanceID = instanceID ∧ s.revision < revision
    · exact .inr ⟨hs.1, hs.2.1, hs.2.2, by simpa using hprotects⟩
    · exact .inl (mem_filter.mpr ⟨h, by simp only [hs, not_false_eq_true, decide_true]⟩)

/-- What a step does. -/
inductive Moved (A : Archive) : ArchiveOp → Archive → Prop
  | same (op : ArchiveOp) : Moved A op A
  | renewed {now : ℕ} {sourceID instanceID : Text} {revision contentHash leaseDuration : ℕ}
      (s : SnapshotRow) :
      Moved A (.put now sourceID instanceID revision contentHash leaseDuration) (A.renew s)
  | inserted {now : ℕ} {sourceID instanceID : Text} {revision contentHash leaseDuration : ℕ}
      {s : SnapshotRow} (hsource : s.sourceID = trimSpace sourceID)
      (hinstance : s.sourceInstanceID = trimSpace instanceID) (hrevision : s.revision = revision)
      (hvalid : s.sourceID ≠ [] ∧ s.sourceInstanceID ≠ [] ∧ s.revision ≠ 0)
      (hnewer : ∀ row ∈ A.snapshots, row.sourceID = s.sourceID →
        row.sourceInstanceID = s.sourceInstanceID → row.revision < s.revision) :
      Moved A (.put now sourceID instanceID revision contentHash leaseDuration)
        ((A.insert s).prune s.sourceID s.sourceInstanceID s.revision)
  | created {id : ℕ} {sourceID instanceID content : Text} {maxTotalTokens : Int64}
      (hfree : A.run? id = none) :
      Moved A (.createRun id sourceID instanceID content maxTotalTokens)
        { A with runs := A.runs ++
          [⟨id, sourceID, instanceID, RunLedger.create maxTotalTokens content, []⟩] }
  | read {runID : ℕ} {r : BoundRun} {s : SnapshotRow} (hr : A.run? runID = some r)
      (hs : A.latest? (trimSpace r.contextSourceID) (trimSpace r.contextSourceInstanceID) =
        some s) : Moved A (.read runID) (A.setRun { r with held := r.held ++ [s.ref] })
  | mutated {runID : ℕ} {a : Act} {r : BoundRun} (hr : A.run? runID = some r)
      (hrefs : ∀ ref ∈ a.op.references, ref ∈ r.rows.references ∨ ref ∈ r.held) :
      Moved A (.mutate runID a) (A.setRun { r with rows := Harness.step r.rows a })
  | counted : Moved A .optimizeCount { A with optimizing := A.optimizing + 1 }
  | deleted : Moved A .optimizeDelete { A.newestOnly with optimizing := A.optimizing - 1 }

/-- A publication renews the newest revision, or inserts a newer one and deletes the older
ones. -/
theorem moved_put {now : ℕ}
    {revision contentHash leaseDuration : ℕ}
    (h : A.putWorkspaceSnapshot now sourceID instanceID revision contentHash leaseDuration =
      .ok A') : Moved A (.put now sourceID instanceID revision contentHash leaseDuration) A' := by
  unfold Archive.putWorkspaceSnapshot at h
  simp only at h
  split at h
  · cases h
  rename_i hvalid
  simp only [not_or] at hvalid
  split at h
  · rename_i hnone
    cases h
    refine .inserted (s := ⟨trimSpace sourceID, trimSpace instanceID, revision, contentHash, _⟩)
      rfl rfl rfl hvalid ?_
    intro row hrow hs hi
    exact (latest?_eq_none hnone hrow hs hi).elim
  · rename_i newest hnewest
    obtain ⟨-, -, -, hle⟩ := latest?_eq_some hnewest
    split_ifs at h with hold hcontent hsame
    · cases h
      exact .renewed _
    · cases h
      refine .inserted (s := ⟨trimSpace sourceID, trimSpace instanceID, revision, contentHash, _⟩)
        rfl rfl rfl hvalid ?_
      intro row hrow hs hi
      have := hle row hrow hs hi
      show row.revision < revision
      omega

theorem moved_step (A : Archive) (op : ArchiveOp) : Moved A op (A.step op) := by
  cases op with
  | put now sourceID instanceID revision contentHash leaseDuration =>
    rw [Archive.step]
    split
    · exact .same _
    · rename_i hput
      exact moved_put hput
  | createRun id sourceID instanceID content maxTotalTokens =>
    rw [Archive.step]
    split
    · exact .same _
    · rename_i hfree
      exact .created (by simpa using hfree)
  | read runID =>
    rw [Archive.step]
    split
    · exact .same _
    · rename_i hr
      split
      · exact .same _
      · rename_i hs
        exact .read hr hs
  | mutate runID a =>
    rw [Archive.step]
    split
    · exact .same _
    · rename_i hr
      split
      · rename_i hrefs
        exact .mutated hr (by simpa using hrefs)
      · exact .same _
  | optimizeCount =>
    rw [Archive.step]
    split
    · exact .same _
    · exact .counted
  | optimizeDelete =>
    rw [Archive.step]
    split
    · exact .same _
    · exact .deleted

/-! ### Replacement -/

theorem Replaces.refl (h : A'.snapshots = A.snapshots) : Replaces A A' := by
  constructor
  · intro s hs
    exact ⟨s, h ▸ hs, rfl, rfl, .inl rfl⟩
  · intro s hs
    exact .inl ⟨s, h ▸ hs, rfl⟩

theorem replaces_renew (s : SnapshotRow) : Replaces A (A.renew s) := by
  constructor
  · intro row hrow
    obtain ⟨a, ha, href⟩ := renew_mem (s := s) hrow
    simp only [SnapshotRow.ref, WorkspaceRef.mk.injEq] at href
    exact ⟨a, ha, href.1, href.2.1, .inl (by simp [SnapshotRow.ref, href])⟩
  · intro row hrow
    exact .inl (mem_renew hrow)

theorem replaces_publish
    (hnewer : ∀ row ∈ A.snapshots, row.sourceID = s.sourceID →
      row.sourceInstanceID = s.sourceInstanceID → row.revision < s.revision) :
    Replaces A ((A.insert s).prune s.sourceID s.sourceInstanceID s.revision) := by
  have hs : s ∈ (A.insert s).snapshots := by simp [Archive.insert]
  constructor
  · intro row hrow
    have hrow' : row ∈ (A.insert s).snapshots := mem_append_left _ hrow
    rcases mem_prune hrow' with hmem | ⟨hsource, hinstance, hlt, -⟩
    · exact ⟨row, hmem, rfl, rfl, .inl rfl⟩
    · rcases mem_prune hs with hmem | ⟨-, -, habsurd, -⟩
      · exact ⟨s, hmem, hsource.symm, hinstance.symm, .inr hlt⟩
      · exact (Nat.lt_irrefl _ habsurd).elim
  · intro row hrow
    rcases mem_append.mp (mem_of_mem_prune hrow) with hrow | hrow
    · exact .inl ⟨row, hrow, rfl⟩
    · obtain rfl := mem_singleton.mp hrow
      exact .inr hnewer

theorem replaces_newestOnly : Replaces A A.newestOnly := by
  constructor
  · intro s hs
    obtain ⟨newest, hnewest, hmem, hsource, hinstance, hle⟩ := exists_latest hs
    have hkept : newest ∈ A.newestOnly.snapshots :=
      mem_filter.mpr ⟨hmem, by simp [hsource, hinstance, hnewest]⟩
    rcases hle.eq_or_lt with heq | hlt
    · have hs' : s ∈ A.newestOnly.snapshots :=
        mem_filter.mpr ⟨hs, by simp [hnewest, heq]⟩
      exact ⟨s, hs', rfl, rfl, .inl rfl⟩
    · exact ⟨newest, hkept, hsource, hinstance, .inr hlt⟩
  · intro s hs
    exact .inl ⟨s, (mem_filter.mp hs).1, rfl⟩

/-- **A revision is only replaced by a newer one.** -/
theorem replaces_of_moved {op : ArchiveOp} (h : Moved A op A') : Replaces A A' := by
  cases h with
  | same | created | read | mutated | counted => exact .refl rfl
  | renewed s => exact replaces_renew s
  | inserted _ _ _ _ hnewer => exact replaces_publish hnewer
  | deleted => exact ⟨(replaces_newestOnly (A := A)).kept, (replaces_newestOnly (A := A)).newer⟩

/-! ### The invariant -/

/-- The references that a run has recorded, and those that its workers have read. -/
def BoundRun.RefersTo (r : BoundRun) (ref : WorkspaceRef) : Prop :=
  ref ∈ r.rows.references ∨ ref ∈ r.held

/-- What is stored: the published revisions or newer ones, each with one content, under
normalised ids. -/
structure Stored (A : Archive) : Prop where
  published : ∀ s ∈ A.snapshots, s.ref ∈ A.published
  newest : ∀ p ∈ A.published, ∃ s ∈ A.snapshots, s.sourceID = p.sourceID ∧
    s.sourceInstanceID = p.sourceInstanceID ∧ p.revision ≤ s.revision
  content : ∀ p ∈ A.published, ∀ q ∈ A.published, p.sourceID = q.sourceID →
    p.sourceInstanceID = q.sourceInstanceID → p.revision = q.revision → p = q
  valid : ∀ s ∈ A.snapshots, trimSpace s.sourceID = s.sourceID ∧
    trimSpace s.sourceInstanceID = s.sourceInstanceID ∧ s.sourceID ≠ [] ∧
    s.sourceInstanceID ≠ [] ∧ s.revision ≠ 0

/-- What the runs refer to: snapshots of the source that they work with, and those of the active
runs are stored. -/
structure Held (A : Archive) : Prop where
  ids : (A.runs.map BoundRun.id).Nodup
  works : ∀ r ∈ A.runs, ∀ ref, r.RefersTo ref →
    r.worksWith ref.sourceID ref.sourceInstanceID = true
  stored : ∀ r ∈ A.runs, r.active = true → ∀ ref, r.RefersTo ref → ∃ s ∈ A.snapshots, s.ref = ref

theorem stored_renew (h : Stored A) : Stored (A.renew s) := by
  constructor
  · intro row hrow
    obtain ⟨a, ha, href⟩ := mem_renew hrow
    exact href ▸ h.published a ha
  · intro p hp
    obtain ⟨row, hrow, hsource, hinstance, hle⟩ := h.newest p hp
    obtain ⟨a, ha, href⟩ := renew_mem (s := s) hrow
    simp only [SnapshotRow.ref, WorkspaceRef.mk.injEq] at href
    exact ⟨a, ha, href.1.trans hsource, href.2.1.trans hinstance, by omega⟩
  · exact h.content
  · intro row hrow
    obtain ⟨a, ha, href⟩ := mem_renew hrow
    simp only [SnapshotRow.ref, WorkspaceRef.mk.injEq] at href
    have hvalid := h.valid a ha
    rw [href.1, href.2.1, href.2.2.1] at hvalid
    exact hvalid

theorem stored_insert (h : Stored A)
    (hs : trimSpace s.sourceID = s.sourceID ∧ trimSpace s.sourceInstanceID = s.sourceInstanceID ∧
      s.sourceID ≠ [] ∧ s.sourceInstanceID ≠ [] ∧ s.revision ≠ 0)
    (hnewer : ∀ row ∈ A.snapshots, row.sourceID = s.sourceID →
      row.sourceInstanceID = s.sourceInstanceID → row.revision < s.revision) :
    Stored (A.insert s) := by
  -- All that was published of the source instance is older than the new revision.
  have hlt : ∀ p ∈ A.published, p.sourceID = s.sourceID →
      p.sourceInstanceID = s.sourceInstanceID → p.revision < s.revision := by
    intro p hp hsource hinstance
    obtain ⟨row, hrow, hsource', hinstance', hle⟩ := h.newest p hp
    have := hnewer row hrow (hsource'.trans hsource) (hinstance'.trans hinstance)
    omega
  constructor
  · intro row hrow
    rcases mem_append.mp hrow with hrow | hrow
    · exact mem_append_left _ (h.published row hrow)
    · obtain rfl := mem_singleton.mp hrow
      exact mem_append_right _ (mem_singleton_self _)
  · intro p hp
    rcases mem_append.mp hp with hp | hp
    · obtain ⟨row, hrow, hrest⟩ := h.newest p hp
      exact ⟨row, mem_append_left _ hrow, hrest⟩
    · obtain rfl := mem_singleton.mp hp
      exact ⟨s, mem_append_right _ (mem_singleton_self _), rfl, rfl, Nat.le_refl _⟩
  · intro p hp q hq hsource hinstance hrevision
    rcases mem_append.mp hp with hp | hp <;> rcases mem_append.mp hq with hq | hq
    · exact h.content p hp q hq hsource hinstance hrevision
    · obtain rfl := mem_singleton.mp hq
      have := hlt p hp hsource hinstance
      simp only [SnapshotRow.ref] at hrevision
      omega
    · obtain rfl := mem_singleton.mp hp
      have := hlt q hq hsource.symm hinstance.symm
      simp only [SnapshotRow.ref] at hrevision
      omega
    · rw [mem_singleton.mp hp, mem_singleton.mp hq]
  · exact forall_mem_append.mpr ⟨h.valid, forall_mem_singleton.mpr hs⟩

/-- A deletion that leaves the newest revisions keeps what is stored. -/
theorem stored_delete (h : Stored A)
    (hsub : ∀ s ∈ A'.snapshots, s ∈ A.snapshots) (hpublished : A'.published = A.published)
    (hkept : ∀ s ∈ A.snapshots, ∃ s' ∈ A'.snapshots, s'.sourceID = s.sourceID ∧
      s'.sourceInstanceID = s.sourceInstanceID ∧ s.revision ≤ s'.revision) : Stored A' := by
  constructor
  · intro s hs
    exact hpublished ▸ h.published s (hsub s hs)
  · intro p hp
    obtain ⟨s, hs, hsource, hinstance, hle⟩ := h.newest p (hpublished ▸ hp)
    obtain ⟨s', hs', hsource', hinstance', hle'⟩ := hkept s hs
    exact ⟨s', hs', hsource'.trans hsource, hinstance'.trans hinstance, hle.trans hle'⟩
  · rw [hpublished]
    exact h.content
  · intro s hs
    exact h.valid s (hsub s hs)

theorem replaces_le (h : Replaces A A') : ∀ s ∈ A.snapshots, ∃ s' ∈ A'.snapshots,
    s'.sourceID = s.sourceID ∧ s'.sourceInstanceID = s.sourceInstanceID ∧
      s.revision ≤ s'.revision := by
  intro s hs
  obtain ⟨s', hs', hsource, hinstance, href | hlt⟩ := h.kept s hs
  · simp only [SnapshotRow.ref, WorkspaceRef.mk.injEq] at href
    exact ⟨s', hs', hsource, hinstance, by omega⟩
  · exact ⟨s', hs', hsource, hinstance, hlt.le⟩

/-- **What is stored stays so.** -/
theorem stored_of_moved {op : ArchiveOp} (h : Stored A) (hmoved : Moved A op A') : Stored A' := by
  have hreplaces := replaces_of_moved hmoved
  cases hmoved with
  | same => exact h
  | created | read | mutated | counted =>
    exact stored_delete h (fun s hs => hs) rfl (replaces_le hreplaces)
  | renewed s => exact stored_renew h
  | @inserted _ _ _ _ _ _ s hsource hinstance _ hvalid hnewer =>
    have hs := stored_insert h ⟨by simp [hsource], by simp [hinstance], hvalid⟩ hnewer
    refine stored_delete hs (fun row hrow => mem_of_mem_prune hrow) (prune_published ..) ?_
    intro row hrow
    rcases mem_prune hrow with hmem | ⟨hsource', hinstance', hlt, -⟩
    · exact ⟨row, hmem, rfl, rfl, Nat.le_refl _⟩
    · have hself : s ∈ (A.insert s).snapshots := by simp [Archive.insert]
      rcases mem_prune hself with hmem | ⟨-, -, habsurd, -⟩
      · exact ⟨s, hmem, hsource'.symm, hinstance'.symm, hlt.le⟩
      · exact (Nat.lt_irrefl _ habsurd).elim
  | deleted =>
    exact stored_delete h (fun s hs => (mem_filter.mp hs).1) rfl (replaces_le hreplaces)

theorem held_setRun {r' : BoundRun} (h : Held A)
    (hworks : ∀ ref, r'.RefersTo ref → r'.worksWith ref.sourceID ref.sourceInstanceID = true)
    (hstored : r'.active = true → ∀ ref, r'.RefersTo ref → ∃ s ∈ A.snapshots, s.ref = ref) :
    Held (A.setRun r') := by
  constructor
  · have hkeys : ((A.setRun r').runs.map BoundRun.id) = A.runs.map BoundRun.id := by
      rw [Archive.setRun, update, map_map]
      refine map_congr_left ?_
      intro a _
      rw [Function.comp_apply]
      split
      · rename_i ha
        exact ha.symm
      · rfl
    rw [hkeys]
    exact h.ids
  · exact forall_update h.works fun _ _ _ => hworks
  · exact forall_update h.stored fun _ _ _ => hstored

/-- **The step lemma of the references**: in the condition, the references of the active runs stay
stored. -/
theorem held_of_moved {op : ArchiveOp} (hseen : seen A op = true) (h : Held A)
    (hmoved : Moved A op A') : Held A' := by
  cases hmoved with
  | same => exact h
  | counted => exact ⟨h.ids, h.works, h.stored⟩
  | renewed s =>
    refine ⟨h.ids, h.works, ?_⟩
    intro r hr hactive ref href
    obtain ⟨row, hrow, rfl⟩ := h.stored r hr hactive ref href
    exact renew_mem hrow
  | @inserted _ sourceID instanceID revision _ _ s hsource hinstance hrevision hvalid hnewer =>
    have hruns : ((A.insert s).prune s.sourceID s.sourceInstanceID s.revision).runs = A.runs :=
      prune_runs ..
    refine ⟨hruns ▸ h.ids, hruns ▸ h.works, ?_⟩
    intro r hr hactive ref href
    rw [hruns] at hr
    obtain ⟨row, hrow, rfl⟩ := h.stored r hr hactive ref href
    rcases mem_prune (A := A.insert s) (mem_append_left [s] hrow) with
      hmem | ⟨hrs, hri, hlt, hprotects⟩
    · exact ⟨row, hmem, rfl⟩
    · -- The row would be deleted: the condition excludes that the run works with its source.
      have hworks : r.worksWith s.sourceID s.sourceInstanceID = true := by
        have := h.works r hr row.ref href
        rwa [SnapshotRow.ref, hrs, hri] at this
      have hprotects' : A.protects s.sourceID s.sourceInstanceID = false := hprotects
      obtain ⟨newest, hnewest, hmem, hns, hni, -⟩ := exists_latest hrow
      rw [hrs, hri] at hnewest
      have hlt' := hnewer newest hmem (hns.trans hrs) (hni.trans hri)
      simp only [seen, ← hsource, ← hinstance, hnewest, Option.all_some, hprotects',
        Bool.or_false, Bool.or_eq_true, decide_eq_true_eq, all_eq_true] at hseen
      rcases hseen with hle | hnone
      · omega
      · have := hnone r hr
        simp [hactive, hworks] at this
  | @created id sourceID instanceID content maxTotalTokens hfree =>
    have hnone : ∀ ref, ¬ BoundRun.RefersTo
        ⟨id, sourceID, instanceID, RunLedger.create maxTotalTokens content, []⟩ ref := by
      intro ref href
      rcases href with href | href
      · simp [RunLedger.references, RunLedger.create] at href
      · cases href
    constructor
    · rw [map_append, nodup_append]
      refine ⟨h.ids, nodup_singleton _, ?_⟩
      intro a ha b hb
      obtain ⟨r, hr, rfl⟩ := mem_map.mp ha
      obtain rfl := mem_singleton.mp hb
      exact lookup_eq_none.mp hfree r hr
    · intro r hr ref href
      rcases mem_append.mp hr with hr | hr
      · exact h.works r hr ref href
      · obtain rfl := mem_singleton.mp hr
        exact (hnone ref href).elim
    · intro r hr hactive ref href
      rcases mem_append.mp hr with hr | hr
      · exact h.stored r hr hactive ref href
      · obtain rfl := mem_singleton.mp hr
        exact (hnone ref href).elim
  | @read runID r s hr hs =>
    have hmem : r ∈ A.runs := mem_of_lookup hr
    obtain ⟨hs', hsource, hinstance, -⟩ := latest?_eq_some hs
    refine held_setRun h ?_ ?_
    · intro ref href
      rcases href with href | href
      · exact h.works r hmem ref (.inl href)
      · rcases mem_append.mp href with href | href
        · exact h.works r hmem ref (.inr href)
        · obtain rfl := mem_singleton.mp href
          simp [BoundRun.worksWith, SnapshotRow.ref, hsource, hinstance]
    · intro hactive ref href
      rcases href with href | href
      · exact h.stored r hmem hactive ref (.inl href)
      · rcases mem_append.mp href with href | href
        · exact h.stored r hmem hactive ref (.inr href)
        · obtain rfl := mem_singleton.mp href
          exact ⟨s, hs', rfl⟩
  | @mutated runID a r hr hrefs =>
    have hmem : r ∈ A.runs := mem_of_lookup hr
    have hwrote := wrote_step r.rows a
    have hback : ∀ ref, BoundRun.RefersTo { r with rows := Harness.step r.rows a } ref →
        r.RefersTo ref := by
      intro ref href
      rcases href with href | href
      · rcases refers_of_wrote hwrote ref href with hold | hnew
        · exact .inl hold
        · exact hrefs ref hnew
      · exact .inr href
    refine held_setRun h ?_ ?_
    · intro ref href
      exact h.works r hmem ref (hback ref href)
    · intro hactive ref href
      refine h.stored r hmem ?_ ref (hback ref href)
      -- A run that has ended stays ended.
      rw [BoundRun.active] at hactive ⊢
      cases hterminal : r.rows.run.state.terminal with
      | false => rfl
      | true =>
        rw [state_of_terminal hwrote hterminal, hterminal] at hactive
        cases hactive
  | deleted =>
    refine ⟨h.ids, h.works, ?_⟩
    intro r hr hactive
    have := all_eq_true.mp hseen r hr
    simp [hactive] at this

/-! ### Every run -/

theorem resolved {ref : WorkspaceRef} (hstored : Stored A) (hs : s ∈ A.snapshots)
    (href : s.ref = ref) (now : ℕ) :
    ∃ s expired, A.workspaceSnapshotByReference now ref = .ok (s, expired) ∧ s.ref = ref := by
  subst href
  obtain ⟨hsource, hinstance, hvalid⟩ := hstored.valid s hs
  have hnot : ¬ (trimSpace s.ref.sourceID = [] ∨ trimSpace s.ref.sourceInstanceID = [] ∨
      s.ref.revision = 0) := by
    rw [SnapshotRow.ref, hsource, hinstance]
    simpa using hvalid
  rw [Archive.workspaceSnapshotByReference, if_neg hnot]
  cases hfind : A.snapshots.find? fun row => row.ref = s.ref with
  | none =>
    rw [find?_eq_none] at hfind
    exact absurd (by simp) (hfind s hs)
  | some row =>
    exact ⟨row, _, rfl, by simpa using find?_some hfind⟩

theorem resolvable_of_held (hstored : Stored A) (h : Held A) : Resolvable A := by
  intro r hr hactive ref href now
  obtain ⟨s, hs, rfl⟩ := h.stored r hr hactive ref (.inl href)
  exact resolved hstored hs rfl now

theorem published_of_moved {op : ArchiveOp} (h : Moved A op A') :
    ∀ p ∈ A.published, p ∈ A'.published := by
  intro p hp
  cases h with
  | inserted => rw [prune_published]; exact mem_append_left _ hp
  | same | renewed | created | read | mutated | counted | deleted => exact hp

theorem published_of_run : ∀ {A : Archive} {ops : List ArchiveOp},
    ∀ p ∈ A.published, p ∈ (run Archive.step A ops).published
  | _, [], _, hp => hp
  | A, op :: _, p, hp =>
    published_of_run (A := A.step op) p (published_of_moved (moved_step A op) p hp)

theorem stored_empty : Stored .empty := by
  constructor <;> intro s hs <;> cases hs

theorem held_empty : Held .empty := by
  constructor
  · exact nodup_nil
  · intro r hr
    cases hr
  · intro r hr
    cases hr

theorem stored_run (ops : List ArchiveOp) : Stored (run Archive.step .empty ops) :=
  run_preserves (fun A op h => stored_of_moved h (moved_step A op)) stored_empty

/-- **References stay resolvable** in every run in which the deletions see the active runs. -/
theorem references_resolvable (ops : List ArchiveOp)
    (h : Along Archive.step (fun A op => seen A op = true) .empty ops) :
    Throughout Archive.step (fun A _ A' => Replaces A A' ∧ Resolvable A') .empty ops ∧
      ∀ ops₁ ops₂, ops = ops₁ ++ ops₂ →
        SameContent (run Archive.step .empty ops₁) (run Archive.step .empty ops) := by
  constructor
  · have hkeep : ∀ A op, seen A op = true → Stored A ∧ Held A →
        Stored (A.step op) ∧ Held (A.step op) := by
      intro A op hseen hinv
      exact ⟨stored_of_moved hinv.1 (moved_step A op), held_of_moved hseen hinv.2 (moved_step A op)⟩
    refine throughout_of_step hkeep ?_ h ⟨stored_empty, held_empty⟩
    intro A op hseen hinv
    obtain ⟨hstored, hheld⟩ := hkeep A op hseen hinv
    exact ⟨replaces_of_moved (moved_step A op), resolvable_of_held hstored hheld⟩
  · rintro ops₁ ops₂ rfl
    intro s hs s' hs' hsource hinstance hrevision
    have hlast := stored_run (ops₁ ++ ops₂)
    have hp : s.ref ∈ (run Archive.step .empty (ops₁ ++ ops₂)).published := by
      rw [run_append]
      exact published_of_run _ ((stored_run ops₁).published s hs)
    have heq := hlast.content s.ref hp s'.ref (hlast.published s' hs') hsource hinstance hrevision
    exact congrArg WorkspaceRef.contentHash heq

/-- A run is bound to a source, starts a tool with the snapshot it has read, and a newer revision
is published. -/
def boundRun (sourceID : Text) : List ArchiveOp :=
  [.put 0 [100] [49] 1 7 10, .createRun 1 sourceID [49] [] 0, .read 1,
    .mutate 1 ⟨0, .acquireLease 1 1 10⟩,
    .mutate 1 ⟨0, .appendEvent ⟨0, 0, .input, .runningModel, .other, 0, 2, 0⟩⟩,
    .mutate 1 ⟨0, .startToolAndEvent 1 ⟨1, 1, 1, .readOnly, 1, 0, 2, some ⟨[100], [49], 1, 7⟩⟩⟩,
    .put 1 [100] [49] 2 8 10]

theorem references_resolvable_boundRun :
    Throughout Archive.step (fun A _ A' => Replaces A A' ∧ Resolvable A') .empty (boundRun [100]) ∧
      ∀ ops₁ ops₂, boundRun [100] = ops₁ ++ ops₂ →
        SameContent (run Archive.step .empty ops₁) (run Archive.step .empty (boundRun [100])) :=
  references_resolvable (boundRun [100]) (by decide)

/-- With a space in front of the source id, the reference of the running tool is deleted. -/
theorem reference_deleted : ¬ Resolvable (run Archive.step .empty (boundRun [32, 100])) := by
  intro h
  have hrun : ∃ r ∈ (run Archive.step .empty (boundRun [32, 100])).runs, r.active = true ∧
      ⟨[100], [49], 1, 7⟩ ∈ r.rows.references := by decide
  obtain ⟨r, hr, hactive, href⟩ := hrun
  obtain ⟨s, expired, hs, -⟩ := h r hr hactive _ href 0
  have hnone : (run Archive.step .empty (boundRun [32, 100])).workspaceSnapshotByReference 0
      ⟨[100], [49], 1, 7⟩ = .error .notFound := by decide
  rw [hnone] at hs
  cases hs

end GoNavi.Harness
