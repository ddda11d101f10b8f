import GoNavi.Scan.Text
import Mathlib.Data.List.DropRight
import Mathlib.Data.List.Sort
import Mathlib.Data.List.TakeWhile
import Mathlib.Algebra.Ring.Nat

/-! # The store of data snapshots

A snapshot is appended to a file as a line.  Before that, a file that has grown to five megabytes
is moved aside; behind it, the entries that are too old or too many are pruned.  The list reads
the one file, up to a line that its scanner cannot hold, and sorts it by the texts of the times.

**The list is what the policy retains** when no file is moved aside, every line can be read back,
and the texts of the times increase (`list_retained`).  A file that is moved aside takes its
entries out of the list (`list_retained_fails`). -/

namespace GoNavi.Db.SnapshotStore

open Scan List

variable {δ : Type}

/-! readDMLSnapshotEntries# Files -/

/-- `dmlSnapshotEntry`. -/
structure Entry (δ : Type) where
  createdAt : Text
  details : δ
deriving DecidableEq

/-- What is taken from the libraries: the length of an entry's line without the newline, the entry
that is read back from its line, the instant of a text in RFC 3339, in nanoseconds, and the instant
so many days behind another one by the local calendar. -/
structure Libraries (δ : Type) where
  encodedBytes : Entry δ → ℕ
  readBack : Entry δ → Option (Entry δ)
  parse : Text → Option ℤ
  addDays : ℤ → ℤ → ℤ

@[irreducible] def dmlSnapshotFileMaxBytes : ℕ := 5 * 1024 * 1024
@[irreducible] def dmlSnapshotMaxEntries : ℕ := 500
@[irreducible] def dmlSnapshotMaxRecordBytes : ℕ := 8 * 1024 * 1024
def dmlSnapshotRetentionDays : ℤ := 30

/-- The file, of which a line is the entry that it encodes, and the file that was moved aside. -/
structure Files (δ : Type) where
  lines : List (Entry δ) := []
  rotated : List (Entry δ) := []
deriving DecidableEq

variable (lib : Libraries δ)

def fileBytes (lines : List (Entry δ)) : ℕ :=
  (lines.map fun e => lib.encodedBytes e + 1).sum

def rotateLocked (files : Files δ) : Files δ :=
  if fileBytes lib files.lines < dmlSnapshotFileMaxBytes then files else ⟨[], files.lines⟩

/-- The scanner stops at a line that it cannot hold with its newline; a line that cannot be decoded
is left out. -/
def readDMLSnapshotEntries (lines : List (Entry δ)) : List (Entry δ) :=
  (lines.takeWhile fun e => lib.encodedBytes e + 1 ≤ dmlSnapshotMaxRecordBytes).filterMap
    lib.readBack

def cutoff (now : ℤ) : ℤ := lib.addDays now (-dmlSnapshotRetentionDays)

def expired (now : ℤ) (e : Entry δ) : Bool :=
  match lib.parse e.createdAt with
  | some createdAt => createdAt < cutoff lib now
  | none => false

/-- The last entries, as many as are kept. -/
def lastEntries (entries : List (Entry δ)) : List (Entry δ) :=
  entries.drop (entries.length - dmlSnapshotMaxEntries)

def pruneLocked (now : ℤ) (files : Files δ) : Files δ :=
  let entries := readDMLSnapshotEntries lib files.lines
  let kept := lastEntries (entries.filter fun e => ¬ expired lib now e)
  if kept.length = entries.length then files else { files with lines := kept }

/-- `dmlSnapshotStore.Append`. -/
def append (now : ℤ) (entry : Entry δ) (files : Files δ) :
    Option (Files δ) :=
  if dmlSnapshotMaxRecordBytes < lib.encodedBytes entry then none
  else
    let files := rotateLocked lib files
    some (pruneLocked lib now { files with lines := files.lines ++ [entry] })

/-- `dmlSnapshotStore.List`. -/
def list (files : Files δ) : List (Entry δ) :=
  (readDMLSnapshotEntries lib files.lines).insertionSort fun a b => b.createdAt ≤ a.createdAt

/-- Appends one after the other, each with the time at which it takes place. -/
def appendAll : List (ℤ × Entry δ) → Files δ → Option (Files δ)
  | [], files => some files
  | (now, entry) :: appends, files => (append lib now entry files).bind (appendAll appends)

/-! readDMLSnapshotEntries# The policy -/

def instant (e : Entry δ) : ℤ := (lib.parse e.createdAt).getD 0

/-- The newest first, and of two at one instant the one that was appended later. -/
def newestFirst (entries : List (Entry δ)) : List (Entry δ) :=
  entries.reverse.insertionSort fun a b => instant lib b ≤ instant lib a

/-- What is retained of the entries that were appended. -/
def retained (now : ℤ) (entries : List (Entry δ)) : List (Entry δ) :=
  ((newestFirst lib entries).take dmlSnapshotMaxEntries).filter fun e => ¬ expired lib now e

/-- An append that is no trouble: the file is not moved aside, the line is read back, and the time
of the entry is behind those before it, as a text and as an instant. -/
structure Steady (last now : ℤ) (before : List (Entry δ)) (entry : Entry δ)
    (files : Files δ) : Prop where
  clock : cutoff lib last ≤ cutoff lib now
  small : fileBytes lib files.lines < dmlSnapshotFileMaxBytes
  fits : lib.encodedBytes entry < dmlSnapshotMaxRecordBytes
  back : lib.readBack entry = some entry
  stamped : (lib.parse entry.createdAt).isSome
  later : ∀ e ∈ before, e.createdAt < entry.createdAt ∧ instant lib e ≤ instant lib entry

/-- All appends are no trouble, and no entry has grown too old since the last one. -/
def SteadyRun (listed : ℤ) : List (ℤ × Entry δ) → ℤ → List (Entry δ) →
    Files δ → Prop
  | [], last, _, files =>
    cutoff lib last ≤ cutoff lib listed ∧ ∀ e ∈ files.lines, ¬ expired lib listed e
  | (now, entry) :: appends, last, before, files =>
    Steady lib last now before entry files ∧ ∀ files', append lib now entry files = some files' →
      SteadyRun listed appends now (before ++ [entry]) files'

/-! readDMLSnapshotEntries# The invariant -/

variable {lib} {now last : ℤ} {entries before : List (Entry δ)} {files : Files δ}
  {entry : Entry δ}

/-- Entries that are read back, in the order of their times. -/
structure Ordered (lib : Libraries δ) (entries : List (Entry δ)) : Prop where
  read : ∀ e ∈ entries, lib.encodedBytes e < dmlSnapshotMaxRecordBytes ∧
    lib.readBack e = some e ∧ (lib.parse e.createdAt).isSome
  times : entries.Pairwise fun a b => a.createdAt < b.createdAt ∧ instant lib a ≤ instant lib b

theorem Ordered.sublist {part : List (Entry δ)} (h : Ordered lib entries)
    (hpart : part.Sublist entries) : Ordered lib part :=
  ⟨fun e he => h.read e (hpart.subset he), h.times.sublist hpart⟩

theorem Ordered.append (h : Ordered lib before) (hsteady : Steady lib last now before entry files) :
    Ordered lib (before ++ [entry]) := by
  constructor
  · intro e he
    rw [mem_append, mem_singleton] at he
    cases he with
    | inl he => exact h.read e he
    | inr he =>
      rw [he]
      exact ⟨hsteady.fits, hsteady.back, hsteady.stamped⟩
  · rw [pairwise_append]
    refine ⟨h.times, pairwise_singleton _ _, ?_⟩
    intro e he e' he'
    rw [mem_singleton.mp he']
    exact hsteady.later e he

theorem Ordered.readDMLSnapshotEntries_eq (h : Ordered lib entries) :
    readDMLSnapshotEntries lib entries = entries := by
  have hfits : entries.takeWhile (fun e => lib.encodedBytes e + 1 ≤ dmlSnapshotMaxRecordBytes) =
      entries := by
    apply takeWhile_eq_self_iff.mpr
    intro e he
    exact decide_eq_true (h.read e he).1
  unfold readDMLSnapshotEntries
  rw [hfits, filterMap_congr fun e he => (h.read e he).2.1]
  exact filterMap_some

theorem expired_iff (h : (lib.parse entry.createdAt).isSome) :
    expired lib now entry ↔ instant lib entry < cutoff lib now := by
  unfold expired instant
  cases hparse : lib.parse entry.createdAt with
  | none => simp [hparse] at h
  | some createdAt => simp

theorem lastEntries_append_singleton (entries : List (Entry δ)) (entry : Entry δ) :
    lastEntries (entries ++ [entry]) = lastEntries (lastEntries entries ++ [entry]) := by
  show (entries ++ [entry]).rtake dmlSnapshotMaxEntries =
    (entries.rtake dmlSnapshotMaxEntries ++ [entry]).rtake dmlSnapshotMaxEntries
  cases dmlSnapshotMaxEntries with
  | zero => rw [rtake_zero, rtake_zero]
  | succ n =>
    rw [rtake_concat_succ, rtake_concat_succ, rtake_eq_reverse_take_reverse,
      rtake_eq_reverse_take_reverse (rtake _ _), rtake_eq_reverse_take_reverse, reverse_reverse,
      take_take, min_eq_left n.le_succ]

/-- Of ordered entries the ones that are too old come first, so that the last ones of those that
are left are those that are left of the last ones. -/
theorem Ordered.lastEntries_filter (h : Ordered lib entries) (now : ℤ) :
    lastEntries (entries.filter fun e => ¬ expired lib now e) =
      (lastEntries entries).filter fun e => ¬ expired lib now e := by
  induction entries with
  | nil => simp [lastEntries]
  | cons e entries ih =>
    have hrest := h.sublist (sublist_cons_self e entries)
    by_cases hold : expired lib now e = true
    · rw [filter_cons_of_neg (by simpa using hold), ih hrest]
      unfold lastEntries
      by_cases hfew : entries.length < dmlSnapshotMaxEntries
      · rw [length_cons, Nat.sub_eq_zero_of_le hfew.le,
          Nat.sub_eq_zero_of_le (show entries.length + 1 ≤ _ from hfew), drop_zero, drop_zero,
          filter_cons_of_neg (by simpa using hold)]
      · rw [length_cons, Nat.sub_add_comm (not_lt.mp hfew), drop_succ_cons]
    · have hyoung : ∀ e' ∈ e :: entries, ¬ expired lib now e' = true := by
        intro e' he' hexpired
        rcases mem_cons.mp he' with rfl | he'
        · exact hold hexpired
        · have hle := (rel_of_pairwise_cons h.times he').2
          rw [expired_iff (h.read e' (mem_cons_of_mem e he')).2.2] at hexpired
          rw [expired_iff (h.read e mem_cons_self).2.2] at hold
          exact hold (lt_of_le_of_lt hle hexpired)
      have hall : ∀ {part : List (Entry δ)}, part.Sublist (e :: entries) →
          part.filter (fun e => ¬ expired lib now e) = part := by
        intro part hpart
        rw [filter_eq_self]
        intro e' he'
        simpa using hyoung e' (hpart.subset he')
      unfold lastEntries
      rw [hall (Sublist.refl _), hall (drop_sublist _ _)]

/-- The lines of the file behind an append at the time `last`. -/
structure Kept (lib : Libraries δ) (last : ℤ) (before : List (Entry δ))
    (files : Files δ) : Prop where
  ordered : Ordered lib before
  lines : files.lines = (lastEntries before).filter fun e => ¬ expired lib last e

theorem kept_append (h : Kept lib last before files)
    (hsteady : Steady lib last now before entry files) {files' : Files δ}
    (happend : append lib now entry files = some files') :
    Kept lib now (before ++ [entry]) files' := by
  have hordered := h.ordered.append hsteady
  refine ⟨hordered, ?_⟩
  have hfits := hsteady.fits
  unfold SnapshotStore.append rotateLocked at happend
  rw [if_neg (by omega), if_pos hsteady.small] at happend
  obtain rfl := Option.some.inj happend
  have hsub : (files.lines ++ [entry]).Sublist (before ++ [entry]) := by
    rw [h.lines]
    exact ((filter_sublist.trans (drop_sublist _ _))).append (Sublist.refl _)
  have hlines := hordered.sublist hsub
  have hread := hlines.readDMLSnapshotEntries_eq
  -- What was too old before is too old now.
  have hfilter : (files.lines ++ [entry]).filter (fun e => ¬ expired lib now e) =
      (lastEntries before ++ [entry]).filter fun e => ¬ expired lib now e := by
    rw [h.lines, filter_append, filter_append, filter_filter]
    congr 1
    apply filter_congr
    intro e he
    have hstamped := (h.ordered.read e (mem_of_mem_drop he)).2.2
    have hmono : expired lib last e → expired lib now e := by
      rw [expired_iff hstamped, expired_iff hstamped]
      have := hsteady.clock
      omega
    cases hlast : expired lib last e with
    | true => simp [hmono hlast]
    | false => simp
  have hkept : lastEntries ((files.lines ++ [entry]).filter fun e => ¬ expired lib now e) =
      (lastEntries (before ++ [entry])).filter fun e => ¬ expired lib now e := by
    have hlast : Ordered lib (lastEntries before ++ [entry]) :=
      hordered.sublist ((drop_sublist _ _).append (Sublist.refl _))
    rw [hfilter, hlast.lastEntries_filter, ← lastEntries_append_singleton]
  unfold pruneLocked
  dsimp only
  rw [hread]
  split
  · rename_i hsame
    have hall : lastEntries ((files.lines ++ [entry]).filter fun e => ¬ expired lib now e) =
        files.lines ++ [entry] :=
      ((drop_sublist _ _).trans filter_sublist).eq_of_length hsame
    exact hall.symm.trans hkept
  · exact hkept

/-! readDMLSnapshotEntries# The list -/

theorem orderedInsert_last {α : Type} {r : α → α → Prop} [DecidableRel r] {a : α} {l : List α}
    (h : ∀ b ∈ l, ¬ r a b) : l.orderedInsert r a = l ++ [a] := by
  induction l with
  | nil => rfl
  | cons b l ih =>
    rw [orderedInsert_cons, if_neg (h b mem_cons_self), ih fun c hc => h c (mem_cons_of_mem b hc)]
    rfl

theorem Ordered.list_eq (h : Ordered lib files.lines) : list lib files = files.lines.reverse := by
  have hsort : ∀ {entries : List (Entry δ)}, Ordered lib entries →
      entries.insertionSort (fun a b => b.createdAt ≤ a.createdAt) = entries.reverse := by
    intro entries hentries
    induction entries with
    | nil => rfl
    | cons e entries ih =>
      rw [insertionSort_cons, ih (hentries.sublist (sublist_cons_self e entries)), reverse_cons]
      apply orderedInsert_last
      intro e' he'
      exact List.not_le.mpr (rel_of_pairwise_cons hentries.times (mem_reverse.mp he')).1
  unfold list
  rw [h.readDMLSnapshotEntries_eq, hsort h]

theorem Ordered.newestFirst_eq (h : Ordered lib entries) :
    newestFirst lib entries = entries.reverse := by
  unfold newestFirst
  apply Pairwise.insertionSort_eq
  rw [pairwise_reverse]
  exact h.times.imp fun htimes => htimes.2

/-- Behind the last append; what was too old then is too old at the time of the list. -/
theorem Kept.list_eq {listed : ℤ} (h : Kept lib last before files)
    (hclock : cutoff lib last ≤ cutoff lib listed)
    (hyoung : ∀ e ∈ files.lines, ¬ expired lib listed e) :
    list lib files = retained lib listed before := by
  have hsub : files.lines.Sublist before := by
    rw [h.lines]
    exact filter_sublist.trans (drop_sublist _ _)
  have hlines : files.lines = (lastEntries before).filter fun e => ¬ expired lib listed e := by
    rw [h.lines]
    apply filter_congr
    intro e he
    have hstamped := (h.ordered.read e (mem_of_mem_drop he)).2.2
    cases hlast : expired lib last e with
    | true =>
      rw [expired_iff hstamped] at hlast
      have hlisted : expired lib listed e := by
        rw [expired_iff hstamped]
        omega
      simp [hlisted]
    | false =>
      have hmem : e ∈ files.lines := by
        rw [h.lines, mem_filter]
        exact ⟨he, by simp [hlast]⟩
      simpa using hyoung e hmem
  rw [(h.ordered.sublist hsub).list_eq, hlines]
  unfold retained lastEntries
  rw [h.ordered.newestFirst_eq, take_reverse, filter_reverse]

theorem list_appendAll {listed : ℤ} : ∀ {appends : List (ℤ × Entry δ)} {last : ℤ}
    {before : List (Entry δ)} {start : Files δ}, Kept lib last before start →
    SteadyRun lib listed appends last before start → appendAll lib appends start = some files →
    list lib files = retained lib listed (before ++ appends.map Prod.snd)
  | [], last, before, start, h, hsteady, hrun => by
    obtain rfl := Option.some.inj hrun
    rw [map_nil, append_nil]
    exact h.list_eq hsteady.1 hsteady.2
  | (now, entry) :: appends, last, before, start, h, hsteady, hrun => by
    obtain ⟨files', happend, hrun⟩ := Option.bind_eq_some_iff.mp hrun
    have hrest := list_appendAll (kept_append h hsteady.1 happend) (hsteady.2 files' happend) hrun
    rw [hrest, append_assoc]
    rfl

/-- **The list is what the policy retains** of the entries that were appended. -/
theorem list_retained (lib : Libraries δ) (appends : List (ℤ × Entry δ))
    (start listed : ℤ) (files : Files δ) (hrun : appendAll lib appends {} = some files)
    (hsteady : SteadyRun lib listed appends start [] {}) :
    list lib files = retained lib listed (appends.map Prod.snd) := by
  have hempty : Kept lib start [] {} := ⟨⟨forall_mem_nil _, Pairwise.nil⟩, by simp [lastEntries]⟩
  exact list_appendAll hempty hsteady hrun

/-- The first two seconds of a day, with lines of a length. -/
def secondsLibraries (length : ℕ) : Libraries ℕ where
  encodedBytes _ := length
  readBack := some
  parse text :=
    if text = bytes "2026-09-20T10:00:00Z" then some 1789898400000000000
    else if text = bytes "2026-09-20T10:00:01Z" then some 1789898401000000000
    else none
  addDays now days := now + days * 86400000000000

def twoSeconds : List (ℤ × Entry ℕ) :=
  [(1789898400000000000, ⟨bytes "2026-09-20T10:00:00Z", 1⟩),
    (1789898401000000000, ⟨bytes "2026-09-20T10:00:01Z", 2⟩)]

theorem list_retained_seconds :
    list (secondsLibraries 300) ⟨twoSeconds.map Prod.snd, []⟩ =
      retained (secondsLibraries 300) 1789898402000000000 (twoSeconds.map Prod.snd) := by
  refine list_retained _ twoSeconds 0 1789898402000000000 _ (by decide +kernel) ?_
  refine ⟨⟨by decide, by decide +kernel, by decide +kernel, rfl, by decide +kernel,
    forall_mem_nil _⟩, fun files hfiles => ?_⟩
  obtain rfl : files = ⟨[⟨bytes "2026-09-20T10:00:00Z", 1⟩], []⟩ :=
    Option.some.inj (hfiles.symm.trans (by decide +kernel))
  refine ⟨⟨by decide, by decide +kernel, by decide +kernel, rfl, by decide +kernel,
    by decide⟩, fun files hfiles => ?_⟩
  obtain rfl : files = ⟨twoSeconds.map Prod.snd, []⟩ :=
    Option.some.inj (hfiles.symm.trans (by decide +kernel))
  exact ⟨by decide, by decide⟩

/-- The second of two entries of five megabytes moves the first one aside. -/
theorem list_retained_fails :
    ¬ ∀ (appends : List (ℤ × Entry ℕ)) (listed : ℤ) (files : Files ℕ),
      appendAll (secondsLibraries 5242879) appends {} = some files →
      list (secondsLibraries 5242879) files =
        retained (secondsLibraries 5242879) listed (appends.map Prod.snd) := by
  intro h
  have hlist := h twoSeconds 1789898402000000000 ⟨[⟨bytes "2026-09-20T10:00:01Z", 2⟩],
    [⟨bytes "2026-09-20T10:00:00Z", 1⟩]⟩ (by decide +kernel)
  revert hlist
  decide +kernel

end GoNavi.Db.SnapshotStore
