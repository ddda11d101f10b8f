import Mathlib.Data.List.Basic
import Mathlib.Order.Lattice

/-! # Sessions with transactions

A session of a database server carries out actions: changes, and the start, the commit and the
rollback of a transaction.  Transactions nest by counting, as `@@TRANCOUNT` does: only the
outermost commit keeps the work, a rollback drops all of it.  A change outside of a transaction
is kept at once, or opens a transaction where the session does not commit by itself.

A transaction that no action has started, committed or rolled back since it was opened stands
(`Stands`).  **Changes leave a standing transaction standing** (`Stands.run`), a commit of it
keeps exactly its work (`Stands.commit`), and a rollback keeps nothing of it
(`Stands.rollback`). -/

universe u

namespace Sessions

open List

variable {γ : Type u}

/-- What a statement does, in one step, to the session that executes it. -/
inductive Action (γ : Type u) where
  | change (c : γ)
  | start
  | commit
  | rollback
deriving DecidableEq

/-- Whether an action leaves the transaction of its session alone. -/
def Action.quiet : Action γ → Bool
  | .change _ => true
  | _ => false

/-- The changes among some actions. -/
def changes (actions : List (Action γ)) : List γ :=
  actions.filterMap fun
    | .change c => some c
    | _ => none

@[simp] theorem changes_nil : changes ([] : List (Action γ)) = [] := rfl

theorem changes_append (actions later : List (Action γ)) :
    changes (actions ++ later) = changes actions ++ changes later := filterMap_append

structure Session (γ : Type u) where
  /-- Whether a change outside of a transaction is kept at once. -/
  autocommit : Bool
  /-- How many transactions have been opened. -/
  serial : ℕ
  /-- How many starts the open transaction counts; `0` if no transaction is open. -/
  depth : ℕ
  /-- The changes of the open transaction. -/
  work : List γ
  /-- The changes of the transactions that were committed. -/
  kept : List (List γ)
deriving DecidableEq

namespace Session

/-- A session that has executed nothing yet. -/
def fresh (autocommit : Bool) : Session γ := ⟨autocommit, 0, 0, [], []⟩

/-- A transaction is open. -/
def Open (s : Session γ) : Prop := 0 < s.depth

instance (s : Session γ) : Decidable s.Open := inferInstanceAs (Decidable (0 < s.depth))

def change (s : Session γ) (c : γ) : Session γ :=
  if s.depth = 0 then
    if s.autocommit then { s with serial := s.serial + 1, kept := s.kept ++ [[c]] }
    else { s with serial := s.serial + 1, depth := 1, work := [c] }
  else { s with work := s.work ++ [c] }

def start (s : Session γ) : Session γ :=
  if s.depth = 0 then { s with serial := s.serial + 1, depth := 1, work := [] }
  else { s with depth := s.depth + 1 }

def commit (s : Session γ) : Session γ :=
  if s.depth = 0 then s
  else if s.depth = 1 then { s with depth := 0, work := [], kept := s.kept ++ [s.work] }
  else { s with depth := s.depth - 1 }

def rollback (s : Session γ) : Session γ := { s with depth := 0, work := [] }

def act (s : Session γ) : Action γ → Session γ
  | .change c => s.change c
  | .start => s.start
  | .commit => s.commit
  | .rollback => s.rollback

/-- Some actions, one after the other. -/
def run (s : Session γ) (actions : List (Action γ)) : Session γ := actions.foldl act s

@[simp] theorem run_nil (s : Session γ) : s.run [] = s := rfl

@[simp] theorem run_cons (s : Session γ) (a : Action γ) (actions : List (Action γ)) :
    s.run (a :: actions) = (s.act a).run actions := rfl

theorem run_append (s : Session γ) (actions later : List (Action γ)) :
    s.run (actions ++ later) = (s.run actions).run later := foldl_append

end Session

/-! ### Endings -/

/-- How a statement ends: with success, or with an error behind its first steps.  An answer
that is lost is an error behind all of them. -/
inductive Ending where
  | success
  | failure (steps : ℕ)
deriving DecidableEq

/-- What is carried out of the actions of a statement that ends so. -/
def Ending.performed : Ending → List (Action γ) → List (Action γ)
  | .success, actions => actions
  | .failure steps, actions => actions.take steps

theorem Ending.performed_subset (e : Ending) (actions : List (Action γ)) :
    e.performed actions ⊆ actions := by
  cases e with
  | success => exact List.Subset.refl _
  | failure steps => exact take_subset _ _

/-! ### Standing transactions -/

/-- Since the session was as in `origin`, it has opened one transaction, which is still open and
whose changes are `work`; where the session opens transactions by itself, it may not have come
to that yet. -/
inductive Stands (origin : Session γ) (work : List γ) (s : Session γ) : Prop where
  | opened (hdepth : s.depth = 1) (hserial : s.serial = origin.serial + 1)
      (hwork : s.work = work) (hkept : s.kept = origin.kept)
  | unopened (hauto : origin.autocommit = false) (hwork : work = []) (hs : s = origin)

namespace Stands

variable {origin s : Session γ} {work : List γ}

theorem kept (h : Stands origin work s) : s.kept = origin.kept := by
  cases h with
  | opened _ _ _ hkept => exact hkept
  | unopened _ _ hs => rw [hs]

theorem start (hclosed : origin.depth = 0) : Stands origin [] origin.start := by
  unfold Session.start
  rw [if_pos hclosed]
  exact .opened rfl rfl rfl rfl

/-- A session that opens transactions by itself need not be told to. -/
theorem idle (hauto : origin.autocommit = false) : Stands origin [] origin :=
  .unopened hauto rfl rfl

theorem change (hclosed : origin.depth = 0) (h : Stands origin work s) (c : γ) :
    Stands origin (work ++ [c]) (s.change c) := by
  cases h with
  | opened hdepth hserial hwork hkept =>
    unfold Session.change
    rw [if_neg (by omega)]
    exact .opened hdepth hserial (by rw [hwork]) hkept
  | unopened hauto hwork hs =>
    unfold Session.change
    rw [hs, if_pos hclosed, hauto, if_neg Bool.false_ne_true, hwork]
    exact .opened rfl rfl rfl rfl

/-- Quiet actions leave a transaction standing, with their changes added to its work. -/
theorem run (hclosed : origin.depth = 0) {actions : List (Action γ)}
    (hquiet : ∀ a ∈ actions, a.quiet) (h : Stands origin work s) :
    Stands origin (work ++ changes actions) (s.run actions) := by
  induction actions generalizing work s with
  | nil =>
    rw [changes_nil, append_nil]
    exact h
  | cons a actions ih =>
    have hrest : ∀ a ∈ actions, a.quiet := fun b hb => hquiet b (mem_cons_of_mem _ hb)
    have ha := hquiet a mem_cons_self
    cases a with
    | change c =>
      have hnext := ih hrest (h.change hclosed c)
      rw [append_assoc] at hnext
      exact hnext
    | start => exact absurd ha Bool.false_ne_true
    | commit => exact absurd ha Bool.false_ne_true
    | rollback => exact absurd ha Bool.false_ne_true

/-- A commit keeps the work of the transaction, and nothing else. -/
theorem commit (hclosed : origin.depth = 0) (h : Stands origin work s) :
    ¬s.commit.Open ∧ s.commit.kept.flatten = origin.kept.flatten ++ work := by
  unfold Session.Open Session.commit
  cases h with
  | opened hdepth _ hwork hkept =>
    rw [if_neg (by omega), if_pos hdepth]
    exact ⟨lt_irrefl 0, by rw [hkept, hwork]; simp⟩
  | unopened _ hwork hs =>
    rw [hs, if_pos hclosed]
    exact ⟨by omega, by rw [hwork, append_nil]⟩

theorem rollback (h : Stands origin work s) :
    ¬s.rollback.Open ∧ s.rollback.kept = origin.kept :=
  ⟨lt_irrefl 0, h.kept⟩

end Stands

end Sessions
