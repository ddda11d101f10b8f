import Mathlib.Data.List.Basic
import Mathlib.Order.Lattice

/-! # Transaction rules of SQL dialects

What the transaction commands of four families of dialects do to a session, as their manuals have
it: plain dialects with one transaction at a time, SQLite, where a savepoint outside of a
transaction opens one, SQL Server, where transactions nest by counting, and the MySQL family,
where many statements commit first and sessions have an autocommit mode and table locks.

Only what is open is followed here, not the data.  **A quiet command opens no transaction in a
session that commits by itself** (`Tx.quieter_run`). -/

universe u

namespace Dialects

open List

inductive Family where
  | plain
  | sqlite
  | sqlServer
  | mySQL
deriving DecidableEq

variable {ν : Type u} [DecidableEq ν]

/-- What a server reads in a statement; `ν` are the names. -/
inductive Command (ν : Type u) where
  | begin (name : Option ν)
  | savepoint (name : ν)
  | release (name : ν)
  | commit (chain : Bool)
  | rollback (chain : Bool)
  | rollbackTo (name : ν)
  /-- `SET autocommit`, or the opposite of `SET IMPLICIT_TRANSACTIONS`. -/
  | autocommit (on : Bool)
  | lockTables
  | unlockTables
  /-- A definition or an administrative statement. -/
  | definition
  /-- Another statement with an effect that a transaction may take back. -/
  | work
  | idle
deriving DecidableEq

/-- The transaction of a session. -/
structure Tx (ν : Type u) where
  /-- How many starts the open transaction counts; `0` if no transaction is open. -/
  depth : ℕ
  savepoints : List ν
  /-- A savepoint has opened the transaction. -/
  bySavepoint : Bool
  /-- Whether work outside of a transaction is committed at once. -/
  autocommit : Bool
  tablesLocked : Bool
deriving DecidableEq

namespace Tx

/-- A session that has executed nothing yet. -/
def fresh : Tx ν := ⟨0, [], false, true, false⟩

def Open (tx : Tx ν) : Prop := 0 < tx.depth

instance (tx : Tx ν) : Decidable tx.Open := inferInstanceAs (Decidable (0 < tx.depth))

/-- The transaction is over. -/
def closed (tx : Tx ν) : Tx ν := { tx with depth := 0, savepoints := [], bySavepoint := false }

/-- The transaction is over, and another one is begun at once if it is chained. -/
def finished (tx : Tx ν) (chain : Bool) : Tx ν :=
  if chain then { tx.closed with depth := 1 } else tx.closed

/-- Work opens a transaction where nothing is committed by itself. -/
def works (tx : Tx ν) : Tx ν :=
  if tx.autocommit = false ∧ tx.depth = 0 then { tx with depth := 1 } else tx

/-- A command that succeeds. -/
def apply (family : Family) (tx : Tx ν) : Command ν → Tx ν
  | .begin _ =>
    match family with
    | .sqlServer => { tx.works with depth := tx.works.depth + 1 }
    | .mySQL => { tx.closed with depth := 1, tablesLocked := false }
    | _ => { tx with depth := 1 }
  | .savepoint name =>
    match family with
    | .sqlite =>
      { tx with
        depth := max 1 tx.depth, savepoints := name :: tx.savepoints,
        bySavepoint := tx.bySavepoint || tx.depth = 0 }
    | _ => { tx with savepoints := name :: tx.savepoints }
  | .release name =>
    let rest := (tx.savepoints.dropWhile (· ≠ name)).tail
    if tx.bySavepoint ∧ rest = [] then tx.closed else { tx with savepoints := rest }
  | .commit chain =>
    match family with
    | .sqlServer => if tx.depth ≤ 1 then tx.closed else { tx with depth := tx.depth - 1 }
    | _ => tx.finished chain
  | .rollback chain =>
    match family with
    | .sqlServer => tx.closed
    | _ => tx.finished chain
  | .rollbackTo name =>
    match family with
    | .sqlServer => if name ∈ tx.savepoints then tx else tx.closed
    | _ => tx
  | .autocommit on =>
    match family with
    | .mySQL =>
      if on ∧ tx.autocommit = false then { tx.closed with autocommit := true }
      else { tx with autocommit := on }
    | .sqlServer => { tx with autocommit := on }
    | _ => tx
  | .lockTables =>
    match family with
    | .mySQL => { tx.closed with tablesLocked := true }
    | _ => tx
  | .unlockTables =>
    match family with
    | .mySQL => if tx.tablesLocked then { tx.closed with tablesLocked := false } else tx
    | _ => tx
  | .definition =>
    match family with
    | .mySQL => tx.closed
    | _ => tx.works
  | .work => tx.works
  | .idle => tx

/-- Commands that succeed, one after the other. -/
def run (family : Family) (tx : Tx ν) (commands : List (Command ν)) : Tx ν :=
  commands.foldl (apply family) tx

end Tx

/-- The commands before which a transaction is committed, also if they fail. -/
def Command.commitsBefore (family : Family) : Command ν → Bool
  | .begin _ | .lockTables | .definition => family = .mySQL
  | _ => false

/-- What a command may leave when it fails: no other mode, and no transaction that was not open
before. -/
structure Fails (family : Family) (c : Command ν) (tx tx' : Tx ν) : Prop where
  depth : tx'.depth ≤ tx.depth
  savepoints : tx'.savepoints ⊆ tx.savepoints
  autocommit : tx'.autocommit = tx.autocommit
  committed : c.commitsBefore family = true → tx'.depth = 0

namespace Tx

omit [DecidableEq ν] in
theorem works_autocommit (tx : Tx ν) : tx.works.autocommit = tx.autocommit := by
  unfold works
  split <;> rfl

omit [DecidableEq ν] in
theorem finished_autocommit (tx : Tx ν) (chain : Bool) :
    (tx.finished chain).autocommit = tx.autocommit := by
  unfold finished
  split <;> rfl

theorem apply_autocommit (family : Family) (tx : Tx ν) {c : Command ν}
    (hc : ∀ on, c ≠ .autocommit on) : (tx.apply family c).autocommit = tx.autocommit := by
  cases c with
  | begin name =>
    cases family with
    | sqlServer => exact works_autocommit tx
    | plain => rfl
    | sqlite => rfl
    | mySQL => rfl
  | savepoint name => cases family <;> rfl
  | release name =>
    simp only [apply]
    split <;> rfl
  | commit chain =>
    cases family with
    | sqlServer =>
      simp only [apply]
      split <;> rfl
    | plain => exact finished_autocommit tx chain
    | sqlite => exact finished_autocommit tx chain
    | mySQL => exact finished_autocommit tx chain
  | rollback chain =>
    cases family with
    | sqlServer => rfl
    | plain => exact finished_autocommit tx chain
    | sqlite => exact finished_autocommit tx chain
    | mySQL => exact finished_autocommit tx chain
  | rollbackTo name =>
    cases family with
    | sqlServer =>
      simp only [apply]
      split <;> rfl
    | plain => rfl
    | sqlite => rfl
    | mySQL => rfl
  | autocommit on => exact absurd rfl (hc on)
  | lockTables => cases family <;> rfl
  | unlockTables =>
    cases family with
    | mySQL =>
      simp only [apply]
      split <;> rfl
    | plain => rfl
    | sqlite => rfl
    | sqlServer => rfl
  | definition =>
    cases family with
    | mySQL => rfl
    | plain => exact works_autocommit tx
    | sqlite => exact works_autocommit tx
    | sqlServer => exact works_autocommit tx
  | work => exact works_autocommit tx
  | idle => rfl

theorem mem_apply_savepoints {tx : Tx ν} {c : Command ν} {name : ν}
    (h : name ∈ (tx.apply .sqlServer c).savepoints) : name ∈ tx.savepoints ∨ c = .savepoint name := by
  have hworks : tx.works.savepoints = tx.savepoints := by
    unfold works
    split <;> rfl
  cases c with
  | savepoint other =>
    rcases mem_cons.mp h with rfl | hmem
    · exact .inr rfl
    · exact .inl hmem
  | begin other => exact .inl (hworks ▸ h)
  | release other =>
    refine .inl ?_
    simp only [apply] at h
    split at h
    · exact absurd h not_mem_nil
    · exact (dropWhile_sublist _).subset (mem_of_mem_tail h)
  | commit chain =>
    refine .inl ?_
    simp only [apply] at h
    split at h
    · exact absurd h not_mem_nil
    · exact h
  | rollback chain => exact absurd h not_mem_nil
  | rollbackTo other =>
    refine .inl ?_
    simp only [apply] at h
    split at h
    · exact h
    · exact absurd h not_mem_nil
  | autocommit on => exact .inl h
  | lockTables => exact .inl h
  | unlockTables => exact .inl h
  | definition => exact .inl (hworks ▸ h)
  | work => exact .inl (hworks ▸ h)
  | idle => exact .inl h

end Tx

/-! ### Quiet commands -/

/-- Whether a command leaves the transaction and the mode of its session alone; it may commit. -/
def Command.quiet : Command ν → Bool
  | .definition | .work | .idle => true
  | _ => false

namespace Tx

/-- Quiet commands change no mode and open nothing where work is committed at once. -/
structure Quieter (tx tx' : Tx ν) : Prop where
  autocommit : tx'.autocommit = tx.autocommit
  savepoints : tx'.savepoints ⊆ tx.savepoints
  depth : tx.autocommit = true → tx'.depth ≤ tx.depth

omit [DecidableEq ν] in
theorem Quieter.trans {tx tx' tx'' : Tx ν} (h : Quieter tx tx') (h' : Quieter tx' tx'') :
    Quieter tx tx'' where
  autocommit := h'.autocommit.trans h.autocommit
  savepoints := List.Subset.trans h'.savepoints h.savepoints
  depth hauto := (h'.depth (h.autocommit.trans hauto)).trans (h.depth hauto)

omit [DecidableEq ν] in
theorem quieter_works (tx : Tx ν) : Quieter tx tx.works := by
  unfold works
  split
  · next h =>
    refine ⟨rfl, List.Subset.refl _, fun hauto => ?_⟩
    rw [h.1] at hauto
    cases hauto
  · exact ⟨rfl, List.Subset.refl _, fun _ => le_rfl⟩

omit [DecidableEq ν] in
theorem quieter_closed (tx : Tx ν) : Quieter tx tx.closed :=
  ⟨rfl, nil_subset _, fun _ => Nat.zero_le _⟩

theorem quieter_apply (family : Family) (tx : Tx ν) {c : Command ν} (hc : c.quiet = true) :
    Quieter tx (tx.apply family c) := by
  cases c with
  | definition =>
    cases family with
    | mySQL => exact quieter_closed tx
    | plain => exact quieter_works tx
    | sqlite => exact quieter_works tx
    | sqlServer => exact quieter_works tx
  | work => exact quieter_works tx
  | idle => exact ⟨rfl, List.Subset.refl _, fun _ => le_rfl⟩
  | _ => cases hc

/-- Quiet commands, one after the other; induction on them. -/
theorem quieter_run (family : Family) (tx : Tx ν) {commands : List (Command ν)}
    (h : ∀ c ∈ commands, c.quiet = true) : Quieter tx (tx.run family commands) := by
  induction commands generalizing tx with
  | nil => exact ⟨rfl, List.Subset.refl _, fun _ => le_rfl⟩
  | cons c commands ih =>
    exact (quieter_apply family tx (h c mem_cons_self)).trans
      (ih (tx.apply family c) (fun d hd => h d (mem_cons_of_mem c hd)))

theorem apply_rollback (family : Family) (tx : Tx ν) :
    tx.apply family (.rollback false) = tx.closed := by
  cases family <;> rfl

/-- Quiet commands in a transaction of their own leave nothing open behind the commit. -/
theorem begin_quiet_commit (family : Family) {tx : Tx ν} (hclosed : tx.depth = 0)
    (hauto : tx.autocommit = true) {commands : List (Command ν)}
    (hquiet : ∀ c ∈ commands, c.quiet = true) :
    (((tx.apply family (.begin none)).run family commands).apply family (.commit false)) =
      ((tx.apply family (.begin none)).run family commands).closed := by
  have hbegin : (tx.apply family (.begin none)).depth ≤ 1 := by
    cases family with
    | sqlServer =>
      show tx.works.depth + 1 ≤ 1
      unfold works
      rw [if_neg (by simp [hauto]), hclosed]
    | plain => exact le_rfl
    | sqlite => exact le_rfl
    | mySQL => exact le_rfl
  have hauto' : (tx.apply family (.begin none)).autocommit = true := by
    rw [apply_autocommit family tx (by simp)]
    exact hauto
  have hdepth := (quieter_run family _ hquiet).depth hauto'
  cases family with
  | sqlServer =>
    exact if_pos (hdepth.trans hbegin)
  | plain => rfl
  | sqlite => rfl
  | mySQL => rfl

end Tx

end Dialects
