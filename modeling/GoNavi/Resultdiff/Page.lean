import GoNavi.Resultdiff.Engine

/-! # Pages of a report

`filterPage` shows a part of the rows of a report that pass a filter.  A limit that is not positive
is replaced and one that is too large is cut.

**The pages of the limit that is used are the filtered rows in order** (`pages_eq`). -/

namespace GoNavi.Resultdiff

open Scan List

def defaultPageLimit : ℤ := 100

def maxPageLimit : ℤ := 1000

def DiffKind.text : DiffKind → Text
  | .added => bytes "added"
  | .removed => bytes "removed"
  | .changed => bytes "changed"
  | .same => bytes "same"
  | .unmatched => bytes "unmatched"

structure PageResult (ν : Type) where
  total : ℤ
  offset : ℤ
  limit : ℤ
  rows : List (DiffRow ν)

section paging

variable {ν : Type} (unicode : UnicodeTables) (fold : Text → Text)

/-- The limit that is used. -/
def pageLimit (limit : ℤ) : ℤ :=
  let limit := if limit ≤ 0 then defaultPageLimit else limit
  if limit > maxPageLimit then maxPageLimit else limit

/-- The rows that pass a filter; `fold` is the case folding of `strings.EqualFold`. -/
def filterRows (all : List (DiffRow ν)) (kinds : List Text) (changedColumn : Text)
    (includeSame : Bool) : List (DiffRow ν) :=
  let kindSet := (kinds.map fun k => trimSpace (lower unicode k)).filter fun k => k ≠ []
  let defaultExcludeSame := kindSet.isEmpty && !includeSame
  let changedColumn := trimSpace changedColumn
  all.filter fun row =>
    if defaultExcludeSame && row.kind = .same then false
    else if !kindSet.isEmpty && row.kind.text ∉ kindSet then false
    else if changedColumn ≠ [] then
      row.kind = .changed &&
        row.changedFields.any fun ch => fold ch.name = fold changedColumn
    else true

def filterPage (all : List (DiffRow ν)) (kinds : List Text) (changedColumn : Text)
    (offset limit : ℤ) (includeSame : Bool) : PageResult ν :=
  let offset := if offset < 0 then 0 else offset
  let limit := pageLimit limit
  let filtered := filterRows unicode fold all kinds changedColumn includeSame
  let total : ℤ := filtered.length
  if offset ≥ total then { total, offset, limit, rows := [] }
  else
    let stop := if offset + limit > total then total else offset + limit
    { total, offset, limit
      rows := (filtered.drop offset.toNat).take (stop - offset).toNat }

theorem pageLimit_pos (limit : ℤ) : 0 < pageLimit limit := by
  unfold pageLimit defaultPageLimit maxPageLimit
  dsimp only
  split
  · omega
  · split at * <;> omega

theorem filterPage_rows (all : List (DiffRow ν)) (kinds : List Text) (changedColumn : Text)
    (offset : ℕ) (limit : ℤ) (includeSame : Bool) :
    (filterPage unicode fold all kinds changedColumn offset limit includeSame).rows =
      ((filterRows unicode fold all kinds changedColumn includeSame).drop offset).take
        (pageLimit limit).toNat := by
  have hpos := pageLimit_pos limit
  unfold filterPage
  dsimp only
  generalize filterRows unicode fold all kinds changedColumn includeSame = filtered
  have hoffset : ¬ (offset : ℤ) < 0 := by omega
  rw [if_neg hoffset]
  split
  · rename_i hend
    rw [drop_eq_nil_of_le (by omega), take_nil]
  · rename_i hinside
    dsimp only
    rw [Int.toNat_natCast]
    split
    · rw [take_of_length_le (by rw [length_drop]; omega),
        take_of_length_le (by rw [length_drop]; omega)]
    · congr 1
      omega

theorem flatMap_pages {α : Type} (as : List α) (size : ℕ) : ∀ count : ℕ,
    (List.range count).flatMap (fun i => (as.drop (i * size)).take size) = as.take (count * size)
  | 0 => by simp
  | count + 1 => by
    rw [range_succ, flatMap_append, flatMap_pages as size count, flatMap_singleton,
      Nat.succ_mul, take_add]

/-- **The pages of the limit that is used are the filtered rows in order**, as soon as there are
enough of them. -/
theorem pages_eq (all : List (DiffRow ν)) (kinds : List Text) (changedColumn : Text) (size : ℤ)
    (includeSame : Bool) (count : ℕ)
    (hcount : (filterRows unicode fold all kinds changedColumn includeSame).length ≤
      count * (pageLimit size).toNat) :
    (List.range count).flatMap (fun i : ℕ => (filterPage unicode fold all kinds changedColumn
        (i * pageLimit size) size includeSame).rows) =
      filterRows unicode fold all kinds changedColumn includeSame := by
  have hpage : ∀ i : ℕ, (filterPage unicode fold all kinds changedColumn
      (i * pageLimit size) size includeSame).rows =
        ((filterRows unicode fold all kinds changedColumn includeSame).drop
          (i * (pageLimit size).toNat)).take (pageLimit size).toNat := by
    intro i
    rw [← filterPage_rows]
    congr 2
    have hpos := pageLimit_pos size
    push_cast
    rw [Int.toNat_of_nonneg hpos.le]
  simp only [hpage]
  rw [flatMap_pages, take_of_length_le hcount]

end paging

end GoNavi.Resultdiff
