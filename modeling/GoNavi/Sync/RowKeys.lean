import GoNavi.Sync.DiffPaging
import GoNavi.Sync.Reconcile

/-! # Keys of rows

`syncRowKey` writes the values of the key columns as a JSON array, and `watermarkCompositeRowKey`
writes each text behind its length.

**A key tells the texts of its row if and only if these are well formed, where it is an array**
(`rowKeys_tell_iff`), and always where it counts: `encoding/json` writes every byte that belongs
to no rune as the same escape. -/

namespace GoNavi.Sync

open Scan List

variable {row : TableRow} {columns texts : List Text}

/-! ### Rows of texts -/

/-- The columns of a row hold the texts, as strings or as bytes. -/
def HoldsTexts (row : TableRow) (columns texts : List Text) : Prop :=
  Forall₂ (fun column t => row.cell column = .text t ∨ row.cell column = .blob t) columns texts

theorem HoldsTexts.ne_nil (hrow : HoldsTexts row columns texts) (hcolumns : columns ≠ []) :
    texts ≠ [] := by
  rintro rfl
  exact hcolumns (forall₂_nil_right_iff.mp hrow)

theorem HoldsTexts.marshalColumns (hrow : HoldsTexts row columns texts) :
    marshalColumns row columns = some (texts.map Json.string) := by
  unfold Sync.marshalColumns
  induction hrow with
  | nil => rfl
  | cons hcell _ ih =>
    rw [mapM_cons, ih]
    rcases hcell with hcell | hcell <;> simp [hcell, marshal]

theorem HoldsTexts.syncRowKey (hrow : HoldsTexts row columns texts) (hcolumns : columns ≠ []) :
    syncRowKey row columns =
      some (0x5B :: (intercalate [0x2C] (texts.map Json.string) ++ [0x5D])) := by
  unfold Sync.syncRowKey
  rw [if_neg hcolumns, hrow.marshalColumns, Option.map_some]

/-- Keys are the same where the texts are written the same. -/
theorem syncRowKey_eq_iff {row' : TableRow} {columns' texts' : List Text}
    (hcolumns : columns ≠ []) (hrow : HoldsTexts row columns texts)
    (hrow' : HoldsTexts row' columns' texts') :
    syncRowKey row columns = syncRowKey row' columns' ↔
      texts.map Json.string = texts'.map Json.string := by
  rw [hrow.syncRowKey hcolumns]
  by_cases hcolumns' : columns' = []
  · have htexts := hrow.ne_nil hcolumns
    rw [hcolumns'] at hrow' ⊢
    rw [forall₂_nil_left_iff.mp hrow']
    simpa [syncRowKey] using htexts
  · rw [hrow'.syncRowKey hcolumns', Option.some.injEq]
    constructor
    · intro heq
      exact Json.array_cancel (hrow.ne_nil hcolumns) (hrow'.ne_nil hcolumns')
        (List.cons.inj heq).2
    · intro heq
      rw [heq]

/-! ### Another text in a row -/

/-- The row with another text in the place of one of its texts. -/
def TableRow.retext (row : TableRow) (t t' : Text) : TableRow where
  columns := row.columns.map fun cell =>
    (cell.1, if cell.2 = .text t ∨ cell.2 = .blob t then .text t' else cell.2)
  nodup := by
    rw [map_map]
    exact row.nodup

theorem cell_retext (t t' column : Text) : (row.retext t t').cell column =
    if row.cell column = .text t ∨ row.cell column = .blob t then .text t'
    else row.cell column := by
  have hlookup : ∀ (f : Cell → Cell) (cells : List (Text × Cell)),
      (cells.map fun cell => (cell.1, f cell.2)).lookup column = (cells.lookup column).map f := by
    intro f cells
    induction cells with
    | nil => rfl
    | cons cell cells ih =>
      rw [map_cons, lookup_cons, lookup_cons, ih]
      split <;> rfl
  unfold TableRow.cell TableRow.retext
  rw [hlookup fun value => if value = .text t ∨ value = .blob t then .text t' else value]
  cases row.columns.lookup column <;> simp

theorem HoldsTexts.retext (hrow : HoldsTexts row columns texts) (t t' : Text) :
    HoldsTexts (row.retext t t') columns (texts.map fun s => if s = t then t' else s) := by
  refine forall₂_map_right_iff.mpr (hrow.imp ?_)
  intro column s hs
  rw [cell_retext]
  by_cases heq : s = t
  · rw [if_pos heq, if_pos (heq ▸ hs)]
    exact .inl rfl
  · rw [if_neg heq, if_neg]
    · exact hs
    · rcases hs with hs | hs <;> simp [hs, heq]

/-! ### Keys and texts -/

/-- A key of either kind that is the same as the one of a row comes of the same texts. -/
theorem rowKeys_tell_iff (hcolumns : columns ≠ []) (hrow : HoldsTexts row columns texts) :
    ((∀ (row' : TableRow) (columns' texts' : List Text), HoldsTexts row' columns' texts' →
        syncRowKey row columns = syncRowKey row' columns' → texts = texts') ∧
      ∀ (fold : Text → Text) (left right : Row) (columns columns' texts texts' : List Text),
        ComparesTexts fold left columns texts → ComparesTexts fold right columns' texts' →
        watermarkCompositeRowKey fold left columns = watermarkCompositeRowKey fold right columns' →
        texts = texts') ↔
      ∀ t ∈ texts, validString t = true := by
  constructor
  · intro h t ht
    refine (Json.string_injective_iff t).mp fun t' hstring => ?_
    have halike : texts.map Json.string =
        (texts.map fun s => if s = t then t' else s).map Json.string := by
      rw [map_map]
      refine map_congr_left fun s _ => ?_
      by_cases heq : s = t
      · simp [heq, hstring]
      · simp [heq]
    have hsame := h.1 _ _ _ (hrow.retext t t')
      ((syncRowKey_eq_iff hcolumns hrow (hrow.retext t t')).mpr halike)
    simpa using map_inj_left.mp ((map_id texts).trans hsame) t ht
  · intro hvalid
    constructor
    · intro row' columns' texts' hrow' heq
      exact Json.eq_of_map_eq (fun t ht _ _ => Json.string_injective (hvalid t ht))
        ((syncRowKey_eq_iff hcolumns hrow hrow').mp heq)
    · intro fold left right columns columns' texts texts' hleft hright heq
      rw [watermarkCompositeRowKey_texts hleft, watermarkCompositeRowKey_texts hright] at heq
      exact encodeTexts_injective (Except.ok.inj heq)

/-- A row with one column of bytes. -/
def bytesRow (t : Text) : TableRow := ⟨[(bytes "id", .blob t)], by simp⟩

theorem holdsTexts_bytesRow (t : Text) : HoldsTexts (bytesRow t) [bytes "id"] [t] :=
  .cons (.inr (by simp [bytesRow, TableRow.cell])) .nil

theorem rowKeys_tell_iff_id :
    HoldsTexts (bytesRow (bytes "7|")) [bytes "id"] [bytes "7|"] ∧
      ((∀ (row' : TableRow) (columns' texts' : List Text), HoldsTexts row' columns' texts' →
          syncRowKey (bytesRow (bytes "7|")) [bytes "id"] = syncRowKey row' columns' →
          [bytes "7|"] = texts') ∧
        ∀ (fold : Text → Text) (left right : Row) (columns columns' texts texts' : List Text),
          ComparesTexts fold left columns texts → ComparesTexts fold right columns' texts' →
          watermarkCompositeRowKey fold left columns =
            watermarkCompositeRowKey fold right columns' →
          texts = texts') :=
  ⟨holdsTexts_bytesRow _, (rowKeys_tell_iff (by simp) (holdsTexts_bytesRow _)).mpr (by decide)⟩

/-- Two bytes at which no rune starts have the same key. -/
theorem rowKeys_tell_fails : ¬ ∀ (row row' : TableRow) (columns columns' texts texts' : List Text),
    columns ≠ [] → HoldsTexts row columns texts → HoldsTexts row' columns' texts' →
    syncRowKey row columns = syncRowKey row' columns' → texts = texts' := by
  intro h
  have hsame := h _ _ _ _ _ _ (by simp) (holdsTexts_bytesRow [0xFF])
    (holdsTexts_bytesRow [0xFE]) ((syncRowKey_eq_iff (by simp) (holdsTexts_bytesRow _)
      (holdsTexts_bytesRow _)).mpr (by decide))
  cases hsame

end GoNavi.Sync
