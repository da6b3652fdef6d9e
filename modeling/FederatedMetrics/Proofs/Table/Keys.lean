import FederatedMetrics.Json.Cell
import FederatedMetrics.Proofs.Failure
import FederatedMetrics.Proofs.Table.Columns
import Mathlib.Data.Fintype.EquivFin

/-!
# Keys of rows

The key of a row is the texts of its first cells. The keys of a table stay distinct when its key
columns are read from one another, unless a column is lost; none is lost if no two key headers of the
new table are equal.
-/

namespace FederatedMetrics

/-- The text of a cell of a row, where a cell that is missing reads like null. -/
def cellText (row : List Json) (column : Nat) : String := (row[column]?.getD .null).asText

/-- The texts of the first cells of a row. -/
def keyTexts (width : Nat) (row : List Json) : List String := (List.range width).map (cellText row)

theorem keyTexts_eq_map_take {width : Nat} {row : List Json} (h : width ≤ row.length) :
    keyTexts width row = (row.take width).map Json.asText := by
  apply List.ext_getElem (by simp [keyTexts, h])
  intro column hcolumn _
  have hlt : column < width := by simpa [keyTexts] using hcolumn
  simp [keyTexts, cellText, List.getElem?_eq_getElem (Nat.lt_of_lt_of_le hlt h)]

/-- Texts that are written in front of a row are its key. -/
theorem keyTexts_map_str (texts : List String) (cells : List Json) :
    keyTexts texts.length (texts.map Json.str ++ cells) = texts := by
  rw [keyTexts_eq_map_take (by simp), List.take_left' (by simp), List.map_map]
  exact List.map_id' _

/-- Columns below a width that are injectively read from columns below it are all read. -/
theorem exists_column_eq {width : Nat} {source : Nat → Nat}
    (hsource : ∀ column < width, source column < width)
    (hinjective : ∀ column < width, ∀ other < width, source column = source other → column = other) :
    ∃ inverse : Nat → Nat, ∀ column < width,
      inverse column < width ∧ source (inverse column) = column := by
  let moved : Fin width → Fin width := fun column => ⟨source column, hsource column column.isLt⟩
  have hmoved : Function.Injective moved := by
    intro column other heq
    exact Fin.ext (hinjective column column.isLt other other.isLt (congrArg Fin.val heq))
  have hsurjective : ∀ column, ∃ back, column < width → back < width ∧ source back = column := by
    intro column
    by_cases hlt : column < width
    · obtain ⟨back, hback⟩ := Finite.injective_iff_surjective.mp hmoved ⟨column, hlt⟩
      exact ⟨back, fun _ => ⟨back.isLt, congrArg Fin.val hback⟩⟩
    · exact ⟨0, fun h => absurd h hlt⟩
  choose inverse hinverse using hsurjective
  exact ⟨inverse, hinverse⟩

namespace ResultTable

/-- No two rows of a table have the same texts in the first columns. -/
def DistinctKeys (t : ResultTable) (width : Nat) : Prop := (t.rows.map (keyTexts width)).Nodup

instance (t : ResultTable) (width : Nat) : Decidable (t.DistinctKeys width) :=
  inferInstanceAs (Decidable (List.Nodup _))

variable {t u : ResultTable} {source : Nat → Nat} {width : Nat}

/-- The rows of a rectangular table are as wide as its headers. -/
theorem length_of_isRectangular (h : t.isRectangular = true) {row : List Json} (hrow : row ∈ t.rows) :
    row.length = t.headers.length := by
  simpa using List.all_eq_true.mp h row hrow

/-- Lists that are read from lists of one length in the same way have one length. -/
theorem ColumnsFrom.isRectangular (hcolumns : t.ColumnsFrom source u) (h : t.isRectangular = true) :
    u.isRectangular = true := by
  refine List.all_eq_true.mpr fun moved hmoved => decide_eq_true ?_
  obtain ⟨row, hrow, hcells⟩ := exists_of_mem_of_forall₂ hcolumns.2 hmoved
  have hlength := length_of_isRectangular h hrow
  have hsame : ∀ column, moved.length ≤ column ↔ u.headers.length ≤ column := by
    intro column
    rw [← List.getElem?_eq_none_iff, ← List.getElem?_eq_none_iff, hcells, hcolumns.1,
      List.getElem?_eq_none_iff, List.getElem?_eq_none_iff, hlength]
  exact Nat.le_antisymm ((hsame _).mpr (Nat.le_refl _)) ((hsame _).mp (Nat.le_refl _))

/-- A table that is read from another one has at least as many columns as can be read. -/
theorem ColumnsFrom.width_le (hcolumns : t.ColumnsFrom source u)
    (hsource : ∀ column < width, source column < t.headers.length) : width ≤ u.headers.length := by
  by_contra hnarrow
  have hlast := hcolumns.1 u.headers.length
  rw [List.getElem?_eq_none (Nat.le_refl _)] at hlast
  have := hsource _ (Nat.lt_of_not_le hnarrow)
  exact absurd (List.getElem?_eq_none_iff.mp hlast.symm) (by omega)

/-- If key columns are read from key columns and no two headers among them are equal, then rows with
different keys are still different. -/
theorem DistinctKeys.columnsFrom (h : t.DistinctKeys width) (hcolumns : t.ColumnsFrom source u)
    (hsource : ∀ column < width, source column < width) (hwidth : width ≤ t.headers.length)
    (hheaders : (u.headers.take width).Nodup) : u.DistinctKeys width := by
  have hwide : width ≤ u.headers.length := hcolumns.width_le fun column hcolumn =>
    Nat.lt_of_lt_of_le (hsource column hcolumn) hwidth
  have hinjective : ∀ column < width, ∀ other < width, source column = source other →
      column = other := by
    intro column hcolumn other hother heq
    have hread : (u.headers.take width)[column]? = (u.headers.take width)[other]? := by
      rw [List.getElem?_take_of_lt hcolumn, List.getElem?_take_of_lt hother, hcolumns.1, hcolumns.1,
        heq]
    exact (List.getElem?_inj (by simp; omega) hheaders).mp hread
  obtain ⟨inverse, hinverse⟩ := exists_column_eq hsource hinjective
  -- The old key of a row can be told from its new one.
  let restore (texts : List String) : List String :=
    (List.range width).map fun column => texts[inverse column]?.getD ""
  have hrestore : List.Forall₂ (fun row moved => keyTexts width row = restore (keyTexts width moved))
      t.rows u.rows := by
    refine hcolumns.2.imp fun row moved hcells => List.map_congr_left ?_
    intro column hcolumn
    obtain ⟨hlt, hback⟩ := hinverse column (List.mem_range.mp hcolumn)
    simp [keyTexts, List.getElem?_range hlt, cellText, hcells, hback]
  have hrows : t.rows.map (keyTexts width) = (u.rows.map (keyTexts width)).map restore := by
    rw [List.map_map]
    exact map_eq_map_of_forall₂ hrestore
  exact List.Nodup.of_map restore (hrows ▸ h)

end ResultTable

end FederatedMetrics
