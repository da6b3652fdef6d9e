import FederatedMetrics.Table.Align
import FederatedMetrics.Proofs.Formula.Expr
import FederatedMetrics.Proofs.Ordered
import FederatedMetrics.Proofs.Table.Keys
import Mathlib.Data.String.Basic

/-!
# What aligning sub-queries answers

An aligned table has the key columns of its plan in front, and its rows have distinct keys. Aligning
fails at a table of another shape; a formula fails only if it has a variable that stands for no
sub-query.
-/

namespace FederatedMetrics

/-- Whether a table has a column behind the keys, and rows as wide as its headers. -/
def ResultTable.Fits (width : Nat) (t : ResultTable) : Prop :=
  width < t.headers.length ∧ t.isRectangular = true

namespace Alignment

variable {a : Alignment} {width : Nat} {joined out : List (List String × Sums)}

theorem headers_of_align {tables : List (String × ResultTable)} {t : ResultTable}
    (h : a.align tables = .ok t) : t.headers = a.layout.headers ++ [a.label] := by
  rw [align] at h
  obtain ⟨joined, -, h⟩ := bind_eq_ok_iff.mp h
  obtain ⟨rows, -, h⟩ := bind_eq_ok_iff.mp h
  cases h
  rfl

/-- An aligned table has a row for every joined key. -/
theorem exists_joined_of_align {tables : List (String × ResultTable)} {t : ResultTable}
    (h : a.align tables = .ok t) :
    ∃ joined, tables.foldlM (addTable a.layout.width) [] = .ok joined ∧
      List.Forall₂ (fun entry row => a.row entry = .ok row) joined t.rows := by
  rw [align] at h
  obtain ⟨joined, hjoin, h⟩ := bind_eq_ok_iff.mp h
  obtain ⟨rows, hrows, h⟩ := bind_eq_ok_iff.mp h
  cases h
  exact ⟨joined, hjoin, mapM_eq_ok_iff.mp hrows⟩

/-- An aligned table has the key columns of the plan in front. -/
theorem describes_of_align {tables : List (String × ResultTable)} {t : ResultTable}
    (h : a.align tables = .ok t) : a.layout.Describes t := by
  have hheaders := headers_of_align h
  constructor
  · rw [hheaders, List.length_append, KeyLayout.length_headers]
    omega
  · rw [hheaders, KeyLayout.headers, KeyLayout.offset, List.append_assoc]
    cases a.layout.bucketed <;> simp

theorem kind_of_addRows {width headers : Nat} {name : String} {rows : List (List Json)}
    {joined : List (List String × Sums)} {f : Failure}
    (h : addRows width headers name rows joined = .error f) : f.kind = .executionFailure := by
  induction rows generalizing joined with
  | nil => cases h
  | cons row rest ih =>
      rw [addRows] at h
      split at h
      · cases h
        rfl
      · exact ih h

theorem kind_of_addTable {width : Nat} {joined : List (List String × Sums)}
    {entry : String × ResultTable} {f : Failure} (h : addTable width joined entry = .error f) :
    f.kind = .executionFailure := by
  rw [addTable] at h
  split at h
  · cases h
    rfl
  · exact kind_of_addRows h

theorem exists_of_row_eq_error {entry : List String × Sums} {f : Failure}
    (h : a.row entry = .error f) :
    ∃ name ∈ a.formula.variableNames, name ∉ a.variableNames ∧
      f = .formula (.unknownVariable name) := by
  rw [row] at h
  split at h
  · cases h
  · rename_i error herror
    cases h
    obtain ⟨name, hname, hnone, rfl⟩ := Expr.exists_of_eval_eq_error herror
    refine ⟨name, (Ordered.mem_ofList name _).mpr hname, ?_, rfl⟩
    intro hmem
    simp [valueOf, hmem] at hnone

/-- Aligning fails as a failure of the execution if all variables of the formula stand for
sub-queries. -/
theorem kind_of_align {tables : List (String × ResultTable)} {f : Failure}
    (hnames : ∀ name ∈ a.formula.variableNames, name ∈ a.variableNames)
    (h : a.align tables = .error f) : f.kind = .executionFailure := by
  rw [align] at h
  rcases bind_eq_error_iff.mp h with hjoin | ⟨joined, -, h⟩
  · obtain ⟨entry, -, _, hentry⟩ := exists_of_foldlM_eq_error hjoin
    exact kind_of_addTable hentry
  · rcases bind_eq_error_iff.mp h with hrows | ⟨rows, -, hnever⟩
    · obtain ⟨entry, -, hentry⟩ := exists_of_mapM_eq_error hrows
      obtain ⟨name, hname, hunknown, -⟩ := exists_of_row_eq_error hentry
      exact absurd (hnames name hname) hunknown
    · cases hnever

/-- The rows of all sub-queries with their variables. -/
def entries (tables : List (String × ResultTable)) : List (String × List Json) :=
  tables.flatMap fun entry => entry.2.rows.map fun row => (entry.1, row)

theorem addRows_eq_ok_iff {headers : Nat} {name : String} {rows : List (List Json)} :
    addRows width headers name rows joined = .ok out ↔
      (∀ row ∈ rows, row.length = headers) ∧
        out = rows.foldl (fun joined row => addRow width name row joined) joined := by
  induction rows generalizing joined with
  | nil => simp [addRows, eq_comm]
  | cons row rest ih =>
      rw [addRows, List.forall_mem_cons, List.foldl_cons]
      split
      · simp [*]
      · simp_all

theorem addTable_eq_ok_iff {entry : String × ResultTable} :
    addTable width joined entry = .ok out ↔
      entry.2.Fits width ∧
        out = entry.2.rows.foldl (fun joined row => addRow width entry.1 row joined) joined := by
  have hrect : entry.2.isRectangular = true ↔
      ∀ row ∈ entry.2.rows, row.length = entry.2.headers.length := by
    simp [ResultTable.isRectangular]
  rw [addTable, ResultTable.Fits, hrect]
  split
  · rename_i hnarrow
    simp [Nat.not_lt.mpr hnarrow]
  · rename_i hwide
    rw [addRows_eq_ok_iff]
    simp [Nat.not_le.mp hwide]

/-- The tables of sub-queries are joined if and only if all of them fit, row by row. -/
theorem foldlM_addTable_eq_ok_iff {tables : List (String × ResultTable)} :
    tables.foldlM (addTable width) joined = .ok out ↔
      (∀ entry ∈ tables, entry.2.Fits width) ∧
        out = (entries tables).foldl (fun joined entry => addRow width entry.1 entry.2 joined)
          joined := by
  induction tables generalizing joined with
  | nil => simp [entries, pure, Except.pure, eq_comm]
  | cons entry rest ih =>
      rw [List.foldlM_cons, bind_eq_ok_iff, List.forall_mem_cons, entries, List.flatMap_cons,
        List.foldl_append, List.foldl_map]
      constructor
      · rintro ⟨next, hnext, hrest⟩
        obtain ⟨hfits, rfl⟩ := addTable_eq_ok_iff.mp hnext
        obtain ⟨hothers, rfl⟩ := ih.mp hrest
        exact ⟨⟨hfits, hothers⟩, rfl⟩
      · rintro ⟨⟨hfits, hothers⟩, rfl⟩
        exact ⟨_, addTable_eq_ok_iff.mpr ⟨hfits, rfl⟩, ih.mpr ⟨hothers, rfl⟩⟩

/-- What the joined sums are like: their keys ascend strictly and are as wide as the key columns. -/
structure IsJoined (width : Nat) (joined : List (List String × Sums)) : Prop where
  ascending : joined.Pairwise fun entry other => entry.1 < other.1
  sized : ∀ entry ∈ joined, entry.1.length = width

theorem isJoined_nil (width : Nat) : IsJoined width [] := ⟨.nil, by simp⟩

theorem IsJoined.addRow (h : IsJoined width joined) {name : String} {row : List Json}
    (hrow : width ≤ row.length) : IsJoined width (addRow width name row joined) where
  ascending := Ordered.pairwise_keys_alter _ _ h.ascending
  sized entry hentry := by
    rcases Ordered.mem_alter hentry with rfl | hentry
    · simpa using hrow
    · exact h.sized entry hentry

theorem IsJoined.addEntries {entries : List (String × List Json)} (h : IsJoined width joined)
    (hrows : ∀ entry ∈ entries, width ≤ entry.2.length) :
    IsJoined width
      (entries.foldl (fun joined entry => Alignment.addRow width entry.1 entry.2 joined) joined) := by
  induction entries generalizing joined with
  | nil => exact h
  | cons entry rest ih =>
      obtain ⟨hentry, hrest⟩ := List.forall_mem_cons.mp hrows
      exact ih (h.addRow hentry) hrest

/-- The row of a key has that key. -/
theorem keyTexts_of_row {entry : List String × Sums} {row : List Json} (h : a.row entry = .ok row) :
    keyTexts entry.1.length row = entry.1 := by
  rw [Alignment.row] at h
  split at h
  · cases h
    exact keyTexts_map_str _ _
  · cases h

theorem isJoined_of_foldlM {tables : List (String × ResultTable)}
    (h : tables.foldlM (addTable width) [] = .ok joined) : IsJoined width joined := by
  obtain ⟨hfits, rfl⟩ := foldlM_addTable_eq_ok_iff.mp h
  refine (isJoined_nil width).addEntries fun entry hentry => ?_
  obtain ⟨table, htable, hentry⟩ := List.mem_flatMap.mp hentry
  obtain ⟨row, hrow, rfl⟩ := List.mem_map.mp hentry
  obtain ⟨hwide, hrect⟩ := hfits table htable
  have hlength : row.length = table.2.headers.length := ResultTable.length_of_isRectangular hrect hrow
  exact hlength ▸ Nat.le_of_lt hwide

/-- The rows of an aligned table have distinct keys. -/
theorem distinctKeys_of_align {tables : List (String × ResultTable)} {t : ResultTable}
    (h : a.align tables = .ok t) : t.DistinctKeys a.layout.width := by
  obtain ⟨joined, hjoin, hrows⟩ := exists_joined_of_align h
  have hjoined := isJoined_of_foldlM hjoin
  have hkeyed : List.Forall₂ (fun entry row => entry.1 = keyTexts a.layout.width row) joined
      t.rows := by
    have hpairs := (List.forall₂_and_left _ _).mpr ⟨hjoined.sized, hrows⟩
    exact hpairs.imp fun entry row h => by rw [← h.1, keyTexts_of_row h.2]
  rw [ResultTable.DistinctKeys, ← map_eq_map_of_forall₂ hkeyed]
  exact List.pairwise_map.mpr (hjoined.ascending.imp fun hlt => hlt.ne)

end Alignment

end FederatedMetrics
