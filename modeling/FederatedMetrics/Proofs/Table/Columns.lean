import FederatedMetrics.Table.Harmonize
import Mathlib.Data.List.Forall2
import Mathlib.Data.List.Nodup
import Mathlib.Data.List.Perm.Subperm
import Mathlib.Logic.Equiv.Defs
import Mathlib.Order.Basic

/-!
# Moving columns

A table is rearranged by a permutation of column numbers when every column is found, with its header
and all its cells, in the place that the permutation gives it. Bringing group-bys from one order into
another reads every column of the new table from a column of the old one, its origin; whole columns
move if and only if no two columns share an origin and none outside the group-bys is written over.
-/

namespace FederatedMetrics

/-- Every column of a table, its header and its cells, is read from a column of another table, row by
row. -/
def ResultTable.ColumnsFrom (source : Nat → Nat) (t u : ResultTable) : Prop :=
  (∀ column, u.headers[column]? = t.headers[source column]?) ∧
    List.Forall₂ (fun row moved => ∀ column, moved[column]? = row[source column]?) t.rows u.rows

/-- A table has the group-by columns of another one in some order, and all other columns in their
places. -/
def KeyLayout.Rearranges (k : KeyLayout) (t u : ResultTable) : Prop :=
  ∃ π : Equiv.Perm Nat,
    (∀ column, column < k.offset ∨ k.width ≤ column → π column = column) ∧ t.ColumnsFrom π u

/-- A table has the columns in front of its metrics that a layout says, the group-bys under their
labels. -/
structure KeyLayout.Describes (k : KeyLayout) (t : ResultTable) : Prop where
  width_le : k.width ≤ t.headers.length
  labels_eq : (t.headers.drop k.offset).take k.labels.length = k.labels

/-- Bringing labels into the order of a target moves whole columns: nothing is to be moved, or the
target repeats no label and lists the first of the labels. -/
def MovesColumns (current target : List String) : Prop :=
  current = target ∨ target.Nodup ∧ (current.take target.length).Perm target

theorem KeyLayout.Rearranges.refl (k : KeyLayout) (t : ResultTable) : k.Rearranges t t :=
  ⟨Equiv.refl Nat, fun _ _ => rfl, fun _ => rfl, List.forall₂_same.mpr fun _ _ _ => rfl⟩

theorem getElem?_overwrite {α : Type} (place : Nat) (items cells : List α)
    (h : place + items.length ≤ cells.length) (column : Nat) :
    (overwrite place items cells)[column]? =
      if place ≤ column ∧ column < place + items.length then items[column - place]?
      else cells[column]? := by
  have htake : (cells.take place).length = place := by simp; omega
  by_cases hbefore : column < place
  · rw [if_neg (by omega), overwrite, List.append_assoc, List.getElem?_append_left (by omega),
      List.getElem?_take_of_lt hbefore]
  · by_cases hinside : column < place + items.length
    · rw [if_pos ⟨by omega, hinside⟩, overwrite, List.append_assoc,
        List.getElem?_append_right (by omega), List.getElem?_append_left (by omega), htake]
    · rw [if_neg (by omega), overwrite, List.getElem?_append_right (by simp; omega),
        List.getElem?_drop]
      congr 1
      simp only [List.length_append, htake]
      omega

/-- Places that all lie in a list pick one cell each. -/
theorem map_some_pick {α : Type} (places : List Nat) (cells : List α)
    (h : ∀ place ∈ places, place < cells.length) :
    (places.filterMap fun place => cells[place]?).map some = places.map fun place => cells[place]? := by
  induction places with
  | nil => rfl
  | cons place rest ih =>
      have hlt : place < cells.length := h place (by simp)
      have hrest := ih fun other hother => h other (by simp [hother])
      simp only [List.filterMap_cons, List.map_cons, List.getElem?_eq_getElem hlt, hrest]

theorem idxOf?_eq_some_idxOf {α : Type} [BEq α] [LawfulBEq α] {a : α} {items : List α}
    (h : a ∈ items) : items.idxOf? a = some (items.idxOf a) := by
  obtain ⟨i, hi⟩ := Option.isSome_iff_exists.mp (List.isSome_idxOf?.mpr h)
  rw [List.idxOf_eq_getD_idxOf?, hi, Option.getD_some]

theorem filterMap_idxOf? {α : Type} [BEq α] [LawfulBEq α] {items others : List α}
    (h : ∀ a ∈ others, a ∈ items) :
    (others.filterMap fun a => items.idxOf? a) = others.map fun a => items.idxOf a := by
  induction others with
  | nil => rfl
  | cons a rest ih =>
      have ha := idxOf?_eq_some_idxOf (h a (by simp))
      have hrest := ih fun other hother => h other (by simp [hother])
      simp only [List.filterMap_cons, ha, hrest, List.map_cons]

namespace ResultTable

/-- The cells that a permuted list takes from the places and those that it keeps. -/
theorem getElem?_permute {α : Type} {offset : Nat} {places : List Nat} {cells : List α}
    (hread : ∀ place ∈ places, place < cells.length)
    (hwrite : offset + places.length ≤ cells.length) (column : Nat) :
    (permute offset places cells)[column]? =
      if h : offset ≤ column ∧ column - offset < places.length then cells[places[column - offset]]?
      else cells[column]? := by
  have hpick := map_some_pick places cells hread
  have hlength : (places.filterMap fun place => cells[place]?).length = places.length := by
    simpa using congrArg List.length hpick
  rw [permute, getElem?_overwrite _ _ _ (by omega), hlength]
  by_cases h : offset ≤ column ∧ column - offset < places.length
  · rw [if_pos (by omega), dif_pos h]
    have hcell := congrArg (fun cells => cells[column - offset]?) hpick
    simp only [List.getElem?_map, List.getElem?_eq_getElem h.2, Option.map_some] at hcell
    rw [List.getElem?_eq_getElem (by omega)] at hcell ⊢
    simpa using hcell
  · rw [if_neg (by omega), dif_neg h]

/-- The column from which a column of the reordered table is read. -/
def origin (offset : Nat) (current target : List String) (column : Nat) : Nat :=
  if h : offset ≤ column ∧ column - offset < target.length then
    offset + current.idxOf target[column - offset]
  else column

section Origin

variable {offset : Nat} {current target : List String}

theorem origin_add {m : Nat} (h : m < target.length) :
    origin offset current target (offset + m) = offset + current.idxOf target[m] := by
  simp [origin, h]

theorem origin_of_outside {column : Nat} (h : column < offset ∨ offset + target.length ≤ column) :
    origin offset current target column = column :=
  dif_neg (by omega)

/-- The origin of a column of a table is a column of the table. -/
theorem origin_lt {width column : Nat} (hsub : ∀ label ∈ target, label ∈ current)
    (hread : offset + current.length ≤ width) (hcolumn : column < width) :
    origin offset current target column < width := by
  by_cases h : offset ≤ column ∧ column - offset < target.length
  · have := List.idxOf_lt_length_of_mem (hsub _ (List.getElem_mem h.2))
    rw [origin, dif_pos h]
    omega
  · rwa [origin, dif_neg h]

/-- All labels of the target are found if they occur among the current ones. -/
theorem positions_eq (offset : Nat) (h : ∀ label ∈ target, label ∈ current) :
    positions offset current target = target.map fun label => current.idxOf label + offset := by
  rw [positions, filterMap_idxOf? h, List.map_map]
  rfl

/-- A permuted list has every cell from its origin. -/
theorem getElem?_permute_positions {α : Type} {cells : List α}
    (hsub : ∀ label ∈ target, label ∈ current) (hread : offset + current.length ≤ cells.length)
    (hwrite : offset + target.length ≤ cells.length) (column : Nat) :
    (permute offset (positions offset current target) cells)[column]? =
      cells[origin offset current target column]? := by
  have hplaces := positions_eq offset hsub
  have hlt : ∀ place ∈ positions offset current target, place < cells.length := by
    intro place hplace
    rw [hplaces] at hplace
    obtain ⟨label, hlabel, rfl⟩ := List.mem_map.mp hplace
    have := List.idxOf_lt_length_of_mem (hsub label hlabel)
    omega
  have hlength : (positions offset current target).length = target.length := by simp [hplaces]
  rw [getElem?_permute hlt (by omega)]
  by_cases h : offset ≤ column ∧ column - offset < target.length
  · rw [dif_pos (by omega), origin, dif_pos h]
    simp [hplaces, Nat.add_comm]
  · rw [dif_neg (by omega), origin, dif_neg h]

/-- Orders without repetitions of the same labels are read from each other. -/
theorem origin_origin {first second : List String} (hnodup : second.Nodup)
    (hperm : first.Perm second) (column : Nat) :
    origin offset second first (origin offset first second column) = column := by
  by_cases h : offset ≤ column ∧ column - offset < second.length
  · obtain ⟨m, rfl⟩ := Nat.exists_eq_add_of_le h.1
    have hm : m < second.length := by omega
    have hmem : second[m] ∈ first := hperm.mem_iff.mpr (List.getElem_mem hm)
    have hlt : first.idxOf second[m] < first.length := List.idxOf_lt_length_of_mem hmem
    rw [origin_add hm, origin_add hlt, List.getElem_idxOf hlt, hnodup.idxOf_getElem m hm]
  · have hlength := hperm.length_eq
    have hsame : origin offset first second column = column := origin_of_outside (by omega)
    rw [hsame, origin_of_outside (by omega)]

/-- The origins below a target that lists the first of the labels do not depend on the others. -/
theorem origin_take (hsub : ∀ label ∈ target, label ∈ current.take target.length) :
    origin offset (current.take target.length) target = origin offset current target := by
  funext column
  by_cases h : offset ≤ column ∧ column - offset < target.length
  · obtain ⟨m, rfl⟩ := Nat.exists_eq_add_of_le h.1
    have hm : m < target.length := by omega
    have hmem := hsub target[m] (List.getElem_mem hm)
    rw [origin_add hm, origin_add hm]
    conv_rhs => rw [← List.take_append_drop target.length current]
    rw [List.idxOf_append_of_mem hmem]
  · rw [origin_of_outside (by omega), origin_of_outside (by omega)]

/-- A target without repetitions that lists the first labels permutes the group-by columns. -/
theorem exists_perm_eq_origin (offset : Nat) (hnodup : target.Nodup)
    (hperm : (current.take target.length).Perm target) :
    ∃ π : Equiv.Perm Nat,
      (∀ column, column < offset ∨ offset + current.length ≤ column → π column = column) ∧
        ∀ column, π column = origin offset current target column := by
  have hsub : ∀ label ∈ target, label ∈ current.take target.length :=
    fun label h => hperm.mem_iff.mpr h
  have hle : target.length ≤ current.length := by
    have := hperm.length_eq
    simp only [List.length_take] at this
    omega
  let first := current.take target.length
  let π : Equiv.Perm Nat :=
    ⟨origin offset first target, origin offset target first,
      origin_origin hnodup hperm, origin_origin (hperm.nodup_iff.mpr hnodup) hperm.symm⟩
  have hπ : ∀ column, π column = origin offset current target column :=
    fun column => congrFun (origin_take hsub) column
  refine ⟨π, ?_, hπ⟩
  intro column houtside
  rw [hπ, origin_of_outside (by omega)]

/-- If the origins of the columns up to a width are given by a permutation that leaves all columns
but the group-bys alone, then the target repeats no label and lists the first labels. -/
theorem movesColumns_of_perm {π : Equiv.Perm Nat} {width : Nat}
    (hsub : ∀ label ∈ target, label ∈ current)
    (hfixed : ∀ column, column < offset ∨ offset + current.length ≤ column → π column = column)
    (hwidth : offset + current.length ≤ width) (hwrite : offset + target.length ≤ width)
    (horigin : ∀ column < width, π column = origin offset current target column) :
    target.Nodup ∧ (current.take target.length).Perm target := by
  have hπ : ∀ m (hm : m < target.length), π (offset + m) = offset + current.idxOf target[m] :=
    fun m hm => (horigin (offset + m) (by omega)).trans (origin_add hm)
  have hlt : ∀ m (hm : m < target.length), current.idxOf target[m] < current.length :=
    fun m hm => List.idxOf_lt_length_of_mem (hsub _ (List.getElem_mem hm))
  -- A column behind the group-bys would otherwise be written over.
  have hle : target.length ≤ current.length := by
    by_contra hlonger
    have hm : current.length < target.length := by omega
    have hsame := hfixed (offset + current.length) (Or.inr (Nat.le_refl _))
    rw [hπ _ hm] at hsame
    have := hlt _ hm
    omega
  have hnodup : target.Nodup := by
    refine List.nodup_iff_injective_getElem.mpr fun m n hmn => Fin.ext ?_
    have hlabel : target[m.1] = target[n.1] := hmn
    have hsame : π (offset + m) = π (offset + n) := by rw [hπ m m.2, hπ n n.2, hlabel]
    exact Nat.add_left_cancel (π.injective hsame)
  -- The columns behind the target keep their places, so the target is read from those before.
  have hfirst : ∀ m (hm : m < target.length), current.idxOf target[m] < target.length := by
    intro m hm
    by_contra hbehind
    have hkeeps : π (offset + current.idxOf target[m]) = offset + current.idxOf target[m] := by
      rw [horigin _ (by have := hlt m hm; omega), origin_of_outside (by omega)]
    have := π.injective (hkeeps.trans (hπ m hm).symm)
    omega
  refine ⟨hnodup, ?_⟩
  have hsubset : target ⊆ current.take target.length := by
    intro label hlabel
    obtain ⟨m, hm, rfl⟩ := List.getElem_of_mem hlabel
    refine List.mem_take_iff_getElem.mpr ⟨current.idxOf target[m], ?_, List.getElem_idxOf _⟩
    exact Nat.lt_min.mpr ⟨hfirst m hm, hlt m hm⟩
  have hsubperm := List.Nodup.subperm hnodup hsubset
  exact (hsubperm.perm_of_length_le (List.length_take_le _ _)).symm

end Origin

end ResultTable

end FederatedMetrics
