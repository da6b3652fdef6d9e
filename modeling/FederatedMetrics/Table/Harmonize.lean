import FederatedMetrics.Table.Basic
import FederatedMetrics.Failure
import FederatedMetrics.Ordered

/-!
# Harmonizing result tables

The tables of a group are checked, and those with the same set of group-bys get the column order of
the first of them. Columns are moved by writing the picked cells from the first group-by column
on, one for every label of the target. A table that lacks a column which is moved or written over
leaves the group without an answer.
-/

namespace FederatedMetrics

namespace ResultTable

/-- Check the width of the rows and the presence of the global group-bys. -/
def checkShape (index : Nat) (globals : List String) (t : ResultTable) : Except Failure Unit :=
  match t.rows.find? fun row => row.length ≠ t.headers.length with
  | some row => .error (.rowWidth index row.length t.headers.length)
  | none =>
      match globals.find? fun label => !t.headers.contains label with
      | some label => .error (.missingGlobalColumn index label)
      | none => .ok ()

/-- Check tables from an index on. -/
def checkShapes (globals : List String) : Nat → List ResultTable → Except Failure Unit
  | _, [] => .ok ()
  | index, t :: rest => do
      t.checkShape index globals
      checkShapes globals (index + 1) rest

/-- Where the labels of the target stand among the current ones, behind an offset. -/
def positions (offset : Nat) (current target : List String) : List Nat :=
  (target.filterMap fun label => current.idxOf? label).map (· + offset)

/-- Move the cells at the positions to the places from the offset on. -/
def permute {α : Type} (offset : Nat) (places : List Nat) (cells : List α) : List α :=
  overwrite offset (places.filterMap fun place => cells[place]?) cells

/-- Whether a table has all of some columns. -/
def hasColumns (t : ResultTable) (columns : List Nat) : Bool :=
  columns.all fun column => column < t.headers.length

/-- Bring the group-by columns from one order into another. There is no answer if the table lacks a
column that is moved or written over. -/
def reorder? (t : ResultTable) (offset : Nat) (current target : List String) :
    Option ResultTable :=
  let places := positions offset current target
  if current = target then some t
  else if places.length ≠ target.length then some t
  else if t.hasColumns (places ++ List.range' offset places.length) then
    some ⟨permute offset places t.headers, t.rows.map (permute offset places)⟩
  else none

end ResultTable

namespace Harmonize

/-- The label orders by label set that tables have brought up. -/
abbrev Orders := List (List String × List String)

/-- The order for a set of labels, which is the given one if the set is new. -/
def orderFor (orders : Orders) (labels : List String) : List String × Orders :=
  let set := Ordered.ofList labels
  match orders.lookup set with
  | some order => (order, orders)
  | none => (labels, (set, labels) :: orders)

/-- Bring tables into the orders of those before them. -/
def arrange : Orders → List (KeyLayout × ResultTable) → Option (List ResultTable)
  | _, [] => some []
  | orders, (layout, t) :: rest =>
      if layout.labels.length < 2 then do
        let tables ← arrange orders rest
        return t :: tables
      else do
        let (order, orders) := orderFor orders layout.labels
        let moved ← t.reorder? layout.offset layout.labels order
        let tables ← arrange orders rest
        return moved :: tables

/-- Check the tables of a group and give those with the same group-bys one column order. The inner
answer is missing when a table lacks a column that is moved. -/
def finalize (layouts : List KeyLayout) (tables : List ResultTable) (globals : List String) :
    Except Failure (Option (List ResultTable)) := do
  if layouts.length ≠ tables.length then throw (.tableCount layouts.length tables.length)
  ResultTable.checkShapes globals 0 tables
  return arrange [] (layouts.zip tables)

end Harmonize

end FederatedMetrics
