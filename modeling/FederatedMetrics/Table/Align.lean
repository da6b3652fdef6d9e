import FederatedMetrics.Plan.Basic

/-!
# Aligning sub-queries

The tables of the sub-queries of a derived metric are joined on their keys. The formula is evaluated
for every key that occurs in one of them, on the sums of the first metric column under that key; a
sub-query without the key counts as zero.
-/

namespace FederatedMetrics

/-- The sums of the sub-queries by variable. -/
abbrev Sums := List (String × Float)

namespace Alignment

/-- Add a row of a sub-query to the sums of its key. -/
def addRow (width : Nat) (name : String) (row : List Json) (joined : List (List String × Sums)) :
    List (List String × Sums) :=
  Ordered.alter ((row.take width).map Json.asText)
    (fun sums =>
      Ordered.alter name (fun sum => sum.getD 0.0 + (row[width]?.getD .null).asNumber)
        (sums.getD []))
    joined

/-- Add the rows of a sub-query, all of which have to be as wide as its headers. -/
def addRows (width headers : Nat) (name : String) :
    List (List Json) → List (List String × Sums) → Except Failure (List (List String × Sums))
  | [], joined => .ok joined
  | row :: rest, joined =>
      if row.length ≠ headers then .error (.malformedRow name)
      else addRows width headers name rest (addRow width name row joined)

/-- Add the table of a sub-query, which needs a column behind the keys. -/
def addTable (width : Nat) (joined : List (List String × Sums)) (entry : String × ResultTable) :
    Except Failure (List (List String × Sums)) :=
  if entry.2.headers.length ≤ width then .error (.missingMetricColumn entry.1)
  else addRows width entry.2.headers.length entry.1 entry.2.rows joined

/-- The value of a variable of the plan under one key. -/
def valueOf (a : Alignment) (sums : Sums) (name : String) : Option Float :=
  if a.variableNames.contains name then some ((Ordered.find? name sums).getD 0.0) else none

/-- The row of one key. -/
def row (a : Alignment) (entry : List String × Sums) : Except Failure (List Json) :=
  match a.formula.eval (a.valueOf entry.2) with
  | .ok x => .ok (entry.1.map Json.str ++ [.ofFloat (x * (if a.percentage then 100.0 else 1.0))])
  | .error e => .error (.formula e)

/-- Join the tables of the sub-queries and evaluate the formula for every key. -/
def align (a : Alignment) (tables : List (String × ResultTable)) : Except Failure ResultTable := do
  let joined ← tables.foldlM (addTable a.layout.width) []
  let rows ← joined.mapM a.row
  return ⟨a.layout.headers ++ [a.label], rows⟩

end Alignment

end FederatedMetrics
