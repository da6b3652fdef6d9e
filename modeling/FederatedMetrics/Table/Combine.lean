import FederatedMetrics.Plan.Basic

/-!
# Combining result tables

The combined view joins the tables of members with time buckets into one table and those without
into another. The members of one table need the same key headers, in any order. Rows are joined by
key and come in ascending order; a member without a key leaves zeros.
-/

namespace FederatedMetrics

/-- A member of a group with its plan and its result. -/
structure CombineMember where
  query : Query
  plan : Plan
  table : ResultTable

namespace CombineMember

def width (m : CombineMember) : Nat := m.plan.layout.width

def keyHeaders (m : CombineMember) : List String := m.table.headers.take m.width

/-- The number of metric columns. -/
def metricCount (m : CombineMember) : Nat := m.table.headers.length - m.width

/-- The name of a metric column: the label of a derived metric, the alias of a single metric, or the
metric. -/
def metricName (m : CombineMember) (index : Nat) : String :=
  match m.plan with
  | .derived plan => plan.label
  | .direct r =>
      if r.query.metrics.length = 1 ∧ m.query.aliasName ≠ "" then m.query.aliasName
      else r.query.metrics[index]?.getD ""

/-- The header of a metric column; metrics of channels carry their display category. -/
def metricHeader (m : CombineMember) (index : Nat) : String :=
  if m.query.category = .channels then m.query.displayCategory ++ "_" ++ m.metricName index
  else m.metricName index

def metricHeaders (m : CombineMember) : List String :=
  (List.range m.metricCount).map m.metricHeader

/-- Where the key headers of the combined table stand in this one. -/
def keyPlaces (m : CombineMember) (headers : List String) : List Nat :=
  headers.filterMap fun header => m.keyHeaders.idxOf? header

/-- The key of a row in the order of the combined table. -/
def keyOf (m : CombineMember) (headers : List String) (row : List Json) : List String :=
  (m.keyPlaces headers).map fun place => (row[place]?.getD .null).asText

end CombineMember

namespace Combine

/-- Join a row of a member whose metrics start at an offset. -/
def addRow (headers : List String) (total offset : Nat) (m : CombineMember)
    (joined : List (List String × List Json)) (row : List Json) : List (List String × List Json) :=
  Ordered.alter (m.keyOf headers row)
    (fun values =>
      overwrite offset ((row.drop m.width).take m.metricCount)
        (values.getD (List.replicate total (.ofFloat 0.0))))
    joined

/-- Join the rows of members whose metrics start at an offset. -/
def addMembers (headers : List String) (total : Nat) :
    Nat → List CombineMember → List (List String × List Json) → List (List String × List Json)
  | _, [], joined => joined
  | offset, m :: rest, joined =>
      addMembers headers total (offset + m.metricCount) rest
        (m.table.rows.foldl (addRow headers total offset m) joined)

/-- Combine members that all have time buckets or all have none. -/
def partition (members : List CombineMember) : Except Failure (List ResultTable) :=
  match members with
  | [] => .ok []
  | first :: _ =>
      let headers := first.keyHeaders
      if members.any fun m => Ordered.ofList m.keyHeaders ≠ Ordered.ofList headers then
        .error .differentKeys
      else
        let metrics := members.flatMap CombineMember.metricHeaders
        let joined := addMembers headers metrics.length 0 members []
        .ok [⟨headers ++ metrics, joined.map fun entry => entry.1.map Json.str ++ entry.2⟩]

/-- Combine the members with time buckets, then the others. -/
def combine (members : List CombineMember) : Except Failure (List ResultTable) := do
  let bucketed ← partition (members.filter fun m => m.plan.layout.bucketed)
  let flat ← partition (members.filter fun m => !m.plan.layout.bucketed)
  return bucketed ++ flat

end Combine

end FederatedMetrics
