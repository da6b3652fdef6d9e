import FederatedMetrics.Json.Decoder
import FederatedMetrics.Json.Cell

/-!
# Result tables

A table has headers and rows of cells. The columns of a result are the time bucket, if there is one,
then the group-bys, then the metrics; `KeyLayout` describes the part in front of the metrics.
-/

namespace FederatedMetrics

structure ResultTable where
  headers : List String
  rows : List (List Json)
deriving Repr

/-- The header of the column of time buckets. -/
def datetimeHeader : String := "datetime"

namespace ResultTable

/-- The table that stands in for a result when a group fails. -/
def empty : ResultTable := ⟨[], []⟩

def isEmpty (t : ResultTable) : Bool := t.headers.isEmpty && t.rows.isEmpty

/-- The first column with a header. -/
def columnIndex? (t : ResultTable) (header : String) : Option Nat := t.headers.idxOf? header

def hasDatetime (t : ResultTable) : Bool := t.headers.head? = some datetimeHeader

/-- Whether every row is as wide as the headers. -/
def isRectangular (t : ResultTable) : Bool := t.rows.all fun row => row.length = t.headers.length

def encode (t : ResultTable) : Json :=
  .obj [("headers", .arr (t.headers.map Json.str)), ("rows", .arr (t.rows.map Json.arr))]

def decode : Json.Decoder ResultTable := Json.record 2 fun f =>
  ResultTable.mk <$> f.required 0 ["headers"] (Json.listOf Json.text)
    <*> f.required 1 ["rows"] (Json.listOf (Json.listOf Json.anyValue))

end ResultTable

/-- Write items over those of a list from a place on. -/
def overwrite {α : Type} (place : Nat) (items cells : List α) : List α :=
  cells.take place ++ items ++ cells.drop (place + items.length)

theorem length_overwrite {α : Type} (place : Nat) (items cells : List α)
    (h : place + items.length ≤ cells.length) : (overwrite place items cells).length = cells.length := by
  simp only [overwrite, List.length_append, List.length_take, List.length_drop]
  omega

/-- The columns in front of the metrics: the time bucket, if there is one, and the group-bys. -/
structure KeyLayout where
  bucketed : Bool
  labels : List String
deriving DecidableEq, Repr

namespace KeyLayout

/-- The number of columns in front of the group-bys. -/
def offset (k : KeyLayout) : Nat := k.bucketed.toNat

/-- The number of columns in front of the metrics. -/
def width (k : KeyLayout) : Nat := k.offset + k.labels.length

/-- The headers in front of the metrics. -/
def headers (k : KeyLayout) : List String :=
  (if k.bucketed then [datetimeHeader] else []) ++ k.labels

theorem length_headers (k : KeyLayout) : k.headers.length = k.width := by
  cases h : k.bucketed <;> simp [headers, width, offset, h, Nat.add_comm]

end KeyLayout

end FederatedMetrics
