import FederatedMetrics.Record.Basic
import FederatedMetrics.Ordered

/-!
# Metrics over records

A metric counts records, sums a property, or counts the distinct texts of a property, and may
confine itself to the records of one object type. An accumulator takes the records one by one.
-/

namespace FederatedMetrics

inductive Aggregate where
  | count
  | sum (property : String)
  | countDistinct (property : String)
deriving DecidableEq, Repr

namespace Aggregate

/-- The aggregates by name, each with a function of its property. -/
inductive Operator where
  | count
  | sum
  | countDistinct
deriving DecidableEq, Repr

def Operator.names : List (String × Operator) :=
  [("count", .count), ("sum", .sum), ("count_distinct", .countDistinct)]

def encode : Aggregate → Json
  | .count => .obj [("op", .str "count")]
  | .sum property => .obj [("op", .str "sum"), ("property", .str property)]
  | .countDistinct property => .obj [("op", .str "count_distinct"), ("property", .str property)]

/-- Read the aggregate of an operator. A count has no property; in an array null takes its place. -/
def ofOperator (f : Json.Fields) : Operator → Json.FieldResult Aggregate
  | .count =>
      if f.named then (fun _ => .count) <$> f.withDefault 1 ["property"] Json.nothing ()
      else (fun _ => .count) <$> f.required 1 ["property"] Json.nothing
  | .sum => Aggregate.sum <$> f.required 1 ["property"] Json.text
  | .countDistinct => Aggregate.countDistinct <$> f.required 1 ["property"] Json.text

/-- The operator and its property are fields of one object, or the two items of an array. -/
def decode : Json.Decoder Aggregate := Json.record 2 fun f =>
  match f.required 0 ["op"] (Json.choice Operator.names) with
  | .value operator => ofOperator f operator
  | .fault place error => .fault place error

end Aggregate

/-- How a metric is computed for one display category. -/
structure MetricDefinition where
  aggregate : Aggregate
  objectType : Option String
deriving DecidableEq, Repr

namespace MetricDefinition

/-- Whether a record contributes to the metric. -/
def accepts (d : MetricDefinition) (r : Record) : Bool :=
  match d.objectType with
  | none => true
  | some objectType => r.objectType = objectType

def encode (d : MetricDefinition) : Json :=
  .obj [("aggregate", d.aggregate.encode), ("object_type", d.objectType.elim .null .str)]

def decode : Json.Decoder MetricDefinition := Json.record 2 fun f =>
  MetricDefinition.mk <$> f.required 0 ["aggregate"] Aggregate.decode
    <*> f.withDefault 1 ["object_type"] (Json.nullable Json.text) none

end MetricDefinition

/-- The state of a metric after some records: a total, or the distinct texts in ascending order. -/
inductive Accumulator where
  | total (sum : Float)
  | distinct (texts : List String)
deriving DecidableEq, Repr

namespace Accumulator

def start : Aggregate → Accumulator
  | .countDistinct _ => .distinct []
  | _ => .total 0.0

/-- Take one more record that the metric accepts. -/
def add (aggregate : Aggregate) (r : Record) : Accumulator → Accumulator
  | .total sum =>
      match aggregate with
      | .count => .total (sum + 1.0)
      | .sum property => .total (sum + r.numberOf property)
      | .countDistinct _ => .total sum
  | .distinct texts =>
      match aggregate with
      | .countDistinct property =>
          if r.hasProperty property then .distinct (Ordered.insert (r.textOf property) texts)
          else .distinct texts
      | _ => .distinct texts

/-- Take one more record if the metric accepts it. -/
def push (d : MetricDefinition) (r : Record) (a : Accumulator) : Accumulator :=
  if d.accepts r then a.add d.aggregate r else a

def value : Accumulator → Float
  | .total sum => sum
  | .distinct texts => Decimal.ofInt texts.length

end Accumulator

end FederatedMetrics
