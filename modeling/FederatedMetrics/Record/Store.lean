import FederatedMetrics.Record.Metric
import FederatedMetrics.Record.Selection
import FederatedMetrics.Query.Basic
import FederatedMetrics.Table.Basic

/-!
# Record stores

A store holds the records and the metrics of one category and answers queries from them. The keys of
an answer come from all records of the window, whether the filters admit them or not, so a filter
never removes a row; it only leaves the metrics at zero.
-/

namespace FederatedMetrics

/-- Records in the order of insertion, and metrics by display category and name, the latest
first. -/
structure RecordStore where
  records : List Record
  metrics : List ((String × String) × MetricDefinition)

/-- The accumulators of one bucket by key. -/
abbrev Tally := List (List String × List Accumulator)

namespace RecordStore

def empty : RecordStore := ⟨[], []⟩

def insert (s : RecordStore) (records : List Record) : RecordStore :=
  { s with records := s.records ++ records }

/-- Define a metric, in the place of an earlier definition of the same name. -/
def define (s : RecordStore) (displayCategory name : String) (d : MetricDefinition) : RecordStore :=
  { s with metrics := ((displayCategory, name), d) :: s.metrics }

def metric (s : RecordStore) (displayCategory name : String) : Except Failure MetricDefinition :=
  match s.metrics.lookup (displayCategory, name) with
  | some d => .ok d
  | none => .error (.unknownMetric name displayCategory)

/-- The records of a project and display category in a window. -/
def inWindow (s : RecordStore) (projectId : Int) (q : Query) : List Record :=
  s.records.filter fun r =>
    r.projectId = projectId && r.displayCategory = q.displayCategory
      && decide (q.first ≤ r.timestamp) && decide (r.timestamp ≤ q.last)

/-- The texts of the group-by properties of a record. -/
def keyOf (q : Query) (r : Record) : List String := q.groupBys.map fun g => r.textOf g.propertyName

/-- The keys of an answer in ascending order; without group-bys there is just the empty one. -/
def keySpace (q : Query) (records : List Record) : List (List String) :=
  if q.groupBys.isEmpty then [[]] else Ordered.ofList (records.map (keyOf q))

/-- The place of the last label that is equal to a given one. -/
def lastIndexOf? (label : String) (labels : List String) : Option Nat :=
  (labels.reverse.idxOf? label).map fun i => labels.length - 1 - i

/-- The labels of the buckets of a query, unless the buckets leave the calendar; without buckets there
is one label without a name. -/
def bucketLabels (r : ResolvedQuery) : Option (List String) :=
  match r.query.granularity with
  | none => some [""]
  | some g => g.labels? r.zone r.query.first r.query.last

/-- The place of a record among the buckets, if it has one. There is no answer for a bucket beyond the
calendar. -/
def bucketOf (r : ResolvedQuery) (labels : List String) (record : Record) : Option (Option Nat) :=
  match r.query.granularity with
  | none => some (some 0)
  | some g =>
      (g.labelOf? r.zone record.timestamp).map fun label =>
        label.bind fun label => lastIndexOf? label labels

/-- Put a record into the accumulators of its key. -/
def tally (definitions : List MetricDefinition) (key : List String) (record : Record) :
    Tally → Tally :=
  Ordered.alter key fun found =>
    let current := found.getD (definitions.map fun d => .start d.aggregate)
    List.zipWith (fun a d => a.push d record) current definitions

/-- Put records into the accumulators of their buckets and keys. -/
def tallyAll (r : ResolvedQuery) (labels : List String) (definitions : List MetricDefinition) :
    List Record → List Tally → Option (List Tally)
  | [], tallies => some tallies
  | record :: rest, tallies => do
      match ← bucketOf r labels record with
      | none => tallyAll r labels definitions rest tallies
      | some bucket =>
          tallyAll r labels definitions rest
            (tallies.modify bucket (tally definitions (keyOf r.query record) record))

/-- The metric cells of a key, zeros where no record has contributed. -/
def metricCells (definitions : List MetricDefinition) (key : List String) (t : Tally) : List Json :=
  match Ordered.find? key t with
  | some accumulators => accumulators.map fun a => .ofFloat a.value
  | none => definitions.map fun _ => .ofFloat 0.0

/-- The rows of one bucket. -/
def bucketRows (r : ResolvedQuery) (definitions : List MetricDefinition)
    (keys : List (List String)) (label : String) (t : Tally) : List (List Json) :=
  keys.map fun key =>
    (if r.isBucketed then [.str label] else []) ++ key.map Json.str
      ++ metricCells definitions key t

/-- The table of a query whose metrics have been found, unless a bucket is beyond the calendar. -/
def tabulate? (s : RecordStore) (projectId : Int) (r : ResolvedQuery)
    (definitions : List MetricDefinition) : Option ResultTable := do
  let q := r.query
  let labels ← bucketLabels r
  let records := s.inWindow projectId q
  let keys := keySpace q records
  let tallies ←
    tallyAll r labels definitions (records.filter fun record => satisfies record q.filters)
      (labels.map fun _ => [])
  return {
    headers := (if r.isBucketed then [datetimeHeader] else [])
      ++ q.groupBys.map (·.propertyName) ++ q.metrics
    rows := (List.zipWith (bucketRows r definitions keys) labels tallies).flatten }

/-- Answer a query from the records of a project. There is no answer if the arithmetic of time buckets
leaves the calendar. -/
def answer (s : RecordStore) (projectId : Int) (r : ResolvedQuery) :
    Except Failure (Option ResultTable) := do
  let definitions ← r.query.metrics.mapM (s.metric r.query.displayCategory)
  return s.tabulate? projectId r definitions

/-- The most values that a look-up of filter values returns. -/
def maxFilterValues : Nat := 2500

/-- The distinct texts of a property, in ascending order and up to the limit. -/
def filterValues (s : RecordStore) (projectId : Int) (p : Property) : List String :=
  let carriers := s.records.filter fun r =>
    r.projectId = projectId && r.displayCategory = p.displayCategory
      && (p.objectType = "" || r.objectType = p.objectType) && r.hasProperty p.name
  (Ordered.ofList (carriers.map fun r => r.textOf p.name)).take maxFilterValues

end RecordStore

end FederatedMetrics
