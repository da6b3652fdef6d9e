import FederatedMetrics.Query.Filter
import FederatedMetrics.Time.Bucket
import FederatedMetrics.Failure

/-!
# Queries and query groups

A query asks for metrics of one display category in a window of time. A group holds member queries
with filters and group-bys that apply to all of them; the same shape defines a derived metric, where
a formula combines the members by their names.
-/

namespace FederatedMetrics

/-- A query for metrics of its own, or for a metric derived from others. -/
inductive QueryType where
  | standard
  | derived
deriving DecidableEq, Repr

mutual

/-- One member of a group. `name` is the variable of the formula that it stands for, and
`definition` defines a derived metric on the spot. -/
structure Query where
  category : Category
  displayCategory : String
  metrics : List String
  filters : List Filter
  groupBys : List GroupBy
  first : Int
  last : Int
  granularity : Option Granularity
  queryType : QueryType
  name : String
  aliasName : String
  timezone : String
  definition : Option QueryGroup

/-- Member queries with the filters and group-bys that they share. -/
structure QueryGroup where
  className : String
  formula : String
  queries : List Query
  globalFilters : List Filter
  globalGroupBys : List GroupBy
  displayResultAs : String

end

namespace Query

def isDerived (q : Query) : Bool := q.queryType = .derived

/-- The zone that the query names. -/
def zone (q : Query) (zones : Zones) : Except Failure Zone :=
  match zones.get? q.timezone with
  | some zone => .ok zone
  | none => .error (.invalidZone q.timezone)

/-- The column of the first metric: the alias, else the metric, else the name of the query. -/
def metricLabel (q : Query) : String :=
  if q.aliasName ≠ "" then q.aliasName else q.metrics.headD q.name

end Query

namespace QueryGroup

def empty : QueryGroup := ⟨"", "", [], [], [], ""⟩

/-- The way of display that scales a derived metric by a hundred. -/
def percentageDisplay : String := "percentage_type"

def isPercentage (g : QueryGroup) : Bool := g.displayResultAs = percentageDisplay

/-- The display categories of the members, each once, in order of their first use. -/
def displayCategories (g : QueryGroup) : List String :=
  (g.queries.map (·.displayCategory)).eraseDups

end QueryGroup

/-- A query in which every property is concrete, with the column labels of its group-bys. -/
structure ResolvedQuery where
  query : Query
  labels : List String
  zone : Zone

namespace ResolvedQuery

/-- Whether the first column of the result is a time bucket. -/
def isBucketed (r : ResolvedQuery) : Bool := r.query.granularity.isSome

/-- The number of columns in front of the metrics. -/
def keyWidth (r : ResolvedQuery) : Nat := r.isBucketed.toNat + r.query.groupBys.length

end ResolvedQuery

end FederatedMetrics
