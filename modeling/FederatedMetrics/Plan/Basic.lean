import FederatedMetrics.Derived.Definition
import FederatedMetrics.Table.Basic

/-!
# Plans

A plan says what is run for one member of a group: one resolved query, or the resolved sub-queries of
a derived metric with the formula that joins them.
-/

namespace FederatedMetrics

/-- What the tables of sub-queries are joined by. -/
structure Alignment where
  formula : Formula
  variableNames : List String
  layout : KeyLayout
  percentage : Bool
  label : String

/-- The resolved sub-queries of a derived metric with their variables, in order of definition. -/
structure DerivedPlan where
  label : String
  formula : Formula
  percentage : Bool
  subQueries : List (String × ResolvedQuery)
  layout : KeyLayout

def DerivedPlan.alignment (p : DerivedPlan) : Alignment :=
  ⟨p.formula, p.subQueries.map (·.1), p.layout, p.percentage, p.label⟩

def ResolvedQuery.layout (r : ResolvedQuery) : KeyLayout := ⟨r.isBucketed, r.labels⟩

/-- What is run for one member of a group. -/
inductive Plan where
  | direct (query : ResolvedQuery)
  | derived (plan : DerivedPlan)

namespace Plan

/-- The key columns of the plan's result. -/
def layout : Plan → KeyLayout
  | .direct r => r.layout
  | .derived p => p.layout

/-- The resolved queries of the plan. -/
def resolved : Plan → List ResolvedQuery
  | .direct r => [r]
  | .derived p => p.subQueries.map (·.2)

end Plan

end FederatedMetrics
