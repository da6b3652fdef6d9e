import FederatedMetrics.Query.Codec
import FederatedMetrics.Formula.Parser
import FederatedMetrics.Text.Lowercase

/-!
# Definitions of derived metrics

A definition is a formula over sub-queries. Every sub-query has one metric and neither group-bys nor
time buckets, and the names of the sub-queries are exactly the variables of the formula.
-/

namespace FederatedMetrics

/-- A failure of a formula as a failure of the request. -/
def Formula.ofSource (source : String) : Except Failure Formula :=
  match parse source with
  | .ok formula => .ok formula
  | .error e => .error (.formula e)

/-- The formula variable that a sub-query stands for. -/
def Query.variableName (q : Query) : String := Text.lower (Text.trim q.name)

/-- Check a sub-query by itself. -/
def Query.checkSubQuery (q : Query) : Except Failure Unit :=
  if q.isDerived then .error .nestedDerived
  else if q.metrics.length ≠ 1 then .error (.notOneMetric q.name)
  else if !q.groupBys.isEmpty || q.granularity.isSome then .error (.groupedSubQuery q.name)
  else .ok ()

/-- The variables of sub-queries after those already found, where none may be blank or repeated. -/
def subQueryNames (found : List String) : List Query → Except Failure (List String)
  | [] => .ok found
  | q :: rest => do
      q.checkSubQuery
      let name := q.variableName
      if name = "" || found.contains name then .error .invalidSubQueryNames
      else subQueryNames (found ++ [name]) rest

/-- Check a definition and give its formula. -/
def QueryGroup.validateDefinition (g : QueryGroup) : Except Failure Formula := do
  if g.queries.isEmpty then throw .noSubQueries
  let formula ← Formula.ofSource g.formula
  let names ← subQueryNames [] g.queries
  if formula.variableNames = Ordered.ofList names then return formula
  else throw (.variablesDiffer g.formula)

end FederatedMetrics
