import FederatedMetrics.Plan.Validate
import FederatedMetrics.Mapping.Resolver

/-!
# Planning groups

Planning puts the global filters and group-bys behind those of every member, replaces each mapping
by the property of the display category at hand, and expands derived members into their sub-queries.
Whatever can fail about mappings fails here, before anything is executed.
-/

namespace FederatedMetrics

/-- Put the property of a mapping into a filter. -/
def Filter.withProperty (f : Filter) (p : Property) : Filter :=
  { f with
    objectType := p.objectType
    propertyName := p.name
    isMapping := false
    dataType := p.dataType
    entity := p.entity }

/-- The group-by of a property. -/
def GroupBy.ofProperty (p : Property) : GroupBy :=
  ⟨p.objectType, p.name, false, p.dataType, p.entity⟩

namespace MappingSource

def resolveFilter (source : MappingSource) (displayCategory : String) (f : Filter) :
    Resolving Filter :=
  if f.isMapping then do
    let p ← source.resolve f.propertyName displayCategory
    return f.withProperty p
  else pure f

/-- A group-by on a concrete property; its label stays the name in the query. -/
def resolveGroupBy (source : MappingSource) (displayCategory : String) (g : GroupBy) :
    Resolving GroupBy :=
  if g.isMapping then do
    let p ← source.resolve g.propertyName displayCategory
    return .ofProperty p
  else pure g

/-- Resolve a query with the filters and group-bys that apply to it. -/
def resolveQuery (source : MappingSource) (q : Query) (filters : List Filter)
    (groupBys : List GroupBy) : Resolving ResolvedQuery := do
  let zone ← liftM (q.zone source.zones)
  let resolvedFilters ← filters.mapM (source.resolveFilter q.displayCategory)
  let resolvedGroupBys ← groupBys.mapM (source.resolveGroupBy q.displayCategory)
  return {
    query := { q with
      filters := resolvedFilters
      groupBys := resolvedGroupBys
      definition := none }
    labels := groupBys.map (·.propertyName)
    zone := zone }

/-- A sub-query with the window, the zone and the buckets of the query around it. -/
def inherit (outer sub : Query) : Query :=
  { sub with
    first := outer.first
    last := outer.last
    timezone := outer.timezone
    granularity := outer.granularity }

/-- The definition of a derived query: its own, or the stored one that it names. -/
def definitionOf (derived : DerivedStore) (projectId : Int) (q : Query) :
    Except Failure QueryGroup :=
  match q.definition with
  | some definition => .ok definition
  | none => do
      let m ← derived.get projectId (q.metrics.headD "")
      return m.definition

/-- Plan one sub-query of a derived member. -/
def planSubQuery (source : MappingSource) (group : QueryGroup) (outer sub : Query) :
    Resolving (String × ResolvedQuery) := do
  let resolved ←
    source.resolveQuery (inherit outer sub)
      (sub.filters ++ outer.filters ++ group.globalFilters)
      (sub.groupBys ++ outer.groupBys ++ group.globalGroupBys)
  return (sub.variableName, resolved)

def planDerived (source : MappingSource) (derived : DerivedStore) (group : QueryGroup)
    (outer : Query) : Resolving DerivedPlan := do
  let definition ← liftM (definitionOf derived source.projectId outer)
  let formula ← liftM definition.validateDefinition
  let subQueries ← definition.queries.mapM (source.planSubQuery group outer)
  return {
    label := outer.metricLabel
    formula := formula
    percentage := definition.isPercentage
    subQueries := subQueries
    layout := ⟨outer.granularity.isSome, (subQueries.head?.map (·.2.labels)).getD []⟩ }

/-- Plan one member of a group. -/
def planMember (source : MappingSource) (derived : DerivedStore) (group : QueryGroup) (q : Query) :
    Resolving Plan :=
  if q.isDerived then do
    let plan ← source.planDerived derived group q
    return .derived plan
  else do
    let resolved ←
      source.resolveQuery q (q.filters ++ group.globalFilters) (q.groupBys ++ group.globalGroupBys)
    return .direct resolved

/-- Plan every member of a group, in order. -/
def normalize (source : MappingSource) (derived : DerivedStore) (group : QueryGroup) :
    Resolving (List Plan) := do
  liftM group.validate
  group.queries.mapM (source.planMember derived group)

end MappingSource

end FederatedMetrics
