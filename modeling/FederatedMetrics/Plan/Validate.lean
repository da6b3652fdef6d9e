import FederatedMetrics.Plan.Basic

/-!
# Checking groups

A group is checked for its shape before any mapping is looked up. Global filters and group-bys have
to be mappings as soon as the members span several display categories or one of them is derived.
-/

namespace FederatedMetrics

/-- How a filter or a group-by refers to its property. -/
structure Reference where
  isMapping : Bool
  propertyName : String
  objectType : String
  entity : String
deriving DecidableEq, Repr

def Filter.reference (f : Filter) : Reference :=
  ⟨f.isMapping, f.propertyName, f.objectType, f.entity⟩

def GroupBy.reference (g : GroupBy) : Reference :=
  ⟨g.isMapping, g.propertyName, g.objectType, g.entity⟩

/-- The names of a reference hold no blanks. -/
def Reference.check (r : Reference) : Except Failure Unit :=
  if Text.hasBlank r.propertyName || Text.hasBlank r.objectType || Text.hasBlank r.entity then
    .error (.invalidPropertyName r.propertyName)
  else .ok ()

/-- A global reference to a mapping is confined to nothing, and it may be required to be one. -/
def Reference.checkGlobal (mappingsRequired : Bool) (r : Reference) : Except Failure Unit := do
  r.check
  if r.isMapping && (r.objectType ≠ "" || r.entity ≠ "") then
    throw (.scopedGlobalMapping r.propertyName)
  if mappingsRequired && !r.isMapping then throw .unmappedGlobal

/-- The references of a query's own filters and group-bys. -/
def Query.references (q : Query) : List Reference :=
  q.filters.map Filter.reference ++ q.groupBys.map GroupBy.reference

/-- Check the metrics and the column of a member. -/
def Query.checkMetrics (q : Query) : Except Failure Unit :=
  if !q.isDerived && q.metrics.isEmpty then .error (.noMetrics q.displayCategory)
  else if q.isDerived && q.definition.isNone && q.metrics.isEmpty then .error .unnamedDerived
  else if q.isDerived && Text.isBlankText q.metricLabel then .error .unlabelledDerived
  else .ok ()

def Query.check (q : Query) : Except Failure Unit := do
  q.checkMetrics
  q.references.forM Reference.check

namespace QueryGroup

def globalReferences (g : QueryGroup) : List Reference :=
  g.globalFilters.map Filter.reference ++ g.globalGroupBys.map GroupBy.reference

/-- Whether global filters and group-bys have to be mappings. -/
def requiresMappings (g : QueryGroup) : Bool :=
  1 < g.displayCategories.length || g.queries.any Query.isDerived

/-- Check the shape of a group. -/
def validate (g : QueryGroup) : Except Failure Unit := do
  if g.queries.isEmpty then throw .emptyGroup
  g.queries.forM Query.check
  g.globalReferences.forM (Reference.checkGlobal g.requiresMappings)

end QueryGroup

end FederatedMetrics
