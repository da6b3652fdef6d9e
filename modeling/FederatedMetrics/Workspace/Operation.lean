import FederatedMetrics.Workspace.Basic

/-!
# Operations

What clients do with a workspace, as data, with what they get back.
-/

namespace FederatedMetrics

/-- What a client asks for. -/
inductive Operation where
  | defineMetric (category : Category) (displayCategory name : String) (d : MetricDefinition)
  | insertRecords (category : Category) (records : List Record)
  | createMapping (projectId : Int) (displayName : String) (properties : List Property)
  | listMappings (projectId : Int)
  | deleteMapping (projectId : Int) (id : Uuid)
  | getMapping (projectId : Int) (name : String)
  | resolveMapping (projectId : Int) (name displayCategory : String)
  | findCommon (projectId : Int) (requests : List CommonRequest)
  | createDerived (projectId : Int) (request : NewDerivedMetric)
  | listDerived (projectId : Int)
  | deleteDerived (projectId : Int) (id : Uuid)
  | getDerived (projectId : Int) (name : String)
  | normalize (projectId : Int) (group : QueryGroup)
  | runQuery (projectId : Int) (query : ResolvedQuery)
  | executeGroup (projectId : Int) (group : QueryGroup) (combine : Bool)
      (options : ExecutionOptions)
  | filterValues (projectId : Int) (request : FilterValuesRequest)

/-- What a client gets back. -/
inductive Answer where
  | done
  | mapping (m : PropertyMapping)
  | mappings (ms : List PropertyMapping)
  | property (p : Property)
  | derivedMetric (m : DerivedMetric)
  | derivedMetrics (ms : List DerivedMetric)
  | plans (plans : List Plan)
  | table (t : ResultTable)
  | outcome (o : GroupOutcome)
  | values (values : List String)

namespace Workspace

/-- An answer that changes nothing. -/
def read (w : Workspace) (result : Except Failure Answer) :
    Option (Except Failure Answer) × Workspace :=
  (some result, w)

def createMapping (w : Workspace) (projectId : Int) (displayName : String)
    (properties : List Property) : Except Failure PropertyMapping × Workspace :=
  match w.mappings.create w.nextStamp projectId displayName properties with
  | .error f => (.error f, w)
  | .ok (m, mappings) =>
      (.ok m, { w with
        mappings := mappings
        issued := w.issued + 1
        counters := { w.counters with mappingsCreated := w.counters.mappingsCreated + 1 } })

def createDerived (w : Workspace) (projectId : Int) (request : NewDerivedMetric) :
    Except Failure DerivedMetric × Workspace :=
  match w.derived.create w.nextStamp projectId request with
  | .error f => (.error f, w)
  | .ok (m, derived) => (.ok m, { w with derived := derived, issued := w.issued + 1 })

def deleteMapping (w : Workspace) (projectId : Int) (id : Uuid) :
    Except Failure Unit × Workspace :=
  match w.mappings.delete projectId id with
  | .error f => (.error f, w)
  | .ok mappings => (.ok (), { w with mappings := mappings })

def deleteDerived (w : Workspace) (projectId : Int) (id : Uuid) :
    Except Failure Unit × Workspace :=
  match w.derived.delete projectId id with
  | .error f => (.error f, w)
  | .ok derived => (.ok (), { w with derived := derived })

/-- Execute a group; there is no outcome if it breaks down or never ends. -/
def executeGroup (w : Workspace) (projectId : Int) (group : QueryGroup) (combine : Bool)
    (options : ExecutionOptions) : Option GroupOutcome × Workspace :=
  let (outcome, counters) := w.engine.execute projectId group options combine w.counters
  (outcome, { w with counters := counters })

/-- Carry out an operation. There is no answer if that breaks down or never ends. -/
def perform (w : Workspace) : Operation → Option (Except Failure Answer) × Workspace
  | .defineMetric category displayCategory name d =>
      (some (.ok .done), w.updateStore category fun s => s.define displayCategory name d)
  | .insertRecords category records =>
      (some (.ok .done), w.updateStore category fun s => s.insert records)
  | .createMapping projectId displayName properties =>
      let (result, w) := w.createMapping projectId displayName properties
      (some (result.map .mapping), w)
  | .listMappings projectId => w.read (.ok (.mappings (w.mappings.ofProject projectId)))
  | .deleteMapping projectId id =>
      let (result, w) := w.deleteMapping projectId id
      (some (result.map fun _ => .done), w)
  | .getMapping projectId name => w.read ((w.mappings.get projectId name).map .mapping)
  | .resolveMapping projectId name displayCategory =>
      w.read ((w.mappings.resolve projectId name displayCategory).map .property)
  | .findCommon projectId requests =>
      w.read ((w.mappings.findCommon w.derived projectId requests).map .mappings)
  | .createDerived projectId request =>
      let (result, w) := w.createDerived projectId request
      (some (result.map .derivedMetric), w)
  | .listDerived projectId => w.read (.ok (.derivedMetrics (w.derived.ofProject projectId)))
  | .deleteDerived projectId id =>
      let (result, w) := w.deleteDerived projectId id
      (some (result.map fun _ => .done), w)
  | .getDerived projectId name => w.read ((w.derived.get projectId name).map .derivedMetric)
  | .normalize projectId group =>
      let (result, w) := w.resolving ((w.source projectId).normalize w.derived group)
      (some (result.map .plans), w)
  | .runQuery projectId query =>
      ((w.registry.run projectId query w.options).result?.map fun t => t.map .table, w)
  | .executeGroup projectId group combine options =>
      let (outcome, w) := w.executeGroup projectId group combine options
      (outcome.map fun o => .ok (.outcome o), w)
  | .filterValues projectId request =>
      ((request.lookup w.mappings w.registry projectId).result?.map fun vs => vs.map .values, w)

section Pairs

variable (w : Workspace) (projectId : Int)

-- The equations are derived once here, and not by every lemma on its own.
attribute [local simp] perform

theorem perform_createMapping (displayName : String) (properties : List Property) :
    w.perform (.createMapping projectId displayName properties) =
      (some ((w.createMapping projectId displayName properties).1.map .mapping),
        (w.createMapping projectId displayName properties).2) := by
  rw [perform]

theorem perform_deleteMapping (id : Uuid) :
    w.perform (.deleteMapping projectId id) =
      (some ((w.deleteMapping projectId id).1.map fun _ => .done),
        (w.deleteMapping projectId id).2) := by
  rw [perform]

theorem perform_createDerived (request : NewDerivedMetric) :
    w.perform (.createDerived projectId request) =
      (some ((w.createDerived projectId request).1.map .derivedMetric),
        (w.createDerived projectId request).2) := by
  rw [perform]

theorem perform_deleteDerived (id : Uuid) :
    w.perform (.deleteDerived projectId id) =
      (some ((w.deleteDerived projectId id).1.map fun _ => .done),
        (w.deleteDerived projectId id).2) := by
  rw [perform]

theorem perform_normalize (group : QueryGroup) :
    w.perform (.normalize projectId group) =
      (some ((w.resolving ((w.source projectId).normalize w.derived group)).1.map .plans),
        (w.resolving ((w.source projectId).normalize w.derived group)).2) := by
  rw [perform]

theorem perform_executeGroup (group : QueryGroup) (combine : Bool) (options : ExecutionOptions) :
    w.perform (.executeGroup projectId group combine options) =
      ((w.executeGroup projectId group combine options).1.map fun o => .ok (.outcome o),
        (w.executeGroup projectId group combine options).2) := by
  rw [perform]

end Pairs

/-- Look up mappings, or their properties for display categories, through one fresh resolver. A
failed look-up does not keep the later ones from being made. -/
def lookupAll (source : MappingSource) (r : Resolver) :
    List (String × Option String) → List (Except Failure (PropertyMapping ⊕ Property)) × Resolver
  | [] => ([], r)
  | (name, displayCategory) :: rest =>
      let (result, r) :=
        match displayCategory with
        | none => (Sum.inl <$> source.mapping name).run.run r
        | some dc => (Sum.inr <$> source.resolve name dc).run.run r
      let (results, r) := lookupAll source r rest
      (result :: results, r)

/-- Make look-ups through one fresh resolver, and count them. -/
def resolver (w : Workspace) (projectId : Int) (lookups : List (String × Option String)) :
    List (Except Failure (PropertyMapping ⊕ Property)) × Workspace :=
  let (results, r) := lookupAll (w.source projectId) .fresh lookups
  (results, { w with counters := w.counters.addLookups r })

end Workspace

end FederatedMetrics
