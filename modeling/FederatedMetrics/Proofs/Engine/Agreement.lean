import FederatedMetrics.FilterValues
import FederatedMetrics.Proofs.Engine.Execution

/-!
# Groups that are planned and executed alike

Planning reads mappings and derived metrics only through look-ups for one project, and execution
reads a registry only through what it answers that project. Engines that agree on these answers plan
and execute every group of the project alike, whatever else they hold.
-/

namespace FederatedMetrics

namespace Resolving

variable {α β : Type} {source other : MappingSource}

/-- Computations over two sources that answer the same, whatever their resolvers remember. -/
structure Agree (source other : MappingSource) (x y : Resolving α) : Prop where
  left : Transparent source x
  right : Transparent other y
  result_eq : x.result = y.result

theorem agree_pure (a : α) : Agree source other (pure a) (pure a) where
  left := transparent_pure a
  right := transparent_pure a
  result_eq := rfl

theorem agree_liftM {x y : Except Failure α} (h : x = y) : Agree source other (liftM x) (liftM y) where
  left := transparent_liftM x
  right := transparent_liftM y
  result_eq := by rw [h]

theorem Agree.bind {x y : Resolving α} {f g : α → Resolving β} (hx : Agree source other x y)
    (hf : ∀ a, Agree source other (f a) (g a)) : Agree source other (x >>= f) (y >>= g) where
  left := hx.left.bind fun a => (hf a).left
  right := hx.right.bind fun a => (hf a).right
  result_eq := by
    rw [hx.left.result_bind fun a => (hf a).left, hx.right.result_bind fun a => (hf a).right,
      hx.result_eq]
    exact congrArg _ (funext fun a => (hf a).result_eq)

theorem agree_mapM {f g : α → Resolving β} (hf : ∀ a, Agree source other (f a) (g a))
    (items : List α) : Agree source other (items.mapM f) (items.mapM g) where
  left := transparent_mapM (fun a => (hf a).left) items
  right := transparent_mapM (fun a => (hf a).right) items
  result_eq := by
    rw [result_mapM fun a => (hf a).left, result_mapM fun a => (hf a).right]
    exact congrArg (items.mapM ·) (funext fun a => (hf a).result_eq)

end Resolving

namespace MappingSource

open Resolving

variable {source other : MappingSource} {derived otherDerived : DerivedStore}

/-- Two sources have the same zones, and the same properties under the names of their mappings. -/
structure SameProperties (source other : MappingSource) : Prop where
  zones_eq : source.zones = other.zones
  resolve_eq : ∀ name displayCategory, source.store.resolve source.projectId name displayCategory =
    other.store.resolve other.projectId name displayCategory

theorem SameProperties.resolve (h : source.SameProperties other) (name displayCategory : String) :
    Agree source other (source.resolve name displayCategory)
      (other.resolve name displayCategory) where
  left := transparent_resolve source name displayCategory
  right := transparent_resolve other name displayCategory
  result_eq := by rw [result_resolve, result_resolve, h.resolve_eq]

theorem SameProperties.resolveFilter (h : source.SameProperties other) (displayCategory : String)
    (f : Filter) :
    Agree source other (source.resolveFilter displayCategory f)
      (other.resolveFilter displayCategory f) := by
  rw [MappingSource.resolveFilter, MappingSource.resolveFilter]
  cases f.isMapping with
  | false => exact agree_pure f
  | true => exact (h.resolve _ _).bind fun p => agree_pure (f.withProperty p)

theorem SameProperties.resolveGroupBy (h : source.SameProperties other) (displayCategory : String)
    (g : GroupBy) :
    Agree source other (source.resolveGroupBy displayCategory g)
      (other.resolveGroupBy displayCategory g) := by
  rw [MappingSource.resolveGroupBy, MappingSource.resolveGroupBy]
  cases g.isMapping with
  | false => exact agree_pure g
  | true => exact (h.resolve _ _).bind fun p => agree_pure (GroupBy.ofProperty p)

theorem SameProperties.resolveQuery (h : source.SameProperties other) (q : Query)
    (filters : List Filter) (groupBys : List GroupBy) :
    Agree source other (source.resolveQuery q filters groupBys)
      (other.resolveQuery q filters groupBys) := by
  have hfilters := agree_mapM (h.resolveFilter q.displayCategory) filters
  have hgroupBys := agree_mapM (h.resolveGroupBy q.displayCategory) groupBys
  have hzone : q.zone source.zones = q.zone other.zones := congrArg q.zone h.zones_eq
  exact (agree_liftM hzone).bind fun _ => hfilters.bind fun _ => hgroupBys.bind fun _ => agree_pure _

theorem SameProperties.planSubQuery (h : source.SameProperties other) (group : QueryGroup)
    (outer sub : Query) :
    Agree source other (source.planSubQuery group outer sub)
      (other.planSubQuery group outer sub) :=
  (h.resolveQuery _ _ _).bind fun _ => agree_pure _

/-- Derived queries have the same definitions, whichever of two stores they name them in. -/
def SameDefinitions (source other : MappingSource) (derived otherDerived : DerivedStore) : Prop :=
  ∀ q, definitionOf derived source.projectId q = definitionOf otherDerived other.projectId q

theorem SameProperties.planMember (h : source.SameProperties other)
    (hdefinitions : SameDefinitions source other derived otherDerived) (group : QueryGroup)
    (q : Query) :
    Agree source other (source.planMember derived group q)
      (other.planMember otherDerived group q) := by
  have hderived : Agree source other (source.planDerived derived group q)
      (other.planDerived otherDerived group q) :=
    (agree_liftM (hdefinitions q)).bind fun definition => (agree_liftM rfl).bind fun _ =>
      (agree_mapM (h.planSubQuery group q) definition.queries).bind fun _ => agree_pure _
  rw [MappingSource.planMember, MappingSource.planMember]
  cases q.isDerived with
  | true => exact hderived.bind fun plan => agree_pure (Plan.derived plan)
  | false => exact (h.resolveQuery _ _ _).bind fun r => agree_pure (Plan.direct r)

/-- A group is planned alike from the same properties and the same definitions. -/
theorem SameProperties.normalize (h : source.SameProperties other)
    (hdefinitions : SameDefinitions source other derived otherDerived) (group : QueryGroup) :
    (source.normalize derived group).result = (other.normalize otherDerived group).result := by
  have hagree : Agree source other (source.normalize derived group)
      (other.normalize otherDerived group) :=
    (agree_liftM rfl).bind fun _ => agree_mapM (h.planMember hdefinitions group) group.queries
  exact hagree.result_eq

end MappingSource

namespace Registry

variable {registry other : Registry} {projectId : Int}

/-- What an executor answers a project. -/
def answersOf (projectId : Int) (e : Executor) :
    (ResolvedQuery → ExecutionOptions → Reply ResultTable) × (Property → Reply (List String)) :=
  (e.execute projectId, e.filterValues projectId)

/-- Two registries answer a project alike. -/
def AgreeFor (projectId : Int) (registry other : Registry) : Prop :=
  ∀ c, (registry c).map (answersOf projectId) = (other c).map (answersOf projectId)

theorem AgreeFor.run (h : AgreeFor projectId registry other) (r : ResolvedQuery)
    (options : ExecutionOptions) :
    registry.run projectId r options = other.run projectId r options := by
  have hsame := h r.query.category
  rw [Registry.run, Registry.run, get, get]
  cases hleft : registry r.query.category <;> cases hright : other r.query.category <;>
    simp_all [answersOf]

theorem AgreeFor.collect (h : AgreeFor projectId registry other) (properties : List Property)
    (found : List String) :
    FilterValuesRequest.collect registry projectId properties found =
      FilterValuesRequest.collect other projectId properties found := by
  induction properties generalizing found with
  | nil => rfl
  | cons p rest ih =>
      have hsame := h p.category
      rw [FilterValuesRequest.collect, FilterValuesRequest.collect, get, get]
      cases hleft : registry p.category <;> cases hright : other p.category <;>
        simp_all [answersOf]

end Registry

namespace Engine

variable {e other : Engine} {projectId : Int}

theorem executePlan_congr {registry otherRegistry : Registry}
    (h : Registry.AgreeFor projectId registry otherRegistry) (options : ExecutionOptions)
    (plan : Plan) :
    executePlan registry projectId options plan = executePlan otherRegistry projectId options plan := by
  cases plan with
  | direct r => exact h.run r options
  | derived plan => simp only [executePlan, executeDerived, h.run]

/-- Engines that agree on what concerns a project execute every group of it alike. -/
theorem execute_congr (hregistry : Registry.AgreeFor projectId e.registry other.registry)
    {group : QueryGroup} (hplanned : e.planned projectId group = other.planned projectId group)
    (options : ExecutionOptions) (combine : Bool) (c counters : Counters) :
    (e.execute projectId group options combine c).1 =
      (other.execute projectId group options combine counters).1 := by
  cases hplans : e.planned projectId group with
  | error f =>
      rw [execute_of_refused hplans, execute_of_refused (hplanned.symm.trans hplans)]
  | ok plans =>
      have hruns : executePlans e.registry projectId options plans =
          executePlans other.registry projectId options plans :=
        congrArg (Window.run options.maxConcurrency) <|
          List.map_congr_left fun plan _ => executePlan_congr hregistry options plan
      rw [execute_of_planned hplans, execute_of_planned (hplanned.symm.trans hplans), gathered,
        gathered, hruns]

end Engine

end FederatedMetrics
