import FederatedMetrics.Plan.Normalize
import FederatedMetrics.Proofs.Mapping.Lookups

/-!
# The look-ups of a planned group

A group that is planned has made one look-up for every placeholder of its resolved queries, in order:
for those of a member or of a sub-query itself, and once more for every query to which those of the
member around it or of the group apply. A group of the wrong shape has made none.
-/

namespace FederatedMetrics

def Filter.mappingName? (f : Filter) : Option String :=
  if f.isMapping then some f.propertyName else none

def GroupBy.mappingName? (g : GroupBy) : Option String :=
  if g.isMapping then some g.propertyName else none

/-- The names of the mappings among filters and group-bys. -/
def mappingNames (filters : List Filter) (groupBys : List GroupBy) : List String :=
  filters.filterMap Filter.mappingName? ++ groupBys.filterMap GroupBy.mappingName?

/-- The placeholders of a member, with the global ones in each of its resolved queries. -/
def Query.placeholders (derived : DerivedStore) (projectId : Int) (group : QueryGroup) (q : Query) :
    List String :=
  if q.isDerived then
    match MappingSource.definitionOf derived projectId q with
    | .ok definition => definition.queries.flatMap fun sub =>
        mappingNames (sub.filters ++ q.filters ++ group.globalFilters)
          (sub.groupBys ++ q.groupBys ++ group.globalGroupBys)
    | .error _ => []
  else mappingNames (q.filters ++ group.globalFilters) (q.groupBys ++ group.globalGroupBys)

/-- The placeholders of all resolved queries of a group. -/
def QueryGroup.placeholders (derived : DerivedStore) (projectId : Int) (group : QueryGroup) :
    List String :=
  group.queries.flatMap (Query.placeholders derived projectId group)

namespace Resolving

variable {α β : Type} {source : MappingSource} {names more : List String}

/-- A computation that has made these look-ups, in order, when it answers. -/
def LooksUp (source : MappingSource) (x : Resolving α) (names : List String) : Prop :=
  ∀ r a later, x.run.run r = (.ok a, later) → later = source.lookups names r

theorem looksUp_pure (a : α) : LooksUp source (pure a) [] := by
  rintro r _ _ ⟨⟩
  rfl

theorem LooksUp.bind {x : Resolving α} {f : α → Resolving β} (hx : LooksUp source x names)
    (hf : ∀ a, LooksUp source (f a) more) : LooksUp source (x >>= f) (names ++ more) := by
  intro r b later h
  rw [run_bind] at h
  rcases hrun : x.run.run r with ⟨_ | a, between⟩
  · rw [hrun] at h
    cases h
  · rw [hrun] at h
    obtain rfl := hx r a between hrun
    rw [MappingSource.lookups_append]
    exact hf a _ b later h

theorem LooksUp.bind_pure {x : Resolving α} (hx : LooksUp source x names) (g : α → β) :
    LooksUp source (x >>= fun a => pure (g a)) names := by
  rw [← List.append_nil names]
  exact hx.bind fun a => looksUp_pure (g a)

/-- What needs no look-up is there for the look-ups behind it. -/
theorem looksUp_liftM_bind {answer : Except Failure α} {f : α → Resolving β}
    (hf : ∀ a, answer = .ok a → LooksUp source (f a) names) :
    LooksUp source (liftM answer >>= f) names := by
  intro r b later h
  rw [run_bind] at h
  cases answer with
  | error e => cases h
  | ok a => exact hf a rfl r b later h

theorem looksUp_mapM {f : α → Resolving β} {names : α → List String}
    (hf : ∀ a, LooksUp source (f a) (names a)) (items : List α) :
    LooksUp source (items.mapM f) (items.flatMap names) := by
  induction items with
  | nil => exact looksUp_pure []
  | cons a rest ih =>
      rw [List.mapM_cons, List.flatMap_cons]
      exact (hf a).bind fun b => ih.bind_pure (b :: ·)

end Resolving

namespace MappingSource

open Resolving

variable {source : MappingSource} {derived : DerivedStore} {group : QueryGroup}

theorem looksUp_resolve (source : MappingSource) (name displayCategory : String) :
    LooksUp source (source.resolve name displayCategory) [name] := by
  intro r p later h
  have hlater := source.later_resolve name displayCategory r
  rw [h] at hlater
  exact hlater

/-- A placeholder is looked up by its name, and anything else is not looked up. -/
theorem looksUp_replace {α : Type} (source : MappingSource) (isMapping : Bool)
    (name displayCategory : String) (x : α) (replace : Property → α) :
    LooksUp source
      (if isMapping then do
        let p ← source.resolve name displayCategory
        return replace p
      else pure x)
      (if isMapping then some name else none).toList := by
  cases isMapping with
  | false => exact looksUp_pure x
  | true => exact (looksUp_resolve source name displayCategory).bind_pure replace

theorem looksUp_resolveQuery (source : MappingSource) (q : Query) (filters : List Filter)
    (groupBys : List GroupBy) :
    LooksUp source (source.resolveQuery q filters groupBys) (mappingNames filters groupBys) := by
  have hfilters := looksUp_mapM (f := source.resolveFilter q.displayCategory)
    (fun f => looksUp_replace source f.isMapping f.propertyName q.displayCategory f f.withProperty)
    filters
  have hgroupBys := looksUp_mapM (f := source.resolveGroupBy q.displayCategory)
    (fun g => looksUp_replace source g.isMapping g.propertyName q.displayCategory g GroupBy.ofProperty)
    groupBys
  rw [resolveQuery, mappingNames, List.filterMap_eq_flatMap_toList,
    List.filterMap_eq_flatMap_toList]
  apply looksUp_liftM_bind
  intro zone _
  exact hfilters.bind fun _ => hgroupBys.bind_pure _

theorem looksUp_planSubQuery (source : MappingSource) (group : QueryGroup) (outer sub : Query) :
    LooksUp source (source.planSubQuery group outer sub)
      (mappingNames (sub.filters ++ outer.filters ++ group.globalFilters)
        (sub.groupBys ++ outer.groupBys ++ group.globalGroupBys)) := by
  rw [planSubQuery]
  exact (looksUp_resolveQuery source _ _ _).bind_pure _

theorem looksUp_planDerived (source : MappingSource) (derived : DerivedStore) (group : QueryGroup)
    {outer : Query} (hderived : outer.isDerived = true) :
    LooksUp source (source.planDerived derived group outer)
      (outer.placeholders derived source.projectId group) := by
  rw [planDerived, Query.placeholders, if_pos hderived]
  apply looksUp_liftM_bind
  intro definition hdefinition
  apply looksUp_liftM_bind
  intro formula _
  rw [hdefinition]
  exact (looksUp_mapM (looksUp_planSubQuery source group outer) definition.queries).bind_pure _

theorem looksUp_planMember (source : MappingSource) (derived : DerivedStore) (group : QueryGroup)
    (q : Query) :
    LooksUp source (source.planMember derived group q)
      (q.placeholders derived source.projectId group) := by
  rw [planMember]
  cases hderived : q.isDerived with
  | true =>
      exact (looksUp_planDerived source derived group hderived).bind_pure _
  | false =>
      rw [Query.placeholders, hderived]
      exact (looksUp_resolveQuery source q _ _).bind_pure _

/-- A group that is planned has looked up all its placeholders, and nothing else. -/
theorem looksUp_normalize (source : MappingSource) (derived : DerivedStore) (group : QueryGroup) :
    LooksUp source (source.normalize derived group)
      (group.placeholders derived source.projectId) := by
  rw [normalize]
  apply looksUp_liftM_bind
  intro _ _
  exact looksUp_mapM (looksUp_planMember source derived group) group.queries

/-- A group of the wrong shape is refused before anything is looked up. -/
theorem run_normalize_of_invalid {f : Failure} (h : group.validate = .error f) (r : Resolver) :
    (source.normalize derived group).run.run r = (.error f, r) := by
  rw [normalize, h]
  rfl

end MappingSource

end FederatedMetrics
