import FederatedMetrics.Plan.Normalize
import FederatedMetrics.Proofs.Derived.Definition
import FederatedMetrics.Proofs.Plan.Resolving

/-!
# Plans of a valid group

A plan holds the filters and group-bys of a member with the global ones behind them, where the
property of the display category at hand stands for every mapping. A derived member has one resolved
query for every sub-query of its definition, and all of them have the labels of the plan.
-/

namespace FederatedMetrics

open Resolving

/-- What a filter becomes for a display category. -/
inductive Filter.ResolvesTo (source : MappingSource) (displayCategory : String) (f : Filter) :
    Filter → Prop
  | concrete (h : f.isMapping = false) : ResolvesTo source displayCategory f f
  | mapped {p : Property} (h : f.isMapping = true)
      (hp : source.Provides f.propertyName displayCategory p) :
      ResolvesTo source displayCategory f
        { objectType := p.objectType
          propertyName := p.name
          isMapping := false
          dataType := p.dataType
          entity := p.entity
          comparison := f.comparison
          value := f.value
          connective := f.connective }

/-- What a group-by becomes for a display category. -/
inductive GroupBy.ResolvesTo (source : MappingSource) (displayCategory : String) (g : GroupBy) :
    GroupBy → Prop
  | concrete (h : g.isMapping = false) : ResolvesTo source displayCategory g g
  | mapped {p : Property} (h : g.isMapping = true)
      (hp : source.Provides g.propertyName displayCategory p) :
      ResolvesTo source displayCategory g
        { objectType := p.objectType
          propertyName := p.name
          isMapping := false
          dataType := p.dataType
          entity := p.entity }

/-- What a query becomes with the filters and group-bys that apply to it. -/
structure Query.ResolvesTo (source : MappingSource) (q : Query) (filters : List Filter)
    (groupBys : List GroupBy) (r : ResolvedQuery) : Prop where
  inZone : q.zone source.zones = .ok r.zone
  filtersTo : List.Forall₂ (Filter.ResolvesTo source q.displayCategory) filters r.query.filters
  groupBysTo : List.Forall₂ (GroupBy.ResolvesTo source q.displayCategory) groupBys r.query.groupBys
  rest : r.query =
    { q with filters := r.query.filters, groupBys := r.query.groupBys, definition := none }
  labels_eq : r.labels = groupBys.map (·.propertyName)

/-- The definition of a derived query is its own one, or else the stored one that it names. -/
def Query.DefinedBy (derived : DerivedStore) (projectId : Int) (q : Query)
    (definition : QueryGroup) : Prop :=
  q.definition = some definition ∨ q.definition = none ∧
    ∃ m, derived.find? projectId (q.metrics.headD "") = some m ∧ m.definition = definition

/-- What a sub-query of a derived member becomes: it takes the window, the zone and the buckets of
the member, and the filters and group-bys of the member and of the group come after its own. -/
structure Query.SubResolvesTo (source : MappingSource) (group : QueryGroup) (outer sub : Query)
    (entry : String × ResolvedQuery) : Prop where
  name_eq : entry.1 = sub.variableName
  resolvesTo : Query.ResolvesTo source
    { sub with
      first := outer.first
      last := outer.last
      timezone := outer.timezone
      granularity := outer.granularity }
    (sub.filters ++ outer.filters ++ group.globalFilters)
    (sub.groupBys ++ outer.groupBys ++ group.globalGroupBys) entry.2

/-- What a derived member becomes. -/
structure Query.ExpandsTo (source : MappingSource) (derived : DerivedStore) (group : QueryGroup)
    (outer : Query) (definition : QueryGroup) (p : DerivedPlan) : Prop where
  definedBy : outer.DefinedBy derived source.projectId definition
  valid : definition.validateDefinition = .ok p.formula
  label_eq : p.label = outer.metricLabel
  percentage_eq : p.percentage = definition.isPercentage
  subQueriesTo :
    List.Forall₂ (Query.SubResolvesTo source group outer) definition.queries p.subQueries
  layout_eq : p.layout =
    ⟨outer.granularity.isSome, (outer.groupBys ++ group.globalGroupBys).map (·.propertyName)⟩

/-- What a member of a group becomes. -/
inductive Query.PlannedAs (source : MappingSource) (derived : DerivedStore) (group : QueryGroup)
    (q : Query) : Plan → Prop
  | direct {r : ResolvedQuery} (hdirect : q.isDerived = false)
      (hr : q.ResolvesTo source (q.filters ++ group.globalFilters)
        (q.groupBys ++ group.globalGroupBys) r) : PlannedAs source derived group q (.direct r)
  | derived {definition : QueryGroup} {p : DerivedPlan} (hderived : q.isDerived = true)
      (hp : q.ExpandsTo source derived group definition p) :
      PlannedAs source derived group q (.derived p)

/-- A resolved query in which every property is concrete. -/
def ResolvedQuery.IsConcrete (r : ResolvedQuery) : Prop :=
  (∀ f ∈ r.query.filters, f.isMapping = false) ∧ ∀ g ∈ r.query.groupBys, g.isMapping = false

theorem Filter.ResolvesTo.isMapping_eq_false {source : MappingSource} {displayCategory : String}
    {f resolved : Filter} (h : f.ResolvesTo source displayCategory resolved) :
    resolved.isMapping = false := by
  cases h with
  | concrete h => exact h
  | mapped _ _ => rfl

theorem GroupBy.ResolvesTo.isMapping_eq_false {source : MappingSource} {displayCategory : String}
    {g resolved : GroupBy} (h : g.ResolvesTo source displayCategory resolved) :
    resolved.isMapping = false := by
  cases h with
  | concrete h => exact h
  | mapped _ _ => rfl

namespace MappingSource

variable {source : MappingSource} {derived : DerivedStore} {group : QueryGroup}

/-- A placeholder is looked up, and anything else stays. -/
theorem yields_replace {α : Type} (source : MappingSource) (isMapping : Bool)
    (name displayCategory : String) (x : α) (replace : Property → α) :
    Yields source
      (if isMapping then do
        let p ← source.resolve name displayCategory
        return replace p
      else pure x)
      fun y => isMapping = false ∧ x = y ∨
        isMapping = true ∧ ∃ p, source.Provides name displayCategory p ∧ replace p = y := by
  cases isMapping with
  | false => exact (yields_pure x).congr fun y => by simp
  | true =>
      exact ((yields_resolve source name displayCategory).bind fun p =>
        yields_pure (replace p)).congr fun y => by simp

theorem yields_resolveFilter (source : MappingSource) (displayCategory : String) (f : Filter) :
    Yields source (source.resolveFilter displayCategory f) (f.ResolvesTo source displayCategory) := by
  apply (yields_replace source _ _ displayCategory _ _).congr
  intro resolved
  constructor
  · rintro (⟨h, rfl⟩ | ⟨h, p, hp, rfl⟩)
    · exact .concrete h
    · exact .mapped h hp
  · intro h
    cases h with
    | concrete h => exact Or.inl ⟨h, rfl⟩
    | mapped h hp => exact Or.inr ⟨h, _, hp, rfl⟩

theorem yields_resolveGroupBy (source : MappingSource) (displayCategory : String) (g : GroupBy) :
    Yields source (source.resolveGroupBy displayCategory g)
      (g.ResolvesTo source displayCategory) := by
  apply (yields_replace source _ _ displayCategory _ _).congr
  intro resolved
  constructor
  · rintro (⟨h, rfl⟩ | ⟨h, p, hp, rfl⟩)
    · exact .concrete h
    · exact .mapped h hp
  · intro h
    cases h with
    | concrete h => exact Or.inl ⟨h, rfl⟩
    | mapped h hp => exact Or.inr ⟨h, _, hp, rfl⟩

/-- A query is resolved if and only if its zone and all its mappings are known. -/
theorem yields_resolveQuery (source : MappingSource) (q : Query) (filters : List Filter)
    (groupBys : List GroupBy) :
    Yields source (source.resolveQuery q filters groupBys)
      (q.ResolvesTo source filters groupBys) := by
  have hfilters := yields_mapM (yields_resolveFilter source q.displayCategory) filters
  have hgroupBys := yields_mapM (yields_resolveGroupBy source q.displayCategory) groupBys
  rw [resolveQuery]
  apply ((yields_liftM (q.zone source.zones)).bind fun zone => hfilters.bind fun _ => hgroupBys.bind fun _ =>
    yields_pure _).congr
  intro r
  constructor
  · rintro ⟨zone, hzone, resolvedFilters, hfilters, resolvedGroupBys, hgroupBys, rfl⟩
    exact ⟨hzone, hfilters, hgroupBys, rfl, rfl⟩
  · rintro ⟨hzone, hfilters, hgroupBys, hrest, hlabels⟩
    refine ⟨r.zone, hzone, r.query.filters, hfilters, r.query.groupBys, hgroupBys, ?_⟩
    rw [← hrest, ← hlabels]

theorem yields_planSubQuery (source : MappingSource) (group : QueryGroup) (outer sub : Query) :
    Yields source (source.planSubQuery group outer sub)
      (Query.SubResolvesTo source group outer sub) := by
  rw [planSubQuery]
  apply ((yields_resolveQuery source _ _ _).bind fun resolved => yields_pure _).congr
  intro entry
  constructor
  · rintro ⟨resolved, hresolved, rfl⟩
    exact ⟨rfl, hresolved⟩
  · rintro ⟨hname, hresolved⟩
    exact ⟨entry.2, hresolved, by rw [← hname]⟩

/-- A derived query is planned with the definition that it has or names. -/
theorem definitionOf_eq_ok_iff {projectId : Int} {q : Query} {definition : QueryGroup} :
    definitionOf derived projectId q = .ok definition ↔
      q.DefinedBy derived projectId definition := by
  rw [definitionOf, Query.DefinedBy]
  cases q.definition with
  | some own => simp
  | none =>
      simp only [bind_eq_ok_iff, DerivedStore.get]
      cases derived.find? projectId (q.metrics.headD "") <;> simp [pure, Except.pure]

/-- The resolved sub-queries of a valid definition have the labels of the member and the group. -/
theorem layout_eq_of_subResolvesTo {outer : Query} {definition : QueryGroup} {formula : Formula}
    {entries : List (String × ResolvedQuery)}
    (hvalid : definition.validateDefinition = .ok formula)
    (hentries : List.Forall₂ (Query.SubResolvesTo source group outer) definition.queries entries)
    {entry : String × ResolvedQuery} (hentry : entry ∈ entries) :
    entry.2.layout =
      ⟨outer.granularity.isSome, (outer.groupBys ++ group.globalGroupBys).map (·.propertyName)⟩ := by
  obtain ⟨sub, hsub, hresolved⟩ := exists_of_mem_of_forall₂ hentries hentry
  have hcheck := (QueryGroup.of_validateDefinition hvalid).2 sub hsub
  obtain ⟨-, -, hgroupBys, -⟩ := sub.checkSubQuery_eq_ok_iff.mp hcheck
  have hbucketed : entry.2.isBucketed = outer.granularity.isSome := by
    rw [ResolvedQuery.isBucketed, hresolved.resolvesTo.rest]
  rw [ResolvedQuery.layout, hbucketed, hresolved.resolvesTo.labels_eq, hgroupBys, List.nil_append]

/-- The labels of the first sub-query are those of the member and the group. -/
theorem headLabels_eq_of_subResolvesTo {outer : Query} {definition : QueryGroup}
    {formula : Formula} {entries : List (String × ResolvedQuery)}
    (hvalid : definition.validateDefinition = .ok formula)
    (hentries : List.Forall₂ (Query.SubResolvesTo source group outer) definition.queries entries) :
    (entries.head?.map (·.2.labels)).getD [] =
      (outer.groupBys ++ group.globalGroupBys).map (·.propertyName) := by
  cases entries with
  | nil =>
      have hnone : definition.queries = [] := List.forall₂_nil_right_iff.mp hentries
      exact absurd hnone (QueryGroup.of_validateDefinition hvalid).1
  | cons entry rest =>
      exact congrArg KeyLayout.labels (layout_eq_of_subResolvesTo hvalid hentries (by simp))

/-- A derived member is expanded if and only if its definition is known and valid and all its
sub-queries are resolved. -/
theorem yields_planDerived (source : MappingSource) (derived : DerivedStore) (group : QueryGroup)
    (outer : Query) :
    Yields source (source.planDerived derived group outer)
      fun p => ∃ definition, outer.ExpandsTo source derived group definition p := by
  rw [planDerived]
  apply ((yields_liftM _).bind fun definition => (yields_liftM _).bind fun formula =>
    (yields_mapM (yields_planSubQuery source group outer) _).bind fun entries =>
      yields_pure _).congr
  intro p
  constructor
  · rintro ⟨definition, hdefinition, formula, hvalid, entries, hentries, rfl⟩
    refine ⟨definition, definitionOf_eq_ok_iff.mp hdefinition, hvalid, rfl, rfl, hentries, ?_⟩
    rw [headLabels_eq_of_subResolvesTo hvalid hentries]
  · rintro ⟨definition, hdefinedBy, hvalid, hlabel, hpercentage, hentries, hlayout⟩
    refine ⟨definition, definitionOf_eq_ok_iff.mpr hdefinedBy, p.formula, hvalid, p.subQueries,
      hentries, ?_⟩
    rw [headLabels_eq_of_subResolvesTo hvalid hentries, ← hlabel, ← hpercentage, ← hlayout]

theorem yields_planMember (source : MappingSource) (derived : DerivedStore) (group : QueryGroup)
    (q : Query) :
    Yields source (source.planMember derived group q) (q.PlannedAs source derived group) := by
  rw [planMember]
  cases hderived : q.isDerived with
  | true =>
      apply ((yields_planDerived source derived group q).bind fun p => yields_pure _).congr
      intro plan
      constructor
      · rintro ⟨p, ⟨definition, hp⟩, rfl⟩
        exact .derived hderived hp
      · intro h
        cases h with
        | direct hdirect _ => simp [hderived] at hdirect
        | derived _ hp => exact ⟨_, ⟨_, hp⟩, rfl⟩
  | false =>
      apply ((yields_resolveQuery source q _ _).bind fun r => yields_pure _).congr
      intro plan
      constructor
      · rintro ⟨r, hr, rfl⟩
        exact .direct hderived hr
      · intro h
        cases h with
        | direct _ hr => exact ⟨_, hr, rfl⟩
        | derived hother _ => simp [hderived] at hother

/-- A group is planned if and only if it is valid and all its members are planned. -/
theorem yields_normalize (source : MappingSource) (derived : DerivedStore) (group : QueryGroup) :
    Yields source (source.normalize derived group) fun plans =>
      group.validate = .ok () ∧
        List.Forall₂ (Query.PlannedAs source derived group) group.queries plans := by
  rw [normalize]
  apply ((yields_liftM _).bind fun _ =>
    yields_mapM (yields_planMember source derived group) _).congr
  intro plans
  constructor
  · rintro ⟨_, hvalid, hplans⟩
    exact ⟨hvalid, hplans⟩
  · rintro ⟨hvalid, hplans⟩
    exact ⟨(), hvalid, hplans⟩

/-- No placeholder is left in a resolved query. -/
theorem isConcrete_of_resolvesTo {q : Query} {filters : List Filter} {groupBys : List GroupBy}
    {r : ResolvedQuery} (h : q.ResolvesTo source filters groupBys r) : r.IsConcrete := by
  constructor
  · intro f hf
    obtain ⟨_, -, hresolved⟩ := exists_of_mem_of_forall₂ h.filtersTo hf
    exact hresolved.isMapping_eq_false
  · intro g hg
    obtain ⟨_, -, hresolved⟩ := exists_of_mem_of_forall₂ h.groupBysTo hg
    exact hresolved.isMapping_eq_false

/-- The resolved queries of a plan are concrete and have its key columns. -/
theorem isConcrete_of_plannedAs {q : Query} {plan : Plan}
    (h : q.PlannedAs source derived group plan) {r : ResolvedQuery} (hr : r ∈ plan.resolved) :
    r.IsConcrete ∧ r.layout = plan.layout := by
  cases h with
  | direct _ hresolved =>
      obtain rfl := List.mem_singleton.mp hr
      exact ⟨isConcrete_of_resolvesTo hresolved, rfl⟩
  | derived _ hp =>
      obtain ⟨entry, hentry, rfl⟩ := List.mem_map.mp hr
      obtain ⟨_, -, hresolved⟩ := exists_of_mem_of_forall₂ hp.subQueriesTo hentry
      refine ⟨isConcrete_of_resolvesTo hresolved.resolvesTo, ?_⟩
      rw [layout_eq_of_subResolvesTo hp.valid hp.subQueriesTo hentry]
      exact hp.layout_eq.symm

/-- The labels of a plan are those of the member and the group. -/
theorem labels_eq_of_plannedAs {q : Query} {plan : Plan}
    (h : q.PlannedAs source derived group plan) :
    plan.layout.labels = (q.groupBys ++ group.globalGroupBys).map (·.propertyName) := by
  cases h with
  | direct _ hresolved => exact hresolved.labels_eq
  | derived _ hp => exact congrArg KeyLayout.labels hp.layout_eq

/-- Planning answers exactly with the plans that broadcasting and resolving give to the members of a
valid group. Then no placeholder is left, and all resolved queries of a plan have its key columns. -/
theorem normalize_eq_ok_iff_plannedAs (source : MappingSource) (derived : DerivedStore)
    (group : QueryGroup) (plans : List Plan) :
    (((source.normalize derived group).run.run .fresh).1 = .ok plans ↔
      group.validate = .ok () ∧
        List.Forall₂ (Query.PlannedAs source derived group) group.queries plans) ∧
    (((source.normalize derived group).run.run .fresh).1 = .ok plans →
      ∀ plan ∈ plans, ∀ r ∈ plan.resolved, r.IsConcrete ∧ r.layout = plan.layout) := by
  have hiff := (yields_normalize source derived group).result_eq_ok_iff plans
  constructor
  · exact hiff
  intro h plan hplan r hr
  obtain ⟨q, -, hplanned⟩ := exists_of_mem_of_forall₂ (hiff.mp h).2 hplan
  exact isConcrete_of_plannedAs hplanned hr

end MappingSource

end FederatedMetrics
