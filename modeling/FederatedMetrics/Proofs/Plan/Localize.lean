import FederatedMetrics.Proofs.Plan.Broadcast

/-!
# Global entries as local ones

A group without global entries, whose members have these entries behind their own, is planned alike.
A direct member may also name the property that a mapping stands for instead of the mapping.
-/

namespace FederatedMetrics

/-- A member with the global entries of its group behind its own. -/
def QueryGroup.localize (g : QueryGroup) (q : Query) : Query :=
  { q with
    filters := q.filters ++ g.globalFilters
    groupBys := q.groupBys ++ g.globalGroupBys }

/-- A group with its global entries moved into every member. -/
def QueryGroup.localized (g : QueryGroup) : QueryGroup :=
  { g with queries := g.queries.map g.localize, globalFilters := [], globalGroupBys := [] }

/-- A filter that stays, or that names the property that its mapping stands for. The names hold no
blanks. -/
inductive Filter.Concretizes (source : MappingSource) (displayCategory : String) (f : Filter) :
    Filter → Prop
  | stays : Concretizes source displayCategory f f
  | names {p : Property} (h : f.isMapping = true)
      (hp : source.Provides f.propertyName displayCategory p) (hname : Text.hasBlank p.name = false)
      (hobjectType : Text.hasBlank p.objectType = false)
      (hentity : Text.hasBlank p.entity = false) :
      Concretizes source displayCategory f (f.withProperty p)

/-- A member that stays, or a direct one of which some filters name their properties. -/
inductive Query.Concretizes (source : MappingSource) (q : Query) : Query → Prop
  | stays : Concretizes source q q
  | direct {filters : List Filter} (hdirect : q.isDerived = false)
      (hfilters : List.Forall₂ (Filter.Concretizes source q.displayCategory) q.filters filters) :
      Concretizes source q { q with filters := filters }

/-- A group of which some filters of direct members name their properties. -/
def QueryGroup.Concretizes (source : MappingSource) (g other : QueryGroup) : Prop :=
  ∃ queries, List.Forall₂ (Query.Concretizes source) g.queries queries ∧
    other = { g with queries := queries }

/-- The parts of a check on a group. -/
theorem QueryGroup.validate_eq_ok_iff (g : QueryGroup) :
    g.validate = .ok () ↔ g.queries ≠ [] ∧ (∀ q ∈ g.queries, q.check = .ok ()) ∧
      ∀ r ∈ g.globalReferences, r.checkGlobal g.requiresMappings = .ok () := by
  rw [validate, guard_eq_ok_iff, check_bind_eq_ok_iff, forM_eq_ok_iff, forM_eq_ok_iff,
    List.isEmpty_iff]

theorem Query.check_eq_ok_iff (q : Query) :
    q.check = .ok () ↔ q.checkMetrics = .ok () ∧ ∀ r ∈ q.references, r.check = .ok () := by
  rw [check, check_bind_eq_ok_iff, forM_eq_ok_iff]

theorem Reference.check_of_checkGlobal {r : Reference} {mappingsRequired : Bool}
    (h : r.checkGlobal mappingsRequired = .ok ()) : r.check = .ok () := by
  rw [checkGlobal, check_bind_eq_ok_iff] at h
  exact h.1

/-- The references of a member with the global entries are its own and the global ones. -/
theorem QueryGroup.mem_references_localize (g : QueryGroup) (q : Query) (r : Reference) :
    r ∈ (g.localize q).references ↔ r ∈ q.references ∨ r ∈ g.globalReferences := by
  simp only [Query.references, globalReferences, localize, List.map_append, List.mem_append]
  tauto

/-- A valid group stays valid. -/
theorem QueryGroup.validate_localized {g : QueryGroup} (h : g.validate = .ok ()) :
    g.localized.validate = .ok () := by
  obtain ⟨hnonempty, hqueries, hglobals⟩ := g.validate_eq_ok_iff.mp h
  refine g.localized.validate_eq_ok_iff.mpr ⟨?_, ?_, ?_⟩
  · simpa [localized] using hnonempty
  · intro q hq
    obtain ⟨own, hown, rfl⟩ := List.mem_map.mp hq
    obtain ⟨hmetrics, hreferences⟩ := own.check_eq_ok_iff.mp (hqueries own hown)
    refine (g.localize own).check_eq_ok_iff.mpr ⟨hmetrics, ?_⟩
    intro r hr
    rcases (g.mem_references_localize own r).mp hr with hr | hr
    · exact hreferences r hr
    · exact Reference.check_of_checkGlobal (hglobals r hr)
  · simp [globalReferences, localized]

namespace MappingSource

open Resolving

variable {source : MappingSource} {derived : DerivedStore} {group : QueryGroup}

theorem planSubQuery_localized (source : MappingSource) (group : QueryGroup) (outer sub : Query) :
    source.planSubQuery group.localized (group.localize outer) sub =
      source.planSubQuery group outer sub := by
  simp only [planSubQuery, QueryGroup.localized, QueryGroup.localize, inherit, List.append_nil,
    List.append_assoc]

/-- A member with the global entries is planned without them as before with them. -/
theorem planMember_localized (source : MappingSource) (derived : DerivedStore) (group : QueryGroup)
    (q : Query) :
    source.planMember derived group.localized (group.localize q) =
      source.planMember derived group q := by
  have hderived : source.planDerived derived group.localized (group.localize q) =
      source.planDerived derived group q := by
    rw [planDerived, planDerived, funext (planSubQuery_localized source group q)]
    rfl
  have hdirect : source.resolveQuery (group.localize q)
      ((group.localize q).filters ++ group.localized.globalFilters)
      ((group.localize q).groupBys ++ group.localized.globalGroupBys) =
      source.resolveQuery q (q.filters ++ group.globalFilters)
        (q.groupBys ++ group.globalGroupBys) := by
    simp only [resolveQuery, QueryGroup.localized, QueryGroup.localize, List.append_nil]
    rfl
  rw [planMember, planMember, hderived, hdirect]
  rfl

/-- A valid group is planned alike with its global entries moved into the members. -/
theorem normalize_localized (derived : DerivedStore) (h : group.validate = .ok ()) :
    source.normalize derived group.localized = source.normalize derived group := by
  rw [normalize, normalize, QueryGroup.validate_localized h, h]
  have hmembers : group.localized.queries.mapM (source.planMember derived group.localized) =
      group.queries.mapM (source.planMember derived group) := by
    rw [QueryGroup.localized, List.mapM_map]
    congr 1
    funext q
    exact planMember_localized source derived group q
  rw [hmembers]

/-- A mapping has at most one property for a display category. -/
theorem Provides.eq {name displayCategory : String} {p other : Property}
    (h : source.Provides name displayCategory p) (hother : source.Provides name displayCategory other) :
    p = other := by
  obtain ⟨m, hm, hp⟩ := h
  obtain ⟨m', hm', hp'⟩ := hother
  rw [hm] at hm'
  cases hm'
  exact Option.some.inj (hp.symm.trans hp')

/-- A filter that names its property becomes what its mapping would have become. -/
theorem resolvesTo_of_concretizes {displayCategory : String} {f other resolved : Filter}
    (hother : f.Concretizes source displayCategory other)
    (h : f.ResolvesTo source displayCategory resolved) :
    other.ResolvesTo source displayCategory resolved := by
  cases hother with
  | stays => exact h
  | names hmapping hp _ _ _ =>
      cases h with
      | concrete hconcrete => simp [hmapping] at hconcrete
      | mapped _ hresolved =>
          cases Provides.eq hp hresolved
          exact .concrete rfl

theorem resolvesTo_append_of_concretizes {displayCategory : String}
    {filters others globals resolved : List Filter}
    (hothers : List.Forall₂ (Filter.Concretizes source displayCategory) filters others)
    (h : List.Forall₂ (Filter.ResolvesTo source displayCategory) (filters ++ globals) resolved) :
    List.Forall₂ (Filter.ResolvesTo source displayCategory) (others ++ globals) resolved := by
  induction hothers generalizing resolved with
  | nil => exact h
  | cons hother _ ih =>
      cases h with
      | cons hhead hrest => exact .cons (resolvesTo_of_concretizes hother hhead) (ih hrest)

/-- A member of which filters name their properties is planned alike. -/
theorem plannedAs_of_concretizes {q other : Query} {plan : Plan}
    (hother : q.Concretizes source other) (h : q.PlannedAs source derived group plan) :
    other.PlannedAs source derived group plan := by
  cases hother with
  | stays => exact h
  | direct hdirect hfilters =>
      cases h with
      | derived hderived _ => simp [hdirect] at hderived
      | direct _ hr =>
          exact .direct hdirect ⟨hr.inZone, resolvesTo_append_of_concretizes hfilters hr.filtersTo,
            hr.groupBysTo, hr.rest, hr.labels_eq⟩

/-- A plan only depends on the global entries of the group. -/
theorem plannedAs_queries {q : Query} {plan : Plan} {queries : List Query}
    (h : q.PlannedAs source derived group plan) :
    q.PlannedAs source derived { group with queries := queries } plan := by
  cases h with
  | direct hdirect hr => exact .direct hdirect hr
  | derived hderived hp =>
      exact .derived hderived ⟨hp.definedBy, hp.valid, hp.label_eq, hp.percentage_eq,
        hp.subQueriesTo.imp fun _ _ hsub => ⟨hsub.name_eq, hsub.resolvesTo⟩, hp.layout_eq⟩

theorem check_of_concretizes {q other : Query} (hother : q.Concretizes source other)
    (h : q.check = .ok ()) : other.check = .ok () := by
  cases hother with
  | stays => exact h
  | @direct filters _ hfilters =>
      obtain ⟨hmetrics, hreferences⟩ := q.check_eq_ok_iff.mp h
      refine Query.check_eq_ok_iff _ |>.mpr ⟨hmetrics, ?_⟩
      intro r hr
      rcases List.mem_append.mp hr with hr | hr
      · obtain ⟨f, hf, rfl⟩ := List.mem_map.mp hr
        obtain ⟨own, hown, hconcretizes⟩ := exists_of_mem_of_forall₂ hfilters hf
        cases hconcretizes with
        | stays => exact hreferences _ (List.mem_append_left _ (List.mem_map_of_mem hown))
        | names _ _ hname hobjectType hentity =>
            simp [Reference.check, Filter.reference, Filter.withProperty, hname, hobjectType,
              hentity]
      · exact hreferences r (List.mem_append_right _ hr)

theorem shapes_of_concretizes {queries others : List Query}
    (h : List.Forall₂ (Query.Concretizes source) queries others) :
    others.map (fun q => (q.displayCategory, q.isDerived)) =
      queries.map fun q => (q.displayCategory, q.isDerived) := by
  induction h with
  | nil => rfl
  | cons hother _ ih =>
      rw [List.map_cons, List.map_cons, ih]
      cases hother <;> rfl

theorem requiresMappings_of_concretizes {queries : List Query}
    (h : List.Forall₂ (Query.Concretizes source) group.queries queries) :
    QueryGroup.requiresMappings { group with queries := queries } = group.requiresMappings := by
  have hcategories := congrArg (List.map Prod.fst) (shapes_of_concretizes h)
  have hderived := congrArg (List.any · Prod.snd) (shapes_of_concretizes h)
  simp only [List.map_map, List.any_map, Function.comp_def] at hcategories hderived
  simp only [QueryGroup.requiresMappings, QueryGroup.displayCategories, hcategories]
  exact congrArg _ hderived

theorem plannedAs_of_forall₂_concretizes {queries others : List Query} {plans : List Plan}
    (hothers : List.Forall₂ (Query.Concretizes source) queries others)
    (h : List.Forall₂ (Query.PlannedAs source derived group) queries plans) :
    List.Forall₂ (Query.PlannedAs source derived group) others plans := by
  induction hothers generalizing plans with
  | nil => exact h
  | cons hother _ ih =>
      cases h with
      | cons hplan hrest => exact .cons (plannedAs_of_concretizes hother hplan) (ih hrest)

/-- A group of which filters of direct members name their properties has the same plans. -/
theorem normalize_of_concretizes {other : QueryGroup} {plans : List Plan}
    (hother : group.Concretizes source other)
    (h : (source.normalize derived group).result = .ok plans) :
    (source.normalize derived other).result = .ok plans := by
  obtain ⟨queries, hqueries, rfl⟩ := hother
  obtain ⟨hvalid, hplans⟩ := ((yields_normalize source derived group).result_eq_ok_iff plans).mp h
  obtain ⟨hnonempty, hchecks, hglobals⟩ := group.validate_eq_ok_iff.mp hvalid
  apply ((yields_normalize source derived _).result_eq_ok_iff plans).mpr
  constructor
  · refine QueryGroup.validate_eq_ok_iff _ |>.mpr ⟨?_, ?_, ?_⟩
    · rintro rfl
      exact hnonempty (List.forall₂_nil_right_iff.mp hqueries)
    · intro q hq
      obtain ⟨own, hown, hconcretizes⟩ := exists_of_mem_of_forall₂ hqueries hq
      exact check_of_concretizes hconcretizes (hchecks own hown)
    · rw [requiresMappings_of_concretizes hqueries]
      exact hglobals
  · exact (plannedAs_of_forall₂_concretizes hqueries hplans).imp fun _ _ => plannedAs_queries

end MappingSource

end FederatedMetrics
