import FederatedMetrics.Proofs.Plan.Faults
import FederatedMetrics.Proofs.Plan.Narrowing

/-!
# Names in planned queries

The check of a group looks at the filters and group-bys of its members and at the global ones, so
whatever of these comes from no mapping has names without blanks when it reaches an executor. Filters
that the sub-queries of a definition bring along are not looked at: they pass as they are, from a
definition on the spot and from a stored one alike.
-/

namespace FederatedMetrics

/-- The names of a reference hold no blanks. -/
structure Reference.IsClean (r : Reference) : Prop where
  propertyName : Text.hasBlank r.propertyName = false
  objectType : Text.hasBlank r.objectType = false
  entity : Text.hasBlank r.entity = false

theorem Reference.check_eq_ok_iff (r : Reference) : r.check = .ok () ↔ r.IsClean := by
  rw [check]
  split
  · rename_i hblank
    simp only [Bool.or_eq_true] at hblank
    constructor
    · rintro ⟨⟩
    · rintro ⟨hname, hobjectType, hentity⟩
      simp [hname, hobjectType, hentity] at hblank
  · rename_i hclean
    simp only [Bool.or_eq_true, not_or, Bool.not_eq_true] at hclean
    exact ⟨fun _ => ⟨hclean.1.1, hclean.1.2, hclean.2⟩, fun _ => rfl⟩

/-- In the place of every item that refers to no mapping stands one whose names hold no blanks. -/
def CleanUnlessMapped {α : Type} (reference : α → Reference) : List α → List α → Prop :=
  List.Forall₂ fun item resolved =>
    (reference item).isMapping = false → (reference resolved).IsClean

/-- What a resolved query has got from some filters, the first of them left out, and from some
group-bys has names without blanks unless it comes from a mapping. -/
structure ResolvedQuery.CleanBehind (skipped : Nat) (filters : List Filter) (groupBys : List GroupBy)
    (r : ResolvedQuery) : Prop where
  filters : CleanUnlessMapped Filter.reference (filters.drop skipped) (r.query.filters.drop skipped)
  groupBys : CleanUnlessMapped GroupBy.reference groupBys r.query.groupBys

/-- The resolved queries of a member's plan have names without blanks wherever these come from no
mapping. Of every sub-query of a derived member some first filters are left out. -/
inductive Query.PlanClean (derived : DerivedStore) (projectId : Int) (group : QueryGroup)
    (skipped : Query → Nat) (q : Query) : Plan → Prop
  | direct {r : ResolvedQuery} (hdirect : q.isDerived = false)
      (hr : r.CleanBehind 0 (q.filters ++ group.globalFilters) (q.groupBys ++ group.globalGroupBys)) :
      PlanClean derived projectId group skipped q (.direct r)
  | derived {definition : QueryGroup} {p : DerivedPlan} (hderived : q.isDerived = true)
      (hdefinition : q.DefinedBy derived projectId definition)
      (hp : List.Forall₂ (fun sub entry =>
        entry.2.CleanBehind (skipped sub) (sub.filters ++ (q.filters ++ group.globalFilters))
          (sub.groupBys ++ q.groupBys ++ group.globalGroupBys)) definition.queries p.subQueries) :
      PlanClean derived projectId group skipped q (.derived p)

/-- If the member is derived, then the filters of its sub-queries behind the first ones have names
without blanks unless they refer to mappings. -/
def Query.DefinedClean (derived : DerivedStore) (projectId : Int) (skipped : Query → Nat) (q : Query) :
    Prop :=
  q.isDerived = true → ∀ definition, q.DefinedBy derived projectId definition →
    ∀ sub ∈ definition.queries, ∀ f ∈ sub.filters.drop (skipped sub),
      f.isMapping = false → f.reference.IsClean

/-- If items that refer to no mapping stay as they are, then they are clean afterwards exactly if they
have been before. -/
theorem cleanUnlessMapped_iff {α : Type} (reference : α → Reference) {R : α → α → Prop}
    (hstays : ∀ item resolved, R item resolved → (reference item).isMapping = false → item = resolved)
    {items resolved : List α} (h : List.Forall₂ R items resolved) :
    CleanUnlessMapped reference items resolved ↔
      ∀ item ∈ items, (reference item).isMapping = false → (reference item).IsClean := by
  refine forall₂_iff_forall_mem (h.imp fun item other hresolves => ?_)
  apply forall_congr'
  intro hconcrete
  rw [hstays item other hresolves hconcrete]

namespace MappingSource

variable {source : MappingSource} {derived : DerivedStore} {group : QueryGroup} {q : Query}
  {filters own broadcast : List Filter} {groupBys : List GroupBy} {r : ResolvedQuery} {plan : Plan}
  {skipped : Nat}

theorem filter_eq_of_resolvesTo {displayCategory : String} {f resolved : Filter}
    (h : f.ResolvesTo source displayCategory resolved) (hconcrete : f.reference.isMapping = false) :
    f = resolved := by
  cases h with
  | concrete _ => rfl
  | mapped hmapping _ => exact absurd hconcrete (by simp [Filter.reference, hmapping])

theorem groupBy_eq_of_resolvesTo {displayCategory : String} {g resolved : GroupBy}
    (h : g.ResolvesTo source displayCategory resolved) (hconcrete : g.reference.isMapping = false) :
    g = resolved := by
  cases h with
  | concrete _ => rfl
  | mapped hmapping _ => exact absurd hconcrete (by simp [GroupBy.reference, hmapping])

/-- A query is clean behind some filters after resolving exactly if it has been before. -/
theorem cleanBehind_iff (h : q.ResolvesTo source filters groupBys r) (skipped : Nat) :
    r.CleanBehind skipped filters groupBys ↔
      (∀ f ∈ filters.drop skipped, f.isMapping = false → f.reference.IsClean) ∧
        ∀ g ∈ groupBys, g.isMapping = false → g.reference.IsClean := by
  have hfilters := cleanUnlessMapped_iff Filter.reference
    (fun _ _ => filter_eq_of_resolvesTo) (List.forall₂_drop skipped h.filtersTo)
  have hgroupBys := cleanUnlessMapped_iff GroupBy.reference
    (fun _ _ => groupBy_eq_of_resolvesTo) h.groupBysTo
  constructor
  · rintro ⟨hf, hg⟩
    exact ⟨hfilters.mp hf, hgroupBys.mp hg⟩
  · rintro ⟨hf, hg⟩
    exact ⟨hfilters.mpr hf, hgroupBys.mpr hg⟩

/-- Clean filters that are broadcast, and clean group-bys, leave it to the own filters whether a
resolved query is clean. -/
theorem cleanBehind_append_iff (h : q.ResolvesTo source (own ++ broadcast) groupBys r)
    (hbroadcast : ∀ f ∈ broadcast, f.reference.IsClean) (hgroupBys : ∀ g ∈ groupBys, g.reference.IsClean)
    (skipped : Nat) :
    r.CleanBehind skipped (own ++ broadcast) groupBys ↔
      ∀ f ∈ own.drop skipped, f.isMapping = false → f.reference.IsClean := by
  rw [cleanBehind_iff h, List.drop_append]
  constructor
  · rintro ⟨hfilters, -⟩ f hf
    exact hfilters f (List.mem_append_left _ hf)
  · intro hown
    refine ⟨fun f hf => ?_, fun g hg _ => hgroupBys g hg⟩
    rcases List.mem_append.mp hf with hf | hf
    · exact hown f hf
    · exact fun _ => hbroadcast f (List.mem_of_mem_drop hf)

/-- The references that a group checks are clean: those of its members and the global ones. -/
theorem isClean_of_validate (h : group.validate = .ok ()) (hq : q ∈ group.queries) :
    (∀ f ∈ q.filters ++ group.globalFilters, f.reference.IsClean) ∧
      ∀ g ∈ q.groupBys ++ group.globalGroupBys, g.reference.IsClean := by
  obtain ⟨-, hqueries, hglobals⟩ := group.validate_eq_ok_iff.mp h
  have hall : ∀ r ∈ (group.localize q).references, r.IsClean := by
    intro r hr
    apply r.check_eq_ok_iff.mp
    rcases (group.mem_references_localize q r).mp hr with hr | hr
    · exact (q.check_eq_ok_iff.mp (hqueries q hq)).2 r hr
    · exact Reference.check_of_checkGlobal (hglobals r hr)
  constructor
  · intro f hf
    exact hall _ (List.mem_append_left _ (List.mem_map_of_mem hf))
  · intro g hg
    exact hall _ (List.mem_append_right _ (List.mem_map_of_mem hg))

/-- The plan of a member of a valid group is clean but for the filters of its definition. -/
theorem planClean_iff (hvalid : group.validate = .ok ()) (hq : q ∈ group.queries)
    (h : q.PlannedAs source derived group plan) (skipped : Query → Nat) :
    q.PlanClean derived source.projectId group skipped plan ↔
      q.DefinedClean derived source.projectId skipped := by
  obtain ⟨hfilters, hgroupBys⟩ := isClean_of_validate hvalid hq
  cases h with
  | direct hdirect hr =>
      constructor
      · intro _ hderived
        simp [hdirect] at hderived
      · intro _
        exact .direct hdirect ((cleanBehind_iff hr 0).mpr
          ⟨fun f hf _ => hfilters f hf, fun g hg _ => hgroupBys g hg⟩)
  | @derived definition p hderived hp =>
      have hsubQueries : List.Forall₂ (fun sub entry =>
          entry.2.CleanBehind (skipped sub) (sub.filters ++ (q.filters ++ group.globalFilters))
              (sub.groupBys ++ q.groupBys ++ group.globalGroupBys) ↔
            ∀ f ∈ sub.filters.drop (skipped sub), f.isMapping = false → f.reference.IsClean)
          definition.queries p.subQueries := by
        have hchecked := (QueryGroup.of_validateDefinition hp.valid).2
        refine ((List.forall₂_and_left _ _).mpr ⟨hchecked, hp.subQueriesTo⟩).imp ?_
        rintro sub entry ⟨hcheck, hentry⟩
        -- The sub-queries of a valid definition have no group-bys of their own.
        obtain ⟨-, -, hnone, -⟩ := sub.checkSubQuery_eq_ok_iff.mp hcheck
        have hresolved := hentry.resolvesTo
        rw [hnone, List.nil_append, List.append_assoc] at hresolved
        rw [hnone, List.nil_append]
        exact cleanBehind_append_iff hresolved hfilters hgroupBys (skipped sub)
      have hclean := forall₂_iff_forall_mem hsubQueries
      constructor
      · rintro (_ | ⟨_, hdefinition, hentries⟩) _ other hother
        obtain rfl := definedBy_unique hp.definedBy hother
        obtain rfl := definedBy_unique hp.definedBy hdefinition
        exact hclean.mp hentries
      · intro hown
        exact .derived hderived hp.definedBy (hclean.mpr (hown hderived definition hp.definedBy))

/-- Leaving out all filters of the sub-queries asks nothing of definitions. -/
theorem definedClean_of_all_skipped (derived : DerivedStore) (projectId : Int) (q : Query) :
    q.DefinedClean derived projectId fun sub => sub.filters.length := by
  intro _ definition _ sub _ f hf
  simp at hf

/-- The plans of a group are clean, behind any first filters of sub-queries, exactly if its definitions
are. -/
theorem plansClean_iff {plans : List Plan}
    (hplans : (source.normalize derived group).result = .ok plans) (skipped : Query → Nat) :
    List.Forall₂ (Query.PlanClean derived source.projectId group skipped) group.queries plans ↔
      ∀ q ∈ group.queries, q.DefinedClean derived source.projectId skipped := by
  obtain ⟨hvalid, hplanned⟩ := ((yields_normalize source derived group).result_eq_ok_iff plans).mp hplans
  have hmembers : ∀ q ∈ group.queries, q ∈ group.queries := fun _ => id
  refine forall₂_iff_forall_mem (((List.forall₂_and_left _ _).mpr ⟨hmembers, hplanned⟩).imp ?_)
  rintro q plan ⟨hq, hplan⟩
  exact planClean_iff hvalid hq hplan skipped

/-- In the plans of a group, whatever comes from no mapping has names without blanks, except that the
filters which the sub-queries of derived members bring along are only clean if they are in the
definition. -/
theorem names_clean_iff_defined_clean {plans : List Plan}
    (hplans : ((source.normalize derived group).run.run .fresh).1 = .ok plans) :
    (List.Forall₂ (Query.PlanClean derived source.projectId group fun _ => 0) group.queries plans ↔
      ∀ q ∈ group.queries, q.DefinedClean derived source.projectId fun _ => 0) ∧
    List.Forall₂ (Query.PlanClean derived source.projectId group fun sub => sub.filters.length)
      group.queries plans :=
  ⟨plansClean_iff hplans _,
    (plansClean_iff hplans _).mpr fun q _ =>
      definedClean_of_all_skipped derived source.projectId q⟩

/-- The number of visits from a home town as a derived metric, with a global filter for a town. The
property of the home town is given. -/
def homeGroup (property : String) : QueryGroup :=
  let visits (filters : List Filter) : Query :=
    ⟨.events, "visits", ["count"], filters, [], 0, 9, none, .standard, "a", "n", "", none⟩
  let home : Filter := ⟨"", property, false, .categorical, "", .equals, "Rome", .and⟩
  let derived : Query :=
    { visits [] with
      queryType := .derived
      definition := some ⟨"", "a", [visits [home]], [], [], ""⟩ }
  ⟨"", "", [visits [newVisits], derived],
    [⟨"", "town", true, .categorical, "", .equals, "Rome", .and⟩], [], ""⟩

/-- A definition with clean names has a clean plan. -/
theorem names_clean_iff_defined_clean_home : ∃ plans,
    ((townSource.normalize [] (homeGroup "home")).run.run .fresh).1 = .ok plans ∧
      List.Forall₂ (Query.PlanClean [] 1 (homeGroup "home") fun _ => 0) (homeGroup "home").queries
        plans := by
  obtain ⟨plans, hplans⟩ : ∃ plans,
      ((townSource.normalize [] (homeGroup "home")).run.run .fresh).1 = .ok plans := ⟨_, rfl⟩
  refine ⟨plans, hplans, (names_clean_iff_defined_clean hplans).1.mpr fun q hq hderived => ?_⟩
  rcases List.mem_cons.mp hq with rfl | hq
  · cases hderived
  · obtain rfl := List.mem_singleton.mp hq
    rintro definition (hdefinition | ⟨hnone, -⟩) sub hsub f hf -
    · cases hdefinition
      obtain rfl := List.mem_singleton.mp hsub
      obtain rfl := List.mem_singleton.mp hf
      exact ⟨by decide, by decide, by decide⟩
    · cases hnone

/-- A property name with a blank in a definition on the spot reaches the executor. -/
theorem not_planClean_home : ∃ plans,
    ((townSource.normalize [] (homeGroup "home town")).run.run .fresh).1 = .ok plans ∧
      ¬ List.Forall₂ (Query.PlanClean [] 1 (homeGroup "home town") fun _ => 0)
        (homeGroup "home town").queries plans := by
  obtain ⟨plans, hplans⟩ : ∃ plans,
      ((townSource.normalize [] (homeGroup "home town")).run.run .fresh).1 = .ok plans := ⟨_, rfl⟩
  refine ⟨plans, hplans, fun hclean => ?_⟩
  have hdefined := (plansClean_iff hplans fun _ => 0).mp hclean _
    (List.mem_cons_of_mem _ (List.mem_singleton_self _)) rfl _ (.inl rfl) _
    (List.mem_singleton_self _) _ (List.mem_singleton_self _) rfl
  exact absurd hdefined.propertyName (by decide)

end MappingSource

end FederatedMetrics
