import FederatedMetrics.Proofs.Engine.Execution
import FederatedMetrics.Proofs.Plan.Localize

/-!
# Groups without global entries

Every table of a planned group carries the labels of its plan, among them those of the global
group-bys. So a group is executed alike with its global entries moved into the members.
-/

namespace FederatedMetrics

namespace ResultTable

/-- Global labels that a table carries do not matter for its check. -/
theorem checkShape_of_mem {t : ResultTable} {globals : List String} (index : Nat)
    (h : ∀ label ∈ globals, label ∈ t.headers) : t.checkShape index globals = t.checkShape index [] := by
  have hnone : (globals.find? fun label => !t.headers.contains label) = none := by
    apply List.find?_eq_none.mpr
    intro label hlabel
    simpa using h label hlabel
  rw [checkShape, checkShape, hnone]
  rfl

theorem checkShapes_of_mem {globals : List String} {tables : List ResultTable} (index : Nat)
    (h : ∀ t ∈ tables, ∀ label ∈ globals, label ∈ t.headers) :
    checkShapes globals index tables = checkShapes [] index tables := by
  induction tables generalizing index with
  | nil => rfl
  | cons t rest ih =>
      obtain ⟨hhead, hrest⟩ := List.forall_mem_cons.mp h
      rw [checkShapes, checkShapes, checkShape_of_mem index hhead, ih (index + 1) hrest]

end ResultTable

/-- Global labels that all tables carry do not matter for harmonizing them. -/
theorem Harmonize.finalize_of_mem {globals : List String} {tables : List ResultTable}
    (layouts : List KeyLayout) (h : ∀ t ∈ tables, ∀ label ∈ globals, label ∈ t.headers) :
    finalize layouts tables globals = finalize layouts tables [] := by
  rw [finalize, finalize, ResultTable.checkShapes_of_mem 0 h]

namespace Combine

variable (g : QueryGroup) (headers : List String) (total : Nat)

/-- A member of the combined view whose query holds the global entries itself. -/
def localizeMember (m : CombineMember) : CombineMember := { m with query := g.localize m.query }

theorem addMembers_localize (offset : Nat) (members : List CombineMember)
    (joined : List (List String × List Json)) :
    addMembers headers total offset (members.map (localizeMember g)) joined =
      addMembers headers total offset members joined := by
  induction members generalizing offset joined with
  | nil => rfl
  | cons m rest ih => exact ih _ _

theorem partition_localize (members : List CombineMember) :
    partition (members.map (localizeMember g)) = partition members := by
  cases members with
  | nil => rfl
  | cons first rest =>
      have hkeys : ((first :: rest).map (localizeMember g)).any (fun m =>
          Ordered.ofList m.keyHeaders ≠ Ordered.ofList first.keyHeaders) =
          (first :: rest).any fun m =>
            Ordered.ofList m.keyHeaders ≠ Ordered.ofList first.keyHeaders := List.any_map
      have hmetrics : ((first :: rest).map (localizeMember g)).flatMap
          CombineMember.metricHeaders = (first :: rest).flatMap CombineMember.metricHeaders :=
        List.flatMap_map ..
      have hfirst : (localizeMember g first).keyHeaders = first.keyHeaders := rfl
      rw [List.map_cons] at hkeys hmetrics ⊢
      simp only [partition, hfirst, hkeys, hmetrics]
      rw [← List.map_cons, addMembers_localize]

/-- The combined view only reads parts of a query that the global entries leave alone. -/
theorem combine_localize (members : List CombineMember) :
    combine (members.map (localizeMember g)) = combine members := by
  have hbucketed : (members.map (localizeMember g)).filter (fun m => m.plan.layout.bucketed) =
      (members.filter fun m => m.plan.layout.bucketed).map (localizeMember g) := List.filter_map
  have hflat : (members.map (localizeMember g)).filter (fun m => !m.plan.layout.bucketed) =
      (members.filter fun m => !m.plan.layout.bucketed).map (localizeMember g) := List.filter_map
  rw [combine, combine, hbucketed, hflat, partition_localize, partition_localize]

end Combine

namespace Engine

variable {registry : Registry} {projectId : Int} {options : ExecutionOptions}

theorem failedOutcome_localized (group : QueryGroup) (tracker : Tracker) (f : Failure) :
    failedOutcome group.localized tracker f = failedOutcome group tracker f := by
  rw [failedOutcome, failedOutcome, QueryGroup.localized, List.map_map]
  rfl

theorem combinedView_localized (group : QueryGroup) (plans : List Plan)
    (results : List ResultTable) :
    combinedView group.localized plans results = combinedView group plans results := by
  have hmembers : (group.localized.queries.zip (plans.zip results)).map
      (fun entry => CombineMember.mk entry.1 entry.2.1 entry.2.2) =
      ((group.queries.zip (plans.zip results)).map fun entry =>
        CombineMember.mk entry.1 entry.2.1 entry.2.2).map (Combine.localizeMember group) := by
    rw [QueryGroup.localized, List.zip_map_left, List.map_map, List.map_map]
    rfl
  rw [combinedView, combinedView, hmembers, Combine.combine_localize]

theorem finishedOutcome_localized (group : QueryGroup) (combine : Bool) (plans : List Plan)
    (tracker : Tracker) (results : List ResultTable) :
    finishedOutcome group.localized combine plans tracker results =
      finishedOutcome group combine plans tracker results := by
  rw [finishedOutcome, finishedOutcome, combinedView_localized]

/-- Tables with the labels of the global group-bys are merged alike. -/
theorem mergedOutcome_localized {group : QueryGroup} (combine : Bool) (plans : List Plan)
    (tracker : Tracker) {tables : Except Failure (List ResultTable)}
    (h : ∀ given, tables = .ok given → ∀ t ∈ given,
      ∀ label ∈ group.globalGroupBys.map (·.propertyName), label ∈ t.headers) :
    mergedOutcome group.localized combine plans tracker tables =
      mergedOutcome group combine plans tracker tables := by
  have hfinalize : (tables.bind fun tables => Harmonize.finalize (plans.map Plan.layout) tables
      (group.localized.globalGroupBys.map (·.propertyName))) =
      tables.bind fun tables => Harmonize.finalize (plans.map Plan.layout) tables
        (group.globalGroupBys.map (·.propertyName)) := by
    cases tables with
    | error f => rfl
    | ok given => exact (Harmonize.finalize_of_mem _ (h given rfl)).symm
  rw [mergedOutcome, mergedOutcome]
  simp only [hfinalize, failedOutcome_localized]
  rw [funext (finishedOutcome_localized group combine plans (tracker.advance .merged))]

/-- A planned group has the same outcome with its global entries moved into the members. -/
theorem execute_localized {e : Engine} {group : QueryGroup} {plans : List Plan}
    (hplans : e.planned projectId group = .ok plans) (options : ExecutionOptions) (combine : Bool)
    (c : Counters) :
    e.execute projectId group.localized options combine c =
      e.execute projectId group options combine c := by
  have hvalid := (planned_eq_ok_iff.mp hplans).1
  have hmerged : (e.gathered projectId options plans).bind
      (mergedOutcome group.localized combine plans .executing) =
      (e.gathered projectId options plans).bind (mergedOutcome group combine plans .executing) := by
    cases hgathered : e.gathered projectId options plans with
    | none => rfl
    | some tables =>
        refine mergedOutcome_localized combine plans .executing fun given hgiven => ?_
        rw [hgiven] at hgathered
        exact mem_headers_of_replies hplans (give_of_gathered hgathered)
  rw [gathered] at hmerged
  rw [execute, execute]
  simp only [MappingSource.normalize_localized e.derived hvalid]
  rw [planned, Resolving.result] at hplans
  rcases hrun : ((e.source projectId).normalize e.derived group).run.run .fresh
    with ⟨answer, lookups⟩
  rw [hrun] at hplans
  obtain rfl : answer = .ok plans := hplans
  simp only [hmerged]

/-- Global entries are equivalent to local ones: the group without them has the same plans and the
same outcome, and filters of its direct members may name the properties of their mappings. -/
theorem globals_eq_locals (e : Engine) (projectId : Int) (group : QueryGroup) {plans : List Plan}
    (hplans : (((e.source projectId).normalize e.derived group).run.run .fresh).1 = .ok plans) :
    (((e.source projectId).normalize e.derived group.localized).run.run .fresh).1 = .ok plans ∧
      (∀ options combine c, e.execute projectId group.localized options combine c =
        e.execute projectId group options combine c) ∧
      ∀ other, group.localized.Concretizes (e.source projectId) other →
        (((e.source projectId).normalize e.derived other).run.run .fresh).1 = .ok plans := by
  have hvalid := (planned_eq_ok_iff.mp hplans).1
  have hlocalized :
      (((e.source projectId).normalize e.derived group.localized).run.run .fresh).1 = .ok plans := by
    rw [MappingSource.normalize_localized e.derived hvalid]
    exact hplans
  exact ⟨hlocalized, execute_localized hplans, fun other hother =>
    MappingSource.normalize_of_concretizes hother hlocalized⟩

/-- Zones of which only the winter time of Berlin is known. -/
def berlin : Zones := fun name =>
  if name = "Europe/Berlin" then some (.fixed "Europe/Berlin" 3600) else none

/-- An engine with a mapping for the stage of a deal. -/
def dealEngine : Engine :=
  ⟨[⟨⟨0⟩, 1, "Stage", "stage", [⟨.events, "deals", "", "deal_stage", .categorical, ""⟩], .zero⟩],
    [], berlin, fun _ => some (.constant ⟨["deal_stage", "count"], [[.str "won", .int 1]]⟩)⟩

/-- A query for deals by the clocks of Berlin, with some filters and grouped by some properties. -/
def deals (filters : List Filter) (groupBys : List GroupBy) : Query :=
  ⟨.events, "deals", ["count"], filters, groupBys, 0, 9, none, .standard, "", "", "Europe/Berlin",
    none⟩

/-- The deals as a share of all deals, a derived metric. -/
def dealShare : Query :=
  { deals [] [] with
    queryType := .derived
    aliasName := "share"
    definition := some ⟨"", "part / whole", [{ deals [] [] with name := "part" },
      { deals [] [] with name := "whole" }], [], [], ""⟩ }

/-- The deals that are won and their share, by stage; the mapping of the stage is only named globally. -/
def wonDeals : QueryGroup :=
  ⟨"", "", [deals [] [], dealShare],
    [⟨"", "stage", true, .categorical, "", .equals, "won", .and⟩],
    [⟨"", "stage", true, .categorical, ""⟩], ""⟩

/-- The same members with their own entries, where the filter of the direct one names its property. -/
def wonDealsByName : QueryGroup :=
  ⟨"", "", [deals [⟨"", "deal_stage", false, .categorical, "", .equals, "won", .and⟩]
    [⟨"", "stage", true, .categorical, ""⟩], wonDeals.localize dealShare], [], [], ""⟩

theorem globals_eq_locals_wonDeals :
    ∃ plans : List Plan,
      (((dealEngine.source 1).normalize dealEngine.derived wonDeals.localized).run.run .fresh).1 =
        .ok plans ∧
      (∀ options combine c, dealEngine.execute 1 wonDeals.localized options combine c =
        dealEngine.execute 1 wonDeals options combine c) ∧
      (((dealEngine.source 1).normalize dealEngine.derived wonDealsByName).run.run .fresh).1 =
        .ok plans := by
  obtain ⟨hlocalized, hexecute, hconcretizes⟩ :=
    globals_eq_locals dealEngine 1 wonDeals rfl
  refine ⟨_, hlocalized, hexecute, hconcretizes wonDealsByName ⟨wonDealsByName.queries, ?_, rfl⟩⟩
  refine .cons (.direct rfl (.cons ?_ .nil)) (.cons .stays .nil)
  let stage : Property := ⟨.events, "deals", "", "deal_stage", .categorical, ""⟩
  exact .names (p := stage) rfl ⟨_, rfl, rfl⟩ (by decide) (by decide) (by decide)

end Engine

end FederatedMetrics
