import FederatedMetrics.Proofs.Engine.Outcome
import FederatedMetrics.Proofs.Plan.Localize
import FederatedMetrics.Proofs.Table.ColumnOrder

/-!
# Members by themselves

A member of a group is planned and executed as it is in a group of its own with the same global
entries; only the order of its group-by columns depends on the other members. If no member repeats a
label, that order is a rearrangement of columns and never gets in the way of the group, so a group
succeeds exactly if its shape is right and each of its members would succeed by itself.
-/

namespace FederatedMetrics

namespace QueryGroup

/-- The group of one member with the global entries of a group. -/
def only (g : QueryGroup) (q : Query) : QueryGroup := { g with queries := [q] }

theorem with_queries_only (g : QueryGroup) (q : Query) :
    { g.only q with queries := g.queries } = g := by
  cases g
  rfl

/-- The key columns of the result of a member. -/
def layoutOf (g : QueryGroup) (q : Query) : KeyLayout :=
  ⟨q.granularity.isSome, (q.groupBys ++ g.globalGroupBys).map (·.propertyName)⟩

/-- One member asks no more of the global entries than the group does. -/
theorem requiresMappings_of_only {g : QueryGroup} {q : Query} (hq : q ∈ g.queries)
    (h : (g.only q).requiresMappings = true) : g.requiresMappings = true := by
  have hone : (g.only q).displayCategories = [q.displayCategory] := rfl
  rw [requiresMappings, hone] at h
  have hderived : q.isDerived = true := by simpa [only] using h
  rw [requiresMappings, Bool.or_eq_true, List.any_eq_true]
  exact .inr ⟨q, hq, hderived⟩

end QueryGroup

/-- A global reference passes the check when less is required of it. -/
theorem Reference.checkGlobal_mono {r : Reference} {required other : Bool}
    (hle : other = true → required = true) (h : r.checkGlobal required = .ok ()) :
    r.checkGlobal other = .ok () := by
  cases other with
  | true => rwa [hle rfl] at h
  | false =>
      rw [checkGlobal, check_bind_eq_ok_iff, guard_eq_ok_iff] at h ⊢
      exact ⟨h.1, h.2.1, rfl⟩

/-- A member of a valid group is a valid group by itself. -/
theorem QueryGroup.validate_only {g : QueryGroup} (h : g.validate = .ok ()) {q : Query}
    (hq : q ∈ g.queries) : (g.only q).validate = .ok () := by
  obtain ⟨-, hqueries, hglobals⟩ := g.validate_eq_ok_iff.mp h
  refine (g.only q).validate_eq_ok_iff.mpr ⟨List.cons_ne_nil q [], ?_, ?_⟩
  · intro other hother
    obtain rfl := List.mem_singleton.mp hother
    exact hqueries other hq
  · intro r hr
    exact Reference.checkGlobal_mono (requiresMappings_of_only hq) (hglobals r hr)

namespace MappingSource

variable {source : MappingSource} {derived : DerivedStore} {group : QueryGroup} {q : Query}
  {plan : Plan}

/-- The key columns of a plan are those of the member and the group. -/
theorem layout_eq_of_plannedAs (h : q.PlannedAs source derived group plan) :
    plan.layout = group.layoutOf q := by
  cases h with
  | @direct r _ hr =>
      have hbucketed : r.isBucketed = q.granularity.isSome := by
        rw [ResolvedQuery.isBucketed, hr.rest]
      rw [Plan.layout, ResolvedQuery.layout, hbucketed, hr.labels_eq]
      rfl
  | derived _ hp => exact hp.layout_eq

end MappingSource

/-- A single table keeps its order. -/
theorem Harmonize.arrange_singleton (k : KeyLayout) (t : ResultTable) :
    arrange [] [(k, t)] = some [t] := by
  obtain ⟨later, -, hcons⟩ := arrange_cons record_nil k t []
  have htarget : k.targetIn [] = k.labels := rfl
  rw [hcons, htarget, ResultTable.reorder?, if_pos rfl]
  rfl

namespace Engine

variable {e : Engine} {projectId : Int} {group : QueryGroup} {plans : List Plan} {plan : Plan}
  {options : ExecutionOptions} {q : Query}

/-- A member of a planned group has the same plan in a group of its own. -/
theorem planned_only (hvalid : group.validate = .ok ()) (hq : q ∈ group.queries) :
    e.planned projectId (group.only q) = .ok [plan] ↔
      q.PlannedAs (e.source projectId) e.derived group plan := by
  rw [planned_eq_ok_iff]
  constructor
  · rintro ⟨-, hplans⟩
    obtain ⟨hplan, -⟩ := List.forall₂_cons.mp hplans
    rw [← group.with_queries_only q]
    exact MappingSource.plannedAs_queries hplan
  · intro hplan
    exact ⟨QueryGroup.validate_only hvalid hq, .cons (MappingSource.plannedAs_queries hplan) .nil⟩

/-- A group succeeds with some tables: it is planned, every member has its table in time, and these are
merged into the results. -/
def SucceedsWith (e : Engine) (projectId : Int) (group : QueryGroup) (options : ExecutionOptions)
    (results : List ResultTable) : Prop :=
  ∃ plans tables, e.planned projectId group = .ok plans ∧
    e.gathered projectId options plans = some (.ok tables) ∧
    merging group plans tables = .ok (some results)

/-- An outcome of success has results with which the group succeeds. -/
theorem succeedsWith_of_execute {combine : Bool} {c : Counters} {o : GroupOutcome}
    (h : (e.execute projectId group options combine c).1 = some o) (hstatus : o.status = 200) :
    e.SucceedsWith projectId group options o.results := by
  cases ends_of_execute h with
  | @refused f _ => exact absurd hstatus f.queryStatus_ne_success
  | @failed _ f _ _ => exact absurd hstatus f.queryStatus_ne_success
  | @unmerged _ _ f _ _ _ => exact absurd hstatus f.queryStatus_ne_success
  | @finished plans tables results hplans hgathered hmerging =>
      have hresults : (finishedOutcome group combine plans (Tracker.executing.advance .merged)
          results).results = results :=
        congrArg GroupOutcome.results (withoutView_finishedOutcome _ results)
      rw [hresults]
      exact ⟨plans, tables, hplans, hgathered, hmerging⟩

/-- A group that succeeds with some tables has an outcome of success with them. -/
theorem SucceedsWith.exists_outcome {results : List ResultTable}
    (h : e.SucceedsWith projectId group options results) (combine : Bool) (c : Counters) :
    ∃ o, (e.execute projectId group options combine c).1 = some o ∧ o.status = 200 ∧
      o.results = results := by
  obtain ⟨plans, tables, hplans, hgathered, hmerging⟩ := h
  refine ⟨finishedOutcome group combine plans (Tracker.executing.advance .merged) results, ?_,
    status_finishedOutcome _ results,
    congrArg GroupOutcome.results (withoutView_finishedOutcome _ results)⟩
  rw [execute_of_planned hplans, hgathered, Option.bind_some, mergedOutcome_ok, hmerging]
  rfl

/-- A single member has its table in time if it replies until the deadline. -/
theorem gathered_singleton_iff {tables : List ResultTable} :
    e.gathered projectId options [plan] = some (.ok tables) ↔
      ∃ t, (executePlan e.registry projectId options plan).value? = some t ∧ tables = [t] ∧
        ∀ milliseconds, options.deadline = some milliseconds →
          (executePlan e.registry projectId options plan).delay ≤ milliseconds := by
  constructor
  · intro h
    obtain ⟨t, _, ht, hnone, rfl⟩ := List.forall₂_cons_left_iff.mp (give_of_gathered h)
    obtain rfl := List.forall₂_nil_left_iff.mp hnone
    exact ⟨t, ht, rfl, fun milliseconds hmilliseconds =>
      delay_le_of_gathered h hmilliseconds _ List.mem_cons_self⟩
  · rintro ⟨t, ht, rfl, hintime⟩
    have hreplies : Window.Give (e.replies projectId options [plan]) [t] := .cons ht .nil
    rcases gathered_of_give hreplies with hgathered | ⟨milliseconds, hlate, hlt, -⟩
    · exact hgathered
    · have hdelay := hintime milliseconds hlate
      simp only [replies, List.map_cons, List.map_nil, List.sum_singleton] at hlt
      omega

/-- A member succeeds by itself if it is planned and has a rectangular table in time, which it keeps. -/
theorem succeedsWith_only_iff (hvalid : group.validate = .ok ()) (hq : q ∈ group.queries)
    {results : List ResultTable} :
    e.SucceedsWith projectId (group.only q) options results ↔
      ∃ plan t, q.PlannedAs (e.source projectId) e.derived group plan ∧
        e.gathered projectId options [plan] = some (.ok [t]) ∧ t.isRectangular = true ∧
        results = [t] := by
  constructor
  · rintro ⟨plans, tables, hplans, hgathered, hmerging⟩
    obtain ⟨hrect, harrange⟩ := (merging_eq_ok_iff hplans (give_of_gathered hgathered)).mp hmerging
    obtain ⟨plan, _, hplan, hnone, rfl⟩ :=
      List.forall₂_cons_left_iff.mp (planned_eq_ok_iff.mp hplans).2
    obtain rfl := List.forall₂_nil_left_iff.mp hnone
    obtain ⟨t, -, rfl, -⟩ := gathered_singleton_iff.mp hgathered
    refine ⟨plan, t, (planned_only hvalid hq).mp hplans, hgathered, hrect t (by simp), ?_⟩
    exact (Option.some.inj ((Harmonize.arrange_singleton plan.layout t).symm.trans harrange)).symm
  · rintro ⟨plan, t, hplan, hgathered, hrect, rfl⟩
    have hplans := (planned_only hvalid hq).mpr hplan
    refine ⟨[plan], [t], hplans, hgathered,
      (merging_eq_ok_iff hplans (give_of_gathered hgathered)).mpr ⟨?_, ?_⟩⟩
    · simpa using hrect
    · exact Harmonize.arrange_singleton plan.layout t

/-- The layouts of plans are those of the members. -/
theorem layouts_eq_of_planned (hplans : e.planned projectId group = .ok plans) :
    plans.map Plan.layout = group.queries.map group.layoutOf := by
  refine (map_eq_map_of_forall₂ ((planned_eq_ok_iff.mp hplans).2.imp ?_)).symm
  exact fun _ _ hplan => (MappingSource.layout_eq_of_plannedAs hplan).symm

/-- If no member repeats a label, no layout of its plans does. -/
theorem nodup_of_planned (hplans : e.planned projectId group = .ok plans)
    (hdistinct : ∀ q ∈ group.queries, (group.layoutOf q).labels.Nodup) :
    ∀ k ∈ plans.map Plan.layout, k.labels.Nodup := by
  rw [layouts_eq_of_planned hplans]
  intro k hk
  obtain ⟨q, hq, rfl⟩ := List.mem_map.mp hk
  exact hdistinct q hq

/-- If no member repeats a label, a member of a group that succeeds does so by itself, with a table of
which the group has the columns. -/
theorem SucceedsWith.only {results : List ResultTable}
    (h : e.SucceedsWith projectId group options results)
    (hdistinct : ∀ q ∈ group.queries, (group.layoutOf q).labels.Nodup) :
    List.Forall₂ (fun q u => ∃ t, e.SucceedsWith projectId (group.only q) options [t] ∧
      (group.layoutOf q).Rearranges t u) group.queries results := by
  obtain ⟨plans, tables, hplans, hgathered, hmerging⟩ := h
  have hreplies := give_of_gathered hgathered
  obtain ⟨hvalid, hplanned⟩ := planned_eq_ok_iff.mp hplans
  obtain ⟨hrect, harrange⟩ := (merging_eq_ok_iff hplans hreplies).mp hmerging
  have hmoved := Harmonize.rearranges_of_nodup (describes_of_replies hreplies) hrect
    (nodup_of_planned hplans hdistinct) harrange
  rw [List.zip_map_left, List.forall₂_map_left_iff] at hmoved
  have hqueries := (List.forall₂_and_left group.queries plans).mpr ⟨fun q hq => hq, hplanned⟩
  have hexecuted : List.Forall₂ (fun t plan => t.isRectangular = true ∧
      e.gathered projectId options [plan] = some (.ok [t])) tables plans := by
    refine (List.forall₂_and_left tables plans).mpr ⟨hrect, ?_⟩
    have hmembers := (List.forall₂_and_left plans tables).mpr
      ⟨fun plan hplan => hplan, List.forall₂_map_left_iff.mp hreplies⟩
    refine (hmembers.imp fun plan t hmember => ?_).flip
    exact gathered_singleton_iff.mpr ⟨t, hmember.2, rfl, fun milliseconds hmilliseconds =>
      delay_le_of_gathered hgathered hmilliseconds _ (List.mem_map_of_mem hmember.1)⟩
  refine (forall₂_of_zip hqueries hexecuted.flip hmoved).imp ?_
  rintro q u ⟨plan, t, ⟨hq, hplan⟩, ⟨ht, hexecute⟩, hrearranges⟩
  refine ⟨t, (succeedsWith_only_iff hvalid hq).mpr ⟨plan, t, hplan, hexecute, ht, rfl⟩, ?_⟩
  rw [← MappingSource.layout_eq_of_plannedAs hplan]
  exact hrearranges

/-- If no member repeats a label and every member of a group of the right shape succeeds by itself, the
group is planned, and every member has a table with which it is merged. -/
theorem exists_merging_of_only (hvalid : group.validate = .ok ())
    (hdistinct : ∀ q ∈ group.queries, (group.layoutOf q).labels.Nodup)
    (h : ∀ q ∈ group.queries, ∃ results, e.SucceedsWith projectId (group.only q) options results) :
    ∃ plans tables results, e.planned projectId group = .ok plans ∧
      Window.Give (e.replies projectId options plans) tables ∧
      merging group plans tables = .ok (some results) := by
  have hmember : ∀ q ∈ group.queries, ∃ member : Plan × ResultTable,
      q.PlannedAs (e.source projectId) e.derived group member.1 ∧
        (executePlan e.registry projectId options member.1).value? = some member.2 ∧
        member.2.isRectangular = true := by
    intro q hq
    obtain ⟨results, hresults⟩ := h q hq
    obtain ⟨plan, t, hplan, hgathered, hrect, -⟩ := (succeedsWith_only_iff hvalid hq).mp hresults
    obtain ⟨t, ht, ⟨⟩, -⟩ := gathered_singleton_iff.mp hgathered
    exact ⟨(plan, t), hplan, ht, hrect⟩
  obtain ⟨members, hmembers⟩ := exists_forall₂_of_forall hmember
  have hexecuted : ∀ member ∈ members,
      (executePlan e.registry projectId options member.1).value? = some member.2 ∧
        member.2.isRectangular = true := by
    intro member hmem
    obtain ⟨q, -, -, hexecute⟩ := exists_of_mem_of_forall₂ hmembers hmem
    exact hexecute
  have hplans : e.planned projectId group = .ok (members.map (·.1)) := by
    refine planned_eq_ok_iff.mpr ⟨hvalid, List.forall₂_map_right_iff.mpr ?_⟩
    exact hmembers.imp fun _ _ hmember => hmember.1
  have hreplies : Window.Give (e.replies projectId options (members.map (·.1)))
      (members.map (·.2)) := by
    rw [replies, List.map_map, Window.Give, List.forall₂_map_left_iff, List.forall₂_map_right_iff,
      List.forall₂_same]
    exact fun member hmem => (hexecuted member hmem).1
  have hrect : ∀ t ∈ members.map (·.2), t.isRectangular = true := by
    rw [List.forall_mem_map]
    exact fun member hmem => (hexecuted member hmem).2
  obtain ⟨results, hresults⟩ := Harmonize.exists_arrange_of_nodup (describes_of_replies hreplies)
    hrect (nodup_of_planned hplans hdistinct)
  exact ⟨_, _, results, hplans, hreplies, (merging_eq_ok_iff hplans hreplies).mpr ⟨hrect, hresults⟩⟩

/-- There is no deadline, or it leaves time for the members of the planned group one after the other. -/
def LeavesTime (e : Engine) (projectId : Int) (group : QueryGroup) (options : ExecutionOptions) : Prop :=
  ∀ milliseconds, options.deadline = some milliseconds →
    ∀ plans, e.planned projectId group = .ok plans →
      ((e.replies projectId options plans).map Reply.delay).sum ≤ milliseconds

/-- Executors that answer at once leave time whatever the deadline. -/
theorem leavesTime_of_answersAtOnce (h : e.registry.AnswersAtOnce) :
    e.LeavesTime projectId group options := by
  intro milliseconds _ plans _
  have hdelay : ∀ time ∈ (e.replies projectId options plans).map Reply.delay, time = 0 := by
    rw [replies, List.map_map, List.forall_mem_map]
    exact fun plan _ => Reply.delay_of_due? (due?_executePlan h plan)
  rw [List.sum_eq_zero hdelay]
  exact Nat.zero_le milliseconds

/-- An engine that takes its time and answers every query with the same row. -/
def oneRowEngine (delay : Nat) : Engine :=
  ⟨[], [], fun _ => none, fun _ => some
    ⟨fun _ _ _ => .after delay (.ok ⟨["", "", "count"], [[.str "x", .str "y", .int 1]]⟩),
      fun _ _ => .now (.ok [])⟩⟩

/-- A group whose members have the same group-bys in two orders. -/
def crossedGroup : QueryGroup :=
  ⟨"", "", [Harmonize.plainMember ["city", "tag"], Harmonize.plainMember ["tag", "city"]], [], [], ""⟩

/-- One member at a time until a deadline of fifty milliseconds. -/
def oneByOne : ExecutionOptions := ⟨false, false, 1, some 50⟩

/-- Members that take thirty milliseconds each are in time by themselves, but not one after the other. -/
example : (∀ q ∈ crossedGroup.queries, ((oneRowEngine 30).execute 1 (crossedGroup.only q) oneByOne false
      .zero).1.map GroupOutcome.status = some 200) ∧
    ((oneRowEngine 30).execute 1 crossedGroup oneByOne false .zero).1.map GroupOutcome.status =
      some 500 := by
  refine ⟨?_, rfl⟩
  simp only [crossedGroup, List.forall_mem_cons]
  exact ⟨rfl, rfl, by simp⟩

end Engine

end FederatedMetrics
