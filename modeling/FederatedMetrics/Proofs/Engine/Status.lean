import FederatedMetrics.Proofs.Engine.Outcome
import FederatedMetrics.Proofs.Plan.Faults

/-!
# The statuses of groups

A group is a bad request exactly if it cannot be planned and the reason is invalid input. Whatever goes
wrong in a planned group is a failure of the execution, of whichever kind the executors report it, and
a group that cannot be planned does not reach an executor.
-/

namespace FederatedMetrics

theorem Failure.queryStatus_eq_badRequest_iff (f : Failure) :
    f.queryStatus = 400 ↔ f.kind = .invalidInput := by
  cases hkind : f.kind <;> simp [queryStatus, hkind, FailureKind.queryStatus, FailureKind.status]

theorem Failure.queryStatus_of_execution {f : Failure} (h : f.kind = .executionFailure) :
    f.queryStatus = 500 := by
  rw [queryStatus, h]
  rfl

namespace MappingSource

variable {source : MappingSource} {derived : DerivedStore} {group : QueryGroup}

/-- In a planned derived member every variable of the formula stands for a sub-query. -/
theorem mem_variableNames_of_expandsTo {outer : Query} {definition : QueryGroup} {p : DerivedPlan}
    (h : outer.ExpandsTo source derived group definition p) :
    ∀ name ∈ p.alignment.formula.variableNames, name ∈ p.alignment.variableNames := by
  intro name hname
  obtain ⟨sub, hsub, rfl⟩ :=
    List.mem_map.mp ((QueryGroup.mem_variableNames_iff h.valid name).mp hname)
  obtain ⟨entry, hentry, hresolved⟩ := exists_of_mem_of_forall₂ h.subQueriesTo.flip hsub
  rw [← hresolved.name_eq]
  exact List.mem_map_of_mem hentry

/-- Aligning the sub-queries of a planned member fails only as a failure of the execution. -/
theorem kind_of_align_of_plannedAs {q : Query} {p : DerivedPlan}
    (h : q.PlannedAs source derived group (.derived p)) {tables : List (String × ResultTable)}
    {f : Failure} (halign : p.alignment.align tables = .error f) : f.kind = .executionFailure := by
  cases h with
  | derived _ hp => exact Alignment.kind_of_align (mem_variableNames_of_expandsTo hp) halign

end MappingSource

namespace Engine

variable {e : Engine} {registry : Registry} {projectId : Int} {group : QueryGroup}
  {plans : List Plan} {options : ExecutionOptions} {combine : Bool} {o : GroupOutcome}

/-- Whatever goes wrong in a planned member is a failure of the execution. -/
theorem kind_of_executePlan {source : MappingSource} {derived : DerivedStore} {q : Query}
    {plan : Plan} (hplan : q.PlannedAs source derived group plan) {f : Failure}
    (h : (executePlan registry projectId options plan).result? = some (.error f)) :
    f.kind = .executionFailure := by
  cases plan with
  | direct r => exact Registry.kind_of_run h
  | derived p =>
      rw [executePlan, executeDerived, Reply.result?_andThen] at h
      obtain ⟨answer, hjoin, h⟩ := Option.map_eq_some_iff.mp h
      cases answer with
      | ok tables => exact MappingSource.kind_of_align_of_plannedAs hplan h
      | error reported =>
          cases h
          obtain ⟨reply, hreply, hrun⟩ := Window.result?_join hjoin
          obtain ⟨entry, -, rfl⟩ := List.mem_map.mp hreply
          exact Registry.kind_of_run hrun

/-- A member has a table only if the executors of all its queries have answered with one. -/
theorem exists_of_executePlan {plan : Plan} {t : ResultTable}
    (h : (executePlan registry projectId options plan).value? = some t) {r : ResolvedQuery}
    (hr : r ∈ plan.resolved) :
    ∃ x given, registry r.query.category = some x ∧
      (x.execute projectId r options).value? = some given := by
  have hrun : ∃ given, (registry.run projectId r options).value? = some given := by
    cases plan with
    | direct own =>
        obtain rfl := List.mem_singleton.mp hr
        exact ⟨t, h⟩
    | derived p =>
        obtain ⟨entry, hentry, rfl⟩ := List.mem_map.mp hr
        obtain ⟨answer, hjoin, h⟩ := Reply.value?_andThen_eq_some_iff.mp h
        obtain ⟨tables, rfl, -⟩ := bind_eq_ok_iff.mp h
        have hgive := Window.value?_join_eq_some_iff.mp (Reply.value?_eq_some_iff.mpr hjoin)
        have htables := List.forall₂_map_left_iff.mp hgive
        obtain ⟨given, -, hgiven⟩ := exists_of_mem_of_forall₂ htables.flip hentry
        exact ⟨given, hgiven⟩
  obtain ⟨given, hgiven⟩ := hrun
  obtain ⟨x, answered, hx, hanswered, -⟩ := Registry.run_eq_ok_iff.mp hgiven
  exact ⟨x, answered, hx, hanswered⟩

/-- The failure with which a planned group ends before its tables are merged comes from a member or
from the deadline. -/
theorem kind_of_gathered {f : Failure} (hplans : e.planned projectId group = .ok plans)
    (h : e.gathered projectId options plans = some (.error f)) : f.kind = .executionFailure := by
  rcases exists_of_gathered_eq_error h with ⟨milliseconds, -, rfl⟩ | ⟨plan, hplan, hfails⟩
  · rfl
  · obtain ⟨q, -, hq⟩ := exists_of_mem_of_forall₂ (planned_eq_ok_iff.mp hplans).2 hplan
    exact kind_of_executePlan hq hfails

/-- Everything that a planned group needs has been answered: the executors of all its queries have
given tables, every member has one in time, and the tables fit together. -/
structure Answered (e : Engine) (projectId : Int) (group : QueryGroup) (options : ExecutionOptions)
    (plans : List Plan) : Prop where
  executors : ∀ plan ∈ plans, ∀ r ∈ plan.resolved, ∃ x t, e.registry r.query.category = some x ∧
    (x.execute projectId r options).value? = some t
  merged : ∃ tables results, e.gathered projectId options plans = some (.ok tables) ∧
    merging group plans tables = .ok (some results)

theorem answered_of_gathered {tables results : List ResultTable}
    (hgathered : e.gathered projectId options plans = some (.ok tables))
    (hmerging : merging group plans tables = .ok (some results)) :
    e.Answered projectId group options plans where
  executors plan hplan r hr := by
    have hmembers := List.forall₂_map_left_iff.mp (give_of_gathered hgathered)
    obtain ⟨t, -, ht⟩ := exists_of_mem_of_forall₂ hmembers.flip hplan
    exact exists_of_executePlan ht hr
  merged := ⟨tables, results, hgathered, hmerging⟩

/-- The status of an outcome tells where it comes from. -/
structure Classified (e : Engine) (projectId : Int) (group : QueryGroup)
    (options : ExecutionOptions) (o : GroupOutcome) : Prop where
  status_mem : o.status ∈ [200, 400, 500]
  badRequest_iff : o.status = 400 ↔
    ∃ f, e.planned projectId group = .error f ∧ f.kind = .invalidInput
  refused : ∀ f, e.planned projectId group = .error f →
    o.failure = some f ∧ group.Fault (e.source projectId) e.derived f ∧
      (f.kind = .invalidInput ∧ o.status = 400 ∨
        (∃ name, f = .mappingNotFound name ∨ f = .derivedNotFound name) ∧ o.status = 500)
  success_iff : ∀ plans, e.planned projectId group = .ok plans →
    (o.status = 200 ↔ e.Answered projectId group options plans)
  failed : ∀ plans, e.planned projectId group = .ok plans → o.status ≠ 200 →
    o.status = 500 ∧ ∃ f, o.failure = some f ∧ f.kind = .executionFailure
  aligned : ∀ plans p tables f, e.planned projectId group = .ok plans → .derived p ∈ plans →
    p.alignment.align tables = .error f → f.kind = .executionFailure

/-- Aligning the sub-queries of a planned group fails only as a failure of the execution. -/
theorem kind_of_align_of_planned {p : DerivedPlan} {tables : List (String × ResultTable)}
    {f : Failure} (hplans : e.planned projectId group = .ok plans) (hp : .derived p ∈ plans)
    (halign : p.alignment.align tables = .error f) : f.kind = .executionFailure := by
  obtain ⟨q, -, hq⟩ := exists_of_mem_of_forall₂ (planned_eq_ok_iff.mp hplans).2 hp
  exact MappingSource.kind_of_align_of_plannedAs hq halign

/-- A group that cannot be planned is a bad request or has a mapping or derived metric missing. -/
theorem classified_of_refused {f : Failure} (hplans : e.planned projectId group = .error f)
    (tracker : Tracker) :
    e.Classified projectId group options (failedOutcome group tracker f) := by
  have hfault : group.Fault (e.source projectId) e.derived f :=
    MappingSource.fault_of_normalize hplans
  have hstatus : (failedOutcome group tracker f).status = f.queryStatus := rfl
  have hcases : f.kind = .invalidInput ∧ f.queryStatus = 400 ∨
      (∃ name, f = .mappingNotFound name ∨ f = .derivedNotFound name) ∧ f.queryStatus = 500 := by
    rcases hfault.kind with hinvalid | ⟨name, hmissing⟩
    · exact .inl ⟨hinvalid, f.queryStatus_eq_badRequest_iff.mpr hinvalid⟩
    · refine .inr ⟨⟨name, hmissing⟩, ?_⟩
      rcases hmissing with rfl | rfl <;> rfl
  constructor
  case status_mem =>
    rcases hcases with ⟨-, h⟩ | ⟨-, h⟩ <;> simp [hstatus, h]
  case badRequest_iff =>
    rw [hstatus, f.queryStatus_eq_badRequest_iff]
    constructor
    · intro hinvalid
      exact ⟨f, hplans, hinvalid⟩
    · rintro ⟨other, hother, hinvalid⟩
      cases hplans.symm.trans hother
      exact hinvalid
  case refused =>
    intro other hother
    cases hplans.symm.trans hother
    exact ⟨rfl, hfault, hcases⟩
  case success_iff => intro plans hok; cases hplans.symm.trans hok
  case failed => intro plans hok; cases hplans.symm.trans hok
  case aligned => intro plans p tables f hok; cases hplans.symm.trans hok

/-- A planned group that fails has not been answered, and its failure is one of the execution. -/
theorem classified_of_failed {f : Failure} (hplans : e.planned projectId group = .ok plans)
    (hkind : f.kind = .executionFailure) (hunanswered : ¬ e.Answered projectId group options plans)
    (tracker : Tracker) :
    e.Classified projectId group options (failedOutcome group tracker f) := by
  have hstatus : (failedOutcome group tracker f).status = 500 := Failure.queryStatus_of_execution hkind
  constructor
  case status_mem => simp [hstatus]
  case badRequest_iff => simp [hstatus, hplans]
  case refused => intro other hother; cases hplans.symm.trans hother
  case success_iff =>
    intro others hothers
    cases hplans.symm.trans hothers
    simp [hstatus, hunanswered]
  case failed => exact fun _ _ _ => ⟨hstatus, f, rfl, hkind⟩
  case aligned => exact fun _ _ _ _ => kind_of_align_of_planned

/-- A finished group has been answered. -/
theorem classified_of_finished (hplans : e.planned projectId group = .ok plans)
    (hanswered : e.Answered projectId group options plans) (tracker : Tracker)
    (results : List ResultTable) :
    e.Classified projectId group options (finishedOutcome group combine plans tracker results) := by
  have hstatus : (finishedOutcome group combine plans tracker results).status = 200 :=
    status_finishedOutcome tracker results
  constructor
  case status_mem => simp [hstatus]
  case badRequest_iff => simp [hstatus, hplans]
  case refused => intro other hother; cases hplans.symm.trans hother
  case success_iff =>
    intro others hothers
    cases hplans.symm.trans hothers
    simp [hstatus, hanswered]
  case failed => exact fun _ _ hfails => absurd hstatus hfails
  case aligned => exact fun _ _ _ _ => kind_of_align_of_planned

theorem Ends.classified (h : Ends e projectId group options combine o) :
    e.Classified projectId group options o := by
  cases h with
  | refused hplans => exact classified_of_refused hplans _
  | failed hplans hgathered =>
      refine classified_of_failed hplans (kind_of_gathered hplans hgathered) ?_ _
      rintro ⟨-, tables, -, htables, -⟩
      cases hgathered.symm.trans htables
  | unmerged hplans hgathered hmerging =>
      refine classified_of_failed hplans (Harmonize.kind_of_finalize hmerging) ?_ _
      rintro ⟨-, tables, results, htables, hok⟩
      cases hgathered.symm.trans htables
      cases hmerging.symm.trans hok
  | finished hplans hgathered hmerging =>
      exact classified_of_finished hplans (answered_of_gathered hgathered hmerging) _ _

/-- A group has an outcome whose status tells exactly what has gone wrong if and only if it
completes. If it cannot be planned, then the outcome and all counts are the same for any executors and
options. -/
theorem exists_classified_iff (e : Engine) (projectId : Int) (group : QueryGroup)
    (options : ExecutionOptions) (combine : Bool) (c : Counters) :
    (∃ o, (e.execute projectId group options combine c).1 = some o ∧
        e.Classified projectId group options o ∧
          ∀ f, e.planned projectId group = .error f →
            ∀ (registry : Registry) (other : ExecutionOptions),
              ({ e with registry := registry } : Engine).execute projectId group other combine c =
                e.execute projectId group options combine c) ↔
      e.Completes projectId group options := by
  rw [← isSome_execute_iff combine c, Option.isSome_iff_exists]
  constructor
  · rintro ⟨o, ho, -⟩
    exact ⟨o, ho⟩
  · rintro ⟨o, ho⟩
    refine ⟨o, ho, (ends_of_execute ho).classified, fun f hplans registry other => ?_⟩
    have hplans' : ({ e with registry := registry } : Engine).planned projectId group = .error f :=
      hplans
    rw [execute_of_refused hplans, execute_of_refused hplans']
    rfl

/-- An engine of which the executor for profiles always gives two columns, and the one for events
two more. -/
def constantEngine : Engine :=
  ⟨[], [], fun _ => none, fun
    | .events => some (.constant ⟨["city", "city", "tag", "count"], []⟩)
    | .profiles => some (.constant ⟨["city", "tag"], []⟩)
    | .channels => none⟩

/-- A group on events and profiles whose first member repeats a global group-by. -/
def mixedGroup : QueryGroup :=
  ⟨"", "", [Harmonize.plainMember ["city"], { Harmonize.plainMember [] with category := .profiles }],
    [], (Harmonize.plainMember ["city", "tag"]).groupBys, ""⟩

/-- A planned group without a status, although every member has a table. -/
theorem execute_mixedGroup :
    (∃ plans tables, constantEngine.planned 1 mixedGroup = .ok plans ∧
      Window.Give (constantEngine.replies 1 ⟨false, false, 2, none⟩ plans) tables) ∧
    (constantEngine.execute 1 mixedGroup ⟨false, false, 2, none⟩ false .zero).1.map
      GroupOutcome.status = none := by
  let wide : ResultTable := ⟨["city", "city", "tag", "count"], []⟩
  let narrow : ResultTable := ⟨["city", "tag"], []⟩
  exact ⟨⟨_, [wide, narrow], rfl, .cons rfl (.cons rfl .nil)⟩, rfl⟩

end Engine

end FederatedMetrics
