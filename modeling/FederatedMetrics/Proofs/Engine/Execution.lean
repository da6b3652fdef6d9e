import FederatedMetrics.Engine.Group
import FederatedMetrics.Proofs.Engine.Window
import FederatedMetrics.Proofs.Executor
import FederatedMetrics.Proofs.Plan.Broadcast
import FederatedMetrics.Proofs.Table.Align

/-!
# Executing planned groups

A group that cannot be planned fails before anything is executed. The outcome of a planned group is
merged from the replies of its members in turn, and every table among them has the key columns of its
plan in front.
-/

namespace FederatedMetrics.Engine

variable {e : Engine} {registry : Registry} {projectId : Int} {group : QueryGroup}
  {plans : List Plan} {options : ExecutionOptions}

/-- What planning a group answers. -/
def planned (e : Engine) (projectId : Int) (group : QueryGroup) : Except Failure (List Plan) :=
  ((e.source projectId).normalize e.derived group).result

/-- The replies of the members of a planned group. -/
def replies (e : Engine) (projectId : Int) (options : ExecutionOptions) (plans : List Plan) :
    List (Reply ResultTable) :=
  plans.map (executePlan e.registry projectId options)

/-- The tables of the members of a planned group, or the failure, that are there at the deadline. -/
def gathered (e : Engine) (projectId : Int) (options : ExecutionOptions) (plans : List Plan) :
    Option (Except Failure (List ResultTable)) :=
  tablesOf? options (executePlans e.registry projectId options plans)

theorem planned_eq_ok_iff :
    e.planned projectId group = .ok plans ↔ group.validate = .ok () ∧
      List.Forall₂ (Query.PlannedAs (e.source projectId) e.derived group) group.queries plans :=
  (MappingSource.yields_normalize _ _ _).result_eq_ok_iff plans

/-- The look-ups of planning a group. -/
abbrev lookups (e : Engine) (projectId : Int) (group : QueryGroup) : Resolver :=
  (((e.source projectId).normalize e.derived group).run.run .fresh).2

/-- A group that cannot be planned fails before anything is executed. -/
theorem execute_of_refused {f : Failure} (h : e.planned projectId group = .error f)
    (options : ExecutionOptions) (combine : Bool) (c : Counters) :
    e.execute projectId group options combine c =
      (some (failedOutcome group .start f),
        countGroup (e.lookups projectId group) 0 (some (failedOutcome group .start f)) c) := by
  rw [planned, Resolving.result] at h
  rw [execute, lookups]
  rcases hrun : ((e.source projectId).normalize e.derived group).run.run .fresh
    with ⟨answer, lookups⟩
  rw [hrun] at h
  obtain rfl : answer = .error f := h
  rfl

/-- A planned group is executed in the window and counted. -/
theorem execute_eq_of_planned (h : e.planned projectId group = .ok plans)
    (options : ExecutionOptions) (combine : Bool) (c : Counters) :
    let report := executePlans e.registry projectId options plans
    let outcome := (tablesOf? options report).bind (mergedOutcome group combine plans .executing)
    e.execute projectId group options combine c =
      (outcome,
        countGroup (e.lookups projectId group) (report.completedBy options.deadline) outcome c) := by
  rw [planned, Resolving.result] at h
  rw [execute, lookups]
  rcases hrun : ((e.source projectId).normalize e.derived group).run.run .fresh
    with ⟨answer, lookups⟩
  rw [hrun] at h
  obtain rfl : answer = .ok plans := h
  rfl

/-- The outcome of a planned group is merged from what has been gathered at the deadline. -/
theorem execute_of_planned (h : e.planned projectId group = .ok plans)
    (options : ExecutionOptions) (combine : Bool) (c : Counters) :
    (e.execute projectId group options combine c).1 =
      (e.gathered projectId options plans).bind (mergedOutcome group combine plans .executing) := by
  rw [execute_eq_of_planned h, gathered]

/-- Tables have been gathered if every member has one and the run comes to its end in time. -/
theorem gathered_eq_ok_iff {tables : List ResultTable} :
    e.gathered projectId options plans = some (.ok tables) ↔
      Window.Give (e.replies projectId options plans) tables ∧
        ∀ milliseconds, options.deadline = some milliseconds →
          (executePlans e.registry projectId options plans).reply.delay ≤ milliseconds := by
  rw [gathered, tablesOf?, Reply.result?_within_eq_ok_iff, executePlans, Window.value?_run_eq_some_iff]
  rfl

theorem give_of_gathered {tables : List ResultTable}
    (h : e.gathered projectId options plans = some (.ok tables)) :
    Window.Give (e.replies projectId options plans) tables := (gathered_eq_ok_iff.mp h).1

/-- If every member has a table, the tables are gathered or the deadline passes first. That does not
happen as long as the members could be carried out one after the other until then. -/
theorem gathered_of_give {tables : List ResultTable}
    (h : Window.Give (e.replies projectId options plans) tables) :
    e.gathered projectId options plans = some (.ok tables) ∨
      ∃ milliseconds, options.deadline = some milliseconds ∧
        milliseconds < ((e.replies projectId options plans).map Reply.delay).sum ∧
        e.gathered projectId options plans = some (.error (.deadlineExceeded milliseconds)) := by
  have hdelay : (executePlans e.registry projectId options plans).reply.delay ≤
      ((e.replies projectId options plans).map Reply.delay).sum :=
    (Window.delay_run options.maxConcurrency h).2
  by_cases hintime : ∀ milliseconds, options.deadline = some milliseconds →
      (executePlans e.registry projectId options plans).reply.delay ≤ milliseconds
  · exact .inl (gathered_eq_ok_iff.mpr ⟨h, hintime⟩)
  · push Not at hintime
    obtain ⟨milliseconds, hmilliseconds, hlate⟩ := hintime
    refine .inr ⟨milliseconds, hmilliseconds, hlate.trans_le hdelay, ?_⟩
    rw [gathered, tablesOf?, hmilliseconds, Reply.within_of_lt_delay hlate]
    rfl

/-- Every member of a group of which the tables have been gathered has replied in time. -/
theorem delay_le_of_gathered {tables : List ResultTable} {milliseconds : Nat}
    (h : e.gathered projectId options plans = some (.ok tables))
    (hdeadline : options.deadline = some milliseconds) :
    ∀ reply ∈ e.replies projectId options plans, reply.delay ≤ milliseconds := by
  obtain ⟨hgive, hintime⟩ := gathered_eq_ok_iff.mp h
  have hdelay := (Window.delay_run options.maxConcurrency hgive).1
  exact fun reply hreply => (hdelay reply hreply).trans (hintime milliseconds hdeadline)

/-- A failure instead of tables is that of the deadline or of a member. -/
theorem exists_of_gathered_eq_error {f : Failure}
    (h : e.gathered projectId options plans = some (.error f)) :
    (∃ milliseconds, options.deadline = some milliseconds ∧ f = .deadlineExceeded milliseconds) ∨
      ∃ plan ∈ plans, (executePlan e.registry projectId options plan).result? = some (.error f) := by
  rcases Reply.result?_within_eq_error h with hrun | hdeadline
  · have hunbroken : ¬ (executePlans e.registry projectId options plans).reply.BreaksDown := by
      rintro ⟨time, hbroken⟩
      simp [hbroken, Reply.result?] at hrun
    rw [executePlans, Window.result?_run hunbroken] at hrun
    obtain ⟨done, first, rest, hsplit, hfirst, -⟩ := Window.result?_inTurn_eq_error_iff.mp hrun
    have hmem : first ∈ plans.map (executePlan e.registry projectId options) := by simp [hsplit]
    obtain ⟨plan, hplan, rfl⟩ := List.mem_map.mp hmem
    exact .inr ⟨plan, hplan, hfirst⟩
  · exact .inl hdeadline

/-- If all executors answer or break down at once, so does every member. -/
theorem due?_executePlan (h : registry.AnswersAtOnce) (plan : Plan) :
    (executePlan registry projectId options plan).due? = some 0 := by
  cases plan with
  | direct r => exact h.due?_run
  | derived plan =>
      refine (Reply.due?_andThen _ _).trans (Window.due?_join fun reply hreply => ?_)
      obtain ⟨entry, -, rfl⟩ := List.mem_map.mp hreply
      exact h.due?_run

/-- If no executor breaks down, no member does. -/
theorem not_breaksDown_executePlan (h : registry.NeverBreaksDown) (plan : Plan) :
    ¬ (executePlan registry projectId options plan).BreaksDown := by
  cases plan with
  | direct r => exact h.run
  | derived plan =>
      intro hbroken
      obtain ⟨reply, hreply, hbreaks⟩ :=
        Window.exists_breaksDown_of_join (Reply.breaksDown_andThen_iff.mp hbroken)
      obtain ⟨entry, -, rfl⟩ := List.mem_map.mp hreply
      exact h.run hbreaks

/-- The table of a member has the key columns of its plan in front, whatever the executors answer. -/
theorem describes_of_executePlan {plan : Plan} {t : ResultTable}
    (h : (executePlan registry projectId options plan).value? = some t) : plan.layout.Describes t := by
  cases plan with
  | direct r =>
      obtain ⟨_, given, -, -, hrelabel⟩ := Registry.run_eq_ok_iff.mp h
      exact ResultTable.describes_of_relabel hrelabel
  | derived plan =>
      obtain ⟨result, -, h⟩ := Reply.value?_andThen_eq_some_iff.mp h
      obtain ⟨tables, -, h⟩ := bind_eq_ok_iff.mp h
      exact Alignment.describes_of_align h

/-- The tables of members have the key columns of their plans in front. -/
theorem describes_of_replies {tables : List ResultTable}
    (h : Window.Give (e.replies projectId options plans) tables) :
    List.Forall₂ KeyLayout.Describes (plans.map Plan.layout) tables :=
  List.forall₂_map_left_iff.mpr <|
    (List.forall₂_map_left_iff.mp h).imp fun _ _ => describes_of_executePlan

/-- The tables of a planned group carry the labels of the global group-bys. -/
theorem mem_headers_of_replies {tables : List ResultTable}
    (hplans : e.planned projectId group = .ok plans)
    (htables : Window.Give (e.replies projectId options plans) tables) :
    ∀ t ∈ tables, ∀ label ∈ group.globalGroupBys.map (·.propertyName), label ∈ t.headers := by
  intro t ht label hlabel
  obtain ⟨k, hk, hdescribes⟩ := exists_of_mem_of_forall₂ (describes_of_replies htables) ht
  obtain ⟨plan, hplan, rfl⟩ := List.mem_map.mp hk
  obtain ⟨q, -, hq⟩ := exists_of_mem_of_forall₂ (planned_eq_ok_iff.mp hplans).2 hplan
  apply hdescribes.mem_headers
  rw [MappingSource.labels_eq_of_plannedAs hq, List.map_append]
  exact List.mem_append_right _ hlabel

end FederatedMetrics.Engine
