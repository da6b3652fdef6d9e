import FederatedMetrics.Proofs.Engine.Outcome
import FederatedMetrics.Proofs.Plan.Placeholders

/-!
# What is counted of a group

Every group is counted as executed, and as failed if that is how it ends; one that breaks down is not.
If the executors answer at once, the members before the first one without a table are counted as
completed, whatever the window. The look-ups are those of planning: none for a group of the wrong shape,
and one for every placeholder of a planned one.
-/

namespace FederatedMetrics

/-- A group has a failure exactly if it does not have the status of success. -/
theorem GroupOutcome.isSome_failure_eq (o : GroupOutcome) :
    o.failure.isSome = decide (o.status ≠ 200) := by
  rw [status]
  cases o.failure with
  | none => rfl
  | some f => simp [f.queryStatus_ne_success]

namespace Engine

variable {e : Engine} {projectId : Int} {group : QueryGroup} {plans : List Plan}
  {options : ExecutionOptions}

/-- The number of members of a group that are completed: none if it cannot be planned, or else those
before the first one without a table, which are all of them if each has one. -/
def completed (e : Engine) (projectId : Int) (group : QueryGroup) (options : ExecutionOptions) : Nat :=
  match e.planned projectId group with
  | .error _ => 0
  | .ok plans =>
      ((e.replies projectId options plans).findIdx? fun reply => !reply.succeeds).getD
        group.queries.length

theorem completedBy_executePlans (hanswers : e.registry.AnswersAtOnce)
    (hplans : e.planned projectId group = .ok plans) :
    (executePlans e.registry projectId options plans).completedBy options.deadline =
      e.completed projectId group options := by
  have hlength : (e.replies projectId options plans).length = group.queries.length := by
    rw [replies, List.length_map]
    exact (planned_eq_ok_iff.mp hplans).2.length_eq.symm
  have hdue : ∀ reply ∈ e.replies projectId options plans, reply.due? = some 0 := by
    rw [replies, List.forall_mem_map]
    exact fun plan _ => due?_executePlan hanswers plan
  have hcompletions := (Window.run_of_due?_eq_zero options.maxConcurrency hdue).2
  rw [List.findIdx_eq_getD_findIdx?, hlength] at hcompletions
  rw [completed, hplans, RunReport.completedBy, executePlans, ← replies, hcompletions]
  simp [List.countP_replicate]

/-- What executing a group adds to the counters, if the executors answer at once. -/
theorem counters_execute (hanswers : e.registry.AnswersAtOnce) (combine : Bool) (c : Counters) :
    (e.execute projectId group options combine c).2 =
      { c with
        groupsExecuted := c.groupsExecuted + 1
        groupsFailed := c.groupsFailed +
          ((e.execute projectId group options combine c).1.any fun o => o.status ≠ 200).toNat
        queriesExecuted := c.queriesExecuted + e.completed projectId group options
        cacheHits := c.cacheHits + (e.lookups projectId group).hits
        cacheMisses := c.cacheMisses + (e.lookups projectId group).misses } := by
  simp only [← GroupOutcome.isSome_failure_eq]
  cases hplans : e.planned projectId group with
  | error f =>
      rw [execute_of_refused hplans, completed, hplans]
      rfl
  | ok plans =>
      rw [execute_eq_of_planned hplans, ← completedBy_executePlans hanswers hplans]
      rfl

/-- Planning a group looks up all its placeholders. -/
theorem served_lookups (hplans : e.planned projectId group = .ok plans) :
    (e.lookups projectId group).Served (e.source projectId)
      (group.placeholders e.derived projectId) := by
  have hlookups : e.lookups projectId group =
      (e.source projectId).lookups (group.placeholders e.derived projectId)
        .fresh :=
    MappingSource.looksUp_normalize (e.source projectId) e.derived group .fresh plans _
      (Prod.ext hplans rfl)
  rw [hlookups]
  exact (Resolver.served_fresh _).lookups _

/-- A group of the wrong shape looks up nothing. -/
theorem lookups_of_invalid {f : Failure} (h : group.validate = .error f) :
    e.lookups projectId group = .fresh := by
  rw [lookups, MappingSource.run_normalize_of_invalid h]

end Engine

end FederatedMetrics
