import FederatedMetrics.Proofs.Engine.Execution

/-!
# Members that run side by side

The outcome of a planned group of which the members answer at once or never is decided by their replies,
taken in order. How many members are under way at once makes no difference, and neither does the deadline
as long as all of them answer. Executors over stores of records do answer at once, and alike under all
options.
-/

namespace FederatedMetrics.Engine

variable {e : Engine} {projectId : Int} {group : QueryGroup} {plans : List Plan}
  {options : ExecutionOptions}

/-- What is gathered from members that answer at once or never is there at the start, if it ever is. -/
theorem gathered_of_replies {members : List (Reply ResultTable)}
    (hreplies : e.replies projectId options plans = members)
    (hprompt : ∀ reply ∈ members, reply.IsPrompt) :
    e.gathered projectId options plans =
      ((Window.inTurn members).atOnce.within options.deadline).result? := by
  rw [← hreplies] at hprompt ⊢
  rw [gathered, tablesOf?, executePlans]
  exact congrArg (fun reply => (reply.within options.deadline).result?)
    (Window.run_of_isPrompt options.maxConcurrency hprompt)

/-- Options under which the members reply alike lead to the same end, if they have the same deadline
or no member waits for ever. -/
theorem gathered_congr {other : ExecutionOptions} {members : List (Reply ResultTable)}
    (hreplies : e.replies projectId options plans = members)
    (hother : e.replies projectId other plans = members)
    (hprompt : ∀ reply ∈ members, reply.IsPrompt)
    (h : other.deadline = options.deadline ∨ .never ∉ members) :
    e.gathered projectId other plans = e.gathered projectId options plans := by
  rw [gathered_of_replies hreplies hprompt, gathered_of_replies hother hprompt]
  rcases h with hdeadline | hanswers
  · rw [hdeadline]
  · have hends : Window.inTurn members ≠ .never := by
      intro hnever
      obtain ⟨done, rest, rfl, -⟩ := Window.inTurn_eq_never_iff.mp hnever
      simp at hanswers
    rw [Reply.within_atOnce hends, Reply.within_atOnce hends]

/-- Executors that do not look at options reply alike under all of them. -/
theorem replies_eq_of_ignoresOptions (h : e.registry.IgnoresOptions) (other : ExecutionOptions) :
    e.replies projectId other plans = e.replies projectId options plans := by
  refine List.map_congr_left fun plan _ => ?_
  cases plan with
  | direct r => exact h.run_eq options
  | derived plan =>
      have hruns : ∀ entry ∈ plan.subQueries, e.registry.run projectId entry.2 other =
          e.registry.run projectId entry.2 options := fun _ _ => h.run_eq options
      rw [executePlan, executePlan, executeDerived, executeDerived, List.map_congr_left hruns]

/-- Over stores of records the options make no difference to the outcome of a group, unless a member
breaks down. -/
theorem execute_eq_of_overStores (h : e.registry.OverStores)
    (hplans : e.planned projectId group = .ok plans)
    (hunbroken : ∀ reply ∈ e.replies projectId options plans, ¬ reply.BreaksDown)
    (other : ExecutionOptions) (combine : Bool) (c counters : Counters) :
    (e.execute projectId group other combine counters).1 =
      (e.execute projectId group options combine c).1 := by
  have hdue : ∀ reply ∈ e.replies projectId options plans, reply.due? = some 0 := by
    intro reply hreply
    obtain ⟨plan, -, rfl⟩ := List.mem_map.mp hreply
    exact due?_executePlan h.answersAtOnce plan
  have hanswers : .never ∉ e.replies projectId options plans := fun hnever => by cases hdue _ hnever
  rw [execute_of_planned hplans, execute_of_planned hplans,
    gathered_congr rfl (replies_eq_of_ignoresOptions h.ignoresOptions other)
      (fun reply hreply => Reply.isPrompt_of_due? (hdue reply hreply) (hunbroken reply hreply))
      (.inr hanswers)]

/-- An engine in which visits are counted, profiles fail and channels never answer. -/
def mixedEngine : Engine :=
  ⟨[], [], fun _ => none, fun
    | .events => some (.ofStore (RecordStore.empty.define "visits" "count" ⟨.count, none⟩))
    | .profiles => some (.failing (.reported .conflict "busy"))
    | .channels => some .silent⟩

theorem mixedEngine_ignoresOptions : mixedEngine.registry.IgnoresOptions := by
  intro category x hx projectId r options other
  cases category <;> cases hx <;> rfl

/-- A group with a query for each of some categories. -/
def counts (categories : List Category) : QueryGroup :=
  ⟨"", "", categories.map fun c =>
    ⟨c, "visits", ["count"], [], [], 0, 9, none, .standard, "", "", "", none⟩, [], [], ""⟩

end FederatedMetrics.Engine
