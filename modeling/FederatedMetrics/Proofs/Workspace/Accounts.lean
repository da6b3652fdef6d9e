import FederatedMetrics.Proofs.Engine.Counting
import FederatedMetrics.Workspace.Operation
import Mathlib.Algebra.GroupWithZero.Nat

/-!
# What a run of operations is counted as

The counters of a workspace account for the operations that have been carried out on it: how many
groups have been executed and have failed, how many of their members have been completed, and how many
mappings have been created. Every step adds what it has done, so a run adds the sum of its steps. The
look-ups are counted with the group for which they are made.
-/

namespace FederatedMetrics

def Operation.isExecution : Operation → Bool
  | .executeGroup .. => true
  | _ => false

namespace Workspace

variable {w : Workspace}

/-- The workspace after some operations. -/
def after (w : Workspace) (operations : List Operation) : Workspace :=
  operations.foldl (fun w operation => (w.perform operation).2) w

/-- The operations of a run, each with the workspace on which it is carried out. -/
def steps : Workspace → List Operation → List (Workspace × Operation)
  | _, [] => []
  | w, operation :: rest => (w, operation) :: (w.perform operation).2.steps rest

/-- Every executor of the workspace answers every query at once, or breaks down at once. -/
def AnswersAtOnce (w : Workspace) : Prop :=
  ∀ c x, w.backends.get c = some (.executor x) →
    ∀ projectId r options, (x.execute projectId r options).due? = some 0

/-- Whether an operation creates a mapping. -/
def createsMapping (w : Workspace) : Operation → Bool
  | .createMapping projectId displayName properties =>
      (w.createMapping projectId displayName properties).1.isOk
  | _ => false

/-- Whether an operation executes a group that ends with another status than that of success. -/
def failsGroup (w : Workspace) : Operation → Bool
  | .executeGroup projectId group combine options =>
      (w.executeGroup projectId group combine options).1.any fun o => o.status ≠ 200
  | _ => false

/-- The number of members that an operation completes. -/
def completes (w : Workspace) : Operation → Nat
  | .executeGroup projectId group _ options => w.engine.completed projectId group options
  | _ => 0

theorem AnswersAtOnce.registry (h : w.AnswersAtOnce) : w.registry.AnswersAtOnce := by
  intro c x hx
  rw [Workspace.registry] at hx
  cases hbackend : w.backends.get c with
  | none => simp [hbackend] at hx
  | some backend =>
      cases backend with
      | records =>
          rw [hbackend] at hx
          cases hx
          exact (w.stores.get c).due?_ofStore
      | executor own =>
          rw [hbackend] at hx
          cases hx
          exact h c x hbackend

/-- What one operation adds to the counters. The executors stay as they are. -/
structure CountStep (w : Workspace) (operation : Operation) (later : Workspace) : Prop where
  backends_eq : later.backends = w.backends
  groupsExecuted_eq : later.counters.groupsExecuted =
    w.counters.groupsExecuted + operation.isExecution.toNat
  groupsFailed_eq : later.counters.groupsFailed =
    w.counters.groupsFailed + (w.failsGroup operation).toNat
  mappingsCreated_eq : later.counters.mappingsCreated =
    w.counters.mappingsCreated + (w.createsMapping operation).toNat
  queriesExecuted_eq : later.counters.queriesExecuted =
    w.counters.queriesExecuted + w.completes operation

theorem countStep_createMapping (w : Workspace) (projectId : Int) (displayName : String)
    (properties : List Property) :
    w.CountStep (.createMapping projectId displayName properties)
      (w.createMapping projectId displayName properties).2 := by
  have hcreates : w.createsMapping (.createMapping projectId displayName properties) =
      (w.createMapping projectId displayName properties).1.isOk := rfl
  rw [createMapping] at hcreates ⊢
  cases hcreate : w.mappings.create w.nextStamp projectId displayName properties with
  | error f =>
      rw [hcreate] at hcreates
      exact ⟨rfl, rfl, rfl, by rw [hcreates]; rfl, rfl⟩
  | ok created =>
      rw [hcreate] at hcreates
      exact ⟨rfl, rfl, rfl, by rw [hcreates]; rfl, rfl⟩

theorem countStep_executeGroup (hanswers : w.AnswersAtOnce) (projectId : Int) (group : QueryGroup)
    (combine : Bool) (options : ExecutionOptions) :
    w.CountStep (.executeGroup projectId group combine options)
      (w.executeGroup projectId group combine options).2 := by
  have hcounters : (w.executeGroup projectId group combine options).2.counters =
      (w.engine.execute projectId group options combine w.counters).2 := rfl
  rw [Engine.counters_execute hanswers.registry] at hcounters
  constructor
  case backends_eq => rfl
  all_goals
    rw [hcounters]
    rfl

/-- Only creating a mapping and executing a group add to these counters. -/
theorem countStep_perform (hanswers : w.AnswersAtOnce) (operation : Operation) :
    w.CountStep operation (w.perform operation).2 := by
  cases operation with
  | createMapping projectId displayName properties =>
      simp only [perform_createMapping]
      exact countStep_createMapping w projectId displayName properties
  | executeGroup projectId group combine options =>
      simp only [perform_executeGroup]
      exact countStep_executeGroup hanswers projectId group combine options
  | deleteMapping projectId id =>
      simp only [perform_deleteMapping, deleteMapping]
      cases w.mappings.delete projectId id <;> exact ⟨rfl, rfl, rfl, rfl, rfl⟩
  | createDerived projectId request =>
      simp only [perform_createDerived, createDerived]
      cases w.derived.create w.nextStamp projectId request <;> exact ⟨rfl, rfl, rfl, rfl, rfl⟩
  | deleteDerived projectId id =>
      simp only [perform_deleteDerived, deleteDerived]
      cases w.derived.delete projectId id <;> exact ⟨rfl, rfl, rfl, rfl, rfl⟩
  | normalize projectId group =>
      simp only [perform_normalize, resolving]
      exact ⟨rfl, rfl, rfl, rfl, rfl⟩
  | _ => exact ⟨rfl, rfl, rfl, rfl, rfl⟩

theorem AnswersAtOnce.perform (h : w.AnswersAtOnce) (operation : Operation) :
    (w.perform operation).2.AnswersAtOnce := by
  rw [AnswersAtOnce, (countStep_perform h operation).backends_eq]
  exact h

/-- A counter to which every step adds something has grown by the sum of it after a run. -/
theorem counted_after (count : Counters → Nat) {adds : Workspace → Operation → Nat}
    (hstep : ∀ w : Workspace, w.AnswersAtOnce → ∀ operation,
      count (w.perform operation).2.counters = count w.counters + adds w operation)
    (hanswers : w.AnswersAtOnce) (operations : List Operation) :
    count (w.after operations).counters =
      count w.counters + ((w.steps operations).map fun s => adds s.1 s.2).sum := by
  induction operations generalizing w with
  | nil => rfl
  | cons operation rest ih =>
      have hnext := ih (hanswers.perform operation)
      rw [hstep w hanswers operation, Nat.add_assoc] at hnext
      exact hnext

theorem sum_map_toNat {α : Type} (p : α → Bool) (items : List α) :
    (items.map fun a => (p a).toNat).sum = items.countP p := by
  induction items with
  | nil => rfl
  | cons a rest ih => cases hp : p a <;> simp [hp, ih, Nat.add_comm]

/-- What executing a group adds to the look-ups: as many as its resolved queries have placeholders,
and a miss for each distinct name among them, if the group can be planned, and nothing if it is not
valid. -/
structure LooksUpFor (w : Workspace) (projectId : Int) (group : QueryGroup) (later : Workspace) :
    Prop where
  planned : ∀ plans, w.engine.planned projectId group = .ok plans →
    later.counters.cacheHits + later.counters.cacheMisses =
        w.counters.cacheHits + w.counters.cacheMisses + (group.placeholders w.derived projectId).length ∧
      later.counters.cacheMisses =
        w.counters.cacheMisses + (group.placeholders w.derived projectId).toFinset.card
  invalid : ∀ f, group.validate = .error f →
    later.counters.cacheHits = w.counters.cacheHits ∧
      later.counters.cacheMisses = w.counters.cacheMisses

theorem looksUpFor_executeGroup (hanswers : w.AnswersAtOnce) (projectId : Int) (group : QueryGroup)
    (combine : Bool) (options : ExecutionOptions) :
    w.LooksUpFor projectId group (w.executeGroup projectId group combine options).2 := by
  have hcounters : (w.executeGroup projectId group combine options).2.counters =
      (w.engine.execute projectId group options combine w.counters).2 := rfl
  rw [Engine.counters_execute hanswers.registry] at hcounters
  constructor
  · intro plans hplans
    have hserved : (w.engine.lookups projectId group).Served (w.source projectId)
        (group.placeholders w.derived projectId) := Engine.served_lookups hplans
    have htotal := hserved.total_eq
    have hmisses := hserved.misses_eq_card
    rw [hcounters]
    constructor
    · dsimp only
      omega
    · exact congrArg (w.counters.cacheMisses + ·) hmisses
  · intro f hinvalid
    rw [hcounters, Engine.lookups_of_invalid hinvalid]
    exact ⟨rfl, rfl⟩

theorem AnswersAtOnce.of_mem_steps (h : w.AnswersAtOnce) {operations : List Operation}
    {s : Workspace × Operation} (hs : s ∈ w.steps operations) : s.1.AnswersAtOnce := by
  induction operations generalizing w with
  | nil => cases hs
  | cons operation rest ih =>
      rcases List.mem_cons.mp hs with rfl | hrest
      · exact h
      · exact ih (h.perform operation) hrest

/-- After a run that starts with nothing counted, the counters tell how many groups have been executed
and how many of these have failed, how many members have been completed before the first one of their
group that fails, and how many mappings have been created. Every execution of a group that can be
planned has counted the look-ups of its placeholders, and that of an invalid group none. -/
theorem counters_account_for_steps (hzero : w.counters = .zero) (hanswers : w.AnswersAtOnce)
    (operations : List Operation) :
    (w.after operations).counters.groupsExecuted =
        (w.steps operations).countP (fun s => s.2.isExecution) ∧
      (w.after operations).counters.groupsFailed =
        (w.steps operations).countP (fun s => s.1.failsGroup s.2) ∧
      (w.after operations).counters.mappingsCreated =
        (w.steps operations).countP (fun s => s.1.createsMapping s.2) ∧
      (w.after operations).counters.queriesExecuted =
        ((w.steps operations).map fun s => s.1.completes s.2).sum ∧
      ∀ s ∈ w.steps operations, ∀ projectId group combine options,
        s.2 = .executeGroup projectId group combine options →
          s.1.LooksUpFor projectId group (s.1.perform s.2).2 := by
  have hexecuted := counted_after Counters.groupsExecuted
    (fun w h operation => (countStep_perform h operation).groupsExecuted_eq) hanswers operations
  have hfailed := counted_after Counters.groupsFailed
    (fun w h operation => (countStep_perform h operation).groupsFailed_eq) hanswers operations
  have hcreated := counted_after Counters.mappingsCreated
    (fun w h operation => (countStep_perform h operation).mappingsCreated_eq) hanswers operations
  have hcompleted := counted_after Counters.queriesExecuted
    (fun w h operation => (countStep_perform h operation).queriesExecuted_eq) hanswers operations
  rw [hzero] at hexecuted hfailed hcreated hcompleted
  rw [sum_map_toNat] at hexecuted hfailed hcreated
  refine ⟨hexecuted.trans (Nat.zero_add _), hfailed.trans (Nat.zero_add _),
    hcreated.trans (Nat.zero_add _), hcompleted.trans (Nat.zero_add _), ?_⟩
  intro s hs projectId group combine options hexecute
  rw [hexecute, perform_executeGroup]
  exact looksUpFor_executeGroup (hanswers.of_mem_steps hs) projectId group combine options

/-- A workspace in which events have no rows and profiles fail. -/
def quiet : Workspace :=
  .fresh (fun _ => none) ⟨some (.executor (.constant ⟨["town", "count"], []⟩)),
      some (.executor (.failing (.reported .conflict "busy"))), none⟩
    .standard fun n => ⟨BitVec.ofNat 128 n⟩

/-- A query that counts visits under a name. -/
def countOf (category : Category) (name : String) (groupBys : List GroupBy) : Query :=
  ⟨category, "visits", ["count"], [], groupBys, 0, 9, none, .standard, name, "", "", none⟩

/-- Counts of visits by town, and the share of one such count in another, in a group with a filter for
towns. The town is a mapping. -/
def townShares (category : Category) : QueryGroup :=
  let town : GroupBy := ⟨"", "town", true, .categorical, ""⟩
  let share : Query :=
    { countOf .events "share" [town] with
      queryType := .derived
      definition := some ⟨"", "a / b", [countOf .events "a" [], countOf .events "b" []], [], [], ""⟩ }
  ⟨"", "", [countOf .events "" [town], countOf category "" [town], share],
    [⟨"", "town", true, .categorical, "", .equals, "Oslo", .and⟩], [], ""⟩

/-- A mapping is created, and once more in vain. A group succeeds, one fails at its second member, and
one has no members. -/
def townOperations : List Operation :=
  [.createMapping 1 "Town" [⟨.events, "visits", "", "city", .categorical, ""⟩],
    .createMapping 1 "town" [⟨.events, "visits", "", "city", .categorical, ""⟩],
    .executeGroup 1 (townShares .events) false .standard,
    .executeGroup 1 (townShares .profiles) false .standard,
    .executeGroup 1 ⟨"", "", [], [], [], ""⟩ false .standard]

/-- The operations come to three executions of which two fail, one mapping, and four completed members.
The group that succeeds looks up the town eight times: twice for each of its four resolved queries. -/
theorem counters_account_for_steps_quiet :
    (quiet.after townOperations).counters.groupsExecuted = 3 ∧
      (quiet.after townOperations).counters.groupsFailed = 2 ∧
      (quiet.after townOperations).counters.mappingsCreated = 1 ∧
      (quiet.after townOperations).counters.queriesExecuted = 4 ∧
      let w := quiet.after (townOperations.take 2)
      let later := (w.perform (.executeGroup 1 (townShares .events) false .standard)).2
      later.counters.cacheHits + later.counters.cacheMisses = 8 ∧ later.counters.cacheMisses = 1 := by
  have hanswers : quiet.AnswersAtOnce := by
    intro c x hx projectId r options
    cases c <;> cases hx <;> rfl
  obtain ⟨hexecuted, hfailed, hcreated, hcompleted, hlookups⟩ :=
    counters_account_for_steps rfl hanswers townOperations
  refine ⟨hexecuted.trans rfl, hfailed.trans (by decide +kernel), hcreated.trans (by decide +kernel),
    hcompleted.trans (by decide +kernel), ?_⟩
  obtain ⟨plans, hplans⟩ : ∃ plans, (quiet.after (townOperations.take 2)).engine.planned 1
      (townShares .events) = .ok plans := ⟨_, rfl⟩
  have hgroup := hlookups (quiet.after (townOperations.take 2), _) (.tail _ (.tail _ (.head _))) 1
    (townShares .events) false .standard rfl
  exact hgroup.planned plans hplans

end Workspace

end FederatedMetrics
