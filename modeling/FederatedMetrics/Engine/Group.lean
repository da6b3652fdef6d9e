import FederatedMetrics.Engine.Window
import FederatedMetrics.Plan.Normalize
import FederatedMetrics.Table.Align
import FederatedMetrics.Table.Combine
import FederatedMetrics.Table.Harmonize

/-!
# Executing query groups

A group is planned, its members are executed, and their tables are harmonized and, if asked for,
combined. A failure on the way fails the whole group: there is then one empty table for every member.
A combined view that cannot be built does not fail the group.
-/

namespace FederatedMetrics

inductive GroupState where
  | received
  | normalized
  | executing
  | merged
  | done
  | failed
deriving DecidableEq, Repr

namespace GroupState

def name : GroupState → String
  | .received => "received"
  | .normalized => "normalized"
  | .executing => "executing"
  | .merged => "merged"
  | .done => "done"
  | .failed => "failed"

/-- The changes of state that are allowed. A group may fail from every state before the last. -/
def canAdvanceTo : GroupState → GroupState → Bool
  | .received, .normalized => true
  | .normalized, .executing => true
  | .executing, .merged => true
  | .merged, .done => true
  | .received, .failed => true
  | .normalized, .failed => true
  | .executing, .failed => true
  | .merged, .failed => true
  | _, _ => false

end GroupState

/-- The states that a group has gone through. -/
structure Tracker where
  states : List GroupState
deriving DecidableEq, Repr

namespace Tracker

def start : Tracker := ⟨[.received]⟩

/-- The state in which the group is. -/
def state (t : Tracker) : GroupState := t.states.getLastD .received

/-- Go on to a next state. -/
def advance (t : Tracker) (next : GroupState) : Tracker := ⟨t.states ++ [next]⟩

/-- The tracker of a group that has been planned and of which the members are executed. -/
def executing : Tracker := (start.advance .normalized).advance .executing

end Tracker

/-- What has been counted. The counters of the service are 64-bit words that all requests add to in one
step each; here they are natural numbers, which do not overflow. -/
structure Counters where
  groupsExecuted : Nat
  groupsFailed : Nat
  queriesExecuted : Nat
  cacheHits : Nat
  cacheMisses : Nat
  mappingsCreated : Nat
  requests : Nat
deriving DecidableEq, Repr

def Counters.zero : Counters := ⟨0, 0, 0, 0, 0, 0, 0⟩

/-- Count the look-ups of a resolver. -/
def Counters.addLookups (c : Counters) (r : Resolver) : Counters :=
  { c with cacheHits := c.cacheHits + r.hits, cacheMisses := c.cacheMisses + r.misses }

/-- What comes of a group: a table for every member, the failure if there is one, the states that it
has gone through, and the combined view or why there is none. -/
structure GroupOutcome where
  results : List ResultTable
  failure : Option Failure
  tracker : Tracker
  combined : Option (List ResultTable)
  combinedFailure : Option Failure

namespace GroupOutcome

def status (o : GroupOutcome) : Nat := o.failure.elim 200 Failure.queryStatus

def isSuccess (o : GroupOutcome) : Bool := o.status = 200

/-- The state in which the group ends. -/
def state (o : GroupOutcome) : GroupState := o.tracker.state

end GroupOutcome

/-- What the execution of groups works on. -/
structure Engine where
  mappings : MappingStore
  derived : DerivedStore
  zones : Zones
  registry : Registry

namespace Engine

/-- What names stand for in the groups of a project. -/
def source (e : Engine) (projectId : Int) : MappingSource := ⟨e.mappings, projectId, e.zones⟩

/-- Execute the sub-queries of a derived member and align their tables. -/
def executeDerived (registry : Registry) (projectId : Int) (options : ExecutionOptions)
    (plan : DerivedPlan) : Reply ResultTable :=
  (Window.join (plan.subQueries.map fun entry => registry.run projectId entry.2 options)).andThen
    fun tables => tables.bind fun tables =>
      plan.alignment.align ((plan.subQueries.map (·.1)).zip tables)

/-- Execute one member. -/
def executePlan (registry : Registry) (projectId : Int) (options : ExecutionOptions) :
    Plan → Reply ResultTable
  | .direct r => registry.run projectId r options
  | .derived plan => executeDerived registry projectId options plan

/-- Execute all members in the window of the options. -/
def executePlans (registry : Registry) (projectId : Int) (options : ExecutionOptions)
    (plans : List Plan) : RunReport ResultTable :=
  Window.run options.maxConcurrency (plans.map (executePlan registry projectId options))

/-- The tables of a run, or its failure. A run that has not ended by the deadline fails there. There is
nothing if a member breaks down, or never answers and no deadline is set. -/
def tablesOf? (options : ExecutionOptions) (report : RunReport ResultTable) :
    Option (Except Failure (List ResultTable)) :=
  (report.reply.within options.deadline).result?

/-- The outcome of a group that fails. -/
def failedOutcome (group : QueryGroup) (tracker : Tracker) (f : Failure) : GroupOutcome :=
  ⟨group.queries.map fun _ => .empty, some f, tracker.advance .failed, none, none⟩

/-- The combined view of a group's results. -/
def combinedView (group : QueryGroup) (plans : List Plan) (results : List ResultTable) :
    Except Failure (List ResultTable) :=
  Combine.combine <|
    (group.queries.zip (plans.zip results)).map fun entry => ⟨entry.1, entry.2.1, entry.2.2⟩

/-- The outcome of a group whose tables have been merged. -/
def finishedOutcome (group : QueryGroup) (combine : Bool) (plans : List Plan) (tracker : Tracker)
    (results : List ResultTable) : GroupOutcome :=
  let tracker := tracker.advance .done
  if combine then
    match combinedView group plans results with
    | .ok tables => ⟨results, none, tracker, some tables, none⟩
    | .error f => ⟨results, none, tracker, none, some f⟩
  else ⟨results, none, tracker, none, none⟩

/-- The outcome of a planned group whose members have been executed, unless their tables cannot be
harmonized. -/
def mergedOutcome (group : QueryGroup) (combine : Bool) (plans : List Plan) (tracker : Tracker)
    (tables : Except Failure (List ResultTable)) : Option GroupOutcome :=
  let globals := group.globalGroupBys.map (·.propertyName)
  match tables.bind fun tables => Harmonize.finalize (plans.map Plan.layout) tables globals with
  | .ok results =>
      results.map (finishedOutcome group combine plans (tracker.advance .merged))
  | .error f => some (failedOutcome group tracker f)

/-- Count a group that has come to its end. -/
def countGroup (lookups : Resolver) (completed : Nat) (outcome : Option GroupOutcome)
    (c : Counters) : Counters :=
  let c := c.addLookups lookups
  let failed := outcome.any fun o => o.failure.isSome
  { c with
    groupsExecuted := c.groupsExecuted + 1
    groupsFailed := c.groupsFailed + failed.toNat
    queriesExecuted := c.queriesExecuted + completed }

/-- Execute a group for a project. There is no outcome if a member breaks down, if one never answers and
no deadline is set, or if the tables of the members cannot be harmonized. -/
def execute (e : Engine) (projectId : Int) (group : QueryGroup) (options : ExecutionOptions)
    (combine : Bool) (c : Counters) : Option GroupOutcome × Counters :=
  match ((e.source projectId).normalize e.derived group).run.run .fresh with
  | (.error f, lookups) =>
      let outcome := some (failedOutcome group .start f)
      (outcome, countGroup lookups 0 outcome c)
  | (.ok plans, lookups) =>
      let report := executePlans e.registry projectId options plans
      let outcome := (tablesOf? options report).bind (mergedOutcome group combine plans .executing)
      (outcome, countGroup lookups (report.completedBy options.deadline) outcome c)

end Engine

end FederatedMetrics
