import FederatedMetrics.Engine.Group
import FederatedMetrics.FilterValues

/-!
# Workspaces

A workspace holds the mappings, the derived metrics, the executors and the counters that all
projects share. Operations on it answer and change it.
-/

namespace FederatedMetrics

/-- One thing for each category. -/
structure PerCategory (α : Type) where
  events : α
  profiles : α
  channels : α

namespace PerCategory

variable {α : Type}

def all (x : α) : PerCategory α := ⟨x, x, x⟩

def get (p : PerCategory α) : Category → α
  | .events => p.events
  | .profiles => p.profiles
  | .channels => p.channels

def set (p : PerCategory α) (c : Category) (x : α) : PerCategory α :=
  match c with
  | .events => { p with events := x }
  | .profiles => { p with profiles := x }
  | .channels => { p with channels := x }

end PerCategory

/-- What serves a category: the records of the workspace, or an executor of its own. -/
inductive Backend where
  | records
  | executor (e : Executor)

/-- The state that operations share. Queries name time zones of `zones`. New entities take their
identifiers from `ids`, of which the first `issued` have been taken, and are dated by `clock`. -/
structure Workspace where
  mappings : MappingStore
  derived : DerivedStore
  zones : Zones
  stores : PerCategory RecordStore
  backends : PerCategory (Option Backend)
  options : ExecutionOptions
  counters : Counters
  ids : Nat → Uuid
  issued : Nat
  clock : Timestamp

namespace Workspace

/-- A workspace without entities and records. -/
def fresh (zones : Zones) (backends : PerCategory (Option Backend)) (options : ExecutionOptions)
    (ids : Nat → Uuid) : Workspace :=
  ⟨[], [], zones, .all .empty, backends, options, .zero, ids, 0, .zero⟩

/-- The executors of the workspace as it is now. -/
def registry (w : Workspace) : Registry := fun c =>
  match w.backends.get c with
  | none => none
  | some .records => some (.ofStore (w.stores.get c))
  | some (.executor e) => some e

def engine (w : Workspace) : Engine := ⟨w.mappings, w.derived, w.zones, w.registry⟩

/-- The identifier and the time of the next entity. -/
def nextStamp (w : Workspace) : Stamp := ⟨w.ids w.issued, w.clock⟩

/-- What names stand for in the groups of a project. -/
def source (w : Workspace) (projectId : Int) : MappingSource := ⟨w.mappings, projectId, w.zones⟩

def updateStore (w : Workspace) (c : Category) (f : RecordStore → RecordStore) : Workspace :=
  { w with stores := w.stores.set c (f (w.stores.get c)) }

/-- Count a request. -/
def countRequest (w : Workspace) : Workspace :=
  { w with counters := { w.counters with requests := w.counters.requests + 1 } }

/-- Run a computation that looks mappings up, and count the look-ups. -/
def resolving {α : Type} (w : Workspace) (x : Resolving α) : Except Failure α × Workspace :=
  let (result, lookups) := x.run.run .fresh
  (result, { w with counters := w.counters.addLookups lookups })

end Workspace

end FederatedMetrics
