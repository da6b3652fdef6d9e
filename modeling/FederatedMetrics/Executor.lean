import FederatedMetrics.Record.Store

/-!
# Executors

Each category has an executor, which answers queries and lists the values of properties. It may take
its time, break down or never answer. Results come back under the labels of the query's group-bys, and
every failure of an executor counts as a failure of the execution.
-/

namespace FederatedMetrics

/-- How a request is carried out: which shortcuts executors may take, how many members of a group
may be under way at once, and the milliseconds that a group may take. -/
structure ExecutionOptions where
  optimisedProfileFilter : Bool
  optimisedEventUserFilter : Bool
  maxConcurrency : Nat
  deadline : Option Nat
deriving DecidableEq, Repr

def ExecutionOptions.standard : ExecutionOptions := ⟨false, false, 2, none⟩

/-- What comes of a request: a result after some milliseconds, a breakdown after some, which leaves no
result behind, or nothing ever. -/
inductive Reply (α : Type) where
  | after (delay : Nat) (result : Except Failure α)
  | breakdown (delay : Nat)
  | never

namespace Reply

variable {α β : Type}

/-- A result at once. -/
@[match_pattern] abbrev now (result : Except Failure α) : Reply α := .after 0 result

/-- The reply to a request that is made later. -/
def later (time : Nat) : Reply α → Reply α
  | .after delay result => .after (time + delay) result
  | .breakdown delay => .breakdown (time + delay)
  | .never => .never

/-- Go on at once with the result of a reply. -/
def andThen (r : Reply α) (f : Except Failure α → Except Failure β) : Reply β :=
  match r with
  | .after delay result => .after delay (f result)
  | .breakdown delay => .breakdown delay
  | .never => .never

/-- Make another request with what a reply brings. -/
def bind (r : Reply α) (f : α → Reply β) : Reply β :=
  match r with
  | .after delay (.ok x) => (f x).later delay
  | .after delay (.error f) => .after delay (.error f)
  | .breakdown delay => .breakdown delay
  | .never => .never

/-- The time of a reply, if there is one. -/
def due? : Reply α → Option Nat
  | .after delay _ => some delay
  | .breakdown delay => some delay
  | .never => none

/-- The result of a reply, if it ever has one. -/
def result? : Reply α → Option (Except Failure α)
  | .after _ result => some result
  | .breakdown _ => none
  | .never => none

/-- The result of a reply, if it is there and no failure. -/
def value? : Reply α → Option α
  | .after _ (.ok x) => some x
  | _ => none

/-- Whether there is a result and it is not a failure. -/
def succeeds (r : Reply α) : Bool := r.value?.isSome

/-- What is left of a reply at a deadline. A reply that is due at the deadline is in time. -/
def within (deadline : Option Nat) (r : Reply α) : Reply α :=
  match deadline with
  | none => r
  | some milliseconds =>
      if r.due?.any (· ≤ milliseconds) then r
      else .after milliseconds (.error (.deadlineExceeded milliseconds))

end Reply

/-- What serves the queries of one category. -/
structure Executor where
  execute : Int → ResolvedQuery → ExecutionOptions → Reply ResultTable
  filterValues : Int → Property → Reply (List String)

namespace Executor

/-- The executor over a store of records. It takes no time, and breaks down where the store has no
answer. -/
def ofStore (s : RecordStore) : Executor :=
  ⟨fun projectId r _ =>
      match s.answer projectId r with
      | .ok (some t) => .now (.ok t)
      | .ok none => .breakdown 0
      | .error f => .now (.error f),
    fun projectId p => .now (.ok (s.filterValues projectId p))⟩

/-- The executor that answers every query with one table, and every look-up with its headers. -/
def constant (t : ResultTable) : Executor := ⟨fun _ _ _ => .now (.ok t), fun _ _ => .now (.ok t.headers)⟩

/-- The executor that fails at everything. -/
def failing (f : Failure) : Executor := ⟨fun _ _ _ => .now (.error f), fun _ _ => .now (.error f)⟩

/-- The executor that never answers. -/
def silent : Executor := ⟨fun _ _ _ => .never, fun _ _ => .never⟩

end Executor

/-- Put the labels of a query into the place of the group-by headers of its result. -/
def ResultTable.relabel (t : ResultTable) (r : ResolvedQuery) : Except Failure ResultTable :=
  let offset := r.isBucketed.toNat
  let width := offset + r.labels.length
  if t.headers.length < width then .error (.missingKeyColumns r.query.displayCategory)
  else .ok { t with headers := t.headers.take offset ++ r.labels ++ t.headers.drop width }

/-- The executors by category. -/
abbrev Registry := Category → Option Executor

namespace Registry

def get (registry : Registry) (c : Category) : Except Failure Executor :=
  match registry c with
  | some executor => .ok executor
  | none => .error (.noExecutor c)

/-- The failure of an execution; those of other kinds are wrapped into one. -/
def wrap (q : Query) (f : Failure) : Failure :=
  if f.kind = .executionFailure then f else .executorFailed q.category q.displayCategory f

/-- Run a query on the executor of its category. -/
def run (registry : Registry) (projectId : Int) (r : ResolvedQuery) (options : ExecutionOptions) :
    Reply ResultTable :=
  match registry.get r.query.category with
  | .error f => .now (.error f)
  | .ok executor =>
      (executor.execute projectId r options).andThen fun result =>
        match result with
        | .ok table => table.relabel r
        | .error f => .error (wrap r.query f)

end Registry

end FederatedMetrics
