import FederatedMetrics.Executor

/-!
# Carrying out requests side by side

The members of a group run in a window of limited size that slides over them in order. A member is
asked when it enters, and results leave the window in the order of the members. The members behind the
first one are only looked at while that one has no result. One that breaks down in that time ends the
run, and a member that never answers holds the window for ever.
-/

namespace FederatedMetrics

/-- What comes of a run of members, and the times at which members have been completed until then. -/
structure RunReport (α : Type) where
  reply : Reply (List α)
  completions : List Nat

/-- The number of members that have been completed up to a deadline. -/
def RunReport.completedBy {α : Type} (deadline : Option Nat) (r : RunReport α) : Nat :=
  r.completions.countP fun time => deadline.all (time ≤ ·)

namespace Window

variable {α : Type}

/-- The time of a run, the members under way and those that wait, in order, and the results that have
left the window in reverse, with the times at which they came. Members under way are due at times of
the run. -/
structure State (α : Type) where
  now : Nat
  underWay : List (Reply α)
  waiting : List (Reply α)
  results : List (Nat × α)

/-- Let waiting members enter up to the limit. -/
def State.fill (limit : Nat) (s : State α) : State α :=
  let room := limit - s.underWay.length
  { s with
    underWay := s.underWay ++ (s.waiting.take room).map (Reply.later s.now)
    waiting := s.waiting.drop room }

/-- The time of the first breakdown among members, if it comes before a given time. -/
def breakdownBefore (due : Option Nat) (members : List (Reply α)) : Option Nat :=
  let times := members.filterMap fun
    | .breakdown time => some time
    | _ => none
  times.min?.filter fun time => due.all (time < ·)

/-- The times at which members are completed before a given time. -/
def completionsBefore (due : Option Nat) (members : List (Reply α)) : List Nat :=
  members.filterMap fun
    | .after time (.ok _) => if due.all (time < ·) then some time else none
    | _ => none

/-- The results that have left the window, in the order of the members. -/
def State.values (s : State α) : List α := s.results.reverse.map (·.2)

/-- The report of a run that ends with a reply, where some members are still under way. -/
def State.report (s : State α) (reply : Reply (List α)) (underWay : List (Reply α)) : RunReport α :=
  ⟨reply, s.results.map (·.1) ++ completionsBefore reply.due? underWay⟩

/-- One step of a run: the first member leaves the window with its result, or the run ends because the
window is empty, a member fails or breaks down, or the first member never answers. -/
def step (limit : Nat) (s : State α) : State α ⊕ RunReport α :=
  let s := s.fill limit
  match s.underWay with
  | [] => .inr (s.report (.after s.now (.ok s.values)) [])
  | first :: rest =>
      match breakdownBefore first.due? rest, first with
      | some time, _ => .inr (s.report (.breakdown time) rest)
      | none, .after time (.ok x) =>
          .inl ⟨max s.now time, rest, s.waiting, (time, x) :: s.results⟩
      | none, .after time (.error f) => .inr (s.report (.after (max s.now time) (.error f)) rest)
      | none, .breakdown time => .inr (s.report (.breakdown (max s.now time)) rest)
      | none, .never => .inr (s.report .never rest)

/-- Go on step by step until the run ends. -/
def advance (limit : Nat) : Nat → State α → RunReport α
  | 0, s => s.report .never s.underWay
  | steps + 1, s =>
      match step limit s with
      | .inl later => advance limit steps later
      | .inr report => report

/-- Run members in a window. A limit of zero counts as one. -/
def run (limit : Nat) (members : List (Reply α)) : RunReport α :=
  advance (max limit 1) (members.length + 1) ⟨0, [], members, []⟩

/-- The time at which a reply breaks off with a failure or a breakdown. -/
def breaksOff? : Reply α → Option Nat
  | .after time (.error _) => some time
  | .breakdown time => some time
  | _ => none

/-- A reply that is awaited together with others. The first one that breaks off wins, whether or not
others have a result. -/
def joinOne (first : Reply α) (rest : Reply (List α)) : Reply (List α) :=
  match first with
  | .after time (.ok x) =>
      match rest with
      | .after other (.ok xs) => .after (max time other) (.ok (x :: xs))
      | other => other
  | .after time (.error f) =>
      if (breaksOff? rest).any (· < time) then rest else .after time (.error f)
  | .breakdown time => if (breaksOff? rest).any (· < time) then rest else .breakdown time
  | .never => if (breaksOff? rest).isSome then rest else .never

/-- Replies that are awaited together. -/
def joinTogether (replies : List (Reply α)) : Reply (List α) := replies.foldr joinOne (.now (.ok []))

/-- The most replies that are awaited together. -/
def joinLimit : Nat := 30

/-- Await the replies of all sub-queries of a derived member; more than the limit are awaited in order,
all of them under way from the start. -/
def join (replies : List (Reply α)) : Reply (List α) :=
  if replies.length ≤ joinLimit then joinTogether replies
  else (run replies.length replies).reply

end Window

end FederatedMetrics
