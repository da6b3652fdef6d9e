import FederatedMetrics.Engine.Window
import FederatedMetrics.Proofs.Executor
import FederatedMetrics.Proofs.Failure
import Mathlib.Algebra.GroupWithZero.Nat
import Mathlib.Algebra.Order.BigOperators.Group.List
import Mathlib.Algebra.Order.Group.Nat

/-!
# Runs in a window

Unless a member breaks down, a run in a window ends as if its members had been carried out one after the
other, whatever the limit: the first member without a result decides, and members behind it change
nothing. A run of members that all have a result takes at least as long as each of them and at most as
long as all of them one after the other. If all members answer at once, those before the first one
without a result are the ones that are completed. Replies that are awaited together give their results
only if all of them have one.
-/

namespace FederatedMetrics

namespace Reply

variable {α : Type} {reply : Reply α}

/-- The time that a reply takes, which is none if it never comes. -/
def delay (r : Reply α) : Nat := r.due?.getD 0

/-- The same reply without the time that it takes. -/
def atOnce : Reply α → Reply α
  | .after _ result => .now result
  | .breakdown _ => .breakdown 0
  | .never => .never

/-- A list of results with those in front of it that are there already. -/
def behind (done : List α) (r : Reply (List α)) : Reply (List α) :=
  r.andThen fun results => results.map (done ++ ·)

theorem later_later (time other : Nat) (r : Reply α) :
    (r.later other).later time = r.later (time + other) := by
  cases r <;> simp [later, Nat.add_assoc]

@[simp] theorem atOnce_later (time : Nat) (r : Reply α) : (r.later time).atOnce = r.atOnce := by
  cases r <;> rfl

@[simp] theorem result?_atOnce (r : Reply α) : r.atOnce.result? = r.result? := by
  cases r <;> rfl

@[simp] theorem value?_later (time : Nat) (r : Reply α) : (r.later time).value? = r.value? := by
  match r with
  | .after _ (.ok _) => rfl
  | .after _ (.error _) => rfl
  | .breakdown _ => rfl
  | .never => rfl

@[simp] theorem value?_atOnce (r : Reply α) : r.atOnce.value? = r.value? := by
  match r with
  | .after _ (.ok _) => rfl
  | .after _ (.error _) => rfl
  | .breakdown _ => rfl
  | .never => rfl

@[simp] theorem succeeds_atOnce (r : Reply α) : r.atOnce.succeeds = r.succeeds := by
  rw [succeeds, succeeds, value?_atOnce]

theorem breaksDown_atOnce_iff : reply.atOnce.BreaksDown ↔ reply.BreaksDown := by
  cases reply <;> simp [BreaksDown, atOnce]

theorem atOnce_eq_never_iff : reply.atOnce = .never ↔ reply = .never := by
  cases reply <;> simp [atOnce]

theorem IsPrompt.delay_eq (h : reply.IsPrompt) : reply.delay = 0 := by
  obtain ⟨result, rfl⟩ | rfl := h <;> rfl

theorem delay_of_due? {time : Nat} (h : reply.due? = some time) : reply.delay = time := by
  rw [delay, h, Option.getD_some]

theorem IsPrompt.not_breaksDown (h : reply.IsPrompt) : ¬ reply.BreaksDown := by
  obtain ⟨result, rfl⟩ | rfl := h <;> simp [BreaksDown]

theorem isPrompt_of_due? (h : reply.due? = some 0) (hunbroken : ¬ reply.BreaksDown) :
    reply.IsPrompt := by
  cases reply with
  | after time result =>
      cases h
      exact .inl ⟨result, rfl⟩
  | breakdown time => exact absurd ⟨time, rfl⟩ hunbroken
  | never => exact .inr rfl

theorem exists_of_succeeds (h : reply.succeeds = true) : ∃ time x, reply = .after time (.ok x) := by
  match reply, h with
  | .after time (.ok x), _ => exact ⟨time, x, rfl⟩

theorem exists_of_not_succeeds (h : reply.succeeds = false) :
    (∃ time f, reply = .after time (.error f)) ∨ (∃ time, reply = .breakdown time) ∨
      reply = .never := by
  match reply, h with
  | .after time (.error f), _ => exact .inl ⟨time, f, rfl⟩
  | .breakdown time, _ => exact .inr (.inl ⟨time, rfl⟩)
  | .never, _ => exact .inr (.inr rfl)

@[simp] theorem behind_nil (r : Reply (List α)) : r.behind [] = r := by
  match r with
  | .after _ (.ok _) => rfl
  | .after _ (.error _) => rfl
  | .breakdown _ => rfl
  | .never => rfl

theorem behind_behind (done more : List α) (r : Reply (List α)) :
    (r.behind more).behind done = r.behind (done ++ more) := by
  match r with
  | .after _ (.ok _) => simp [behind, andThen, Except.map]
  | .after _ (.error _) => rfl
  | .breakdown _ => rfl
  | .never => rfl

theorem behind_later (done : List α) (time : Nat) (r : Reply (List α)) :
    (r.later time).behind done = (r.behind done).later time := by
  cases r <;> rfl

theorem atOnce_behind (done : List α) (r : Reply (List α)) :
    (r.behind done).atOnce = r.atOnce.behind done := by
  cases r <;> rfl

theorem atOnce_bind {β : Type} (r : Reply α) (f : α → Reply β) :
    (r.bind f).atOnce = r.atOnce.bind fun x => (f x).atOnce := by
  match r with
  | .after time (.ok x) => exact (atOnce_later time (f x)).trans (later_zero (f x).atOnce).symm
  | .after _ (.error _) => rfl
  | .breakdown _ => rfl
  | .never => rfl

theorem value?_behind_eq_some_iff {done out : List α} {r : Reply (List α)} :
    (r.behind done).value? = some out ↔ ∃ results, r.value? = some results ∧ done ++ results = out := by
  match r with
  | .after _ (.ok _) => simp [behind, andThen, Except.map, value?]
  | .after _ (.error _) => simp [behind, andThen, Except.map, value?]
  | .breakdown _ => simp [behind, andThen, value?]
  | .never => simp [behind, andThen, value?]

/-- A reply that comes later than a deadline fails there. -/
theorem within_of_lt_delay {milliseconds : Nat} (h : milliseconds < reply.delay) :
    reply.within (some milliseconds) =
      .after milliseconds (.error (.deadlineExceeded milliseconds)) := by
  have hlate : ¬ reply.due?.any (· ≤ milliseconds) = true := by
    rw [Option.any_eq_true]
    rintro ⟨time, htime, hle⟩
    rw [delay_of_due? htime] at h
    exact absurd (of_decide_eq_true hle) (Nat.not_le_of_lt h)
  exact if_neg hlate

/-- A result is there at a deadline exactly if it comes until then. -/
theorem result?_within_eq_ok_iff {deadline : Option Nat} {x : α} :
    (reply.within deadline).result? = some (.ok x) ↔ reply.value? = some x ∧
      ∀ milliseconds, deadline = some milliseconds → reply.delay ≤ milliseconds := by
  rw [value?_eq_some_iff]
  cases deadline with
  | none => simp [within]
  | some milliseconds =>
      cases reply with
      | after time result => by_cases h : time ≤ milliseconds <;> simp [within, due?, result?, delay, h]
      | breakdown time => by_cases h : time ≤ milliseconds <;> simp [within, due?, result?, h]
      | never => simp [within, due?, result?]

/-- The failure that is there at a deadline is that of the reply or of the deadline. -/
theorem result?_within_eq_error {deadline : Option Nat} {f : Failure}
    (h : (reply.within deadline).result? = some (.error f)) :
    reply.result? = some (.error f) ∨
      ∃ milliseconds, deadline = some milliseconds ∧ f = .deadlineExceeded milliseconds := by
  cases deadline with
  | none => exact .inl h
  | some milliseconds =>
      rw [within] at h
      split at h
      · exact .inl h
      · cases h
        exact .inr ⟨milliseconds, rfl, rfl⟩

/-- There is nothing at a deadline if a reply has broken down until then, or if it never comes and there
is no deadline. -/
theorem result?_within_eq_none_iff {deadline : Option Nat} :
    (reply.within deadline).result? = none ↔ reply = .never ∧ deadline = none ∨
      ∃ time, reply = .breakdown time ∧
        ∀ milliseconds, deadline = some milliseconds → time ≤ milliseconds := by
  cases deadline with
  | none => cases reply <;> simp [within, result?]
  | some milliseconds =>
      cases reply with
      | after time result => by_cases h : time ≤ milliseconds <;> simp [within, due?, result?, h]
      | breakdown time => by_cases h : time ≤ milliseconds <;> simp [within, due?, result?, h]
      | never => simp [within, due?, result?]

/-- A reply at once is in time for every deadline. -/
theorem within_atOnce (h : reply ≠ .never) (deadline : Option Nat) :
    reply.atOnce.within deadline = reply.atOnce := by
  cases deadline with
  | none => rfl
  | some milliseconds =>
      match reply, h with
      | .after _ _, _ => simp [atOnce, within, due?]
      | .breakdown _, _ => simp [atOnce, within, due?]

end Reply

namespace Window

open Reply

variable {α : Type} {limit steps : Nat} {s later : State α} {report : RunReport α} {out : List α}
  {members : List (Reply α)}

/-- The members have these results, each of them one. -/
abbrev Give (members : List (Reply α)) (out : List α) : Prop :=
  List.Forall₂ (fun reply x => reply.value? = some x) members out

/-! ## Members one after the other -/

/-- What comes of members that are carried out one after the other. -/
def inTurn : List (Reply α) → Reply (List α)
  | [] => .now (.ok [])
  | first :: rest => first.bind fun x => (inTurn rest).behind [x]

/-- Members in turn come to their end exactly if each of them has its result. -/
theorem value?_inTurn_eq_some_iff : (inTurn members).value? = some out ↔ Give members out := by
  induction members generalizing out with
  | nil => simp [inTurn, value?, eq_comm]
  | cons first rest ih =>
      rw [Give, List.forall₂_cons_left_iff]
      cases hfirst : first.succeeds with
      | true =>
          obtain ⟨time, x, rfl⟩ := exists_of_succeeds hfirst
          rw [inTurn, Reply.bind, value?_later, value?_behind_eq_some_iff]
          constructor
          · rintro ⟨results, hresults, rfl⟩
            exact ⟨x, results, rfl, ih.mp hresults, rfl⟩
          · rintro ⟨_, results, ⟨⟩, hresults, rfl⟩
            exact ⟨results, ih.mpr hresults, rfl⟩
      | false =>
          obtain ⟨time, f, rfl⟩ | ⟨time, rfl⟩ | rfl := exists_of_not_succeeds hfirst
          all_goals simp [inTurn, Reply.bind, value?]

/-- Members with results leave the end to those behind them. -/
theorem inTurn_of_succeeds {done : List (Reply α)} (h : ∀ reply ∈ done, reply.succeeds = true)
    (rest : List (Reply α)) :
    ∃ time results, inTurn (done ++ rest) = ((inTurn rest).behind results).later time := by
  induction done with
  | nil => exact ⟨0, [], by rw [List.nil_append, behind_nil, later_zero]⟩
  | cons reply done ih =>
      obtain ⟨hreply, hdone⟩ := List.forall_mem_cons.mp h
      obtain ⟨time, results, hresults⟩ := ih hdone
      obtain ⟨own, x, rfl⟩ := exists_of_succeeds hreply
      refine ⟨own + time, x :: results, ?_⟩
      rw [List.cons_append, inTurn, Reply.bind, hresults, behind_later, behind_behind, later_later]
      rfl

/-- Members in turn that do not come to their end stop at the first one without a result. -/
theorem exists_split_of_inTurn (h : ∀ out, (inTurn members).value? ≠ some out) :
    ∃ done first rest, members = done ++ first :: rest ∧
      (∀ reply ∈ done, reply.succeeds = true) ∧ first.succeeds = false := by
  induction members with
  | nil => exact absurd rfl (h [])
  | cons reply rest ih =>
      cases hreply : reply.succeeds with
      | false => exact ⟨[], reply, rest, rfl, by simp, hreply⟩
      | true =>
          obtain ⟨time, x, rfl⟩ := exists_of_succeeds hreply
          obtain ⟨done, first, later, rfl, hdone, hfirst⟩ := ih fun out hout => h (x :: out) (by
            rw [inTurn, Reply.bind, value?_later, value?_behind_eq_some_iff]
            exact ⟨out, hout, rfl⟩)
          exact ⟨.after time (.ok x) :: done, first, later, rfl,
            List.forall_mem_cons.mpr ⟨rfl, hdone⟩, hfirst⟩

/-- Members in turn fail exactly with the failure of the first one without a result. -/
theorem result?_inTurn_eq_error_iff {f : Failure} :
    (inTurn members).result? = some (.error f) ↔ ∃ done first rest, members = done ++ first :: rest ∧
      first.result? = some (.error f) ∧ ∀ reply ∈ done, reply.succeeds = true := by
  have hstop : ∀ {done : List (Reply α)} {first : Reply α} (rest : List (Reply α)),
      (∀ reply ∈ done, reply.succeeds = true) → first.succeeds = false →
        ((inTurn (done ++ first :: rest)).result? = some (.error f) ↔
          first.result? = some (.error f)) := by
    intro done first rest hdone hfirst
    obtain ⟨time, results, hinTurn⟩ := inTurn_of_succeeds hdone (first :: rest)
    rw [hinTurn, result?_later, inTurn]
    obtain ⟨time, f, rfl⟩ | ⟨time, rfl⟩ | rfl := exists_of_not_succeeds hfirst
    · simp [Reply.bind, behind, andThen, result?, Except.map]
    · simp [Reply.bind, behind, andThen, result?]
    · simp [Reply.bind, behind, andThen, result?]
  constructor
  · intro h
    have hstuck : ∀ out, (inTurn members).value? ≠ some out :=
      fun out hout => by simp [value?_eq_some_iff.mp hout] at h
    obtain ⟨done, first, rest, rfl, hdone, hfirst⟩ := exists_split_of_inTurn hstuck
    exact ⟨done, first, rest, rfl, (hstop rest hdone hfirst).mp h, hdone⟩
  · rintro ⟨done, first, rest, rfl, hfirst, hdone⟩
    have hfails : first.succeeds = false := by
      cases hsucceeds : first.succeeds with
      | false => rfl
      | true =>
          obtain ⟨time, x, rfl⟩ := exists_of_succeeds hsucceeds
          cases hfirst
    exact (hstop rest hdone hfails).mpr hfirst

/-- Members in turn wait for ever exactly if the first one without a result never answers. -/
theorem inTurn_eq_never_iff :
    inTurn members = .never ↔ ∃ done rest, members = done ++ .never :: rest ∧
      ∀ reply ∈ done, reply.succeeds = true := by
  constructor
  · intro h
    have hstuck : ∀ out, (inTurn members).value? ≠ some out :=
      fun out hout => by simp [h, value?] at hout
    obtain ⟨done, first, rest, rfl, hdone, hfirst⟩ := exists_split_of_inTurn hstuck
    obtain ⟨time, results, hinTurn⟩ := inTurn_of_succeeds hdone (first :: rest)
    rw [hinTurn, inTurn] at h
    obtain ⟨time, f, rfl⟩ | ⟨time, rfl⟩ | rfl := exists_of_not_succeeds hfirst
    · cases h
    · cases h
    · exact ⟨done, rest, rfl, hdone⟩
  · rintro ⟨done, rest, rfl, hdone⟩
    obtain ⟨time, results, hinTurn⟩ := inTurn_of_succeeds hdone (.never :: rest)
    rw [hinTurn]
    rfl

/-! ## The steps of a run -/

/-- The members that are left, without the times that they take. -/
def State.left (s : State α) : List (Reply α) := (s.underWay ++ s.waiting).map atOnce

/-- Members enter the window without changing their order. -/
theorem State.left_fill (limit : Nat) (s : State α) : (s.fill limit).left = s.left := by
  simp [left, fill, Function.comp_def]

/-- Nobody waits behind an empty window. -/
theorem State.waiting_of_fill (hlimit : 0 < limit) (h : (s.fill limit).underWay = []) :
    (s.fill limit).waiting = [] := by
  simp only [fill, List.append_eq_nil_iff, List.map_eq_nil_iff, List.take_eq_nil_iff] at h ⊢
  obtain ⟨hunderWay, hnone | hwaiting⟩ := h
  · rw [hunderWay, List.length_nil] at hnone
    omega
  · rw [hwaiting, List.drop_nil]

theorem State.left_of_fill_nil (hlimit : 0 < limit) (h : (s.fill limit).underWay = []) :
    s.left = [] := by
  rw [← State.left_fill limit s, left, h, waiting_of_fill hlimit h]
  rfl

theorem State.left_of_fill {first : Reply α} {rest : List (Reply α)}
    (h : (s.fill limit).underWay = first :: rest) :
    s.left = first.atOnce :: (rest ++ (s.fill limit).waiting).map atOnce := by
  rw [← State.left_fill limit s, left, h]
  rfl

/-- How a run ends in a window that has been filled: all members have left, one behind the first breaks
down before the first is due, or the first has no result. -/
inductive State.Stops (s : State α) : RunReport α → Prop
  | finished (h : s.underWay = []) : Stops s (s.report (.after s.now (.ok s.values)) [])
  | interrupted {first : Reply α} {rest : List (Reply α)} {time : Nat}
      (h : s.underWay = first :: rest) (hbreakdown : breakdownBefore first.due? rest = some time) :
      Stops s (s.report (.breakdown time) rest)
  | failed {time : Nat} {f : Failure} {rest : List (Reply α)}
      (h : s.underWay = .after time (.error f) :: rest) :
      Stops s (s.report (.after (max s.now time) (.error f)) rest)
  | broken {time : Nat} {rest : List (Reply α)} (h : s.underWay = .breakdown time :: rest) :
      Stops s (s.report (.breakdown (max s.now time)) rest)
  | silent {rest : List (Reply α)} (h : s.underWay = .never :: rest) :
      Stops s (s.report .never rest)

/-- A step either takes a result out of the window or ends the run. -/
theorem step_cases (limit : Nat) (s : State α) :
    (∃ time x rest, (s.fill limit).underWay = .after time (.ok x) :: rest ∧
      step limit s =
        .inl ⟨max s.now time, rest, (s.fill limit).waiting, (time, x) :: s.results⟩) ∨
    ∃ report, step limit s = .inr report ∧ (s.fill limit).Stops report := by
  have hnow : (s.fill limit).now = s.now := rfl
  have hresults : (s.fill limit).results = s.results := rfl
  rw [step]
  cases hunderWay : (s.fill limit).underWay with
  | nil => exact .inr ⟨_, rfl, .finished hunderWay⟩
  | cons first rest =>
      cases hbreakdown : breakdownBefore first.due? rest with
      | some time => exact .inr ⟨_, by simp [hbreakdown], .interrupted hunderWay hbreakdown⟩
      | none =>
          match first with
          | .after time (.ok x) =>
              exact .inl ⟨time, x, rest, rfl, by simp [hbreakdown, hnow, hresults]⟩
          | .after time (.error f) =>
              exact .inr ⟨_, by simp [hbreakdown], .failed hunderWay⟩
          | .breakdown time => exact .inr ⟨_, by simp [hbreakdown], .broken hunderWay⟩
          | .never => exact .inr ⟨_, by simp [hbreakdown], .silent hunderWay⟩

/-- What every step keeps up holds when a run ends. A run that may take one step more than there are
members left comes to its end. -/
theorem advance_of_invariant (Inv : State α → Prop) (Post : RunReport α → Prop)
    (hnext : ∀ s : State α, Inv s → ∀ time x rest,
      (s.fill limit).underWay = .after time (.ok x) :: rest →
        Inv ⟨max s.now time, rest, (s.fill limit).waiting, (time, x) :: s.results⟩)
    (hend : ∀ s report, Inv s → (s.fill limit).Stops report → Post report)
    (hs : Inv s) (hsteps : s.left.length < steps) : Post (advance limit steps s) := by
  induction steps generalizing s with
  | zero => omega
  | succ steps ih =>
      rw [advance]
      rcases step_cases limit s with ⟨time, x, rest, hunderWay, hstep⟩ | ⟨report, hstep, hstops⟩
      · rw [hstep]
        refine ih (hnext s hs time x rest hunderWay) ?_
        rw [State.left_of_fill hunderWay, List.length_cons] at hsteps
        exact Nat.lt_of_succ_lt_succ hsteps
      · rw [hstep]
        exact hend s report hs hstops

/-- What holds at the start and is kept up by every step holds when a run ends. -/
theorem run_of_invariant (Inv : State α → Prop) (Post : RunReport α → Prop) (limit : Nat)
    (hnext : ∀ s : State α, Inv s → ∀ time x rest,
      (s.fill (max limit 1)).underWay = .after time (.ok x) :: rest →
        Inv ⟨max s.now time, rest, (s.fill (max limit 1)).waiting, (time, x) :: s.results⟩)
    (hend : ∀ s report, Inv s → (s.fill (max limit 1)).Stops report → Post report)
    (hs : Inv ⟨0, [], members, []⟩) : Post (run limit members) :=
  advance_of_invariant Inv Post hnext hend hs (by simp [State.left])

/-! ## The reply of a run -/

theorem atOnce_inTurn (members : List (Reply α)) :
    inTurn (members.map atOnce) = (inTurn members).atOnce := by
  induction members with
  | nil => rfl
  | cons first rest ih =>
      have hbehind : ∀ x, ((inTurn rest).behind [x]).atOnce = (inTurn rest).atOnce.behind [x] :=
        fun x => atOnce_behind [x] _
      rw [List.map_cons, inTurn, inTurn, ih, atOnce_bind, funext hbehind]

/-- What is left leads to the same end as all members, and only members break down. -/
structure State.Follows (s : State α) (members : List (Reply α)) : Prop where
  inTurn_eq : (inTurn s.left).behind s.values = inTurn (members.map atOnce)
  breaksDown : ∀ reply ∈ s.left, reply.BreaksDown → ∃ member ∈ members, member.BreaksDown

theorem State.follows_start (members : List (Reply α)) :
    State.Follows ⟨0, [], members, []⟩ members where
  inTurn_eq := behind_nil _
  breaksDown reply hreply hbreaksDown := by
    obtain ⟨member, hmember, rfl⟩ := List.mem_map.mp hreply
    exact ⟨member, hmember, breaksDown_atOnce_iff.mp hbreaksDown⟩

/-- A result that leaves the window is there instead of its member. -/
theorem State.Follows.next {time : Nat} {x : α} {rest : List (Reply α)} (h : s.Follows members)
    (hunderWay : (s.fill limit).underWay = .after time (.ok x) :: rest) :
    State.Follows ⟨max s.now time, rest, (s.fill limit).waiting, (time, x) :: s.results⟩ members := by
  obtain ⟨hinTurn, hbreaksDown⟩ := h
  rw [left_of_fill hunderWay] at hinTurn hbreaksDown
  constructor
  · rw [← hinTurn, inTurn, atOnce, Reply.bind, later_zero, behind_behind]
    simp [left, values]
  · exact fun reply hreply => hbreaksDown reply (List.mem_cons_of_mem _ hreply)

theorem exists_of_breakdownBefore {due : Option Nat} {time : Nat}
    (h : breakdownBefore due members = some time) :
    .breakdown time ∈ members ∧ due.all (time < ·) = true := by
  obtain ⟨hmin, hbefore⟩ := Option.filter_eq_some_iff.mp h
  obtain ⟨reply, hreply, htime⟩ := List.mem_filterMap.mp (List.min?_mem hmin)
  match reply, htime with
  | .breakdown _, rfl => exact ⟨hreply, hbefore⟩

/-- A run breaks down only if a member does. Otherwise it comes, apart from the time that it takes, to
the end of its members in turn. -/
theorem run_ends (limit : Nat) (members : List (Reply α)) :
    (∃ member ∈ members, member.BreaksDown) ∧ (run limit members).reply.BreaksDown ∨
      ¬ (run limit members).reply.BreaksDown ∧
        (run limit members).reply.atOnce = (inTurn members).atOnce := by
  rw [← atOnce_inTurn]
  refine run_of_invariant (State.Follows · members)
    (fun report => (∃ member ∈ members, member.BreaksDown) ∧ report.reply.BreaksDown ∨
      ¬ report.reply.BreaksDown ∧ report.reply.atOnce = inTurn (members.map atOnce))
    limit (fun s hs time x rest hunderWay => hs.next hunderWay) ?_ (State.follows_start members)
  rintro s report ⟨hinTurn, hbreaksDown⟩ hstops
  have hbroken : ∀ reply ∈ (s.fill (max limit 1)).underWay, reply.BreaksDown →
      ∃ member ∈ members, member.BreaksDown := by
    intro reply hreply hbreaks
    refine hbreaksDown reply.atOnce ?_ (breaksDown_atOnce_iff.mpr hbreaks)
    rw [← State.left_fill (max limit 1)]
    exact List.mem_map_of_mem (List.mem_append_left _ hreply)
  cases hstops with
  | finished h =>
      rw [State.left_of_fill_nil (by omega) h] at hinTurn
      refine .inr ⟨by simp [State.report, BreaksDown], ?_⟩
      rw [← hinTurn]
      simp [State.report, atOnce, inTurn, behind, andThen, Except.map, State.values, State.fill]
  | @interrupted _ _ time h hbreakdown =>
      refine .inl ⟨hbroken (.breakdown time) ?_ ⟨time, rfl⟩, time, rfl⟩
      rw [h]
      exact List.mem_cons_of_mem _ (exists_of_breakdownBefore hbreakdown).1
  | failed h =>
      rw [State.left_of_fill h] at hinTurn
      exact .inr ⟨by simp [State.report, BreaksDown], hinTurn⟩
  | broken h => exact .inl ⟨hbroken _ (by rw [h]; exact List.mem_cons_self) ⟨_, rfl⟩, _, rfl⟩
  | silent h =>
      rw [State.left_of_fill h] at hinTurn
      exact .inr ⟨by simp [State.report, BreaksDown], hinTurn⟩

theorem exists_breaksDown_of_run (h : (run limit members).reply.BreaksDown) :
    ∃ member ∈ members, member.BreaksDown := by
  rcases run_ends limit members with ⟨hmember, -⟩ | ⟨hunbroken, -⟩
  · exact hmember
  · exact absurd h hunbroken

theorem atOnce_run (h : ¬ (run limit members).reply.BreaksDown) :
    (run limit members).reply.atOnce = (inTurn members).atOnce := by
  rcases run_ends limit members with ⟨-, hbroken⟩ | ⟨-, hends⟩
  · exact absurd hbroken h
  · exact hends

/-- A run has the result of its members in turn. -/
theorem result?_run (h : ¬ (run limit members).reply.BreaksDown) :
    (run limit members).reply.result? = (inTurn members).result? := by
  rw [← result?_atOnce, atOnce_run h, result?_atOnce]

/-- A run waits for ever exactly if its members in turn do, unless one of them breaks down. -/
theorem run_eq_never_iff (h : ¬ (run limit members).reply.BreaksDown) :
    (run limit members).reply = .never ↔ inTurn members = .never := by
  rw [← atOnce_eq_never_iff, atOnce_run h, atOnce_eq_never_iff]

/-- A run has results exactly if each of its members has one. -/
theorem value?_run_eq_some_iff : (run limit members).reply.value? = some out ↔ Give members out := by
  rw [← value?_inTurn_eq_some_iff]
  by_cases h : (run limit members).reply.BreaksDown
  · obtain ⟨time, hbreakdown⟩ := h
    rw [hbreakdown]
    refine iff_of_false (by simp [value?]) fun hgive => ?_
    obtain ⟨member, hmember, hbreaks⟩ := exists_breaksDown_of_run ⟨time, hbreakdown⟩
    obtain ⟨x, -, hx⟩ := exists_of_mem_of_forall₂ (value?_inTurn_eq_some_iff.mp hgive).flip hmember
    obtain ⟨_, rfl⟩ := hbreaks
    cases hx
  · rw [← value?_atOnce, atOnce_run h, value?_atOnce]

/-! ## The time of a run -/

theorem delay_comp_later (time : Nat) :
    (fun reply : Reply α => reply.delay - time) ∘ Reply.later time = delay := by
  funext reply
  cases reply <;> simp [later, delay, due?]

theorem delay_le_delay_later (time : Nat) (reply : Reply α) :
    reply.delay ≤ (reply.later time).delay := by
  cases reply <;> simp [later, delay, due?]

/-- The time at which the members that are left would have been carried out one after the other. -/
def State.horizon (s : State α) : Nat :=
  s.now + (s.underWay.map fun reply => reply.delay - s.now).sum + (s.waiting.map delay).sum

theorem State.horizon_fill (limit : Nat) (s : State α) : (s.fill limit).horizon = s.horizon := by
  have hwaiting := congrArg (fun replies => (replies.map delay).sum)
    (List.take_append_drop (limit - s.underWay.length) s.waiting)
  simp only [List.map_append, List.sum_append] at hwaiting
  simp only [horizon, fill, List.map_append, List.map_map, delay_comp_later,
    List.sum_append]
  omega

/-- A run keeps within a bound, and every member that is still to be looked at is among those left. -/
structure State.Paced (s : State α) (members : List (Reply α)) : Prop where
  horizon_le : s.horizon ≤ (members.map delay).sum
  delay_le : ∀ member ∈ members, member.delay ≤ s.now ∨
    (∃ reply ∈ s.underWay, member.delay ≤ reply.delay) ∨ member ∈ s.waiting

theorem State.paced_start (members : List (Reply α)) :
    State.Paced ⟨0, [], members, []⟩ members where
  horizon_le := by simp [horizon]
  delay_le member hmember := .inr (.inr hmember)

theorem State.Paced.fill (h : s.Paced members) (limit : Nat) : (s.fill limit).Paced members where
  horizon_le := (s.horizon_fill limit).trans_le h.horizon_le
  delay_le member hmember := by
    rcases h.delay_le member hmember with hdone | ⟨reply, hreply, hle⟩ | hwaiting
    · exact .inl hdone
    · exact .inr (.inl ⟨reply, List.mem_append_left _ hreply, hle⟩)
    · rw [← List.take_append_drop (limit - s.underWay.length) s.waiting, List.mem_append] at hwaiting
      rcases hwaiting with hentered | hleft
      · refine .inr (.inl ⟨member.later s.now, ?_, delay_le_delay_later s.now member⟩)
        exact List.mem_append_right _ (List.mem_map_of_mem hentered)
      · exact .inr (.inr hleft)

theorem State.Paced.next {time : Nat} {x : α} {rest : List (Reply α)} (h : s.Paced members)
    (hunderWay : s.underWay = .after time (.ok x) :: rest) (results : List (Nat × α)) :
    State.Paced ⟨max s.now time, rest, s.waiting, results⟩ members where
  horizon_le := by
    have hrest : (rest.map fun reply => reply.delay - max s.now time).sum ≤
        (rest.map fun reply => reply.delay - s.now).sum :=
      List.sum_le_sum fun reply _ => by omega
    refine le_trans ?_ h.horizon_le
    simp only [horizon, hunderWay, List.map_cons, List.sum_cons, delay, due?, Option.getD_some] at hrest ⊢
    omega
  delay_le member hmember := by
    have hdelay := h.delay_le member hmember
    rw [hunderWay] at hdelay
    rcases hdelay with hdone | ⟨reply, hreply, hle⟩ | hwaiting
    · exact .inl (hdone.trans (Nat.le_max_left _ _))
    · rcases List.mem_cons.mp hreply with rfl | hbehind
      · exact .inl (hle.trans (Nat.le_max_right _ _))
      · exact .inr (.inl ⟨reply, hbehind, hle⟩)
    · exact .inr (.inr hwaiting)

/-- A run of members with results takes at least as long as each of them, and at most as long as all of
them one after the other. -/
theorem delay_run (limit : Nat) (h : Give members out) :
    (∀ member ∈ members, member.delay ≤ (run limit members).reply.delay) ∧
      (run limit members).reply.delay ≤ (members.map delay).sum := by
  refine run_of_invariant (State.Paced · members)
    (fun report => ∀ out, report.reply.value? = some out →
      (∀ member ∈ members, member.delay ≤ report.reply.delay) ∧
        report.reply.delay ≤ (members.map delay).sum)
    limit ?_ ?_ (State.paced_start members) out (value?_run_eq_some_iff.mpr h)
  · exact fun s hs time x rest hunderWay => (hs.fill (max limit 1)).next hunderWay _
  · intro s report hs hstops out hout
    cases hstops with
    | finished hunderWay =>
        have hwaiting := State.waiting_of_fill (by omega) hunderWay
        obtain ⟨hhorizon, hdelay⟩ := hs.fill (max limit 1)
        rw [hunderWay, hwaiting] at hdelay
        rw [State.horizon, hunderWay, hwaiting] at hhorizon
        have hnow : ((s.fill (max limit 1)).report (.after (s.fill (max limit 1)).now
          (.ok (s.fill (max limit 1)).values)) []).reply.delay = (s.fill (max limit 1)).now := rfl
        rw [hnow]
        exact ⟨fun member hmember => by simpa using hdelay member hmember, by simpa using hhorizon⟩
    | interrupted _ _ => cases hout
    | failed _ => cases hout
    | broken _ => cases hout
    | silent _ => cases hout

/-! ## Members that take no time -/

theorem completionsBefore_zero (members : List (Reply α)) : completionsBefore (some 0) members = [] := by
  refine List.filterMap_eq_nil_iff.mpr fun reply _ => ?_
  match reply with
  | .after _ (.ok _) => simp
  | .after _ (.error _) => rfl
  | .breakdown _ => rfl
  | .never => rfl

/-- A run in which no time has passed and none will, and of which every result so far counts. -/
structure State.Immediate (s : State α) (members : List (Reply α)) : Prop where
  now_eq : s.now = 0
  delay_eq : ∀ reply ∈ s.underWay ++ s.waiting, reply.delay = 0
  times_eq : s.results.map (·.1) = List.replicate s.results.length 0
  count_eq : s.results.length + (s.underWay ++ s.waiting).findIdx (!·.succeeds) =
    members.findIdx (!·.succeeds)

/-- Members that enter at the start of a run are not changed. -/
theorem State.Immediate.fill (h : s.Immediate members) (limit : Nat) :
    (s.fill limit).Immediate members := by
  obtain ⟨hnow, hdelay, htimes, hcount⟩ := h
  have hsame : (s.fill limit).underWay ++ (s.fill limit).waiting = s.underWay ++ s.waiting := by
    have hlater : Reply.later 0 = (id : Reply α → Reply α) := funext later_zero
    simp [State.fill, hnow, hlater]
  exact ⟨hnow, hsame ▸ hdelay, htimes, hsame ▸ hcount⟩

theorem State.Immediate.next {time : Nat} {x : α} {rest : List (Reply α)} (h : s.Immediate members)
    (hunderWay : s.underWay = .after time (.ok x) :: rest) :
    State.Immediate ⟨max s.now time, rest, s.waiting, (time, x) :: s.results⟩ members := by
  obtain ⟨hnow, hdelay, htimes, hcount⟩ := h
  rw [hunderWay, List.cons_append] at hdelay hcount
  obtain ⟨hfirst, hrest⟩ := List.forall_mem_cons.mp hdelay
  obtain rfl : time = 0 := hfirst
  have hsucceeds : (Reply.now (.ok x)).succeeds = true := rfl
  rw [List.findIdx_cons, hsucceeds, Bool.not_true, cond_false] at hcount
  exact ⟨by simp [hnow], hrest, by simp [htimes, List.replicate_succ],
    (Nat.succ_add_eq_add_succ _ _).trans hcount⟩

/-- The results of a run are completed where the first member that is left has none. -/
theorem State.Immediate.completions {first : Reply α} {rest behind : List (Reply α)}
    {reply : Reply (List α)} (h : s.Immediate members) (hunderWay : s.underWay = first :: rest)
    (hfirst : first.succeeds = false) (hreply : reply.due? = some 0) :
    (s.report reply behind).completions = List.replicate (members.findIdx (!·.succeeds)) 0 := by
  obtain ⟨-, -, htimes, hcount⟩ := h
  rw [hunderWay, List.cons_append, List.findIdx_cons, hfirst] at hcount
  rw [State.report, hreply, completionsBefore_zero, List.append_nil, htimes, ← hcount]
  rfl

/-- A run of members that take no time takes none. Unless it waits for ever, those before the first one
without a result are completed. -/
theorem run_of_delay_eq_zero (limit : Nat) (h : ∀ member ∈ members, member.delay = 0) :
    (run limit members).reply.delay = 0 ∧ ((run limit members).reply ≠ .never →
      (run limit members).completions = List.replicate (members.findIdx (!·.succeeds)) 0) := by
  refine run_of_invariant (State.Immediate · members)
    (fun report => report.reply.delay = 0 ∧ (report.reply ≠ .never →
      report.completions = List.replicate (members.findIdx (!·.succeeds)) 0))
    limit (fun s hs time x rest hunderWay => (hs.fill (max limit 1)).next hunderWay) ?_
    ⟨rfl, h, rfl, Nat.zero_add _⟩
  intro s report hs hstops
  have hfilled := hs.fill (max limit 1)
  have hunderWay : ∀ reply ∈ (s.fill (max limit 1)).underWay, reply.delay = 0 := fun reply hreply =>
    hfilled.delay_eq reply (List.mem_append_left _ hreply)
  cases hstops with
  | finished hempty =>
      refine ⟨hfilled.now_eq, fun _ => ?_⟩
      have hcount := hfilled.count_eq
      rw [hempty, State.waiting_of_fill (by omega) hempty, List.nil_append, List.findIdx_nil,
        Nat.add_zero] at hcount
      rw [← hcount, ← hfilled.times_eq]
      exact List.append_nil _
  | @interrupted first rest time hsplit hbreakdown =>
      rw [hsplit] at hunderWay
      obtain ⟨hbehind, hbefore⟩ := exists_of_breakdownBefore hbreakdown
      obtain rfl : time = 0 := hunderWay (.breakdown time) (List.mem_cons_of_mem _ hbehind)
      refine ⟨rfl, fun _ => hfilled.completions hsplit ?_ rfl⟩
      -- A breakdown at the start comes before a first member only if that one never answers.
      match first, hunderWay first List.mem_cons_self, hbefore with
      | .never, _, _ => rfl
  | @failed time f rest hsplit =>
      rw [hsplit] at hunderWay
      obtain rfl : time = 0 := hunderWay _ List.mem_cons_self
      rw [hfilled.now_eq]
      exact ⟨rfl, fun _ => hfilled.completions hsplit rfl rfl⟩
  | @broken time rest hsplit =>
      rw [hsplit] at hunderWay
      obtain rfl : time = 0 := hunderWay _ List.mem_cons_self
      rw [hfilled.now_eq]
      exact ⟨rfl, fun _ => hfilled.completions hsplit rfl rfl⟩
  | silent hsplit => exact ⟨rfl, fun hnever => absurd rfl hnever⟩

/-- A run of members that answer at once or never comes to the end of its members in turn, at once. -/
theorem run_of_isPrompt (limit : Nat) (h : ∀ member ∈ members, member.IsPrompt) :
    (run limit members).reply = (inTurn members).atOnce := by
  have hunbroken : ¬ (run limit members).reply.BreaksDown := fun hbroken => by
    obtain ⟨member, hmember, hbreaks⟩ := exists_breaksDown_of_run hbroken
    exact (h member hmember).not_breaksDown hbreaks
  have hdelay : (run limit members).reply.delay = 0 :=
    (run_of_delay_eq_zero limit fun member hmember => (h member hmember).delay_eq).1
  rw [← atOnce_run hunbroken]
  cases hreply : (run limit members).reply with
  | after time result =>
      rw [hreply] at hdelay
      obtain rfl : time = 0 := hdelay
      rfl
  | breakdown time => exact absurd ⟨time, hreply⟩ hunbroken
  | never => rfl

/-- A run of members that answer or break down at once does so as well, and completes those before the
first one without a result. -/
theorem run_of_due?_eq_zero (limit : Nat) (h : ∀ member ∈ members, member.due? = some 0) :
    (run limit members).reply.due? = some 0 ∧
      (run limit members).completions = List.replicate (members.findIdx (!·.succeeds)) 0 := by
  have hanswers : (run limit members).reply ≠ .never := by
    intro hnever
    have hinTurn := (run_eq_never_iff (by simp [hnever, BreaksDown])).mp hnever
    obtain ⟨done, rest, rfl, -⟩ := inTurn_eq_never_iff.mp hinTurn
    cases h .never (by simp)
  obtain ⟨hdelay, hcompletions⟩ := run_of_delay_eq_zero limit
    fun member hmember => delay_of_due? (h member hmember)
  refine ⟨?_, hcompletions hanswers⟩
  cases hreply : (run limit members).reply with
  | after time _ => rw [hreply] at hdelay; exact congrArg some hdelay
  | breakdown time => rw [hreply] at hdelay; exact congrArg some hdelay
  | never => exact absurd hreply hanswers

/-! ## Replies that are awaited together -/

/-- A reply that is awaited with others has its result in front of theirs, or one of both breaks off. -/
theorem joinOne_cases (first : Reply α) (rest : Reply (List α)) :
    (∃ time x other xs, first = .after time (.ok x) ∧ rest = .after other (.ok xs) ∧
      joinOne first rest = .after (max time other) (.ok (x :: xs))) ∨
    (rest.value? = none ∧ joinOne first rest = rest) ∨
    (first.value? = none ∧ joinOne first rest = first.andThen (Except.map ([·]))) := by
  have hrest : (breaksOff? rest).isSome = true → rest.value? = none := by
    match rest with
    | .after _ (.ok _) => simp [breaksOff?]
    | .after _ (.error _) => exact fun _ => rfl
    | .breakdown _ => exact fun _ => rfl
    | .never => exact fun _ => rfl
  have hsome : ∀ {time : Nat}, (breaksOff? rest).any (· < time) = true → rest.value? = none := by
    intro time h
    apply hrest
    cases hbreaks : breaksOff? rest with
    | none => simp [hbreaks] at h
    | some other => rfl
  match first with
  | .after time (.ok x) =>
      match rest with
      | .after other (.ok xs) => exact .inl ⟨time, x, other, xs, rfl, rfl, rfl⟩
      | .after _ (.error _) => exact .inr (.inl ⟨rfl, rfl⟩)
      | .breakdown _ => exact .inr (.inl ⟨rfl, rfl⟩)
      | .never => exact .inr (.inl ⟨rfl, rfl⟩)
  | .after time (.error f) =>
      by_cases h : (breaksOff? rest).any (· < time) = true
      · exact .inr (.inl ⟨hsome h, if_pos h⟩)
      · exact .inr (.inr ⟨rfl, if_neg h⟩)
  | .breakdown time =>
      by_cases h : (breaksOff? rest).any (· < time) = true
      · exact .inr (.inl ⟨hsome h, if_pos h⟩)
      · exact .inr (.inr ⟨rfl, if_neg h⟩)
  | .never =>
      by_cases h : (breaksOff? rest).isSome = true
      · exact .inr (.inl ⟨hrest h, if_pos h⟩)
      · exact .inr (.inr ⟨rfl, if_neg h⟩)

theorem joinTogether_cons (first : Reply α) (rest : List (Reply α)) :
    joinTogether (first :: rest) = joinOne first (joinTogether rest) := rfl

theorem value?_joinTogether_eq_some_iff :
    (joinTogether members).value? = some out ↔ Give members out := by
  induction members generalizing out with
  | nil => simp [joinTogether, value?, eq_comm]
  | cons first rest ih =>
      rw [Give, List.forall₂_cons_left_iff, joinTogether_cons]
      rcases joinOne_cases first (joinTogether rest) with
        ⟨time, x, other, xs, rfl, hrest, hjoin⟩ | ⟨hrest, hjoin⟩ | ⟨hfirst, hjoin⟩
      · have hxs : Give rest xs := ih.mp (by rw [hrest]; rfl)
        rw [hjoin]
        constructor
        · rintro ⟨⟩
          exact ⟨x, xs, rfl, hxs, rfl⟩
        · rintro ⟨_, others, ⟨⟩, hothers, rfl⟩
          have hsame := ih.mpr hothers
          rw [hrest] at hsame
          cases hsame
          rfl
      · rw [hjoin, hrest]
        refine iff_of_false (by simp) ?_
        rintro ⟨_, others, -, hothers, -⟩
        exact absurd (hrest.symm.trans (ih.mpr hothers)) (by simp)
      · rw [hjoin]
        refine iff_of_false ?_ ?_
        · rw [value?_andThen_eq_some_iff]
          rintro ⟨result, hresult, hmap⟩
          cases result with
          | ok x => simp [value?_eq_some_iff.mpr hresult] at hfirst
          | error f => cases hmap
        · rintro ⟨x, -, hx, -⟩
          simp [hx] at hfirst

/-- A failure of replies that are awaited together is one of them. -/
theorem result?_joinTogether {f : Failure} (h : (joinTogether members).result? = some (.error f)) :
    ∃ member ∈ members, member.result? = some (.error f) := by
  induction members with
  | nil => cases h
  | cons first rest ih =>
      rw [joinTogether_cons] at h
      rcases joinOne_cases first (joinTogether rest) with
        ⟨time, x, other, xs, rfl, hrest, hjoin⟩ | ⟨hrest, hjoin⟩ | ⟨hfirst, hjoin⟩
      · rw [hjoin] at h
        cases h
      · rw [hjoin] at h
        obtain ⟨member, hmember, hfails⟩ := ih h
        exact ⟨member, List.mem_cons_of_mem _ hmember, hfails⟩
      · rw [hjoin, result?_andThen] at h
        obtain ⟨result, hresult, hmap⟩ := Option.map_eq_some_iff.mp h
        cases result with
        | ok x => cases hmap
        | error other =>
            cases hmap
            exact ⟨first, List.mem_cons_self, hresult⟩

theorem due?_joinTogether (h : ∀ member ∈ members, member.due? = some 0) :
    (joinTogether members).due? = some 0 := by
  induction members with
  | nil => rfl
  | cons first rest ih =>
      obtain ⟨hfirst, hbehind⟩ := List.forall_mem_cons.mp h
      have hrest := ih hbehind
      rw [joinTogether_cons]
      rcases joinOne_cases first (joinTogether rest) with
        ⟨time, x, other, xs, rfl, heq, hjoin⟩ | ⟨-, hjoin⟩ | ⟨-, hjoin⟩
      · rw [heq] at hrest
        cases hfirst
        cases hrest
        rw [hjoin]
        rfl
      · rw [hjoin, hrest]
      · rw [hjoin, due?_andThen, hfirst]

theorem exists_breaksDown_of_joinTogether (h : (joinTogether members).BreaksDown) :
    ∃ member ∈ members, member.BreaksDown := by
  induction members with
  | nil => obtain ⟨_, h⟩ := h; cases h
  | cons first rest ih =>
      rw [joinTogether_cons] at h
      rcases joinOne_cases first (joinTogether rest) with
        ⟨time, x, other, xs, -, -, hjoin⟩ | ⟨-, hjoin⟩ | ⟨-, hjoin⟩
      · rw [hjoin] at h
        obtain ⟨_, h⟩ := h
        cases h
      · rw [hjoin] at h
        obtain ⟨member, hmember, hbreaks⟩ := ih h
        exact ⟨member, List.mem_cons_of_mem _ hmember, hbreaks⟩
      · rw [hjoin] at h
        exact ⟨first, List.mem_cons_self, breaksDown_andThen_iff.mp h⟩

/-- Replies that are awaited together give their results exactly if each of them has one. -/
theorem value?_join_eq_some_iff : (join members).value? = some out ↔ Give members out := by
  rw [join]
  split
  · exact value?_joinTogether_eq_some_iff
  · exact value?_run_eq_some_iff

theorem result?_join {f : Failure} (h : (join members).result? = some (.error f)) :
    ∃ member ∈ members, member.result? = some (.error f) := by
  rw [join] at h
  split at h
  · exact result?_joinTogether h
  · have hunbroken : ¬ (run members.length members).reply.BreaksDown := by
      rintro ⟨time, hbroken⟩
      simp [hbroken, result?] at h
    rw [result?_run hunbroken] at h
    obtain ⟨done, first, rest, rfl, hfirst, -⟩ := result?_inTurn_eq_error_iff.mp h
    exact ⟨first, by simp, hfirst⟩

theorem due?_join (h : ∀ member ∈ members, member.due? = some 0) : (join members).due? = some 0 := by
  rw [join]
  split
  · exact due?_joinTogether h
  · exact (run_of_due?_eq_zero members.length h).1

theorem exists_breaksDown_of_join (h : (join members).BreaksDown) :
    ∃ member ∈ members, member.BreaksDown := by
  rw [join] at h
  split at h
  · exact exists_breaksDown_of_joinTogether h
  · exact exists_breaksDown_of_run h

end Window

end FederatedMetrics
