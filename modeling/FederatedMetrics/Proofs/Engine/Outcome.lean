import FederatedMetrics.Proofs.Engine.Execution
import FederatedMetrics.Proofs.Table.Harmonize
import FederatedMetrics.Record.Store
import Mathlib.Data.List.Chain

/-!
# All or nothing

A group that comes to an end has either succeeded, with a table for every member, or failed, with
nothing but empty tables and a failure. The combined view is built afterwards and changes neither.
A group comes to an end unless a member breaks down, it waits for ever, or a table is too narrow for
the order into which its group-bys are brought.
-/

namespace FederatedMetrics

/-- A failure never has the status of success. -/
theorem Failure.queryStatus_ne_success (f : Failure) : f.queryStatus ≠ 200 := by
  cases hkind : f.kind <;> simp [queryStatus, hkind, FailureKind.queryStatus, FailureKind.status]

namespace Tracker

variable {t : Tracker} {next : GroupState}

/-- The states of a group begin when it is received and follow one another as they are allowed to. -/
structure Lawful (t : Tracker) : Prop where
  received : t.states.head? = some .received
  advances : t.states.IsChain fun s next => s.canAdvanceTo next = true

theorem lawful_start : start.Lawful := ⟨rfl, .singleton _⟩

@[simp] theorem state_advance (t : Tracker) (next : GroupState) : (t.advance next).state = next := by
  simp [state, advance]

/-- The states stay lawful with a step that is allowed. -/
theorem Lawful.advance (h : t.Lawful) (hnext : t.state.canAdvanceTo next = true) :
    (t.advance next).Lawful where
  received := by simp [Tracker.advance, List.head?_append, h.received]
  advances := by
    refine List.isChain_append.mpr ⟨h.advances, .singleton next, fun s hs other hother => ?_⟩
    obtain rfl : next = other := by simpa using hother
    rw [state, List.getLastD_eq_getLast?, hs] at hnext
    exact hnext

theorem lawful_executing : executing.Lawful :=
  (lawful_start.advance rfl).advance (by rw [state_advance]; rfl)

end Tracker

namespace GroupOutcome

variable {group : QueryGroup} {combine : Bool}

/-- The outcome as it would be if no combined view had been asked for. -/
def withoutView (o : GroupOutcome) : GroupOutcome :=
  { o with combined := none, combinedFailure := none }

/-- The shapes of an outcome: every member has a table, the states follow one another as they are
allowed to, and the group has either succeeded or failed as a whole. A combined view, or the reason
why there is none, is there exactly if it was asked for and the group has succeeded. -/
structure AllOrNothing (o : GroupOutcome) (group : QueryGroup) (combine : Bool) : Prop where
  length_results : o.results.length = group.queries.length
  lawful : o.tracker.Lawful
  settled : (o.status = 200 ∧ o.state = .done ∧ o.failure = none) ∨
    (o.status ≠ 200 ∧ o.state = .failed ∧ o.failure ≠ none ∧ (∀ t ∈ o.results, t = .empty) ∧
      o.combined = none ∧ o.combinedFailure = none)
  unasked : combine = false → o.combined = none ∧ o.combinedFailure = none
  asked : combine = true → o.status = 200 → o.combined.isSome ≠ o.combinedFailure.isSome

end GroupOutcome

namespace Engine

open GroupOutcome

variable {e : Engine} {projectId : Int} {group : QueryGroup} {plans : List Plan}
  {options : ExecutionOptions} {combine : Bool} {o : GroupOutcome}

/-- A group that fails in a state from which it may fail has failed as a whole. -/
theorem allOrNothing_failedOutcome {tracker : Tracker} {f : Failure} (htracker : tracker.Lawful)
    (hfails : tracker.state.canAdvanceTo .failed = true) :
    (failedOutcome group tracker f).AllOrNothing group combine where
  length_results := by simp [failedOutcome]
  lawful := htracker.advance hfails
  settled := by
    have hstatus : (failedOutcome group tracker f).status = f.queryStatus := rfl
    refine .inr ⟨hstatus ▸ f.queryStatus_ne_success, tracker.state_advance .failed,
      by simp [failedOutcome], ?_, rfl, rfl⟩
    intro t ht
    obtain ⟨_, -, rfl⟩ := List.mem_map.mp ht
    rfl
  unasked _ := ⟨rfl, rfl⟩
  asked _ hsuccess := absurd hsuccess f.queryStatus_ne_success

/-- The combined view of a finished group changes nothing else. -/
theorem withoutView_finishedOutcome (tracker : Tracker) (results : List ResultTable) :
    (finishedOutcome group combine plans tracker results).withoutView =
      finishedOutcome group false plans tracker results := by
  cases combine with
  | false => rfl
  | true => cases hview : combinedView group plans results <;> simp [finishedOutcome, hview, withoutView]

/-- A finished group has succeeded. -/
theorem status_finishedOutcome (tracker : Tracker) (results : List ResultTable) :
    (finishedOutcome group combine plans tracker results).status = 200 := by
  have hfailure : (finishedOutcome group combine plans tracker results).failure = none :=
    congrArg GroupOutcome.failure (withoutView_finishedOutcome tracker results)
  rw [status, hfailure]
  rfl

/-- A finished group has a table for every member, and a combined view or a reason why there is none
if it was asked for. -/
theorem allOrNothing_finishedOutcome {tracker : Tracker} {results : List ResultTable}
    (htracker : tracker.Lawful) (hends : tracker.state.canAdvanceTo .done = true)
    (hlength : results.length = group.queries.length) :
    (finishedOutcome group combine plans tracker results).AllOrNothing group combine := by
  have hsame : (finishedOutcome group combine plans tracker results).withoutView =
      finishedOutcome group false plans tracker results := withoutView_finishedOutcome tracker results
  have hdone : (finishedOutcome group combine plans tracker results).tracker =
      tracker.advance .done := congrArg GroupOutcome.tracker hsame
  constructor
  case length_results => exact (congrArg (·.results.length) hsame).trans hlength
  case lawful => exact hdone ▸ htracker.advance hends
  case settled =>
    refine .inl ⟨status_finishedOutcome tracker results, ?_, congrArg GroupOutcome.failure hsame⟩
    rw [state, hdone, Tracker.state_advance]
  case unasked =>
    rintro rfl
    exact ⟨rfl, rfl⟩
  case asked =>
    rintro rfl -
    cases hview : combinedView group plans results <;> simp [finishedOutcome, hview]

/-- Asking for the combined view does not change the rest of an outcome. -/
theorem map_withoutView_execute (e : Engine) (projectId : Int) (group : QueryGroup)
    (options : ExecutionOptions) (combine : Bool) (c counters : Counters) :
    (e.execute projectId group options combine c).1.map withoutView =
      (e.execute projectId group options false counters).1 := by
  cases hplans : e.planned projectId group with
  | error f =>
      rw [execute_of_refused hplans, execute_of_refused hplans]
      rfl
  | ok plans =>
      rw [execute_of_planned hplans, execute_of_planned hplans, Option.map_bind]
      congr 1
      funext tables
      simp only [Function.comp_apply, mergedOutcome]
      split
      · rename_i results _
        cases results with
        | none => rfl
        | some results => exact congrArg some (withoutView_finishedOutcome _ results)
      · rfl

/-- What merging the tables of a planned group answers. -/
def merging (group : QueryGroup) (plans : List Plan) (tables : List ResultTable) :
    Except Failure (Option (List ResultTable)) :=
  Harmonize.finalize (plans.map Plan.layout) tables (group.globalGroupBys.map (·.propertyName))

theorem mergedOutcome_ok (tracker : Tracker) (tables : List ResultTable) :
    mergedOutcome group combine plans tracker (.ok tables) =
      match merging group plans tables with
      | .ok results => results.map (finishedOutcome group combine plans (tracker.advance .merged))
      | .error f => some (failedOutcome group tracker f) := rfl

theorem mergedOutcome_error (tracker : Tracker) (f : Failure) :
    mergedOutcome group combine plans tracker (.error f) =
      some (failedOutcome group tracker f) := rfl

/-- The tables of a planned group pass the checks if and only if they are rectangular. -/
theorem merging_eq_ok_iff {tables : List ResultTable} {answer : Option (List ResultTable)}
    (hplans : e.planned projectId group = .ok plans)
    (hreplies : Window.Give (e.replies projectId options plans) tables) :
    merging group plans tables = .ok answer ↔
      (∀ t ∈ tables, t.isRectangular = true) ∧
        Harmonize.arrange [] ((plans.map Plan.layout).zip tables) = answer := by
  have hlength : (plans.map Plan.layout).length = tables.length :=
    (describes_of_replies hreplies).length_eq
  have hglobals := mem_headers_of_replies hplans hreplies
  rw [merging, Harmonize.finalize_eq_ok_iff_arrange]
  constructor
  · rintro ⟨-, hshapes, harrange⟩
    exact ⟨fun t ht => (hshapes t ht).1, harrange⟩
  · rintro ⟨hrect, harrange⟩
    exact ⟨hlength, fun t ht => ⟨hrect t ht, hglobals t ht⟩, harrange⟩

/-- A group whose tables have been merged has one for every member. -/
theorem length_of_merging {tables results : List ResultTable}
    (hplans : e.planned projectId group = .ok plans)
    (hreplies : Window.Give (e.replies projectId options plans) tables)
    (hmerging : merging group plans tables = .ok (some results)) :
    results.length = group.queries.length := by
  have harrange := ((merging_eq_ok_iff hplans hreplies).mp hmerging).2
  have hreplied : (plans.map Plan.layout).length = tables.length :=
    (describes_of_replies hreplies).length_eq
  calc results.length
      = ((plans.map Plan.layout).zip tables).length :=
        Harmonize.length_of_arrange Harmonize.record_nil harrange
    _ = plans.length := by rw [List.length_zip, ← hreplied, Nat.min_self, List.length_map]
    _ = group.queries.length := (planned_eq_ok_iff.mp hplans).2.length_eq.symm

/-- How a group ends: it is refused, a member fails or the deadline passes, its tables do not fit
together, or it is finished. -/
inductive Ends (e : Engine) (projectId : Int) (group : QueryGroup) (options : ExecutionOptions)
    (combine : Bool) : GroupOutcome → Prop
  | refused {f : Failure} (hplans : e.planned projectId group = .error f) :
      Ends e projectId group options combine (failedOutcome group .start f)
  | failed {plans : List Plan} {f : Failure} (hplans : e.planned projectId group = .ok plans)
      (hgathered : e.gathered projectId options plans = some (.error f)) :
      Ends e projectId group options combine (failedOutcome group .executing f)
  | unmerged {plans : List Plan} {tables : List ResultTable} {f : Failure}
      (hplans : e.planned projectId group = .ok plans)
      (hgathered : e.gathered projectId options plans = some (.ok tables))
      (hmerging : merging group plans tables = .error f) :
      Ends e projectId group options combine (failedOutcome group .executing f)
  | finished {plans : List Plan} {tables results : List ResultTable}
      (hplans : e.planned projectId group = .ok plans)
      (hgathered : e.gathered projectId options plans = some (.ok tables))
      (hmerging : merging group plans tables = .ok (some results)) :
      Ends e projectId group options combine
        (finishedOutcome group combine plans (Tracker.executing.advance .merged) results)

/-- An outcome is one of those with which the group can end. -/
theorem ends_of_execute {c : Counters}
    (h : (e.execute projectId group options combine c).1 = some o) :
    Ends e projectId group options combine o := by
  cases hplans : e.planned projectId group with
  | error f =>
      rw [execute_of_refused hplans] at h
      cases h
      exact .refused hplans
  | ok plans =>
      rw [execute_of_planned hplans] at h
      obtain ⟨answer, hgathered, h⟩ := Option.bind_eq_some_iff.mp h
      cases answer with
      | error f =>
          cases h
          exact .failed hplans hgathered
      | ok tables =>
          rw [mergedOutcome_ok] at h
          cases hmerging : merging group plans tables with
          | error f =>
              rw [hmerging] at h
              cases h
              exact .unmerged hplans hgathered hmerging
          | ok merged =>
              rw [hmerging] at h
              obtain ⟨results, rfl, rfl⟩ := Option.map_eq_some_iff.mp h
              exact .finished hplans hgathered hmerging

theorem Ends.allOrNothing (h : Ends e projectId group options combine o) :
    o.AllOrNothing group combine := by
  cases h with
  | refused _ => exact allOrNothing_failedOutcome Tracker.lawful_start rfl
  | failed _ _ => exact allOrNothing_failedOutcome Tracker.lawful_executing rfl
  | unmerged _ _ _ => exact allOrNothing_failedOutcome Tracker.lawful_executing rfl
  | finished hplans hgathered hmerging =>
      refine allOrNothing_finishedOutcome (Tracker.lawful_executing.advance rfl) ?_
        (length_of_merging hplans (give_of_gathered hgathered) hmerging)
      rw [Tracker.state_advance]
      rfl

/-- Every table is wide enough for the order into which its group-bys are brought. -/
def Fit (layouts : List KeyLayout) (tables : List ResultTable) : Prop :=
  ∀ (i : Nat) (k : KeyLayout) (t : ResultTable), layouts[i]? = some k → tables[i]? = some t →
    k.FitsIn (layouts.take i) t

/-- What a group needs to come to an end: no member breaks down on the way, there is a deadline if the
group has to wait for a member that never answers, and tables that are there in time and pass the checks
fit. -/
structure Completes (e : Engine) (projectId : Int) (group : QueryGroup)
    (options : ExecutionOptions) : Prop where
  unbroken : ∀ plans time, e.planned projectId group = .ok plans →
    (executePlans e.registry projectId options plans).reply = .breakdown time →
      ∃ milliseconds, options.deadline = some milliseconds ∧ milliseconds < time
  awaited : ∀ plans done rest, e.planned projectId group = .ok plans →
    e.replies projectId options plans = done ++ .never :: rest →
      (∀ reply ∈ done, reply.succeeds = true) → options.deadline ≠ none
  fits : ∀ plans tables, e.planned projectId group = .ok plans →
    e.gathered projectId options plans = some (.ok tables) →
      (∀ t ∈ tables, t.isRectangular = true) → Fit (plans.map Plan.layout) tables

/-- A group that is refused has come to an end. -/
theorem completes_of_refused {f : Failure} (h : e.planned projectId group = .error f) :
    e.Completes projectId group options where
  unbroken _ _ hplans := by simp [h] at hplans
  awaited _ _ _ hplans := by simp [h] at hplans
  fits _ _ hplans := by simp [h] at hplans

/-- If no executor breaks down, no run of members does. -/
theorem not_breaksDown_executePlans (h : e.registry.NeverBreaksDown) (plans : List Plan) :
    ¬ (executePlans e.registry projectId options plans).reply.BreaksDown := by
  intro hbroken
  obtain ⟨reply, hreply, hbreaks⟩ := Window.exists_breaksDown_of_run hbroken
  obtain ⟨plan, -, rfl⟩ := List.mem_map.mp hreply
  exact not_breaksDown_executePlan h plan hbreaks

/-- With a deadline and executors that do not break down, only tables that do not fit keep a group from
coming to an end. -/
theorem completes_iff_of_neverBreaksDown (h : e.registry.NeverBreaksDown)
    (hdeadline : options.deadline ≠ none) :
    e.Completes projectId group options ↔
      ∀ plans tables, e.planned projectId group = .ok plans →
        e.gathered projectId options plans = some (.ok tables) →
          (∀ t ∈ tables, t.isRectangular = true) → Fit (plans.map Plan.layout) tables := by
  refine ⟨Completes.fits, fun hfits => ⟨?_, fun _ _ _ _ _ _ => hdeadline, hfits⟩⟩
  intro plans time _ hbroken
  exact absurd ⟨time, hbroken⟩ (not_breaksDown_executePlans h plans)

/-- There is something at the deadline if and only if no member breaks down until then, and if a member
that never answers is not waited for without a deadline. -/
theorem isSome_gathered_iff :
    (e.gathered projectId options plans).isSome = true ↔
      (∀ time, (executePlans e.registry projectId options plans).reply = .breakdown time →
        ∃ milliseconds, options.deadline = some milliseconds ∧ milliseconds < time) ∧
      ∀ done rest, e.replies projectId options plans = done ++ .never :: rest →
        (∀ reply ∈ done, reply.succeeds = true) → options.deadline ≠ none := by
  have hnone : (e.gathered projectId options plans) = none ↔
      (executePlans e.registry projectId options plans).reply = .never ∧ options.deadline = none ∨
        ∃ time, (executePlans e.registry projectId options plans).reply = .breakdown time ∧
          ∀ milliseconds, options.deadline = some milliseconds → time ≤ milliseconds :=
    Reply.result?_within_eq_none_iff
  rw [Option.isSome_iff_ne_none, Ne, hnone]
  constructor
  · intro hthere
    constructor
    · intro time hbroken
      by_contra hlate
      refine hthere (.inr ⟨time, hbroken, fun milliseconds hmilliseconds => ?_⟩)
      exact Nat.le_of_not_lt fun hlt => hlate ⟨milliseconds, hmilliseconds, hlt⟩
    · intro done rest hsplit hdone hdeadline
      by_cases hbroken : (executePlans e.registry projectId options plans).reply.BreaksDown
      · obtain ⟨time, htime⟩ := hbroken
        exact hthere (.inr ⟨time, htime, by simp [hdeadline]⟩)
      · have hnever := Window.inTurn_eq_never_iff.mpr ⟨done, rest, hsplit, hdone⟩
        exact hthere (.inl ⟨(Window.run_eq_never_iff hbroken).mpr hnever, hdeadline⟩)
  · rintro ⟨hunbroken, hawaited⟩ (⟨hnever, hdeadline⟩ | ⟨time, hbroken, hintime⟩)
    · have hends : ¬ (executePlans e.registry projectId options plans).reply.BreaksDown := by
        simp [hnever, Reply.BreaksDown]
      obtain ⟨done, rest, hsplit, hdone⟩ :=
        Window.inTurn_eq_never_iff.mp ((Window.run_eq_never_iff hends).mp hnever)
      exact hawaited done rest hsplit hdone hdeadline
    · obtain ⟨milliseconds, hmilliseconds, hlt⟩ := hunbroken time hbroken
      exact absurd (hintime milliseconds hmilliseconds) (Nat.not_le_of_lt hlt)

/-- Whether a planned group completes depends on what has been gathered. -/
theorem completes_iff_of_planned (hplans : e.planned projectId group = .ok plans) :
    e.Completes projectId group options ↔
      (e.gathered projectId options plans).isSome = true ∧
        ∀ tables, e.gathered projectId options plans = some (.ok tables) →
          (∀ t ∈ tables, t.isRectangular = true) → Fit (plans.map Plan.layout) tables := by
  rw [isSome_gathered_iff]
  constructor
  · intro h
    exact ⟨⟨fun time => h.unbroken plans time hplans, fun done rest => h.awaited plans done rest hplans⟩,
      fun tables => h.fits plans tables hplans⟩
  · rintro ⟨⟨hunbroken, hawaited⟩, hfits⟩
    constructor
    · intro _ time hok
      cases hplans.symm.trans hok
      exact hunbroken time
    · intro _ done rest hok
      cases hplans.symm.trans hok
      exact hawaited done rest
    · intro _ tables hok
      cases hplans.symm.trans hok
      exact hfits tables

/-- Merging the tables of a planned group leaves an outcome if and only if they fit. -/
theorem isSome_mergedOutcome_iff (combine : Bool) (tracker : Tracker) {tables : List ResultTable}
    (hplans : e.planned projectId group = .ok plans)
    (hreplies : Window.Give (e.replies projectId options plans) tables) :
    (mergedOutcome group combine plans tracker (.ok tables)).isSome = true ↔
      ((∀ t ∈ tables, t.isRectangular = true) → Fit (plans.map Plan.layout) tables) := by
  have hwidths : List.Forall₂ (fun k t => k.width ≤ t.headers.length) (plans.map Plan.layout)
      tables := (describes_of_replies hreplies).imp fun _ _ hdescribes => hdescribes.width_le
  rw [mergedOutcome_ok]
  by_cases hrect : ∀ t ∈ tables, t.isRectangular = true
  · have harrange : (∃ out, Harmonize.arrange [] ((plans.map Plan.layout).zip tables) = some out) ↔
        Fit (plans.map Plan.layout) tables :=
      Harmonize.exists_arrange_iff hwidths hrect Harmonize.record_nil
    rw [(merging_eq_ok_iff hplans hreplies).mpr ⟨hrect, rfl⟩]
    simp only [Option.isSome_map, Option.isSome_iff_exists, harrange]
    exact ⟨fun hfit _ => hfit, fun hfit => hfit hrect⟩
  · cases hanswer : merging group plans tables with
    | error f => simp [hrect]
    | ok answer => exact absurd ((merging_eq_ok_iff hplans hreplies).mp hanswer).1 hrect

/-- A group has an outcome if and only if it completes. -/
theorem isSome_execute_iff (combine : Bool) (c : Counters) :
    (e.execute projectId group options combine c).1.isSome = true ↔
      e.Completes projectId group options := by
  cases hplans : e.planned projectId group with
  | error f =>
      rw [execute_of_refused hplans]
      exact iff_of_true rfl (completes_of_refused hplans)
  | ok plans =>
      rw [execute_of_planned hplans, completes_iff_of_planned hplans]
      cases hgathered : e.gathered projectId options plans with
      | none => simp
      | some answer =>
          cases answer with
          | error f => simp [mergedOutcome_error]
          | ok tables =>
              have hmerged := isSome_mergedOutcome_iff combine .executing hplans
                (give_of_gathered hgathered)
              simpa using hmerged

/-- A group has an outcome, with or without the combined view alike and all or nothing, if and only
if it completes. -/
theorem exists_allOrNothing_iff (e : Engine) (projectId : Int) (group : QueryGroup)
    (options : ExecutionOptions) (combine : Bool) (c : Counters) :
    (∃ o, (e.execute projectId group options combine c).1 = some o ∧ o.AllOrNothing group combine ∧
        ∀ (other : Bool) (counters : Counters), ∃ view,
          (e.execute projectId group options other counters).1 = some view ∧
            view.AllOrNothing group other ∧ view.withoutView = o.withoutView) ↔
      e.Completes projectId group options := by
  rw [← isSome_execute_iff combine c, Option.isSome_iff_exists]
  constructor
  · rintro ⟨o, ho, -⟩
    exact ⟨o, ho⟩
  · rintro ⟨o, ho⟩
    refine ⟨o, ho, (ends_of_execute ho).allOrNothing, fun other counters => ?_⟩
    have hplain := map_withoutView_execute e projectId group options combine c c
    rw [ho, Option.map_some] at hplain
    have hother := map_withoutView_execute e projectId group options other counters c
    rw [← hplain] at hother
    obtain ⟨view, hview, hsame⟩ := Option.map_eq_some_iff.mp hother
    exact ⟨view, hview, (ends_of_execute hview).allOrNothing, hsame⟩

/-- An engine over stores of records, in which visits are counted. -/
def visitsEngine : Engine :=
  ⟨[], [], fun _ => none,
    fun _ => some (.ofStore (RecordStore.empty.define "visits" "count" ⟨.count, none⟩))⟩

/-- A group whose first member repeats a global group-by twice. -/
def twiceRepeatingGroup : QueryGroup :=
  ⟨"", "", [Harmonize.plainMember ["city", "city"], Harmonize.plainMember []], [],
    (Harmonize.plainMember ["city", "tag"]).groupBys, ""⟩

/-- A group without an outcome, although every query is answered at once: the first member has two
labels more than the second one, which has only one metric to write over. -/
theorem execute_twiceRepeatingGroup :
    (∃ plans tables, visitsEngine.planned 1 twiceRepeatingGroup = .ok plans ∧
      Window.Give (visitsEngine.replies 1 ⟨false, false, 2, none⟩ plans) tables) ∧
    (visitsEngine.execute 1 twiceRepeatingGroup ⟨false, false, 2, none⟩ false .zero).1 = none := by
  let wide : ResultTable := ⟨["city", "city", "city", "tag", "count"], []⟩
  let narrow : ResultTable := ⟨["city", "tag", "count"], []⟩
  exact ⟨⟨_, [wide, narrow], rfl, .cons rfl (.cons rfl .nil)⟩, rfl⟩

end Engine

end FederatedMetrics
