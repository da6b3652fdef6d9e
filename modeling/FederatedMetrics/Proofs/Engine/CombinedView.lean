import FederatedMetrics.Proofs.Engine.Outcome
import FederatedMetrics.Proofs.Table.Combine

/-!
# Rows in the combined view

The combined view of a group finds the key of a row by header. It holds every row of every member if
and only if the rows of the results can be told apart in that way. They can where the executors answer
with distinct keys and no result repeats a key header; where a result has two group-bys of one name,
different rows can be written over each other.
-/

namespace FederatedMetrics

/-- Relabelling changes no row. -/
theorem ResultTable.rows_of_relabel {t relabelled : ResultTable} {r : ResolvedQuery}
    (h : t.relabel r = .ok relabelled) : relabelled.rows = t.rows := by
  rw [relabel] at h
  split at h
  · cases h
  · cases h
    rfl

namespace Engine

variable {e : Engine} {projectId : Int} {group : QueryGroup} {options : ExecutionOptions}
  {plans : List Plan} {plan : Plan} {tables results : List ResultTable} {t u : ResultTable}

/-- The members of a group with their plans and results, as they are combined. -/
def membersOf (group : QueryGroup) (plans : List Plan) (results : List ResultTable) :
    List CombineMember :=
  (group.queries.zip (plans.zip results)).map fun entry => ⟨entry.1, entry.2.1, entry.2.2⟩

/-- Executors answer the queries of a plan with tables in which no two rows have the same key. -/
def AnswersDistinctly (e : Engine) (projectId : Int) (options : ExecutionOptions) (plan : Plan) :
    Prop :=
  ∀ r ∈ plan.resolved, ∀ x t, e.registry r.query.category = some x →
    (x.execute projectId r options).value? = some t → t.DistinctKeys r.layout.width

/-- The table of a member has distinct keys if the executors give it any. -/
theorem distinctKeys_of_executePlan
    (h : (executePlan e.registry projectId options plan).value? = some t)
    (hdistinct : e.AnswersDistinctly projectId options plan) : t.DistinctKeys plan.layout.width := by
  cases plan with
  | direct r =>
      obtain ⟨x, given, hx, hgiven, hrelabel⟩ := Registry.run_eq_ok_iff.mp h
      have hkeys := hdistinct r (by simp [Plan.resolved]) x given hx hgiven
      rw [ResultTable.DistinctKeys, ResultTable.rows_of_relabel hrelabel]
      exact hkeys
  | derived plan =>
      obtain ⟨result, -, h⟩ := Reply.value?_andThen_eq_some_iff.mp h
      obtain ⟨tables, -, h⟩ := bind_eq_ok_iff.mp h
      exact Alignment.distinctKeys_of_align h

/-- The result of a member: its table brought into the order of an earlier member. -/
def HasResult (e : Engine) (projectId : Int) (options : ExecutionOptions) (plan : Plan)
    (u : ResultTable) : Prop :=
  ∃ t earlier, (executePlan e.registry projectId options plan).value? = some t ∧
    t.isRectangular = true ∧
      t.reorder? plan.layout.offset plan.layout.labels (plan.layout.targetIn earlier) = some u

theorem hasResult_of_merging (hplans : e.planned projectId group = .ok plans)
    (hreplies : Window.Give (e.replies projectId options plans) tables)
    (hmerging : merging group plans tables = .ok (some results)) :
    List.Forall₂ (e.HasResult projectId options) plans results := by
  obtain ⟨hrect, harrange⟩ := (merging_eq_ok_iff hplans hreplies).mp hmerging
  have hmoved := Harmonize.reordered_of_arrange Harmonize.record_nil harrange
  rw [List.zip_map_left, List.forall₂_map_left_iff] at hmoved
  have hexecuted := (List.forall₂_and_left tables plans).mpr
    ⟨hrect, (List.forall₂_map_left_iff.mp hreplies).flip⟩
  have hself := List.forall₂_same.mpr fun plan (_ : plan ∈ plans) => Eq.refl plan
  refine (forall₂_of_zip hself hexecuted.flip hmoved).imp ?_
  rintro plan u ⟨_, t, rfl, ⟨ht, hexecute⟩, earlier, hu⟩
  exact ⟨t, earlier, hexecute, ht, hu⟩

/-- A result is rectangular and has the key columns of its plan, and its keys are distinct if those of
the executors are and no two key headers of the result are equal. -/
theorem HasResult.spec (h : e.HasResult projectId options plan u) :
    u.isRectangular = true ∧ plan.layout.width ≤ u.headers.length ∧
      (e.AnswersDistinctly projectId options plan → (u.headers.take plan.layout.width).Nodup →
        u.DistinctKeys plan.layout.width) := by
  obtain ⟨t, earlier, hexecute, hrect, hreorder⟩ := h
  have hwidth := (describes_of_executePlan hexecute).width_le
  obtain ⟨source, hsource, hcolumns⟩ := ResultTable.exists_columnsFrom hwidth hrect hreorder
  have hkeys := hsource _ (Nat.le_refl _)
  refine ⟨hcolumns.isRectangular hrect, ?_, ?_⟩
  · exact hcolumns.width_le fun column hcolumn => Nat.lt_of_lt_of_le (hkeys column hcolumn) hwidth
  · intro hdistinct hheaders
    exact (distinctKeys_of_executePlan hexecute hdistinct).columnsFrom hcolumns hkeys hwidth hheaders

/-- What is combined are results of the group. -/
theorem hasResult_of_mem (hresults : List.Forall₂ (e.HasResult projectId options) plans results)
    {m : CombineMember} (hm : m ∈ membersOf group plans results) :
    m.plan ∈ plans ∧ e.HasResult projectId options m.plan m.table := by
  obtain ⟨⟨q, plan, u⟩, hentry, rfl⟩ := List.mem_map.mp hm
  have hpair := (List.of_mem_zip hentry).2
  exact ⟨(List.of_mem_zip hpair).1, List.forall₂_zip hresults hpair⟩

/-- Every result of a group is combined. -/
theorem map_table_membersOf (hplans : plans.length = group.queries.length)
    (hresults : results.length = plans.length) :
    (membersOf group plans results).map (·.table) = results := by
  have hpairs : (plans.zip results).length ≤ group.queries.length := by
    rw [List.length_zip]
    omega
  rw [membersOf, List.map_map]
  calc (group.queries.zip (plans.zip results)).map (fun entry => entry.2.2)
      = ((group.queries.zip (plans.zip results)).map (·.2)).map (·.2) := List.map_map.symm
    _ = (plans.zip results).map (·.2) := by rw [List.map_snd_zip hpairs]
    _ = results := List.map_snd_zip (Nat.le_of_eq hresults)

/-- A combined view is that of the results of a group that has been planned. -/
theorem exists_combine_of_execute {c : Counters} {o : GroupOutcome} {view : List ResultTable}
    (h : (e.execute projectId group options true c).1 = some o) (hview : o.combined = some view) :
    ∃ plans, e.planned projectId group = .ok plans ∧
      List.Forall₂ (e.HasResult projectId options) plans o.results ∧
      Combine.combine (membersOf group plans o.results) = .ok view := by
  cases ends_of_execute h with
  | refused _ => cases hview
  | failed _ _ => cases hview
  | unmerged _ _ _ => cases hview
  | @finished plans tables results hplans hgathered hmerging =>
      have hresults : (finishedOutcome group true plans (Tracker.executing.advance .merged)
          results).results = results :=
        congrArg GroupOutcome.results (withoutView_finishedOutcome _ results)
      rw [hresults]
      refine ⟨plans, hplans, hasResult_of_merging hplans (give_of_gathered hgathered) hmerging, ?_⟩
      cases hcombined : combinedView group plans results with
      | error f => simp [finishedOutcome, hcombined] at hview
      | ok tables =>
          obtain rfl : tables = view := by simpa [finishedOutcome, hcombined] using hview
          exact hcombined

/-- The combined view of a group holds every row of every result, each in a row of its own with its key
texts under their headers and its metric cells in the columns of the member, if and only if the rows
can be told apart by header. This is so wherever the executors answer with distinct keys and no result
repeats a key header. -/
theorem combined_view_keeps_rows_iff {c : Counters} {o : GroupOutcome} {view : List ResultTable}
    (h : (e.execute projectId group options true c).1 = some o) (hview : o.combined = some view) :
    ∃ plans, e.planned projectId group = .ok plans ∧
      (membersOf group plans o.results).map (·.table) = o.results ∧
      (Combine.ViewKeeps (membersOf group plans o.results) view ↔
        ∀ bucketed, Combine.Separates (Combine.part bucketed (membersOf group plans o.results))) ∧
      ((∀ plan ∈ plans, e.AnswersDistinctly projectId options plan) →
        (∀ m ∈ membersOf group plans o.results, m.keyHeaders.Nodup) →
          Combine.ViewKeeps (membersOf group plans o.results) view) := by
  obtain ⟨plans, hplans, hresults, hcombine⟩ := exists_combine_of_execute h hview
  have hshaped : ∀ m ∈ membersOf group plans o.results, m.IsShaped := by
    intro m hm
    obtain ⟨hrect, hwidth, -⟩ := (hasResult_of_mem hresults hm).2.spec
    exact ⟨hwidth, hrect⟩
  have hkeeps := Combine.viewKeeps_iff hcombine hshaped
  have hlength := (planned_eq_ok_iff.mp hplans).2.length_eq
  refine ⟨plans, hplans, map_table_membersOf hlength.symm hresults.length_eq.symm, hkeeps, ?_⟩
  intro hdistinct hheaders
  refine hkeeps.mpr (Combine.separates_of_combine hcombine hheaders ?_)
  intro m hm
  obtain ⟨hplan, hresult⟩ := hasResult_of_mem hresults hm
  have hkeys := hresult.spec.2.2 (hdistinct m.plan hplan) (hheaders m hm)
  rwa [(hshaped m hm).length_keyHeaders]

/-- An engine with visits to two towns of one city. -/
def townEngine : Engine :=
  let visit (town : String) : Record :=
    ⟨1, "visits", "", 5, [("city", .str "x"), ("town", .str town)]⟩
  ⟨[⟨⟨0⟩, 1, "City", "city", [⟨.events, "visits", "", "town", .categorical, ""⟩], ⟨0, 0⟩⟩], [],
    fun _ => none,
    fun _ => some (.ofStore ((RecordStore.empty.define "visits" "count" ⟨.count, none⟩).insert
      [visit "p", visit "q", visit "q"]))⟩

/-- A member that is grouped by a property and by a mapping of the same name. -/
def townMember : Query :=
  { Harmonize.plainMember [] with
    groupBys := [⟨"", "city", false, .categorical, ""⟩, ⟨"", "city", true, .categorical, ""⟩] }

/-- The visits by town alone come to two rows, which are found again in the combined view. -/
theorem combined_view_keeps_rows_iff_towns :
    ∃ plans o view,
      (townEngine.execute 1 ⟨"", "", [Harmonize.plainMember ["town"]], [], [], ""⟩ .standard true
        .zero).1 = some o ∧ o.combined = some view ∧ o.results.map (·.rows.length) = [2] ∧
      Combine.ViewKeeps (membersOf ⟨"", "", [Harmonize.plainMember ["town"]], [], [], ""⟩ plans
        o.results) view := by
  obtain ⟨plans, hplans, -, -, hkeeps⟩ := combined_view_keeps_rows_iff
    (rfl : (townEngine.execute 1 ⟨"", "", [Harmonize.plainMember ["town"]], [], [], ""⟩ .standard true
      .zero).1 = some _) rfl
  refine ⟨plans, _, _, rfl, rfl, rfl, hkeeps ?_ ?_⟩
  · intro plan hplan r hr x t hx ht
    cases hplans
    obtain rfl := List.mem_singleton.mp hplan
    obtain rfl := List.mem_singleton.mp hr
    cases hx
    cases ht
    decide
  · intro m hm
    cases hplans
    obtain rfl := List.mem_singleton.mp hm
    decide

/-- The visits by city and town come to two rows with different keys, of which the combined view holds
only one. -/
theorem not_viewKeeps_towns :
    ∃ plans o view, townEngine.planned 1 ⟨"", "", [townMember], [], [], ""⟩ = .ok plans ∧
      (∀ plan ∈ plans, townEngine.AnswersDistinctly 1 .standard plan) ∧
      (townEngine.execute 1 ⟨"", "", [townMember], [], [], ""⟩ .standard true .zero).1 = some o ∧
      o.combined = some view ∧
      ¬ Combine.ViewKeeps (membersOf ⟨"", "", [townMember], [], [], ""⟩ plans o.results) view := by
  refine ⟨_, _, _, rfl, ?_, rfl, rfl, ?_⟩
  · intro plan hplan r hr x t hx ht
    obtain rfl := List.mem_singleton.mp hplan
    obtain rfl := List.mem_singleton.mp hr
    cases hx
    cases ht
    decide
  · intro hkeeps
    obtain ⟨u, hu, hkept⟩ := hkeeps false (List.cons_ne_nil _ _)
    cases hu
    obtain ⟨kept, hsub, hheld⟩ := hkept _ [] _ [] rfl rfl
    have hrows := hsub.length_le.trans_eq' hheld.length_eq.symm
    exact absurd hrows (by decide)

end Engine

end FederatedMetrics
