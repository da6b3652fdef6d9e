import FederatedMetrics.Proofs.Engine.CombinedView
import FederatedMetrics.Proofs.Table.Access

/-!
# The combined view of whatever executors answer

Executors may answer with tables of any shape. Those that have got the labels of their queries have
enough columns for the keys, so a group whose members have all been executed only fails if a row is not
as wide as its headers. Otherwise its results are combined without reaching outside of one of them, and
this fails only if two of them have different key headers.
-/

namespace FederatedMetrics

/-- If tables have the global columns, then only a row can keep them from passing the checks. -/
theorem Harmonize.exists_row_of_checkShapes {globals : List String} {index : Nat}
    {tables : List ResultTable} {f : Failure}
    (hglobals : ∀ t ∈ tables, ∀ label ∈ globals, label ∈ t.headers)
    (h : ResultTable.checkShapes globals index tables = .error f) :
    ∃ i t row, tables[i]? = some t ∧ row ∈ t.rows ∧ row.length ≠ t.headers.length ∧
      f = .rowWidth (index + i) row.length t.headers.length := by
  induction tables generalizing index with
  | nil => cases h
  | cons t rest ih =>
      obtain ⟨ht, hrest⟩ := List.forall_mem_cons.mp hglobals
      rw [ResultTable.checkShapes] at h
      rcases bind_eq_error_iff.mp h with h | ⟨_, -, h⟩
      · rw [ResultTable.checkShape] at h
        cases hrow : t.rows.find? fun row => decide (row.length ≠ t.headers.length) with
        | some row =>
            rw [hrow] at h
            cases h
            have hwide := List.find?_some hrow
            exact ⟨0, t, row, rfl, List.mem_of_find?_eq_some hrow, of_decide_eq_true hwide, rfl⟩
        | none =>
            have hfound : globals.find? (fun label => !t.headers.contains label) = none :=
              List.find?_eq_none.mpr fun label hlabel => by simp [ht label hlabel]
            rw [hrow, hfound] at h
            cases h
      · obtain ⟨i, u, row, hu, hrow, hwide, rfl⟩ := ih hrest h
        exact ⟨i + 1, u, row, hu, hrow, hwide, by rw [Nat.add_right_comm, Nat.add_assoc]⟩

namespace Engine

variable {e : Engine} {projectId : Int} {group : QueryGroup} {options : ExecutionOptions}
  {plans : List Plan} {tables results : List ResultTable}

/-- The tables of an executed group fail to be merged only because of a row. -/
theorem exists_row_of_merging (hplans : e.planned projectId group = .ok plans)
    (hreplies : Window.Give (e.replies projectId options plans) tables) {f : Failure}
    (h : merging group plans tables = .error f) :
    ∃ i t row, tables[i]? = some t ∧ row ∈ t.rows ∧ row.length ≠ t.headers.length ∧
      f = .rowWidth i row.length t.headers.length := by
  have hlength : (plans.map Plan.layout).length = tables.length :=
    (describes_of_replies hreplies).length_eq
  rw [merging, Harmonize.finalize] at h
  rcases guard_eq_error_iff.mp h with ⟨hcount, -⟩ | ⟨-, h⟩
  · exact absurd hlength hcount
  · rcases bind_eq_error_iff.mp h with h | ⟨_, -, hnever⟩
    · simpa only [Nat.zero_add] using
        Harmonize.exists_row_of_checkShapes (mem_headers_of_replies hplans hreplies) h
    · cases hnever

/-- The results of a group are shaped like their plans. -/
theorem isShaped_of_merging (hplans : e.planned projectId group = .ok plans)
    (hreplies : Window.Give (e.replies projectId options plans) tables)
    (hmerging : merging group plans tables = .ok (some results)) :
    ∀ m ∈ membersOf group plans results, m.IsShaped := by
  intro m hm
  obtain ⟨hrect, hwidth, -⟩ :=
    (hasResult_of_mem (hasResult_of_merging hplans hreplies hmerging) hm).2.spec
  exact ⟨hwidth, hrect⟩

/-- Whatever tables the executors of a planned group have answered with, they fail to be merged only if
some row is not as wide as the headers of its table. Once they are merged, the combined view is built
without reaching outside of a table, a row or the joined cells, and it fails exactly if two members of
one kind have different key headers. -/
theorem combined_view_stays_inside (hplans : e.planned projectId group = .ok plans)
    (hreplies : Window.Give (e.replies projectId options plans) tables) :
    (∀ f, merging group plans tables = .error f →
      ∃ i t row, tables[i]? = some t ∧ row ∈ t.rows ∧ row.length ≠ t.headers.length ∧
        f = .rowWidth i row.length t.headers.length) ∧
    ∀ results, merging group plans tables = .ok (some results) →
      Combine.combine? (membersOf group plans results) = some (combinedView group plans results) ∧
      ∀ f, combinedView group plans results = .error f ↔
        f = .differentKeys ∧ ∃ bucketed, ∃ m ∈ Combine.part bucketed (membersOf group plans results),
          ∃ n ∈ Combine.part bucketed (membersOf group plans results), ¬ m.HasKeys n.keyHeaders := by
  refine ⟨fun f => exists_row_of_merging hplans hreplies, fun results hmerging => ⟨?_, fun f => ?_⟩⟩
  · exact Combine.combine?_eq (isShaped_of_merging hplans hreplies hmerging)
  · exact Combine.combine_eq_error_iff

/-- An engine whose executors answer with tables that have nothing to do with the queries: events have
two columns too many, profiles have no metric, and a row of channels is too wide. -/
def oddEngine : Engine :=
  ⟨[], [], fun _ => none, fun
    | .events => some (.constant ⟨["p", "q", "r", "s"], [[.int 1, .str "x", .int 2, .int 3]]⟩)
    | .profiles => some (.constant ⟨["p", "q"], [[.str "x", .int 1], [.str "y", .int 2]]⟩)
    | .channels => some (.constant ⟨["p", "q", "r"], [[], [.int 1, .int 2, .int 3, .int 4]]⟩)⟩

/-- A group that asks for counts by city and tag, one of a category, one of profiles in the other order,
and one as a derived metric of events. -/
def oddGroup (category : Category) : QueryGroup :=
  let count (category : Category) (names : List String) : Query :=
    { Harmonize.plainMember names with category := category, name := "n" }
  let derived : Query :=
    { count .events ["tag", "city"] with
      queryType := .derived
      definition := some ⟨"", "n", [count .events []], [], [], ""⟩ }
  ⟨"", "", [count category ["city", "tag"], count .profiles ["tag", "city"], derived], [], [], ""⟩

/-- Results with other metrics than asked for are joined on the keys, in the order of the first member.
A row without cells is reported. -/
theorem combined_view_stays_inside_odd :
    (∃ plans results, oddEngine.planned 1 (oddGroup .events) = .ok plans ∧
      results.map (·.headers) = [["city", "tag", "r", "s"], ["city", "tag"], ["city", "tag", "count"]] ∧
      Combine.combine? (membersOf (oddGroup .events) plans results) =
        some (combinedView (oddGroup .events) plans results) ∧
      ∃ view, combinedView (oddGroup .events) plans results = .ok view) ∧
    ∃ plans tables f, oddEngine.planned 1 (oddGroup .channels) = .ok plans ∧
      merging (oddGroup .channels) plans tables = .error f ∧
      ∃ i t row, tables[i]? = some t ∧ row ∈ t.rows ∧ row.length ≠ t.headers.length ∧
        f = .rowWidth i row.length t.headers.length := by
  constructor
  · obtain ⟨plans, tables, results, hplans, hgathered, hmerging, hheaders, hview⟩ :
        ∃ plans tables results, oddEngine.planned 1 (oddGroup .events) = .ok plans ∧
          oddEngine.gathered 1 .standard plans = some (.ok tables) ∧
          merging (oddGroup .events) plans tables = .ok (some results) ∧
          results.map (·.headers) =
            [["city", "tag", "r", "s"], ["city", "tag"], ["city", "tag", "count"]] ∧
          ∃ view, combinedView (oddGroup .events) plans results = .ok view :=
      ⟨_, _, _, rfl, rfl, rfl, rfl, _, rfl⟩
    have hinside := (combined_view_stays_inside hplans (give_of_gathered hgathered)).2
    exact ⟨plans, results, hplans, hheaders, (hinside results hmerging).1, hview⟩
  · obtain ⟨plans, tables, f, hplans, hgathered, hmerging⟩ :
        ∃ plans tables f, oddEngine.planned 1 (oddGroup .channels) = .ok plans ∧
          oddEngine.gathered 1 .standard plans = some (.ok tables) ∧
          merging (oddGroup .channels) plans tables = .error f :=
      ⟨_, _, _, rfl, rfl, rfl⟩
    have hrow := (combined_view_stays_inside hplans (give_of_gathered hgathered)).1
    exact ⟨plans, tables, f, hplans, hmerging, hrow f hmerging⟩

end Engine

end FederatedMetrics
