import FederatedMetrics.Derived.Definition
import FederatedMetrics.Proofs.Failure
import FederatedMetrics.Proofs.Ordered
import Mathlib.Data.String.Basic

/-!
# Valid definitions

Every sub-query of a valid definition is a plain one: it is not derived, has one metric and neither
group-bys nor time buckets. The names of the sub-queries are the variables of the formula. A definition
that is not valid is invalid input.
-/

namespace FederatedMetrics

theorem Query.checkSubQuery_eq_ok_iff (q : Query) :
    q.checkSubQuery = .ok () ↔
      q.isDerived = false ∧ q.metrics.length = 1 ∧ q.groupBys = [] ∧ q.granularity = none := by
  rw [checkSubQuery]
  by_cases hderived : q.isDerived
  · simp [hderived]
  · by_cases hmetrics : q.metrics.length = 1
    · simp [hderived, hmetrics]
    · simp [hderived, hmetrics]

/-- Sub-queries only get names if all of them pass their checks. -/
theorem checkSubQuery_of_subQueryNames {queries : List Query} {found names : List String}
    (h : subQueryNames found queries = .ok names) :
    ∀ q ∈ queries, q.checkSubQuery = .ok () := by
  induction queries generalizing found with
  | nil => simp
  | cons q rest ih =>
      rw [subQueryNames] at h
      obtain ⟨_, hcheck, h⟩ := bind_eq_ok_iff.mp h
      dsimp only at h
      split at h
      · cases h
      · exact List.forall_mem_cons.mpr ⟨hcheck, ih h⟩

/-- A valid definition has sub-queries, and they pass their checks. -/
theorem QueryGroup.of_validateDefinition {g : QueryGroup} {formula : Formula}
    (h : g.validateDefinition = .ok formula) :
    g.queries ≠ [] ∧ ∀ q ∈ g.queries, q.checkSubQuery = .ok () := by
  rw [validateDefinition] at h
  obtain ⟨hqueries, h⟩ := guard_eq_ok_iff.mp h
  obtain ⟨_, -, h⟩ := bind_eq_ok_iff.mp h
  obtain ⟨names, hnames, -⟩ := bind_eq_ok_iff.mp h
  exact ⟨by simpa using hqueries, checkSubQuery_of_subQueryNames hnames⟩

/-- The names that sub-queries get are their variables, behind those found before. -/
theorem eq_of_subQueryNames {queries : List Query} {found names : List String}
    (h : subQueryNames found queries = .ok names) :
    names = found ++ queries.map Query.variableName := by
  induction queries generalizing found with
  | nil =>
      cases h
      simp
  | cons q rest ih =>
      rw [subQueryNames] at h
      obtain ⟨_, -, h⟩ := bind_eq_ok_iff.mp h
      dsimp only at h
      split at h
      · cases h
      · rw [ih h, List.map_cons, List.append_assoc, List.singleton_append]

/-- The variables of a valid definition are the names of its sub-queries. -/
theorem QueryGroup.mem_variableNames_iff {g : QueryGroup} {formula : Formula}
    (h : g.validateDefinition = .ok formula) (name : String) :
    name ∈ formula.variableNames ↔ name ∈ g.queries.map Query.variableName := by
  rw [validateDefinition] at h
  obtain ⟨-, h⟩ := guard_eq_ok_iff.mp h
  obtain ⟨parsed, -, h⟩ := bind_eq_ok_iff.mp h
  obtain ⟨names, hnames, h⟩ := bind_eq_ok_iff.mp h
  split at h
  · rename_i hvariables
    cases h
    rw [hvariables, Ordered.mem_ofList, eq_of_subQueryNames hnames, List.nil_append]
  · cases h

theorem Query.kind_of_checkSubQuery {q : Query} {f : Failure} (h : q.checkSubQuery = .error f) :
    f.kind = .invalidInput := by
  rw [checkSubQuery] at h
  repeat' split at h
  all_goals cases h <;> rfl

theorem kind_of_subQueryNames {queries : List Query} {found : List String} {f : Failure}
    (h : subQueryNames found queries = .error f) : f.kind = .invalidInput := by
  induction queries generalizing found with
  | nil => cases h
  | cons q rest ih =>
      rw [subQueryNames] at h
      rcases bind_eq_error_iff.mp h with h | ⟨_, -, h⟩
      · exact Query.kind_of_checkSubQuery h
      · dsimp only at h
        split at h
        · cases h
          rfl
        · exact ih h

theorem Formula.kind_of_ofSource {source : String} {f : Failure} (h : ofSource source = .error f) :
    f.kind = .invalidInput := by
  rw [ofSource] at h
  split at h <;> cases h
  rfl

/-- A definition that is not valid is invalid input. -/
theorem QueryGroup.kind_of_validateDefinition {g : QueryGroup} {f : Failure}
    (h : g.validateDefinition = .error f) : f.kind = .invalidInput := by
  rw [validateDefinition] at h
  rcases guard_eq_error_iff.mp h with ⟨-, rfl⟩ | ⟨-, h⟩
  · rfl
  rcases bind_eq_error_iff.mp h with h | ⟨_, -, h⟩
  · exact Formula.kind_of_ofSource h
  rcases bind_eq_error_iff.mp h with h | ⟨_, -, h⟩
  · exact kind_of_subQueryNames h
  · split at h <;> cases h
    rfl

end FederatedMetrics
