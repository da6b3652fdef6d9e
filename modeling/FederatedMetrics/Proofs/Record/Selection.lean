import FederatedMetrics.Record.Selection
import Mathlib.Data.List.TakeWhile

/-!
# Filters behind other filters

Filters that are put behind others split at the first one that is joined by `and`. What comes from there
on has to hold by itself. What comes before are alternatives to the last group of the filters in front,
which they can only widen.
-/

namespace FederatedMetrics

/-- The filters at the head of a list that are alternatives to what stands before them. -/
def leadingAlternatives (filters : List Filter) : List Filter :=
  filters.takeWhile fun f => f.connective = .or

/-- The filters of a list from the first one on that begins a group. -/
def laterGroups (filters : List Filter) : List Filter :=
  filters.dropWhile fun f => f.connective = .or

variable {r : Record} {group : Bool} {own alternatives : List Filter}

theorem connective_of_mem_leadingAlternatives {f : Filter} {filters : List Filter}
    (h : f ∈ leadingAlternatives filters) : f.connective = .or := by
  simpa using List.mem_takeWhile_imp h

theorem leadingAlternatives_of_head {filters : List Filter}
    (h : ∀ f ∈ filters.head?, f.connective = .and) : leadingAlternatives filters = [] := by
  cases filters with
  | nil => rfl
  | cons f rest => simp [leadingAlternatives, h f rfl]

/-- Behind a group of alternatives, filters split at the first one that begins a group. -/
theorem satisfiesFrom_append (r : Record) (group : Bool) (own added : List Filter) :
    satisfiesFrom r group (own ++ added) =
      (satisfiesFrom r group (own ++ leadingAlternatives added) &&
        satisfies r (laterGroups added)) := by
  induction own generalizing group with
  | nil =>
      -- The alternatives at the head widen the group one by one.
      induction added generalizing group with
      | nil => simp [leadingAlternatives, laterGroups]
      | cons f rest ih =>
          cases hf : f.connective with
          | or =>
              simpa [satisfiesFrom, leadingAlternatives, laterGroups, hf] using
                ih (group || f.holds r)
          | and => simp [satisfiesFrom, satisfies, leadingAlternatives, laterGroups, hf]
  | cons f rest ih =>
      cases hf : f.connective with
      | or => simpa [satisfiesFrom, hf] using ih (group || f.holds r)
      | and => simp [satisfiesFrom, hf, ih, Bool.and_assoc]

/-- Filters behind others split at the first one that begins a group. -/
theorem satisfies_append (r : Record) (own added : List Filter) :
    satisfies r (own ++ added) =
      (satisfies r (own ++ leadingAlternatives added) && satisfies r (laterGroups added)) := by
  cases own with
  | cons f rest => exact satisfiesFrom_append r (f.holds r) rest added
  | nil =>
      cases added with
      | nil => rfl
      | cons f rest =>
          cases hf : f.connective with
          | or =>
              simpa [satisfies, leadingAlternatives, laterGroups, hf] using
                satisfiesFrom_append r (f.holds r) [] rest
          | and => simp [leadingAlternatives, laterGroups, hf]

/-- Alternatives behind filters only widen what satisfies them. -/
theorem satisfiesFrom_of_alternatives (halternatives : ∀ f ∈ alternatives, f.connective = .or)
    (h : satisfiesFrom r group (own ++ alternatives) = true) :
    satisfiesFrom r group own = true ∨ ∃ f ∈ alternatives, f.holds r = true := by
  induction own generalizing group with
  | nil =>
      induction alternatives generalizing group with
      | nil => exact .inl h
      | cons f rest ih =>
          obtain ⟨hf, hrest⟩ := List.forall_mem_cons.mp halternatives
          have hwider : satisfiesFrom r (group || f.holds r) ([] ++ rest) = true := by
            simpa [satisfiesFrom, hf] using h
          rcases ih hrest hwider with hgroup | ⟨other, hother, hholds⟩
          · rcases (Bool.or_eq_true _ _).mp hgroup with hgroup | hholds
            · exact .inl hgroup
            · exact .inr ⟨f, List.mem_cons_self, hholds⟩
          · exact .inr ⟨other, List.mem_cons_of_mem f hother, hholds⟩
  | cons f rest ih =>
      cases hf : f.connective with
      | or =>
          simp only [List.cons_append, satisfiesFrom, hf] at h ⊢
          exact ih h
      | and =>
          simp only [List.cons_append, satisfiesFrom, hf, Bool.and_eq_true] at h ⊢
          exact (ih h.2).imp_left fun hrest => ⟨h.1, hrest⟩

/-- A record that satisfies filters with alternatives behind them satisfies the filters alone or one of
the alternatives. -/
theorem satisfies_of_alternatives (halternatives : ∀ f ∈ alternatives, f.connective = .or)
    (h : satisfies r (own ++ alternatives) = true) :
    satisfies r own = true ∨ ∃ f ∈ alternatives, f.holds r = true := by
  cases own with
  | nil => exact .inl (satisfies_nil r)
  | cons f rest => exact satisfiesFrom_of_alternatives halternatives h

end FederatedMetrics
