import FederatedMetrics.Proofs.Failure

/-!
# Requirements in order

A check goes through requirements in a fixed order. It fails with the failure of the first one that
does not hold, and succeeds if all of them hold.
-/

namespace FederatedMetrics

variable {ε α β : Type}

/-- The first requirement of a list that does not hold gives its failure. -/
inductive FirstViolated : List (Prop × ε) → ε → Prop
  | here {requirement : Prop} {failure : ε} {rest : List (Prop × ε)} (hviolated : ¬ requirement) :
      FirstViolated ((requirement, failure) :: rest) failure
  | later {requirement : Prop} {failure other : ε} {rest : List (Prop × ε)} (hholds : requirement)
      (h : FirstViolated rest other) : FirstViolated ((requirement, failure) :: rest) other

@[simp] theorem not_firstViolated_nil (e : ε) : ¬ FirstViolated [] e := by
  intro h
  cases h

theorem firstViolated_cons_iff {requirement : Prop} {failure e : ε} {rest : List (Prop × ε)} :
    FirstViolated ((requirement, failure) :: rest) e ↔
      ¬ requirement ∧ failure = e ∨ requirement ∧ FirstViolated rest e := by
  constructor
  · intro h
    cases h with
    | here hviolated => exact .inl ⟨hviolated, rfl⟩
    | later hholds h => exact .inr ⟨hholds, h⟩
  · rintro (⟨hviolated, rfl⟩ | ⟨hholds, h⟩)
    · exact .here hviolated
    · exact .later hholds h

/-- The first violated requirement of two lists is in the first one, if that one has any. -/
theorem firstViolated_append_iff {requirements others : List (Prop × ε)} {e : ε} :
    FirstViolated (requirements ++ others) e ↔
      FirstViolated requirements e ∨ (∀ r ∈ requirements, r.1) ∧ FirstViolated others e := by
  induction requirements with
  | nil => simp
  | cons r rest ih =>
      rw [List.cons_append, firstViolated_cons_iff, firstViolated_cons_iff, ih,
        List.forall_mem_cons]
      tauto

/-- Requirements that do not all hold have a first violated one. -/
theorem exists_firstViolated_iff {requirements : List (Prop × ε)} :
    (∃ e, FirstViolated requirements e) ↔ ¬ ∀ r ∈ requirements, r.1 := by
  induction requirements with
  | nil => simp
  | cons r rest ih =>
      obtain ⟨requirement, failure⟩ := r
      simp only [firstViolated_cons_iff, exists_or, exists_and_left, exists_eq', and_true, ih,
        List.forall_mem_cons]
      tauto

/-- What a computation requires, in order: it fails exactly with the failure of the first requirement
that does not hold. -/
def Requires (x : Except ε α) (requirements : List (Prop × ε)) : Prop :=
  ∀ e, x = .error e ↔ FirstViolated requirements e

namespace Requires

variable {x : Except ε α} {requirements others : List (Prop × ε)}

/-- A computation gives a result exactly if all that it requires holds. -/
theorem exists_eq_ok_iff (h : Requires x requirements) :
    (∃ a, x = .ok a) ↔ ∀ r ∈ requirements, r.1 := by
  rw [← not_iff_not, ← exists_firstViolated_iff, ← exists_congr h]
  cases x <;> simp

theorem of_ok (a : α) : Requires (ε := ε) (.ok a) [] := by
  intro e
  simp

/-- A requirement that holds may be put before the others. -/
theorem of_holds {requirement : Prop} {e : ε} (hholds : requirement) (h : Requires x requirements) :
    Requires x ((requirement, e) :: requirements) := by
  intro other
  rw [firstViolated_cons_iff, h other]
  tauto

/-- What is refused under a condition requires the contrary before all else. -/
theorem guard {condition requirement : Prop} [Decidable condition] {e : ε}
    {f : Unit → Except ε α} (hiff : ¬ condition ↔ requirement) (h : Requires (f ()) requirements) :
    Requires (if condition then throw e >>= f else f ()) ((requirement, e) :: requirements) := by
  intro other
  rw [guard_eq_error_iff, firstViolated_cons_iff, ← hiff, not_not, h other]

/-- The same, where what is refused is written as a failure. -/
theorem ite {condition requirement : Prop} [Decidable condition] {e : ε}
    (hiff : ¬ condition ↔ requirement) (h : Requires x requirements) :
    Requires (if condition then .error e else x) ((requirement, e) :: requirements) := by
  intro other
  rw [firstViolated_cons_iff, ← hiff, not_not]
  by_cases hcondition : condition
  · simp [hcondition]
  · simpa [hcondition] using h other

/-- A computation behind another one adds its requirements behind those of the other. -/
theorem bind {f : α → Except ε β} (hx : Requires x requirements)
    (hf : ∀ a, x = .ok a → Requires (f a) others) : Requires (x >>= f) (requirements ++ others) := by
  intro e
  rw [bind_eq_error_iff, firstViolated_append_iff, hx e, ← hx.exists_eq_ok_iff, ← exists_and_right]
  apply or_congr_right
  apply exists_congr
  intro a
  exact and_congr_right fun ha => hf a ha e

end Requires

end FederatedMetrics
