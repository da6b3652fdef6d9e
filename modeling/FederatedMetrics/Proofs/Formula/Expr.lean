import FederatedMetrics.Formula.Expr
import FederatedMetrics.Proofs.Failure

/-!
# Evaluating trees

A tree has a value exactly if all its names have one, and otherwise it fails at the first name from the
left that has none, whatever the operators would make of the rest. Names that do not occur in it make no
difference, and an operator never yields anything infinite or undefined.
-/

namespace FederatedMetrics

namespace Expr

variable {lookup other : String → Option Float} {e : Expr}

/-- Evaluation fails at the first name without a value. -/
theorem eval_eq_error_iff {error : FormulaError} :
    e.eval lookup = .error error ↔
      ∃ name, e.names.find? (fun name => (lookup name).isNone) = some name ∧
        error = .unknownVariable name := by
  induction e generalizing error with
  | var name =>
      rw [eval, names_var]
      cases hvalue : lookup name <;> simp [hvalue, eq_comm]
  | literal x => simp [eval]
  | binary op left right ihLeft ihRight =>
      rw [eval, names_binary, List.find?_append]
      cases hleft : left.eval lookup with
      | error failure =>
          -- The left operand is evaluated first, and its names come first.
          obtain ⟨name, hname, rfl⟩ := ihLeft.mp hleft
          simp [hname, bind, Except.bind, eq_comm]
      | ok x =>
          have hdefined : left.names.find? (fun name => (lookup name).isNone) = none := by
            rw [Option.eq_none_iff_forall_ne_some]
            intro name hname
            rw [ihLeft.mpr ⟨name, hname, rfl⟩] at hleft
            cases hleft
          rw [hdefined, Option.none_or, ← ihRight]
          cases right.eval lookup <;> simp [bind, Except.bind, pure, Except.pure]

/-- A tree has a value exactly if all its names have one. -/
theorem exists_eval_eq_ok_iff :
    (∃ x, e.eval lookup = .ok x) ↔ ∀ name ∈ e.names, (lookup name).isSome = true := by
  have hfails : (∃ error, e.eval lookup = .error error) ↔
      ¬ ∀ name ∈ e.names, (lookup name).isSome = true := by
    simp only [eval_eq_error_iff]
    rw [exists_comm]
    simp only [exists_and_left, exists_eq, and_true]
    rw [← Option.isSome_iff_exists, List.find?_isSome]
    simp
  rw [← not_iff_not, not_exists_ok_iff, hfails]

/-- A tree without a value has a variable without one. -/
theorem exists_of_eval_eq_error {error : FormulaError} (h : e.eval lookup = .error error) :
    ∃ name ∈ e.names, lookup name = none ∧ error = .unknownVariable name := by
  obtain ⟨name, hname, rfl⟩ := eval_eq_error_iff.mp h
  exact ⟨name, List.mem_of_find?_eq_some hname, by simpa using List.find?_some hname, rfl⟩

/-- Only the names in a tree make a difference. -/
theorem eval_congr (h : ∀ name ∈ e.names, lookup name = other name) :
    e.eval lookup = e.eval other := by
  induction e with
  | var name => rw [eval, eval, h name (by simp)]
  | literal x => rfl
  | binary op left right ihLeft ihRight =>
      rw [names_binary] at h
      obtain ⟨hleft, hright⟩ := List.forall_mem_append.mp h
      rw [eval, eval, ihLeft hleft, ihRight hright]

theorem isFinite_settle (x : Float) : (settle x).isFinite = true := by
  rw [settle]
  split
  · assumption
  · rfl

/-- An operator has a value exactly if its operands have, and it settles its plain result. -/
theorem eval_binary_eq_ok_iff {op : ArithmeticOp} {left right : Expr} {z : Float} :
    (binary op left right).eval lookup = .ok z ↔
      ∃ x y, left.eval lookup = .ok x ∧ right.eval lookup = .ok y ∧ settle (op.apply x y) = z := by
  rw [eval]
  simp only [bind_eq_ok_iff, pure, Except.pure, Except.ok.injEq, exists_and_left]

end Expr

end FederatedMetrics
