import FederatedMetrics.Ordered

/-!
# Formula trees

A formula is arithmetic over the values of named sub-queries. Evaluation runs from left to right
and stops at the first variable without a value. An operator never yields anything infinite or
undefined: such a result counts as zero, and so does every division by zero.
-/

namespace FederatedMetrics

/-- Why a formula is refused or has no value. -/
inductive FormulaError where
  | empty
  | unexpectedCharacter (c : Char)
  | badNumber (literal : String)
  | malformed
  | unbalanced
  | leftover (source : String)
  | unknownVariable (name : String)
deriving DecidableEq, Repr

inductive ArithmeticOp where
  | add
  | subtract
  | multiply
  | divide
deriving DecidableEq, Repr

/-- The plain result of an operation, where division by zero gives zero. -/
def ArithmeticOp.apply (op : ArithmeticOp) (left right : Float) : Float :=
  match op with
  | .add => left + right
  | .subtract => left - right
  | .multiply => left * right
  | .divide => if right == 0.0 then 0.0 else left / right

/-- Whether an operation binds as tightly as multiplication. -/
def ArithmeticOp.isProduct : ArithmeticOp → Bool
  | .multiply => true
  | .divide => true
  | .add => false
  | .subtract => false

/-- A formula tree. Names are in lower case. -/
inductive Expr where
  | var (name : String)
  | literal (value : Float)
  | binary (op : ArithmeticOp) (left right : Expr)
deriving DecidableEq, Repr

namespace Expr

/-- The names in a tree from left to right, with repetitions. -/
def names : Expr → List String
  | .var name => [name]
  | .literal _ => []
  | .binary _ left right => left.names ++ right.names

/-- The distinct names in ascending order. -/
def variableNames (e : Expr) : List String := Ordered.ofList e.names

/-- A result of an operator, with zero in the place of what is not finite. -/
def settle (x : Float) : Float := if x.isFinite then x else 0.0

def eval (lookup : String → Option Float) : Expr → Except FormulaError Float
  | .var name =>
      match lookup name with
      | some x => .ok x
      | none => .error (.unknownVariable name)
  | .literal x => .ok x
  | .binary op left right => do
      let x ← left.eval lookup
      let y ← right.eval lookup
      return settle (op.apply x y)

/-- Zero minus the operand, the meaning of a sign in front of it. -/
def negate (e : Expr) : Expr := .binary .subtract (.literal 0.0) e

/-- A node of a tree without its operands. -/
inductive Node where
  | var (name : String)
  | literal (value : Float)
  | operator (op : ArithmeticOp)
deriving DecidableEq, Repr

/-- The nodes of a tree, every operator after its operands. -/
def postorder : Expr → List Node
  | .var name => [.var name]
  | .literal x => [.literal x]
  | .binary op left right => left.postorder ++ right.postorder ++ [.operator op]

@[simp] theorem names_var (name : String) : (var name).names = [name] := rfl

@[simp] theorem names_literal (x : Float) : (literal x).names = [] := rfl

@[simp] theorem names_binary (op : ArithmeticOp) (left right : Expr) :
    (binary op left right).names = left.names ++ right.names := rfl

end Expr

end FederatedMetrics
