import FederatedMetrics.Formula.Token

/-!
# Reading formulas

Multiplication and division bind tighter than addition and subtraction, operators of one kind
associate to the left, and a sign in front of an operand means zero minus that operand. The reader
takes one token after the other and keeps the unfinished operations of every open parenthesis on a
stack.
-/

namespace FederatedMetrics

namespace Formula

/-- The unfinished operations inside one parenthesis: a sum and a product that wait for their right
operand, and the signs in front of it. -/
structure Level where
  sum : Option (Expr × ArithmeticOp)
  product : Option (Expr × ArithmeticOp)
  signs : Nat
deriving DecidableEq, Repr

/-- The level after an opening parenthesis. -/
def Level.fresh : Level := ⟨none, none, 0⟩

/-- Complete an operation that waits for its right operand. -/
def close : Option (Expr × ArithmeticOp) → Expr → Expr
  | none, e => e
  | some (left, op), e => .binary op left e

/-- An operand with signs in front of it. -/
def signed : Nat → Expr → Expr
  | 0, e => e
  | n + 1, e => .negate (signed n e)

/-- The reader wants an operand, or it holds the value of a product that may go on. -/
inductive State where
  | wanting (level : Level) (outer : List Level)
  | holding (sum : Option (Expr × ArithmeticOp)) (value : Expr) (outer : List Level)
deriving DecidableEq, Repr

/-- Give an operand to the level that wants it. -/
def Level.supply (level : Level) (operand : Expr) (outer : List Level) : State :=
  .holding level.sum (close level.product (signed level.signs operand)) outer

/-- What can be wrong with a sequence of tokens. -/
inductive Fault where
  | malformed
  | unbalanced
  | leftover
deriving DecidableEq, Repr

def State.step : State → Token → Except Fault State
  | .wanting level outer, token =>
      match token with
      | .name text => .ok (level.supply (.var text) outer)
      | .number x => .ok (level.supply (.literal x) outer)
      | .operator .subtract => .ok (.wanting { level with signs := level.signs + 1 } outer)
      | .opening => .ok (.wanting .fresh (level :: outer))
      | _ => .error .malformed
  | .holding sum value outer, token =>
      match token, outer with
      | .operator op, _ =>
          if op.isProduct then .ok (.wanting ⟨sum, some (value, op), 0⟩ outer)
          else .ok (.wanting ⟨some (close sum value, op), none, 0⟩ outer)
      | .closing, level :: outer => .ok (level.supply (close sum value) outer)
      | _, [] => .error .leftover
      | _, _ :: _ => .error .unbalanced

def State.finish : State → Except Fault Expr
  | .wanting _ _ => .error .malformed
  | .holding sum value [] => .ok (close sum value)
  | .holding _ _ (_ :: _) => .error .unbalanced

/-- The state at the beginning of a formula. -/
def State.initial : State := .wanting .fresh []

/-- Read tokens from a state to the end. -/
def State.read (state : State) : List Token → Except Fault Expr
  | [] => state.finish
  | token :: rest => do
      let next ← state.step token
      next.read rest

/-- The tree of a whole sequence of tokens. -/
def ofTokens (tokens : List Token) : Except Fault Expr := State.initial.read tokens

def Fault.toError (source : String) : Fault → FormulaError
  | .malformed => .malformed
  | .unbalanced => .unbalanced
  | .leftover => .leftover source

end Formula

/-- A formula as it is written, with its tree. -/
structure Formula where
  source : String
  expr : Expr
deriving DecidableEq, Repr

namespace Formula

def parse (source : String) : Except FormulaError Formula := do
  let tokens ← tokens source
  if tokens.isEmpty then throw .empty
  match ofTokens tokens with
  | .ok expr => return ⟨source, expr⟩
  | .error fault => throw (fault.toError source)

/-- The distinct names of the sub-queries that a formula uses. -/
def variableNames (f : Formula) : List String := f.expr.variableNames

def eval (f : Formula) (lookup : String → Option Float) : Except FormulaError Float :=
  f.expr.eval lookup

end Formula

end FederatedMetrics
