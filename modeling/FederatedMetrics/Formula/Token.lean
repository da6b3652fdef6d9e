import FederatedMetrics.Formula.Expr
import FederatedMetrics.Decimal.Reading

/-!
# Formula tokens

Blanks and tabs separate tokens and mean nothing else. Names and numbers run as far as their
characters go; names become lower case, and a number must be one that the decimal reader accepts.
-/

namespace FederatedMetrics.Formula

inductive Token where
  | name (text : String)
  | number (value : Float)
  | operator (op : ArithmeticOp)
  | opening
  | closing
deriving DecidableEq, Repr

def isNumberChar (c : Char) : Bool := Decimal.isDigit c || c = '.'

def isNameStart (c : Char) : Bool := c.isAlpha || c = '_'

def isNameChar (c : Char) : Bool := c.isAlphanum || c = '_'

/-- The token that is being read, with its characters in reverse. -/
inductive Run where
  | idle
  | number (read : List Char)
  | name (read : List Char)
deriving DecidableEq, Repr

/-- The run with one more character, if the character belongs to it. -/
def Run.grow? (c : Char) : Run → Option Run
  | .idle => none
  | .number read => if isNumberChar c then some (.number (c :: read)) else none
  | .name read => if isNameChar c then some (.name (c :: read)) else none

/-- The tokens of a run that has ended: none or one. -/
def Run.finish : Run → Except FormulaError (List Token)
  | .idle => .ok []
  | .number read =>
      match Decimal.ofChars? read.reverse with
      | some x => .ok [.number x]
      | none => .error (.badNumber (String.ofList read.reverse))
  | .name read => .ok [.name (String.ofList (read.reverse.map Char.toLower))]

/-- The token of a character that stands for itself. -/
def mark? (c : Char) : Option Token :=
  if c = '+' then some (.operator .add)
  else if c = '-' then some (.operator .subtract)
  else if c = '*' then some (.operator .multiply)
  else if c = '/' then some (.operator .divide)
  else if c = '(' then some .opening
  else if c = ')' then some .closing
  else none

/-- What a character does when no run takes it: it is a token, it separates, or it begins a run. -/
def start (c : Char) : Except FormulaError (List Token × Run) :=
  match mark? c with
  | some token => .ok ([token], .idle)
  | none =>
      if c = ' ' || c = '\t' then .ok ([], .idle)
      else if isNumberChar c then .ok ([], .number [c])
      else if isNameStart c then .ok ([], .name [c])
      else .error (.unexpectedCharacter c)

/-- The tokens of a text that follows a run. -/
def tokensFrom (run : Run) : List Char → Except FormulaError (List Token)
  | [] => run.finish
  | c :: rest =>
      match run.grow? c with
      | some run => tokensFrom run rest
      | none => do
          let ended ← run.finish
          let (here, run) ← start c
          let later ← tokensFrom run rest
          return ended ++ here ++ later

def tokens (source : String) : Except FormulaError (List Token) := tokensFrom .idle source.toList

end FederatedMetrics.Formula
