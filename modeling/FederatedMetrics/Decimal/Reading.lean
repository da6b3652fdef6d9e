/-!
# Reading decimals

A numeral in a text denotes the nearest binary value. A whole text is a number when it is an
optional sign followed by digits with an optional fraction and exponent, or by one of the words for
infinity and for the undefined value.
-/

namespace FederatedMetrics.Decimal

def isDigit (c : Char) : Bool := '0' ≤ c && c ≤ '9'

def digitValue (c : Char) : Nat := c.toNat - '0'.toNat

/-- The number that a run of digits denotes. -/
def natOfDigits (cs : List Char) : Nat := cs.foldl (fun n c => n * 10 + digitValue c) 0

/-- The binary value nearest to `digits * 10 ^ exponent`. Beyond the ends of the range the answer is
known without computing the power. -/
def nearest (digits : Nat) (exponent : Int) : Float :=
  let width : Int := (Nat.log2 digits : Int)
  if digits = 0 then 0.0
  else if exponent > 400 then 1.0 / 0.0
  else if width + 3 * exponent < -1200 ∧ exponent < 0 then 0.0
  else if 0 ≤ exponent then Float.ofScientific digits false exponent.toNat
  else Float.ofScientific digits true (-exponent).toNat

/-- The binary value nearest to an integer. -/
def ofInt (n : Int) : Float :=
  if n < 0 then -(Float.ofScientific n.natAbs false 0) else Float.ofScientific n.natAbs false 0

/-- The exponent after its mark: an optional sign and at least one digit, to the end. -/
def exponent? (cs : List Char) : Option Int :=
  let (negative, rest) :=
    match cs with
    | '-' :: rest => (true, rest)
    | '+' :: rest => (false, rest)
    | _ => (false, cs)
  if rest.isEmpty || !rest.all isDigit then none
  else if negative then some (-(natOfDigits rest : Int))
  else some (natOfDigits rest : Int)

/-- Digits with an optional fraction, at least one digit in all, and an optional exponent. -/
def magnitude? (cs : List Char) : Option Float :=
  let whole := cs.takeWhile isDigit
  let afterWhole := cs.dropWhile isDigit
  let (fraction, rest) :=
    match afterWhole with
    | '.' :: more => (more.takeWhile isDigit, more.dropWhile isDigit)
    | _ => ([], afterWhole)
  if whole.isEmpty && fraction.isEmpty then none
  else
    let digits := natOfDigits (whole ++ fraction)
    let places : Int := fraction.length
    match rest with
    | [] => some (nearest digits (-places))
    | mark :: more =>
        if mark = 'e' ∨ mark = 'E' then
          (exponent? more).map fun e => nearest digits (e - places)
        else none

/-- The value of a number without its sign. -/
def unsigned? (cs : List Char) : Option Float :=
  let word := cs.map Char.toLower
  if word = "inf".toList ∨ word = "infinity".toList then some (1.0 / 0.0)
  else if word = "nan".toList then some (0.0 / 0.0)
  else magnitude? cs

/-- The number that a whole text denotes. -/
def ofChars? : List Char → Option Float
  | '-' :: rest => (unsigned? rest).map fun x => -x
  | '+' :: rest => unsigned? rest
  | cs => unsigned? cs

def ofText? (s : String) : Option Float := ofChars? s.toList

end FederatedMetrics.Decimal
