import FederatedMetrics.Json.Document
import FederatedMetrics.Decimal.Reading

/-!
# Reading JSON text

The reader knows the standard grammar and nothing beside it: no comments, no trailing commas, no
leading zeros. Where the text departs from the grammar the document breaks off. Nesting is not
limited here. A number keeps its first digits as far as they fit into 64 bits; those digits are
rounded once and then scaled once by a power of ten.
-/

namespace FederatedMetrics.Json.Reader

open Decimal

def isSpace (c : Char) : Bool := c = ' ' || c = '\n' || c = '\t' || c = '\r'

def skipSpace (cs : List Char) : List Char := cs.dropWhile isSpace

/-! ## Numbers -/

/-- The parts of a number as they are written. -/
structure Numeral where
  negative : Bool
  whole : List Char
  fraction : Option (List Char)
  exponent : Option (Bool × List Char)
deriving DecidableEq, Repr

/-- A run of at least one digit. -/
def digits? (cs : List Char) : Option (List Char × List Char) :=
  let run := cs.takeWhile isDigit
  if run.isEmpty then none else some (run, cs.dropWhile isDigit)

/-- A run of digits that does not start with a zero, unless it is just that. -/
def whole? (cs : List Char) : Option (List Char × List Char) :=
  match cs with
  | '0' :: rest =>
      match rest with
      | c :: _ => if isDigit c then none else some (['0'], rest)
      | [] => some (['0'], rest)
  | _ => digits? cs

/-- The fraction after a point, if there is a point. -/
def fraction? (cs : List Char) : Option (Option (List Char) × List Char) :=
  match cs with
  | '.' :: rest => (digits? rest).map fun (run, rest) => (some run, rest)
  | _ => some (none, cs)

/-- The exponent after its mark, if there is a mark; the flag says that it is negative. -/
def exponentPart? (cs : List Char) : Option (Option (Bool × List Char) × List Char) :=
  match cs with
  | c :: rest =>
      if c = 'e' || c = 'E' then
        match rest with
        | '-' :: rest => (digits? rest).map fun (run, rest) => (some (true, run), rest)
        | '+' :: rest => (digits? rest).map fun (run, rest) => (some (false, run), rest)
        | rest => (digits? rest).map fun (run, rest) => (some (false, run), rest)
      else some (none, cs)
  | [] => some (none, cs)

def numeral? (cs : List Char) : Option (Numeral × List Char) := do
  let (negative, rest) :=
    match cs with
    | '-' :: rest => (true, rest)
    | _ => (false, cs)
  let (whole, rest) ← whole? rest
  let (fraction, rest) ← fraction? rest
  let (exponent, rest) ← exponentPart? rest
  return (⟨negative, whole, fraction, exponent⟩, rest)

/-- The digits kept of a number, a power of ten, and whether the 64 bits are full. -/
structure Kept where
  significand : Nat
  exponent : Int
  full : Bool
deriving DecidableEq, Repr

/-- Digits before the point that find no room count as zeros. -/
def Kept.pushWhole (k : Kept) (c : Char) : Kept :=
  let next := k.significand * 10 + digitValue c
  if k.full || Nat.pow 2 64 ≤ next then ⟨k.significand, k.exponent + 1, true⟩
  else ⟨next, k.exponent, false⟩

/-- Digits after the point that find no room are dropped. -/
def Kept.pushFraction (k : Kept) (c : Char) : Kept :=
  let next := k.significand * 10 + digitValue c
  if k.full || Nat.pow 2 64 ≤ next then ⟨k.significand, k.exponent, true⟩
  else ⟨next, k.exponent - 1, false⟩

/-- Scale by a power of ten, in at most `steps` divisions by `10 ^ 308` and one last operation.
There is no value when the result would be infinite. -/
def scale? : Nat → Float → Int → Option Float
  | steps, x, exponent =>
      if exponent.natAbs ≤ 308 then
        let power := Float.ofScientific 1 false exponent.natAbs
        if 0 ≤ exponent then
          let y := x * power
          if y.isInf then none else some y
        else some (x / power)
      else if x == 0.0 then some x
      else if 0 ≤ exponent then none
      else
        match steps with
        | 0 => some 0.0
        | steps + 1 => scale? steps (x / Float.ofScientific 1 false 308) (exponent + 308)

/-- The value of a number with a fraction or an exponent, or of one beyond the integers. -/
def Numeral.float (n : Numeral) : Document :=
  let whole := n.whole.foldl Kept.pushWhole ⟨0, 0, false⟩
  let kept := (n.fraction.getD []).foldl Kept.pushFraction ⟨whole.significand, whole.exponent, false⟩
  let (negative, size) :=
    match n.exponent with
    | none => (false, 0)
    | some (negative, run) => (negative, natOfDigits run)
  let value :=
    if Nat.pow 2 31 ≤ size then
      if kept.significand ≠ 0 && !negative then none else some 0.0
    else
      let exponent : Int := if negative then kept.exponent - size else kept.exponent + size
      scale? 4 (Decimal.ofInt kept.significand) exponent
  match value with
  | none => .noValue
  | some x => .float (if n.negative then -x else x)

/-- The value of a number: an integer if it is written as one and fits into 64 bits, else a float.
Minus zero is a float. -/
def Numeral.value (n : Numeral) : Document :=
  if n.fraction.isNone && n.exponent.isNone then
    let size := natOfDigits n.whole
    let integer : Int := if n.negative then -(size : Int) else size
    if Json.isWord integer && !(n.negative && size = 0) then .int integer else n.float
  else n.float

/-! ## Texts -/

/-- A piece of a quoted text: a character, or a 16-bit unit from an escape. -/
inductive Piece where
  | char (c : Char)
  | unit (n : Nat)
deriving DecidableEq, Repr

def hexValue? (c : Char) : Option Nat :=
  if '0' ≤ c ∧ c ≤ '9' then some (c.toNat - '0'.toNat)
  else if 'a' ≤ c ∧ c ≤ 'f' then some (c.toNat - 'a'.toNat + 10)
  else if 'A' ≤ c ∧ c ≤ 'F' then some (c.toNat - 'A'.toNat + 10)
  else none

/-- The number of a unit escape. -/
def hexUnit? (a b c d : Char) : Option Nat := do
  let a ← hexValue? a
  let b ← hexValue? b
  let c ← hexValue? c
  let d ← hexValue? d
  return ((a * 16 + b) * 16 + c) * 16 + d

/-- The character of an escape by one letter. -/
def shortEscape? (c : Char) : Option Char :=
  if c = '\"' || c = '\\' || c = '/' then some c
  else if c = 'b' then some (Char.ofNat 8)
  else if c = 'f' then some (Char.ofNat 12)
  else if c = 'n' then some (Char.ofNat 10)
  else if c = 'r' then some (Char.ofNat 13)
  else if c = 't' then some (Char.ofNat 9)
  else none

/-- The pieces of a text up to its closing quote, put before those already read, in reverse. -/
def pieces? (done : List Piece) : List Char → Option (List Piece × List Char)
  | [] => none
  | c :: rest =>
      if c = '\"' then some (done.reverse, rest)
      else if c = '\\' then
        match rest with
        | [] => none
        | e :: rest =>
            if e = 'u' then
              match rest with
              | h1 :: h2 :: h3 :: h4 :: rest =>
                  match hexUnit? h1 h2 h3 h4 with
                  | some n => pieces? (.unit n :: done) rest
                  | none => none
              | _ => none
            else
              match shortEscape? e with
              | some c => pieces? (.char c :: done) rest
              | none => none
      else if c.toNat < 32 then none
      else pieces? (.char c :: done) rest

def isHighSurrogate (n : Nat) : Bool := 0xD800 ≤ n && n < 0xDC00

def isLowSurrogate (n : Nat) : Bool := 0xDC00 ≤ n && n < 0xE000

/-- Join surrogate pairs; half a pair has no value. -/
def joinPieces? : List Piece → Option (List Char)
  | [] => some []
  | .char c :: rest => (joinPieces? rest).map (c :: ·)
  | .unit high :: rest =>
      if isHighSurrogate high then
        match rest with
        | .unit low :: rest =>
            if isLowSurrogate low then
              (joinPieces? rest).map
                (Char.ofNat (0x10000 + (high - 0xD800) * 0x400 + (low - 0xDC00)) :: ·)
            else none
        | _ => none
      else if isLowSurrogate high then none
      else (joinPieces? rest).map (Char.ofNat high :: ·)

/-- A text after its opening quote, with its value if it has one. -/
def text? (cs : List Char) : Option (Option String × List Char) := do
  let (pieces, rest) ← pieces? [] cs
  return ((joinPieces? pieces).map String.ofList, rest)

/-- A key with its value if it has one, and the text after it. -/
def key? (cs : List Char) : Option (Option String × List Char) :=
  match cs with
  | '\"' :: rest => text? rest
  | _ => none

/-! ## Values -/

mutual

/-- A value with the text after it, unless the text breaks off inside the value. The first argument
bounds the number of steps. -/
def value : Nat → List Char → Document × Option (List Char)
  | 0, _ => (.broken, none)
  | fuel + 1, cs =>
      match skipSpace cs with
      | 'n' :: 'u' :: 'l' :: 'l' :: rest => (.null, some rest)
      | 't' :: 'r' :: 'u' :: 'e' :: rest => (.bool true, some rest)
      | 'f' :: 'a' :: 'l' :: 's' :: 'e' :: rest => (.bool false, some rest)
      | '\"' :: rest =>
          match text? rest with
          | some (text, rest) => ((text.map Document.str).getD .noValue, some rest)
          | none => (.broken, none)
      | '[' :: rest =>
          match skipSpace rest with
          | ']' :: rest => (.arr [], some rest)
          | _ =>
              let (items, rest) := items fuel rest
              (.arr items, rest)
      | '\x7b' :: rest =>
          match skipSpace rest with
          | '\x7d' :: rest => (.obj [], some rest)
          | '\"' :: _ =>
              let (entries, rest) := entries fuel rest
              (.obj entries, rest)
          | _ => (.keyless (value fuel rest).1, none)
      | cs =>
          match numeral? cs with
          | some (n, rest) => (n.value, some rest)
          | none => (.broken, none)

/-- The items of an array from the first one on. -/
def items : Nat → List Char → List Document × Option (List Char)
  | 0, _ => ([.broken], none)
  | fuel + 1, cs =>
      match value fuel cs with
      | (item, none) => ([item], none)
      | (item, some rest) =>
          match skipSpace rest with
          | ']' :: rest => ([item], some rest)
          | ',' :: rest =>
              let (items, rest) := items fuel rest
              (item :: items, rest)
          | _ => ([item, .broken], none)

/-- The entries of an object from the first one on. -/
def entries : Nat → List Char → List (Option String × Document) × Option (List Char)
  | 0, _ => ([(none, .broken)], none)
  | fuel + 1, cs =>
      match key? (skipSpace cs) with
      | none => ([(none, .broken)], none)
      | some (key, rest) =>
          match skipSpace rest with
          | ':' :: rest =>
              match value fuel rest with
              | (value, none) => ([(key, value)], none)
              | (value, some rest) =>
                  match skipSpace rest with
                  | '\x7d' :: rest => ([(key, value)], some rest)
                  | ',' :: rest =>
                      let (entries, rest) := entries fuel rest
                      ((key, value) :: entries, rest)
                  | _ => ([(key, value), (none, .broken)], none)
          | _ => ([(key, .broken)], none)

end

end FederatedMetrics.Json.Reader

namespace FederatedMetrics

/-- What a text is read as, and whether nothing but blanks follows it. -/
def Document.ofChars (cs : List Char) : Document × Bool :=
  let (document, rest) := Json.Reader.value (2 * cs.length + 2) cs
  (document, rest.any fun rest => (Json.Reader.skipSpace rest).isEmpty)

def Document.ofText (s : String) : Document × Bool := Document.ofChars s.toList

end FederatedMetrics
