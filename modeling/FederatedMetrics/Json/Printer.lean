import FederatedMetrics.Json.Basic
import FederatedMetrics.Decimal.Shortest

/-!
# The text of a JSON value

Values are written without blanks. A float has the fewest digits that read back: in plain notation
with at least one decimal while its leading digit stands between the places `-5` and `15`, and
with an exponent otherwise.
-/

namespace FederatedMetrics.Json

open Decimal

/-- The places of the leading digit that are written in plain notation. -/
def isPlain (place : Int) : Bool := -5 ≤ place && place < 16

/-- Digits and a power of ten, without an exponent. -/
def plainText (digits : String) (exponent : Int) : String :=
  let width : Int := digits.length
  if 0 ≤ exponent then digits ++ String.ofList (List.replicate exponent.toNat '0') ++ ".0"
  else if 0 < width + exponent then
    let whole := (width + exponent).toNat
    String.ofList (digits.toList.take whole) ++ "." ++ String.ofList (digits.toList.drop whole)
  else "0." ++ String.ofList (List.replicate (-(width + exponent)).toNat '0') ++ digits

/-- Digits with the point after the first of them, and an exponent. -/
def scientificText (digits : String) (place : Int) : String :=
  let fraction := digits.toList.drop 1
  String.ofList (digits.toList.take 1)
    ++ (if fraction.isEmpty then "" else "." ++ String.ofList fraction)
    ++ (if 0 ≤ place then "e+" else "e") ++ toString place

def digitsText (d : Digits) : String :=
  let digits := toString d.digits
  let place : Int := digits.length + d.exponent - 1
  if isPlain place then plainText digits d.exponent else scientificText digits place

/-- The text of a float; what is not finite has none of its own. -/
def floatText (x : Float) : String :=
  if x.isFinite then
    let bits := x.toBits
    let sign := if bits >>> 63 = 1 then "-" else ""
    let magnitude := Binary.ofBits bits
    sign ++ (if magnitude.significand = 0 then "0.0" else digitsText magnitude.shortest)
  else "null"

def hexDigit (n : Nat) : Char :=
  if n < 10 then Char.ofNat ('0'.toNat + n) else Char.ofNat ('a'.toNat + (n - 10))

/-- A character inside a quoted text. Only the quote, the backslash and the control characters are
escaped. -/
def escapeChar (c : Char) : List Char :=
  if c = '\"' then ['\\', '\"']
  else if c = '\\' then ['\\', '\\']
  else if c.toNat = 8 then ['\\', 'b']
  else if c.toNat = 9 then ['\\', 't']
  else if c.toNat = 10 then ['\\', 'n']
  else if c.toNat = 12 then ['\\', 'f']
  else if c.toNat = 13 then ['\\', 'r']
  else if c.toNat < 32 then
    ['\\', 'u', '0', '0', hexDigit (c.toNat / 16), hexDigit (c.toNat % 16)]
  else [c]

def quote (s : String) : String :=
  String.ofList ('\"' :: s.toList.flatMap escapeChar ++ ['\"'])

mutual

/-- The text of a value. -/
def print : Json → String
  | .null => "null"
  | .bool true => "true"
  | .bool false => "false"
  | .int n => toString n
  | .float x => floatText x
  | .str s => quote s
  | .arr items => "[" ++ printItems items ++ "]"
  | .obj entries => "\x7b" ++ printEntries entries ++ "\x7d"

/-- Items with commas between them. -/
def printItems : List Json → String
  | [] => ""
  | [item] => print item
  | item :: rest => print item ++ "," ++ printItems rest

/-- Keys and values with commas between the entries. -/
def printEntries : List (String × Json) → String
  | [] => ""
  | [(key, value)] => quote key ++ ":" ++ print value
  | (key, value) :: rest => quote key ++ ":" ++ print value ++ "," ++ printEntries rest

end

example : floatText 1000.0 = "1000.0" := by decide +kernel

example : floatText 1e16 = "1e+16" := by decide +kernel

example : floatText 0.00001 = "0.00001" := by decide +kernel

example : floatText 1.5e-6 = "1.5e-6" := by decide +kernel

example : floatText (-0.0) = "-0.0" := by decide +kernel

end FederatedMetrics.Json
