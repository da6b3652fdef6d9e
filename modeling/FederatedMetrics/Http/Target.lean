import FederatedMetrics.Identifier

/-!
# Request targets

A target is a path with an optional query string. Paths are matched as they are written; only what
stands for a parameter is decoded.
-/

namespace FederatedMetrics.Http

/-- The path of a target, in segments behind the leading slash, and its query string. -/
structure Target where
  segments : List String
  query : String
deriving DecidableEq, Repr

/-- Texts between the occurrences of a character, after a text that has begun and is held in
reverse. -/
def splitFrom (mark : Char) (begun : List Char) : List Char → List (List Char)
  | [] => [begun.reverse]
  | c :: rest =>
      if c = mark then begun.reverse :: splitFrom mark [] rest
      else splitFrom mark (c :: begun) rest

def splitAt (mark : Char) (cs : List Char) : List (List Char) := splitFrom mark [] cs

/-- The path of a target without its query string. Before a path that does not stand alone there are
a scheme and a host; a host alone has no path. -/
def pathOf (cs : List Char) : List Char :=
  if cs.head? = some '/' then cs
  else
    match cs.dropWhile (· ≠ ':') with
    | ':' :: '/' :: '/' :: rest => rest.dropWhile (· ≠ '/')
    | _ => []

/-- Read a target; what follows a number sign does not count. -/
def Target.ofText (s : String) : Target :=
  let cs := s.toList.takeWhile (· ≠ '#')
  let path := pathOf (cs.takeWhile (· ≠ '?'))
  let query := (cs.dropWhile (· ≠ '?')).drop 1
  ⟨((splitAt '/' path).drop 1).map String.ofList, String.ofList query⟩

/-- The byte that two hexadecimal digits at the front of a text write. -/
def escapedByte? : List Char → Option Nat
  | high :: low :: _ => do
      let a ← Json.Reader.hexValue? high
      let b ← Json.Reader.hexValue? low
      some (a * 16 + b)
  | _ => none

/-- The bytes of a text in which a byte may be written in hexadecimal behind a percent sign, past
the `skipped` characters that such a byte has already used. -/
def decodeFrom : (skipped : Nat) → List Char → List Nat
  | _, [] => []
  | skipped + 1, _ :: rest => decodeFrom skipped rest
  | 0, c :: rest =>
      match if c = '%' then escapedByte? rest else none with
      | some byte => byte :: decodeFrom 2 rest
      | none => c.toNat :: decodeFrom 0 rest

def percentDecode (cs : List Char) : List Nat := decodeFrom 0 cs

/-- A decoded parameter, if it is ASCII; no other one can be a number or an identifier. -/
def asciiParameter? (segment : String) : Option String :=
  let bytes := percentDecode segment.toList
  if bytes.all (· < 128) then some (String.ofList (bytes.map Char.ofNat)) else none

/-- A number of 64 bits with an optional sign. -/
def signed? (s : String) : Option Int :=
  let (negative, digits) :=
    match s.toList with
    | '-' :: rest => (true, rest)
    | '+' :: rest => (false, rest)
    | cs => (false, cs)
  let size : Int := Decimal.natOfDigits digits
  let n := if negative then -size else size
  if digits.isEmpty || !digits.all Decimal.isDigit || n < -Int.pow 2 63
      || Int.pow 2 63 ≤ n then none
  else some n

def projectId? (segment : String) : Option Int := do
  signed? (← asciiParameter? segment)

def entityId? (segment : String) : Option Uuid := do
  Uuid.ofText? (← asciiParameter? segment)

/-- A field of a form, where a plus sign stands for a blank. -/
def formBytes (cs : List Char) : List Nat := percentDecode (cs.map fun c => if c = '+' then ' ' else c)

/-- The names and values of a query string. -/
def formFields (query : String) : List (List Nat × List Nat) :=
  ((splitAt '&' query.toList).filter fun part => !part.isEmpty).map fun part =>
    (formBytes (part.takeWhile (· ≠ '=')), formBytes ((part.dropWhile (· ≠ '=')).drop 1))

/-- Whether a query string asks for the combined view; it may say so at most once. -/
def combineParameter? (query : String) : Option Bool :=
  let bytes (s : String) := s.toList.map Char.toNat
  match (formFields query).filter fun field => field.1 = bytes "combine" with
  | [] => some false
  | [field] =>
      if field.2 = bytes "true" then some true
      else if field.2 = bytes "false" then some false
      else none
  | _ => none

end FederatedMetrics.Http
