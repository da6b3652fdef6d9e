import FederatedMetrics.Json.Reader

/-!
# Socket addresses

An address is four octets or eight 16-bit groups, with a port. The longer kind is written in
brackets, may leave out one run of zero groups, may end in the form of the shorter kind, and may
carry the number of a scope.
-/

namespace FederatedMetrics

inductive SocketAddress where
  | v4 (octets : List Nat) (port : Nat)
  | v6 (groups : List Nat) (scope port : Nat)
deriving DecidableEq, Repr

namespace SocketAddress

open Decimal Json.Reader

/-- A given character. -/
def char? (c : Char) : List Char → Option (List Char)
  | head :: rest => if head = c then some rest else none
  | [] => none

/-- A decimal number below a bound. -/
def number? (bound : Nat) (cs : List Char) : Option (Nat × List Char) :=
  let run := cs.takeWhile isDigit
  let n := natOfDigits run
  if run.isEmpty || bound ≤ n then none else some (n, cs.dropWhile isDigit)

/-- One to three digits below 256 without a leading zero. -/
def octet? (cs : List Char) : Option (Nat × List Char) :=
  let run := cs.takeWhile isDigit
  if 3 < run.length || (run.head? = some '0' && 1 < run.length) then none else number? 256 cs

/-- Four octets with points between them. -/
def octets? (cs : List Char) : Option (List Nat × List Char) := do
  let (a, cs) ← octet? cs
  let (b, cs) ← octet? (← char? '.' cs)
  let (c, cs) ← octet? (← char? '.' cs)
  let (d, cs) ← octet? (← char? '.' cs)
  return ([a, b, c, d], cs)

/-- One to four hexadecimal digits. -/
def group? (cs : List Char) : Option (Nat × List Char) :=
  let run := cs.takeWhile fun c => (hexValue? c).isSome
  if run.isEmpty || 4 < run.length then none
  else some (run.foldl (fun n c => n * 16 + (hexValue? c).getD 0) 0, cs.drop run.length)

/-- The groups of four octets. -/
def groupsOfOctets : List Nat → List Nat
  | a :: b :: rest => (a * 256 + b) :: groupsOfOctets rest
  | _ => []

/-- Up to a limit of groups with colons between them, where the last two may be written as octets;
the flag says that they are. `isFirst` tells that no colon comes before. -/
def groups (isFirst : Bool) : Nat → List Char → List Nat × Bool × List Char
  | 0, cs => ([], false, cs)
  | limit + 1, cs =>
      match if isFirst then some cs else char? ':' cs with
      | none => ([], false, cs)
      | some start =>
          match if 1 ≤ limit then octets? start else none with
          | some (octets, rest) => (groupsOfOctets octets, true, rest)
          | none =>
              match group? start with
              | some (g, rest) =>
                  let (more, ends, rest) := groups false limit rest
                  (g :: more, ends, rest)
              | none => ([], false, cs)

/-- Eight groups, or fewer around a pair of colons that stands for at least one. -/
def allGroups? (cs : List Char) : Option (List Nat × List Char) :=
  let (front, ends, rest) := groups true 8 cs
  if front.length = 8 then some (front, rest)
  else if ends then none
  else do
    let rest ← char? ':' rest
    let rest ← char? ':' rest
    let (back, _, rest) := groups true (7 - front.length) rest
    return (front ++ List.replicate (8 - front.length - back.length) 0 ++ back, rest)

def port? (cs : List Char) : Option (Nat × List Char) := do
  number? 65536 (← char? ':' cs)

/-- The number of a scope after its mark; without one it is zero. -/
def scope (cs : List Char) : Nat × List Char :=
  match char? '%' cs with
  | some rest => (number? (Nat.pow 2 32) rest).getD (0, cs)
  | none => (0, cs)

def v4? (cs : List Char) : Option SocketAddress := do
  let (octets, cs) ← octets? cs
  let (port, cs) ← port? cs
  if cs.isEmpty then return .v4 octets port else none

def v6? (cs : List Char) : Option SocketAddress := do
  let (groups, cs) ← allGroups? (← char? '[' cs)
  let (scope, cs) := scope cs
  let (port, cs) ← port? (← char? ']' cs)
  if cs.isEmpty then return .v6 groups scope port else none

def ofText? (s : String) : Option SocketAddress :=
  match v4? s.toList with
  | some address => some address
  | none => v6? s.toList

/-- Texts with a mark between them. -/
def joined (mark : String) (texts : List String) : String := mark.intercalate texts

def octetsText (octets : List Nat) : String := joined "." (octets.map toString)

def hexText (n : Nat) : String := String.ofList (Nat.toDigits 16 n)

def groupsText (groups : List Nat) : String := joined ":" (groups.map hexText)

/-- The length of the run of zeros at the front. -/
def zeroRun (groups : List Nat) : Nat := (groups.takeWhile (· = 0)).length

/-- The place and the length of the first of the longest runs of zeros, among the groups from a
place on and a run found before. -/
def longestZeros (place : Nat) (best : Nat × Nat) : List Nat → Nat × Nat
  | [] => best
  | g :: rest =>
      let run := zeroRun (g :: rest)
      longestZeros (place + 1) (if best.2 < run then (place, run) else best) rest

/-- The groups, with the longest run of at least two zeros left out. An address that stands for one
of the shorter kind ends in its octets. -/
def addressText (groups : List Nat) : String :=
  if groups.take 6 = [0, 0, 0, 0, 0, 0xFFFF] then
    let ends := (groups.drop 6).flatMap fun g => [g / 256, g % 256]
    "::ffff:" ++ octetsText ends
  else
    let (place, run) := longestZeros 0 (0, 0) groups
    if 1 < run then groupsText (groups.take place) ++ "::" ++ groupsText (groups.drop (place + run))
    else groupsText groups

def text : SocketAddress → String
  | .v4 octets port => octetsText octets ++ ":" ++ toString port
  | .v6 groups scope port =>
      "[" ++ addressText groups ++ (if scope = 0 then "" else "%" ++ toString scope) ++ "]:"
        ++ toString port

/-- All addresses of this host, on the standard port. -/
def standard : SocketAddress := .v4 [0, 0, 0, 0] 3000

end SocketAddress

end FederatedMetrics
