/-!
# JSON values

Integers and floating point numbers are different values, also when they are equal as numbers.
Objects keep their entries in order. The canonical order of entries is by key, without repetition.
-/

namespace FederatedMetrics

/-- A JSON value. -/
inductive Json where
  | null
  | bool (value : Bool)
  | int (value : Int)
  | float (value : Float)
  | str (text : String)
  | arr (items : List Json)
  | obj (entries : List (String × Json))
deriving Repr, Inhabited

namespace Json

/-- A floating point number as a value; what is not finite is written as null. -/
def ofFloat (x : Float) : Json := if x.isFinite then .float x else .null

/-- The value of an integer literal, a float where it is outside the signed and unsigned 64-bit
range. -/
def isWord (n : Int) : Bool := -Int.pow 2 63 ≤ n && n < Int.pow 2 64

/-- Put an entry in its place by key, over any entry that has the key already. -/
def setEntry (key : String) (value : Json) : List (String × Json) → List (String × Json)
  | [] => [(key, value)]
  | entry :: rest =>
      if key < entry.1 then (key, value) :: entry :: rest
      else if entry.1 < key then entry :: setEntry key value rest
      else (key, value) :: rest

/-- Entries in ascending order of their keys, where the last of several with one key counts. -/
def sortEntries (entries : List (String × Json)) : List (String × Json) :=
  entries.foldl (fun sorted entry => setEntry entry.1 entry.2 sorted) []

/-- The value of the first entry with a key. -/
def get? (key : String) : Json → Option Json
  | .obj entries => entries.lookup key
  | _ => none

@[simp] theorem sortEntries_nil : sortEntries [] = [] := rfl

end Json

end FederatedMetrics
