import FederatedMetrics.Json.Basic

/-!
# JSON documents

A document is what a text is read as, also when there are faults in the text. A fault stands in the
document at the place where the text has it, and nothing stands behind a text that breaks off. So
whoever goes through a document in order meets first what comes first in the text.
-/

namespace FederatedMetrics

/-- A JSON value as it is read. Two kinds of fault can be skipped but never read: `noValue` is a
literal of correct form that denotes nothing, which is a number beyond the range of floating point or
a text with half of a surrogate pair, and a key of that kind is missing. The text breaks off at
`broken`, and at `keyless`, where something else stands after a brace than a key or another brace. -/
inductive Document where
  | null
  | bool (value : Bool)
  | int (value : Int)
  | float (value : Float)
  | str (text : String)
  | arr (items : List Document)
  | obj (entries : List (Option String × Document))
  | noValue
  | keyless (found : Document)
  | broken
deriving Repr, Inhabited

namespace Document

mutual

/-- The document of a value, which has no faults. -/
def ofJson : Json → Document
  | .null => .null
  | .bool value => .bool value
  | .int value => .int value
  | .float value => .float value
  | .str text => .str text
  | .arr items => .arr (ofItems items)
  | .obj entries => .obj (ofEntries entries)

def ofItems : List Json → List Document
  | [] => []
  | item :: rest => ofJson item :: ofItems rest

def ofEntries : List (String × Json) → List (Option String × Document)
  | [] => []
  | (key, value) :: rest => (some key, ofJson value) :: ofEntries rest

end

mutual

/-- Whether the text does not break off inside the document, so that it can be skipped. -/
def isWhole : Document → Bool
  | .arr items => itemsWhole items
  | .obj entries => entriesWhole entries
  | .keyless _ => false
  | .broken => false
  | _ => true

def itemsWhole : List Document → Bool
  | [] => true
  | item :: rest => isWhole item && itemsWhole rest

def entriesWhole : List (Option String × Document) → Bool
  | [] => true
  | (_, value) :: rest => isWhole value && entriesWhole rest

end

theorem ofItems_eq_map (items : List Json) : ofItems items = items.map ofJson := by
  induction items with
  | nil => rfl
  | cons item rest ih => simp [ofItems, ih]

theorem ofEntries_eq_map (entries : List (String × Json)) :
    ofEntries entries = entries.map fun entry => (some entry.1, ofJson entry.2) := by
  induction entries with
  | nil => rfl
  | cons entry rest ih => simp [ofEntries, ih]

end Document

end FederatedMetrics
