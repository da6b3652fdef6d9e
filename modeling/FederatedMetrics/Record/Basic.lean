import FederatedMetrics.Json.Decoder
import FederatedMetrics.Json.Cell

/-!
# Records

A record is one event, profile or channel document with its time and its properties. A property that
is absent reads like one that is null.
-/

namespace FederatedMetrics

structure Record where
  projectId : Int
  displayCategory : String
  objectType : String
  timestamp : Int
  properties : List (String × Json)
deriving Repr

/-- What stands in a key for a property that a record does not have. -/
def noneValue : String := "$none"

namespace Record

def property? (r : Record) (name : String) : Option Json := r.properties.lookup name

def hasProperty (r : Record) (name : String) : Bool := (r.property? name).isSome

/-- A property as a text. -/
def textOf (r : Record) (name : String) : String :=
  match r.property? name with
  | none => noneValue
  | some .null => noneValue
  | some value => value.asText

/-- A property as a number. -/
def numberOf (r : Record) (name : String) : Float :=
  match r.property? name with
  | none => 0.0
  | some value => value.asNumber

def encode (r : Record) : Json :=
  .obj [("project_id", .int r.projectId), ("display_category", .str r.displayCategory),
    ("object_type", .str r.objectType), ("timestamp", .int r.timestamp),
    ("properties", .obj r.properties)]

def decode : Json.Decoder Record := Json.record 5 fun f =>
  Record.mk <$> f.required 0 ["project_id"] Json.int64
    <*> f.required 1 ["display_category"] Json.text
    <*> f.withDefault 2 ["object_type"] Json.text ""
    <*> f.required 3 ["timestamp"] Json.int64
    <*> f.withDefault 4 ["properties"] Json.anyObject []

end Record

end FederatedMetrics
