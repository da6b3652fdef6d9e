import FederatedMetrics.Category
import FederatedMetrics.Identifier
import FederatedMetrics.Time.Timestamp

/-!
# Properties and property mappings

A property belongs to one display category. A mapping gives one name to the properties of several
display categories, so that a query can speak of all of them at once.
-/

namespace FederatedMetrics

inductive DataType where
  | categorical
  | numerical
  | datetime
deriving DecidableEq, Repr

namespace DataType

def name : DataType → String
  | .categorical => "categorical"
  | .numerical => "numerical"
  | .datetime => "datetime"

def names : List (String × DataType) :=
  [("categorical", .categorical), ("numerical", .numerical), ("datetime", .datetime)]

def encode (t : DataType) : Json := .str t.name

def decode : Json.Decoder DataType := Json.choice names

end DataType

/-- A concrete property of one display category. -/
structure Property where
  category : Category
  displayCategory : String
  objectType : String
  name : String
  dataType : DataType
  entity : String
deriving DecidableEq, Repr

namespace Property

def encode (p : Property) : Json :=
  .obj [("category", p.category.encode), ("display_category", .str p.displayCategory),
    ("object_type", .str p.objectType), ("name", .str p.name), ("data_type", p.dataType.encode),
    ("entity", .str p.entity)]

def decode : Json.Decoder Property := Json.record 6 fun f =>
  Property.mk <$> f.required 0 ["category"] Category.decode
    <*> f.required 1 ["display_category"] Json.text
    <*> f.withDefault 2 ["object_type"] Json.text ""
    <*> f.required 3 ["name"] Json.text
    <*> f.required 4 ["data_type"] DataType.decode
    <*> f.withDefault 5 ["entity"] Json.text ""

end Property

/-- A name of a project for the properties of several display categories. `name` is the normal form
of `displayName` and is what queries use. -/
structure PropertyMapping where
  id : Uuid
  projectId : Int
  displayName : String
  name : String
  properties : List Property
  createdAt : Timestamp
deriving DecidableEq, Repr

namespace PropertyMapping

/-- The property for a display category, if there is one. -/
def propertyFor? (m : PropertyMapping) (displayCategory : String) : Option Property :=
  m.properties.find? fun p => p.displayCategory = displayCategory

def covers (m : PropertyMapping) (displayCategory : String) : Bool :=
  (m.propertyFor? displayCategory).isSome

def encode (m : PropertyMapping) : Json :=
  .obj [("id", .str m.id.text), ("project_id", .int m.projectId),
    ("display_name", .str m.displayName), ("name", .str m.name),
    ("properties", .arr (m.properties.map Property.encode)), ("created_at", .str m.createdAt.text)]

def decode : Json.Decoder PropertyMapping := Json.record 6 fun f =>
  PropertyMapping.mk <$> f.required 0 ["id"] Uuid.decode
    <*> f.required 1 ["project_id"] Json.int64
    <*> f.required 2 ["display_name"] Json.text
    <*> f.required 3 ["name"] Json.text
    <*> f.required 4 ["properties"] (Json.listOf Property.decode)
    <*> f.required 5 ["created_at"] (Json.parsed Timestamp.ofText?)

theorem covers_iff (m : PropertyMapping) (displayCategory : String) :
    m.covers displayCategory = true ↔ ∃ p ∈ m.properties, p.displayCategory = displayCategory := by
  simp [covers, propertyFor?]

end PropertyMapping

end FederatedMetrics
