import FederatedMetrics.Property

/-!
# Filters and group-bys

Both name a property, either a concrete one or a property mapping that stands for one property of
each display category. A filter compares the property with a text; its connective tells whether it
joins the filter before it as an alternative.
-/

namespace FederatedMetrics

inductive Comparison where
  | equals
  | notEqual
  | contains
  | notContains
  | greaterThan
  | lesserThan
  | greaterThanOrEqual
  | lesserThanOrEqual
deriving DecidableEq, Repr

namespace Comparison

def name : Comparison → String
  | .equals => "equals"
  | .notEqual => "notEqual"
  | .contains => "contains"
  | .notContains => "notContains"
  | .greaterThan => "greaterThan"
  | .lesserThan => "lesserThan"
  | .greaterThanOrEqual => "greaterThanOrEqual"
  | .lesserThanOrEqual => "lesserThanOrEqual"

def names : List (String × Comparison) :=
  [("equals", .equals), ("notEqual", .notEqual), ("contains", .contains),
    ("notContains", .notContains), ("greaterThan", .greaterThan), ("lesserThan", .lesserThan),
    ("greaterThanOrEqual", .greaterThanOrEqual), ("lesserThanOrEqual", .lesserThanOrEqual)]

def encode (c : Comparison) : Json := .str c.name

def decode : Json.Decoder Comparison := Json.choice names

end Comparison

/-- How a filter joins those before it. -/
inductive Connective where
  | and
  | or
deriving DecidableEq, Repr

namespace Connective

def name : Connective → String
  | .and => "AND"
  | .or => "OR"

def names : List (String × Connective) := [("AND", .and), ("and", .and), ("OR", .or), ("or", .or)]

def encode (c : Connective) : Json := .str c.name

def decode : Json.Decoder Connective := Json.choice names

end Connective

structure Filter where
  objectType : String
  propertyName : String
  isMapping : Bool
  dataType : DataType
  entity : String
  comparison : Comparison
  value : String
  connective : Connective
deriving DecidableEq, Repr

namespace Filter

def encode (f : Filter) : Json :=
  .obj [("object_type", .str f.objectType), ("property_name", .str f.propertyName),
    ("is_property_mapping", .bool f.isMapping), ("data_type", f.dataType.encode),
    ("entity", .str f.entity), ("operator", f.comparison.encode), ("value", .str f.value),
    ("logical_op", f.connective.encode)]

def decode : Json.Decoder Filter := Json.record 8 fun f =>
  Filter.mk <$> f.withDefault 0 ["object_type", "objTy"] Json.text ""
    <*> f.required 1 ["property_name", "prNa"] Json.text
    <*> f.withDefault 2 ["is_property_mapping", "isPrMa"] Json.flag false
    <*> f.withDefault 3 ["data_type", "prDaTy"] DataType.decode .categorical
    <*> f.withDefault 4 ["entity", "en"] Json.text ""
    <*> f.required 5 ["operator", "co"] Comparison.decode
    <*> f.withDefault 6 ["value", "va"] Json.text ""
    <*> f.withDefault 7 ["logical_op", "lOp"] Connective.decode .and

end Filter

structure GroupBy where
  objectType : String
  propertyName : String
  isMapping : Bool
  dataType : DataType
  entity : String
deriving DecidableEq, Repr

namespace GroupBy

def encode (g : GroupBy) : Json :=
  .obj [("object_type", .str g.objectType), ("property_name", .str g.propertyName),
    ("is_property_mapping", .bool g.isMapping), ("data_type", g.dataType.encode),
    ("entity", .str g.entity)]

def decode : Json.Decoder GroupBy := Json.record 5 fun f =>
  GroupBy.mk <$> f.withDefault 0 ["object_type", "objTy"] Json.text ""
    <*> f.required 1 ["property_name", "prNa"] Json.text
    <*> f.withDefault 2 ["is_property_mapping", "isPrMa"] Json.flag false
    <*> f.withDefault 3 ["data_type", "prDaTy"] DataType.decode .categorical
    <*> f.withDefault 4 ["entity", "en"] Json.text ""

end GroupBy

end FederatedMetrics
