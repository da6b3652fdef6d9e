import FederatedMetrics.Executor
import FederatedMetrics.Mapping.Store

/-!
# Values for filters

A client that builds a filter asks for the values of a property. For a mapping these are the values
of all its properties together.
-/

namespace FederatedMetrics

structure FilterValuesRequest where
  category : Option Category
  displayCategory : String
  objectType : String
  propertyName : String
  entity : String
  isMapping : Bool
deriving DecidableEq, Repr

namespace FilterValuesRequest

def encode (r : FilterValuesRequest) : Json :=
  .obj [("category", r.category.elim .null Category.encode),
    ("display_category", .str r.displayCategory), ("object_type", .str r.objectType),
    ("property_name", .str r.propertyName), ("entity", .str r.entity),
    ("is_property_mapping", .bool r.isMapping)]

def decode : Json.Decoder FilterValuesRequest := Json.record 6 fun f =>
  FilterValuesRequest.mk <$> f.withDefault 0 ["category", "ca"] (Json.nullable Category.decode) none
    <*> f.withDefault 1 ["display_category", "dc"] Json.text ""
    <*> f.withDefault 2 ["object_type", "objTy"] Json.text ""
    <*> f.required 3 ["property_name", "prNa"] Json.text
    <*> f.withDefault 4 ["entity", "en"] Json.text ""
    <*> f.withDefault 5 ["is_property_mapping", "isPrMa"] Json.flag false

/-- The properties that a request asks about. -/
def properties (mappings : MappingStore) (projectId : Int) (r : FilterValuesRequest) :
    Except Failure (List Property) :=
  if Text.isBlankText r.propertyName then .error .missingPropertyName
  else if r.isMapping then (mappings.get projectId r.propertyName).map (·.properties)
  else
    match r.category with
    | some category =>
        .ok [⟨category, r.displayCategory, r.objectType, r.propertyName, .categorical, r.entity⟩]
    | none => .error .missingCategory

/-- Add the values of properties to those already found. -/
def collect (registry : Registry) (projectId : Int) :
    List Property → List String → Reply (List String)
  | [], found => .now (.ok found)
  | p :: rest, found =>
      match registry.get p.category with
      | .error f => .now (.error f)
      | .ok executor =>
          (executor.filterValues projectId p).bind fun values =>
            collect registry projectId rest (values.foldl (fun vs v => Ordered.insert v vs) found)

/-- The distinct values in ascending order and up to the limit. -/
def lookup (mappings : MappingStore) (registry : Registry) (projectId : Int)
    (r : FilterValuesRequest) : Reply (List String) :=
  match r.properties mappings projectId with
  | .error f => .now (.error f)
  | .ok properties =>
      (collect registry projectId properties []).andThen fun found =>
        found.map fun values => values.take RecordStore.maxFilterValues

end FilterValuesRequest

end FederatedMetrics
