import FederatedMetrics.Mapping.Name
import FederatedMetrics.Derived.Store

/-!
# Stored property mappings

A project keeps its mappings under the normal forms of their display names. The properties of a
mapping have one data type and belong to different display categories.
-/

namespace FederatedMetrics

/-- Check the properties of a new mapping. -/
def validateProperties (properties : List Property) : Except Failure Unit :=
  match properties with
  | [] => .error .invalidProperties
  | p :: _ =>
      if properties.any fun p => Text.isBlankText p.displayCategory || Text.isBlankText p.name then
        .error .invalidProperties
      else if properties.any fun other => other.dataType ≠ p.dataType then .error .mixedDataTypes
      else if (properties.map (·.displayCategory)).eraseDups.length ≠ properties.length then
        .error .repeatedDisplayCategory
      else .ok ()

/-- The property of a mapping for a display category. -/
def PropertyMapping.property (m : PropertyMapping) (displayCategory : String) :
    Except Failure Property :=
  match m.propertyFor? displayCategory with
  | some p => .ok p
  | none => .error (.uncovered m.name displayCategory)

/-- One entry of a look-up of common mappings: a display category, or a derived metric that stands
for those of its sub-queries. -/
structure CommonRequest where
  name : String
  isDerived : Bool
deriving DecidableEq, Repr

namespace CommonRequest

def encode (r : CommonRequest) : Json :=
  .obj [("name", .str r.name), ("derived_kpi", .bool r.isDerived)]

def decode : Json.Decoder CommonRequest := Json.record 2 fun f =>
  CommonRequest.mk <$> f.required 0 ["name"] Json.text
    <*> f.withDefault 1 ["derived_kpi"] Json.flag false

/-- The display categories that an entry stands for. -/
def displayCategories (derived : DerivedStore) (projectId : Int) (r : CommonRequest) :
    Except Failure (List String) :=
  if r.isDerived then do
    let m ← derived.get projectId r.name
    return m.definition.displayCategories
  else .ok [r.name]

end CommonRequest

/-- The mappings of all projects in order of creation. -/
abbrev MappingStore := List PropertyMapping

namespace MappingStore

def find? (s : MappingStore) (projectId : Int) (name : String) : Option PropertyMapping :=
  List.find? (fun m => m.projectId = projectId && m.name = name) s

def ofProject (s : MappingStore) (projectId : Int) : List PropertyMapping :=
  List.filter (fun m => m.projectId = projectId) s

def get (s : MappingStore) (projectId : Int) (name : String) : Except Failure PropertyMapping :=
  match s.find? projectId name with
  | some m => .ok m
  | none => .error (.mappingNotFound name)

/-- Create a mapping and put it at the end of the store. -/
def create (s : MappingStore) (stamp : Stamp) (projectId : Int) (displayName : String)
    (properties : List Property) : Except Failure (PropertyMapping × MappingStore) := do
  let name := PropertyMapping.normalizeName displayName
  if name = "" then throw .invalidDisplayName
  validateProperties properties
  if (s.find? projectId name).isSome then throw .nameTaken
  let mapping : PropertyMapping :=
    ⟨stamp.id, projectId, Text.trim displayName, name, properties, stamp.createdAt⟩
  return (mapping, s ++ [mapping])

/-- Delete the mapping of a project with an identifier. -/
def delete (s : MappingStore) (projectId : Int) (id : Uuid) : Except Failure MappingStore :=
  let isTarget (m : PropertyMapping) : Bool := m.projectId = projectId && m.id = id
  if s.any isTarget then .ok (List.filter (fun m => !isTarget m) s)
  else .error (.mappingIdNotFound id)

/-- The property that a mapping has for a display category. -/
def resolve (s : MappingStore) (projectId : Int) (name displayCategory : String) :
    Except Failure Property := do
  let mapping ← s.get projectId name
  mapping.property displayCategory

/-- The mappings of a project that cover all display categories of a request, in order of
creation. -/
def findCommon (s : MappingStore) (derived : DerivedStore) (projectId : Int)
    (requests : List CommonRequest) : Except Failure (List PropertyMapping) := do
  let displayCategories ← requests.mapM (CommonRequest.displayCategories derived projectId)
  return (s.ofProject projectId).filter fun m => displayCategories.flatten.all m.covers

end MappingStore

end FederatedMetrics
