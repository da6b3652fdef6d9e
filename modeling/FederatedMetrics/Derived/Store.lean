import FederatedMetrics.Derived.Definition

/-!
# Stored derived metrics

A project keeps its derived metrics under names that are unique in it and hold no blanks.
-/

namespace FederatedMetrics

/-- The identifier and the time that a new entity gets. -/
structure Stamp where
  id : Uuid
  createdAt : Timestamp
deriving DecidableEq, Repr

structure DerivedMetric where
  id : Uuid
  projectId : Int
  name : String
  description : String
  displayCategory : String
  definition : QueryGroup
  createdAt : Timestamp

def DerivedMetric.encode (m : DerivedMetric) : Json :=
  .obj [("id", .str m.id.text), ("project_id", .int m.projectId), ("name", .str m.name),
    ("description", .str m.description), ("display_category", .str m.displayCategory),
    ("definition", m.definition.encode), ("created_at", .str m.createdAt.text)]

/-- What a client sends to create a derived metric. -/
structure NewDerivedMetric where
  name : String
  description : String
  displayCategory : String
  definition : QueryGroup

namespace NewDerivedMetric

def encode (m : NewDerivedMetric) : Json :=
  .obj [("name", .str m.name), ("description", .str m.description),
    ("display_category", .str m.displayCategory), ("definition", m.definition.encode)]

def decode : Json.Decoder NewDerivedMetric := Json.record 4 fun f =>
  NewDerivedMetric.mk <$> f.required 0 ["name"] Json.text
    <*> f.withDefault 1 ["description"] Json.text ""
    <*> f.withDefault 2 ["display_category"] Json.text ""
    <*> f.required 3 ["definition", "transformations"] QueryGroup.decode

end NewDerivedMetric

/-- The display category of derived metrics that name none. -/
def othersDisplayCategory : String := "others"

/-- The derived metrics of all projects in order of creation. -/
abbrev DerivedStore := List DerivedMetric

namespace DerivedStore

def find? (s : DerivedStore) (projectId : Int) (name : String) : Option DerivedMetric :=
  List.find? (fun m => m.projectId = projectId && m.name = name) s

def ofProject (s : DerivedStore) (projectId : Int) : List DerivedMetric :=
  List.filter (fun m => m.projectId = projectId) s

def get (s : DerivedStore) (projectId : Int) (name : String) : Except Failure DerivedMetric :=
  match s.find? projectId name with
  | some m => .ok m
  | none => .error (.derivedNotFound name)

/-- Create a derived metric and put it at the end of the store. -/
def create (s : DerivedStore) (stamp : Stamp) (projectId : Int) (request : NewDerivedMetric) :
    Except Failure (DerivedMetric × DerivedStore) := do
  let name := Text.trim request.name
  if name = "" || Text.hasBlank name then throw .invalidMetricName
  let _ ← request.definition.validateDefinition
  let displayCategory :=
    if Text.isBlankText request.displayCategory then othersDisplayCategory
    else request.displayCategory
  if (s.find? projectId name).isSome then throw .nameTaken
  let metric : DerivedMetric :=
    ⟨stamp.id, projectId, name, request.description, displayCategory, request.definition,
      stamp.createdAt⟩
  return (metric, s ++ [metric])

/-- Delete the derived metric of a project with an identifier. -/
def delete (s : DerivedStore) (projectId : Int) (id : Uuid) : Except Failure DerivedStore :=
  let isTarget (m : DerivedMetric) : Bool := m.projectId = projectId && m.id = id
  if s.any isTarget then .ok (List.filter (fun m => !isTarget m) s)
  else .error (.derivedIdNotFound id)

end DerivedStore

end FederatedMetrics
