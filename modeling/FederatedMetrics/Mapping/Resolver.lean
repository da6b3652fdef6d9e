import FederatedMetrics.Mapping.Store

/-!
# Resolving mappings for one group

While a group is planned, each mapping name is looked up in the store at most once. Later look-ups
of the name, also of one that does not exist, are served from memory. The resolver counts both.
-/

namespace FederatedMetrics

/-- What has been looked up so far, and how often a look-up was served from memory or from the
store. -/
structure Resolver where
  known : List (String × Option PropertyMapping)
  hits : Nat
  misses : Nat
deriving DecidableEq, Repr

def Resolver.fresh : Resolver := ⟨[], 0, 0⟩

/-- A computation that looks up mappings and may fail. The look-ups count even if it fails. -/
abbrev Resolving (α : Type) := ExceptT Failure (StateM Resolver) α

/-- What names stand for while a group of a project is planned: the mappings of the project in a
store, and the time zones. -/
structure MappingSource where
  store : MappingStore
  projectId : Int
  zones : Zones

namespace MappingSource

/-- Look a name up, in memory first. -/
def lookup (source : MappingSource) (name : String) (r : Resolver) :
    Option PropertyMapping × Resolver :=
  match r.known.lookup name with
  | some found => (found, { r with hits := r.hits + 1 })
  | none =>
      let found := source.store.find? source.projectId name
      (found, { r with known := (name, found) :: r.known, misses := r.misses + 1 })

def mapping (source : MappingSource) (name : String) : Resolving PropertyMapping :=
  ExceptT.mk fun r =>
    match source.lookup name r with
    | (some m, r) => (.ok m, r)
    | (none, r) => (.error (.mappingNotFound name), r)

def resolve (source : MappingSource) (name displayCategory : String) : Resolving Property := do
  let m ← source.mapping name
  liftM (m.property displayCategory)

end MappingSource

end FederatedMetrics
