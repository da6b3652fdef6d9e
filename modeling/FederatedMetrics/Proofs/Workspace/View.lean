import FederatedMetrics.Proofs.Derived.Store
import FederatedMetrics.Proofs.Engine.Agreement
import FederatedMetrics.Proofs.Mapping.Validity
import FederatedMetrics.Workspace.Operation

/-!
# What a project sees of a workspace

All projects share the stores of a workspace. The view of a project holds what is its own: its
mappings and derived metrics under renamed identifiers and without times, and its records. Whatever
the project looks up, its view answers as the whole does, and what it creates or deletes is created
or deleted in the view alike. What other projects do cannot be seen in the view.
-/

namespace FederatedMetrics

/-- A stamp with its identifier renamed and without its time. -/
def Stamp.seen (ρ : Uuid → Uuid) (stamp : Stamp) : Stamp := ⟨ρ stamp.id, .zero⟩

/-- A failure to find an identifier, under the new name of it. -/
def Failure.renamed (ρ : Uuid → Uuid) : Failure → Failure
  | .mappingIdNotFound id => .mappingIdNotFound (ρ id)
  | .derivedIdNotFound id => .derivedIdNotFound (ρ id)
  | f => f

/-- What the entities of a kind have in common, and how they look under a renaming of identifiers. -/
structure Look (α : Type) (ρ : Uuid → Uuid) where
  projectId : α → Int
  name : α → String
  id : α → Uuid
  seen : α → α
  projectId_seen : ∀ a, projectId (seen a) = projectId a
  name_seen : ∀ a, name (seen a) = name a
  id_seen : ∀ a, id (seen a) = ρ (id a)

namespace Look

variable {α : Type} {ρ : Uuid → Uuid} (look : Look α ρ) (projectId : Int) (items : List α)

/-- What a project sees of the entities of all projects. -/
def view : List α := (items.filter fun a => look.projectId a = projectId).map look.seen

/-- Whether an entity is the one that a project deletes. -/
def isTarget (id : Uuid) (a : α) : Bool := look.projectId a = projectId && look.id a = id

theorem view_append {a : α} (h : look.projectId a = projectId) :
    look.view projectId (items ++ [a]) = look.view projectId items ++ [look.seen a] := by
  simp [view, h]

theorem view_append_of_ne {a : α} (h : look.projectId a ≠ projectId) :
    look.view projectId (items ++ [a]) = look.view projectId items := by
  simp [view, h]

/-- A name is found in the view as in the whole. -/
theorem find?_view (name : String) :
    (look.view projectId items).find? (fun a => look.projectId a = projectId && look.name a = name) =
      (items.find? fun a => look.projectId a = projectId && look.name a = name).map look.seen := by
  rw [view, List.find?_map, List.find?_filter]
  congr 2
  funext a
  simp [look.projectId_seen, look.name_seen]

/-- All entities of the view belong to the project. -/
theorem filter_view_self :
    (look.view projectId items).filter (fun a => look.projectId a = projectId) =
      look.view projectId items := by
  apply List.filter_eq_self.mpr
  intro a ha
  obtain ⟨b, hb, rfl⟩ := List.mem_map.mp ha
  simpa [look.projectId_seen] using (List.mem_filter.mp hb).2

theorem isTarget_seen (hρ : Function.Injective ρ) (id : Uuid) (a : α) :
    look.isTarget projectId (ρ id) (look.seen a) = look.isTarget projectId id a := by
  rw [isTarget, isTarget, look.projectId_seen, look.id_seen]
  simp [hρ.eq_iff]

/-- Delete the entity of a project with an identifier, or fail if there is none. -/
def delete (id : Uuid) (missing : Failure) : Except Failure (List α) :=
  if items.any (look.isTarget projectId id) then
    .ok (items.filter fun a => !look.isTarget projectId id a)
  else .error missing

/-- An entity is deleted in the view, under its new identifier, as in the whole. -/
theorem delete_view (hρ : Function.Injective ρ) (id : Uuid) (missing : Failure) :
    look.delete projectId (look.view projectId items) (ρ id) (missing.renamed ρ) =
      ((look.delete projectId items id missing).map (look.view projectId)).mapError
        (Failure.renamed ρ) := by
  have hany : (look.view projectId items).any (look.isTarget projectId (ρ id)) =
      items.any (look.isTarget projectId id) := by
    rw [view, List.any_map, List.any_filter]
    congr 1
    funext a
    rw [Function.comp_apply, isTarget_seen look projectId hρ, isTarget, ← Bool.and_assoc, Bool.and_self]
  have hfilter : (look.view projectId items).filter (fun a => !look.isTarget projectId (ρ id) a) =
      look.view projectId (items.filter fun a => !look.isTarget projectId id a) := by
    have hcomp : (fun a => !look.isTarget projectId (ρ id) a) ∘ look.seen =
        fun a => !look.isTarget projectId id a :=
      funext fun a => congrArg not (look.isTarget_seen projectId hρ id a)
    rw [view, List.filter_map, hcomp, view, List.filter_comm]
  rw [delete, hany, hfilter, delete]
  split <;> rfl

/-- What another project deletes is not missed. -/
theorem view_of_delete {other : Int} (hother : other ≠ projectId) (id : Uuid) (missing : Failure)
    {later : List α} (h : look.delete other items id missing = .ok later) :
    look.view projectId later = look.view projectId items := by
  rw [delete] at h
  split at h
  · cases h
    rw [view, List.filter_filter, view]
    congr 1
    apply List.filter_congr
    intro a _
    by_cases ha : look.projectId a = projectId
    · simp [isTarget, ha, hother.symm]
    · simp [ha]
  · cases h

end Look

/-- A mapping with its identifier renamed and without its time. -/
def PropertyMapping.seen (ρ : Uuid → Uuid) (m : PropertyMapping) : PropertyMapping :=
  { m with id := ρ m.id, createdAt := .zero }

def PropertyMapping.look (ρ : Uuid → Uuid) : Look PropertyMapping ρ where
  projectId := PropertyMapping.projectId
  name := PropertyMapping.name
  id := PropertyMapping.id
  seen := PropertyMapping.seen ρ
  projectId_seen _ := rfl
  name_seen _ := rfl
  id_seen _ := rfl

/-- A derived metric with its identifier renamed and without its time. -/
def DerivedMetric.seen (ρ : Uuid → Uuid) (m : DerivedMetric) : DerivedMetric :=
  { m with id := ρ m.id, createdAt := .zero }

def DerivedMetric.look (ρ : Uuid → Uuid) : Look DerivedMetric ρ where
  projectId := DerivedMetric.projectId
  name := DerivedMetric.name
  id := DerivedMetric.id
  seen := DerivedMetric.seen ρ
  projectId_seen _ := rfl
  name_seen _ := rfl
  id_seen _ := rfl

namespace DerivedStore

variable (s : DerivedStore) (projectId : Int) (ρ : Uuid → Uuid)

/-- What a project sees of the derived metrics of all projects. -/
def viewOf : DerivedStore := (DerivedMetric.look ρ).view projectId s

/-- Nothing is renamed twice. -/
theorem viewOf_viewOf : (s.viewOf projectId ρ).viewOf projectId id = s.viewOf projectId ρ := by
  calc (s.viewOf projectId ρ).viewOf projectId id
    _ = List.map (DerivedMetric.seen id) (s.viewOf projectId ρ) :=
        congrArg (List.map _) ((DerivedMetric.look ρ).filter_view_self projectId s)
    _ = s.viewOf projectId ρ := List.map_map

theorem ofProject_viewOf :
    (s.viewOf projectId ρ).ofProject projectId = (s.ofProject projectId).map (.seen ρ) :=
  (DerivedMetric.look ρ).filter_view_self projectId s

theorem find?_viewOf (name : String) :
    (s.viewOf projectId ρ).find? projectId name = (s.find? projectId name).map (.seen ρ) :=
  (DerivedMetric.look ρ).find?_view projectId s name

theorem get_viewOf (name : String) :
    (s.viewOf projectId ρ).get projectId name = (s.get projectId name).map (.seen ρ) := by
  rw [get, get, find?_viewOf]
  cases s.find? projectId name <;> rfl

/-- A derived query has the same definition in the view. -/
theorem definitionOf_viewOf (q : Query) :
    MappingSource.definitionOf (s.viewOf projectId ρ) projectId q =
      MappingSource.definitionOf s projectId q := by
  rw [MappingSource.definitionOf, MappingSource.definitionOf]
  cases q.definition with
  | some definition => rfl
  | none =>
      dsimp only
      rw [get_viewOf]
      cases s.get projectId (q.metrics.headD "") <;> rfl

/-- A metric is created in the view as in the whole. -/
theorem create_viewOf (stamp : Stamp) (request : NewDerivedMetric) :
    (s.viewOf projectId ρ).create (stamp.seen ρ) projectId request =
      (s.create stamp projectId request).map fun created =>
        (created.1.seen ρ, created.2.viewOf projectId ρ) := by
  rw [create, create, find?_viewOf, Option.isSome_map]
  split
  · rfl
  cases request.definition.validateDefinition with
  | error f => rfl
  | ok formula =>
      cases (s.find? projectId (Text.trim request.name)).isSome with
      | true => rfl
      | false =>
          have happend := (DerivedMetric.look ρ).view_append projectId s
            (a := .ofRequest stamp projectId request) rfl
          exact congrArg (fun later => Except.ok (_, later)) happend.symm

theorem delete_viewOf {ρ : Uuid → Uuid} (hρ : Function.Injective ρ) (id : Uuid) :
    (s.viewOf projectId ρ).delete projectId (ρ id) =
      ((s.delete projectId id).map fun later => later.viewOf projectId ρ).mapError
        (Failure.renamed ρ) :=
  (DerivedMetric.look ρ).delete_view projectId s hρ id (.derivedIdNotFound id)

variable {s projectId} {later : DerivedStore} {other : Int}

/-- A project does not see what another one creates. -/
theorem viewOf_of_create (hother : other ≠ projectId) {stamp : Stamp} {request : NewDerivedMetric}
    {m : DerivedMetric} (h : s.create stamp other request = .ok (m, later)) :
    later.viewOf projectId ρ = s.viewOf projectId ρ := by
  obtain ⟨-, rfl, rfl⟩ := create_eq_ok_iff.mp h
  exact (DerivedMetric.look ρ).view_append_of_ne projectId s hother

theorem viewOf_of_delete (hother : other ≠ projectId) {id : Uuid}
    (h : s.delete other id = .ok later) : later.viewOf projectId ρ = s.viewOf projectId ρ :=
  (DerivedMetric.look ρ).view_of_delete projectId s hother id (.derivedIdNotFound id) h

end DerivedStore

namespace MappingStore

variable (s : MappingStore) (projectId : Int) (ρ : Uuid → Uuid)

/-- What a project sees of the mappings of all projects. -/
def viewOf : MappingStore := (PropertyMapping.look ρ).view projectId s

/-- Nothing is renamed twice. -/
theorem viewOf_viewOf : (s.viewOf projectId ρ).viewOf projectId id = s.viewOf projectId ρ := by
  calc (s.viewOf projectId ρ).viewOf projectId id
    _ = List.map (PropertyMapping.seen id) (s.viewOf projectId ρ) :=
        congrArg (List.map _) ((PropertyMapping.look ρ).filter_view_self projectId s)
    _ = s.viewOf projectId ρ := List.map_map

theorem ofProject_viewOf :
    (s.viewOf projectId ρ).ofProject projectId = (s.ofProject projectId).map (.seen ρ) :=
  (PropertyMapping.look ρ).filter_view_self projectId s

theorem find?_viewOf (name : String) :
    (s.viewOf projectId ρ).find? projectId name = (s.find? projectId name).map (.seen ρ) :=
  (PropertyMapping.look ρ).find?_view projectId s name

theorem get_viewOf (name : String) :
    (s.viewOf projectId ρ).get projectId name = (s.get projectId name).map (.seen ρ) := by
  rw [get, get, find?_viewOf]
  cases s.find? projectId name <;> rfl

/-- A mapping resolves to the same property in the view. -/
theorem resolve_viewOf (name displayCategory : String) :
    (s.viewOf projectId ρ).resolve projectId name displayCategory =
      s.resolve projectId name displayCategory := by
  rw [resolve, resolve, get_viewOf]
  cases s.get projectId name <;> rfl

/-- The common mappings in the view are those in the whole. -/
theorem findCommon_viewOf (derived : DerivedStore) (requests : List CommonRequest) :
    (s.viewOf projectId ρ).findCommon (derived.viewOf projectId ρ) projectId requests =
      (s.findCommon derived projectId requests).map (List.map (.seen ρ)) := by
  have hcategories : CommonRequest.displayCategories (derived.viewOf projectId ρ) projectId =
      CommonRequest.displayCategories derived projectId := by
    funext r
    rw [CommonRequest.displayCategories, CommonRequest.displayCategories, derived.get_viewOf]
    cases r.isDerived
    · rfl
    · cases derived.get projectId r.name <;> rfl
  rw [findCommon, findCommon, hcategories, ofProject_viewOf]
  cases requests.mapM (CommonRequest.displayCategories derived projectId) with
  | error f => rfl
  | ok categories => exact congrArg Except.ok List.filter_map

/-- A mapping is created in the view as in the whole. -/
theorem create_viewOf (stamp : Stamp) (displayName : String) (properties : List Property) :
    (s.viewOf projectId ρ).create (stamp.seen ρ) projectId displayName properties =
      (s.create stamp projectId displayName properties).map fun created =>
        (created.1.seen ρ, created.2.viewOf projectId ρ) := by
  rw [create, create, find?_viewOf, Option.isSome_map]
  split
  · rfl
  cases validateProperties properties with
  | error f => rfl
  | ok _ =>
      cases (s.find? projectId (PropertyMapping.normalizeName displayName)).isSome with
      | true => rfl
      | false =>
          have happend := (PropertyMapping.look ρ).view_append projectId s
            (a := ⟨stamp.id, projectId, Text.trim displayName,
              PropertyMapping.normalizeName displayName, properties, stamp.createdAt⟩) rfl
          exact congrArg (fun later => Except.ok (_, later)) happend.symm

theorem delete_viewOf {ρ : Uuid → Uuid} (hρ : Function.Injective ρ) (id : Uuid) :
    (s.viewOf projectId ρ).delete projectId (ρ id) =
      ((s.delete projectId id).map fun later => later.viewOf projectId ρ).mapError
        (Failure.renamed ρ) :=
  (PropertyMapping.look ρ).delete_view projectId s hρ id (.mappingIdNotFound id)

variable {s projectId} {later : MappingStore} {other : Int}

/-- A project does not see what another one creates. -/
theorem viewOf_of_create (hother : other ≠ projectId) {stamp : Stamp} {displayName : String}
    {properties : List Property} {m : PropertyMapping}
    (h : s.create stamp other displayName properties = .ok (m, later)) :
    later.viewOf projectId ρ = s.viewOf projectId ρ := by
  obtain ⟨rfl, -, rfl, -⟩ := of_create h
  exact (PropertyMapping.look ρ).view_append_of_ne projectId s hother

theorem viewOf_of_delete (hother : other ≠ projectId) {id : Uuid}
    (h : s.delete other id = .ok later) : later.viewOf projectId ρ = s.viewOf projectId ρ :=
  (PropertyMapping.look ρ).view_of_delete projectId s hother id (.mappingIdNotFound id) h

end MappingStore

namespace RecordStore

variable (s : RecordStore) (projectId : Int)

/-- The store with the records of one project. -/
def ofProject : RecordStore :=
  { s with records := s.records.filter fun r => r.projectId = projectId }

theorem ofProject_ofProject : (s.ofProject projectId).ofProject projectId = s.ofProject projectId := by
  simp [ofProject]

theorem ofProject_define (displayCategory name : String) (d : MetricDefinition) :
    (s.define displayCategory name d).ofProject projectId =
      (s.ofProject projectId).define displayCategory name d := rfl

theorem ofProject_insert (records : List Record) :
    (s.insert records).ofProject projectId =
      (s.ofProject projectId).insert (records.filter fun r => r.projectId = projectId) := by
  simp [ofProject, insert]

/-- The records of other projects do not matter to a selection of records of the project. -/
theorem filter_ofProject {p : Record → Bool} (h : ∀ r, p r = true → r.projectId = projectId) :
    (s.ofProject projectId).records.filter p = s.records.filter p := by
  rw [ofProject, List.filter_filter]
  apply List.filter_congr
  intro r _
  cases hp : p r with
  | false => rfl
  | true => simp [h r hp]

/-- A query of the project is answered from its records alone. -/
theorem answer_ofProject (r : ResolvedQuery) :
    (s.ofProject projectId).answer projectId r = s.answer projectId r := by
  have hwindow : (s.ofProject projectId).inWindow projectId r.query = s.inWindow projectId r.query :=
    s.filter_ofProject projectId fun _ hr => by simp_all
  have htabulate : (s.ofProject projectId).tabulate? projectId r = s.tabulate? projectId r := by
    funext definitions
    rw [tabulate?, tabulate?, hwindow]
  rw [answer, answer, htabulate]
  rfl

theorem filterValues_ofProject (p : Property) :
    (s.ofProject projectId).filterValues projectId p = s.filterValues projectId p := by
  rw [filterValues, filterValues, filter_ofProject s projectId fun _ hr => by simp_all]

end RecordStore

namespace PerCategory

variable {α β : Type}

def map (f : α → β) (x : PerCategory α) : PerCategory β := ⟨f x.events, f x.profiles, f x.channels⟩

theorem get_map (f : α → β) (x : PerCategory α) (c : Category) : (x.map f).get c = f (x.get c) := by
  cases c <;> rfl

theorem map_set (f : α → β) (x : PerCategory α) (c : Category) (a : α) :
    (x.set c a).map f = (x.map f).set c (f a) := by
  cases c <;> rfl

end PerCategory

namespace Workspace

variable (w : Workspace) (projectId : Int) (ρ : Uuid → Uuid)

/-- What a project sees of a workspace. -/
def viewOf : Workspace where
  mappings := w.mappings.viewOf projectId ρ
  derived := w.derived.viewOf projectId ρ
  zones := w.zones
  stores := w.stores.map fun s => s.ofProject projectId
  backends := w.backends
  options := w.options
  counters := .zero
  ids := fun _ => ⟨0⟩
  issued := 0
  clock := .zero

theorem viewOf_viewOf : (w.viewOf projectId ρ).viewOf projectId id = w.viewOf projectId ρ := by
  simp [viewOf, MappingStore.viewOf_viewOf, DerivedStore.viewOf_viewOf, PerCategory.map,
    RecordStore.ofProject_ofProject]

theorem viewOf_updateStore (c : Category) {f g : RecordStore → RecordStore}
    (h : ∀ s, (f s).ofProject projectId = g (s.ofProject projectId)) :
    (w.updateStore c f).viewOf projectId ρ = (w.viewOf projectId ρ).updateStore c g := by
  simp [viewOf, updateStore, PerCategory.map_set, PerCategory.get_map, h]

theorem agreeFor_registry :
    Registry.AgreeFor projectId (w.viewOf projectId ρ).registry w.registry := by
  intro c
  simp only [registry, viewOf, PerCategory.get_map]
  cases w.backends.get c with
  | none => rfl
  | some backend =>
      cases backend with
      | executor e => rfl
      | records =>
          simp [Registry.answersOf, Executor.ofStore, RecordStore.answer_ofProject,
            RecordStore.filterValues_ofProject]

theorem planned_viewOf (group : QueryGroup) :
    (w.viewOf projectId ρ).engine.planned projectId group = w.engine.planned projectId group := by
  have hproperties : MappingSource.SameProperties
      ((w.viewOf projectId ρ).source projectId) (w.source projectId) :=
    ⟨rfl, w.mappings.resolve_viewOf projectId ρ⟩
  exact hproperties.normalize (w.derived.definitionOf_viewOf projectId ρ) group

/-- Values are looked up in the view as in the whole. -/
theorem lookup_viewOf (request : FilterValuesRequest) :
    request.lookup (w.viewOf projectId ρ).mappings (w.viewOf projectId ρ).registry projectId =
      request.lookup w.mappings w.registry projectId := by
  have hproperties : request.properties (w.viewOf projectId ρ).mappings projectId =
      request.properties w.mappings projectId := by
    have hget : (w.viewOf projectId ρ).mappings.get projectId request.propertyName = _ :=
      w.mappings.get_viewOf projectId ρ request.propertyName
    rw [FilterValuesRequest.properties, hget, FilterValuesRequest.properties]
    cases w.mappings.get projectId request.propertyName <;> rfl
  rw [FilterValuesRequest.lookup, hproperties, FilterValuesRequest.lookup]
  simp only [(w.agreeFor_registry projectId ρ).collect]

theorem viewOf_executeGroup (other : Int) (group : QueryGroup) (combine : Bool)
    (options : ExecutionOptions) :
    (w.executeGroup other group combine options).2.viewOf projectId ρ = w.viewOf projectId ρ := by
  rw [executeGroup]
  generalize w.engine.execute other group options combine w.counters = answer
  rfl

theorem viewOf_resolving {α : Type} (x : Resolving α) :
    (w.resolving x).2.viewOf projectId ρ = w.viewOf projectId ρ := by
  rw [resolving]
  generalize x.run.run .fresh = answer
  rfl

end Workspace

end FederatedMetrics
