import FederatedMetrics.Proofs.Mapping.Store
import FederatedMetrics.Workspace.Operation

/-!
# Workspaces that are reached by operations

Of all operations only two change the mappings of a workspace, and two the derived metrics. What holds
of entities in a workspace that has none, and is kept by creating and by deleting one, holds wherever
operations lead.
-/

namespace FederatedMetrics.Workspace

variable {w : Workspace}

/-- What operations make of a workspace without entities, while time goes on. -/
inductive Reached : Workspace → Prop
  | fresh (zones : Zones) (backends : PerCategory (Option Backend)) (options : ExecutionOptions)
      (ids : Nat → Uuid) : Reached (.fresh zones backends options ids)
  | perform {w : Workspace} (h : Reached w) (operation : Operation) :
      Reached (w.perform operation).2
  | wait {w : Workspace} (h : Reached w) (clock : Timestamp) : Reached { w with clock := clock }

/-- The identifiers in order of their issue. -/
def issuedIds (w : Workspace) : List Uuid := (List.range w.issued).map w.ids

/-- What an operation can do to the entities. A new entity takes the next identifier. -/
inductive EntityStep (w later : Workspace) : Prop
  | kept (hmappings : later.mappings = w.mappings) (hderived : later.derived = w.derived)
      (hids : later.issuedIds = w.issuedIds)
  | createdMapping {projectId : Int} {displayName : String} {properties : List Property}
      {m : PropertyMapping}
      (hcreate : w.mappings.create w.nextStamp projectId displayName properties =
        .ok (m, later.mappings))
      (hderived : later.derived = w.derived) (hids : later.issuedIds = w.issuedIds ++ [w.nextStamp.id])
  | deletedMapping {projectId : Int} {id : Uuid}
      (hdelete : w.mappings.delete projectId id = .ok later.mappings)
      (hderived : later.derived = w.derived) (hids : later.issuedIds = w.issuedIds)
  | createdDerived {projectId : Int} {request : NewDerivedMetric} {m : DerivedMetric}
      (hcreate : w.derived.create w.nextStamp projectId request = .ok (m, later.derived))
      (hmappings : later.mappings = w.mappings)
      (hids : later.issuedIds = w.issuedIds ++ [w.nextStamp.id])
  | deletedDerived {projectId : Int} {id : Uuid}
      (hdelete : w.derived.delete projectId id = .ok later.derived)
      (hmappings : later.mappings = w.mappings) (hids : later.issuedIds = w.issuedIds)

theorem issuedIds_succ (w : Workspace) :
    (List.range (w.issued + 1)).map w.ids = w.issuedIds ++ [w.nextStamp.id] := by
  rw [List.range_succ, List.map_append, issuedIds]
  rfl

theorem entityStep_refl (w : Workspace) : EntityStep w w := .kept rfl rfl rfl

theorem entityStep_createMapping (w : Workspace) (projectId : Int) (displayName : String)
    (properties : List Property) :
    EntityStep w (w.createMapping projectId displayName properties).2 := by
  rw [createMapping]
  split
  · exact entityStep_refl w
  · rename_i m mappings hcreate
    exact .createdMapping hcreate rfl w.issuedIds_succ

theorem entityStep_createDerived (w : Workspace) (projectId : Int)
    (request : NewDerivedMetric) : EntityStep w (w.createDerived projectId request).2 := by
  rw [createDerived]
  split
  · exact entityStep_refl w
  · rename_i m derived hcreate
    exact .createdDerived hcreate rfl w.issuedIds_succ

theorem entityStep_deleteMapping (w : Workspace) (projectId : Int) (id : Uuid) :
    EntityStep w (w.deleteMapping projectId id).2 := by
  rw [deleteMapping]
  split
  · exact entityStep_refl w
  · rename_i mappings hdelete
    exact .deletedMapping hdelete rfl rfl

theorem entityStep_deleteDerived (w : Workspace) (projectId : Int) (id : Uuid) :
    EntityStep w (w.deleteDerived projectId id).2 := by
  rw [deleteDerived]
  split
  · exact entityStep_refl w
  · rename_i derived hdelete
    exact .deletedDerived hdelete rfl rfl

theorem entityStep_resolving {α : Type} (w : Workspace) (x : Resolving α) :
    EntityStep w (w.resolving x).2 := by
  rw [resolving]
  rcases x.run.run .fresh with ⟨result, lookups⟩
  exact .kept rfl rfl rfl

theorem entityStep_executeGroup (w : Workspace) (projectId : Int) (group : QueryGroup)
    (combine : Bool) (options : ExecutionOptions) :
    EntityStep w (w.executeGroup projectId group combine options).2 := by
  rw [executeGroup]
  rcases w.engine.execute projectId group options combine w.counters with ⟨outcome, counters⟩
  exact .kept rfl rfl rfl

/-- An operation keeps the entities, creates one or deletes some. -/
theorem entityStep_perform (w : Workspace) (operation : Operation) :
    EntityStep w (w.perform operation).2 := by
  cases operation with
  | createMapping projectId displayName properties =>
      simp only [perform_createMapping]
      exact entityStep_createMapping w projectId displayName properties
  | deleteMapping projectId id =>
      simp only [perform_deleteMapping]
      exact entityStep_deleteMapping w projectId id
  | createDerived projectId request =>
      simp only [perform_createDerived]
      exact entityStep_createDerived w projectId request
  | deleteDerived projectId id =>
      simp only [perform_deleteDerived]
      exact entityStep_deleteDerived w projectId id
  | normalize projectId group =>
      simp only [perform_normalize]
      exact entityStep_resolving w ((w.source projectId).normalize w.derived group)
  | executeGroup projectId group combine options =>
      simp only [perform_executeGroup]
      exact entityStep_executeGroup w projectId group combine options
  | _ => exact .kept rfl rfl rfl

/-- In a workspace that has been reached, the mappings are sound and come in the order in which their
identifiers have been issued. -/
theorem Reached.mappings (h : w.Reached) :
    w.mappings.Sound ∧ (w.mappings.map (·.id)).Sublist w.issuedIds := by
  induction h with
  | fresh backends options ids => exact ⟨MappingStore.sound_nil, List.nil_sublist _⟩
  | wait _ clock ih => exact ih
  | @perform w _ operation ih =>
      obtain ⟨hsound, hids⟩ := ih
      cases entityStep_perform w operation with
      | kept hmappings _ hissued =>
          rw [hmappings, hissued]
          exact ⟨hsound, hids⟩
      | createdMapping hcreate _ hissued =>
          refine ⟨hsound.create hcreate, ?_⟩
          obtain ⟨hlater, hid, -⟩ := MappingStore.of_create hcreate
          rw [hlater, hissued, List.map_append, List.map_singleton, hid]
          exact hids.append (List.Sublist.refl _)
      | deletedMapping hdelete _ hissued =>
          have hsublist := MappingStore.sublist_of_delete hdelete
          rw [hissued]
          exact ⟨hsound.of_sublist hsublist, (hsublist.map _).trans hids⟩
      | createdDerived _ hmappings hissued =>
          rw [hmappings, hissued]
          exact ⟨hsound, hids.trans (List.sublist_append_left _ _)⟩
      | deletedDerived _ hmappings hissued =>
          rw [hmappings, hissued]
          exact ⟨hsound, hids⟩

/-- In a workspace that has been reached, the derived metrics are valid. -/
theorem Reached.derived (h : w.Reached) : w.derived.Valid := by
  induction h with
  | fresh backends options ids => exact DerivedStore.valid_nil
  | wait _ clock ih => exact ih
  | @perform w _ operation ih =>
      cases entityStep_perform w operation with
      | kept _ hderived _ => exact hderived ▸ ih
      | createdMapping _ hderived _ => exact hderived ▸ ih
      | deletedMapping _ hderived _ => exact hderived ▸ ih
      | createdDerived hcreate _ _ => exact ih.create hcreate
      | deletedDerived hdelete _ _ => exact ih.of_sublist (DerivedStore.sublist_of_delete hdelete)

end FederatedMetrics.Workspace
