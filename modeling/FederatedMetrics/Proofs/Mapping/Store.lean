import FederatedMetrics.Mapping.Store
import FederatedMetrics.Proofs.Derived.Store
import FederatedMetrics.Proofs.Mapping.Name

/-!
# Stores of mappings

No two mappings of a project have the same name, and no name holds a blank. Creating a mapping keeps
it so, because the normal form of a name joins its words by underscores; deleting does as well.
-/

namespace FederatedMetrics

namespace MappingStore

variable {s later : MappingStore} {projectId : Int}

/-- The mappings of every project have different names, and names without blanks. -/
structure Sound (s : MappingStore) : Prop where
  distinct : s.Pairwise fun m other => m.projectId = other.projectId → m.name ≠ other.name
  unblank : ∀ m ∈ s, Text.hasBlank m.name = false

theorem sound_nil : Sound [] := ⟨.nil, by simp⟩

/-- A new mapping comes behind those of the store; its name is a normal form that the project has not
used. -/
theorem of_create {stamp : Stamp} {displayName : String} {properties : List Property}
    {m : PropertyMapping} (h : s.create stamp projectId displayName properties = .ok (m, later)) :
    later = s ++ [m] ∧ m.id = stamp.id ∧ m.projectId = projectId ∧
      m.name = PropertyMapping.normalizeName displayName ∧ s.find? projectId m.name = none := by
  rw [create] at h
  obtain ⟨-, h⟩ := guard_eq_ok_iff.mp h
  obtain ⟨-, h⟩ := check_bind_eq_ok_iff.mp h
  obtain ⟨hfree, h⟩ := guard_eq_ok_iff.mp h
  cases h
  exact ⟨rfl, rfl, rfl, rfl, by simpa using hfree⟩

/-- Deleting leaves the other mappings in their order. -/
theorem sublist_of_delete {id : Uuid} (h : s.delete projectId id = .ok later) : later.Sublist s := by
  rw [delete] at h
  split at h
  · cases h
    exact List.filter_sublist
  · cases h

/-- A store stays sound when a mapping with a new name and without blanks in it comes behind the
others. -/
theorem Sound.append (hs : s.Sound) {m : PropertyMapping}
    (hfree : s.find? m.projectId m.name = none) (hunblank : Text.hasBlank m.name = false) :
    MappingStore.Sound (s ++ [m]) := by
  constructor
  · refine List.pairwise_append.mpr ⟨hs.distinct, List.pairwise_singleton _ _, ?_⟩
    intro other hother new hnew hproject hsame
    obtain rfl := List.mem_singleton.mp hnew
    have hused := List.find?_eq_none.mp hfree other hother
    simp [hproject, hsame] at hused
  · intro other hother
    rcases List.mem_append.mp hother with hold | hnew
    · exact hs.unblank other hold
    · obtain rfl := List.mem_singleton.mp hnew
      exact hunblank

/-- A store stays sound when a mapping is created. -/
theorem Sound.create (hs : s.Sound) {stamp : Stamp} {displayName : String}
    {properties : List Property} {m : PropertyMapping}
    (h : s.create stamp projectId displayName properties = .ok (m, later)) : later.Sound := by
  obtain ⟨rfl, -, rfl, hname, hfree⟩ := of_create h
  apply hs.append hfree
  rw [hname]
  exact PropertyMapping.hasBlank_normalizeName displayName

/-- A store stays sound when mappings are taken out. -/
theorem Sound.of_sublist (hs : s.Sound) (h : later.Sublist s) : later.Sound :=
  ⟨hs.distinct.sublist h, fun m hm => hs.unblank m (h.subset hm)⟩

/-- In a sound store a mapping is found by its name. -/
theorem Sound.find?_eq_some (hs : s.Sound) {m : PropertyMapping} (hm : m ∈ s) :
    s.find? m.projectId m.name = some m :=
  find?_eq_some_of_distinct hs.distinct hm

theorem Sound.nodup (hs : s.Sound) : s.Nodup := by
  refine hs.distinct.imp ?_
  intro m other hdiffers hsame
  exact hdiffers (congrArg PropertyMapping.projectId hsame) (congrArg PropertyMapping.name hsame)

end MappingStore

end FederatedMetrics
