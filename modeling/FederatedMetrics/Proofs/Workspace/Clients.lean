import FederatedMetrics.Proofs.Mapping.Validity
import FederatedMetrics.Proofs.Workspace.Reached
import Mathlib.Data.List.Perm.Subperm

/-!
# Clients that create mappings side by side

A client that creates a mapping takes three steps: it checks the new mapping, puts it into the store
and counts it. Only one step at a time is made on a workspace, but between the steps of one client any
steps of the others may come. Whatever the order, the mappings stay valid, because the only look at
the names that are taken is made in the step that takes a name.
-/

namespace FederatedMetrics

/-- A workspace with what its clients have under way: the mappings that have been checked and wait to
be put into the store, and how many have been put there but not counted. -/
structure Clients where
  workspace : Workspace
  checked : List PropertyMapping
  uncounted : Nat

namespace Clients

/-- Check a new mapping, which gets its identifier and its time now. -/
def check (c : Clients) (projectId : Int) (displayName : String) (properties : List Property) :
    Except Failure PropertyMapping × Clients :=
  match PropertyMapping.ofRequest c.workspace.nextStamp projectId displayName properties with
  | .error f => (.error f, c)
  | .ok m =>
      (.ok m, { c with
        workspace := { c.workspace with issued := c.workspace.issued + 1 }
        checked := m :: c.checked })

/-- Put a checked mapping into the store. The client is done with it if that fails. -/
def insert (c : Clients) (m : PropertyMapping) : Except Failure PropertyMapping × Clients :=
  match c.workspace.mappings.insert m with
  | .error f => (.error f, { c with checked := c.checked.erase m })
  | .ok mappings =>
      (.ok m, {
        workspace := { c.workspace with mappings := mappings }
        checked := c.checked.erase m
        uncounted := c.uncounted + 1 })

/-- Count a mapping that has been put into the store. -/
def count (c : Clients) : Clients :=
  let counters := c.workspace.counters
  { c with
    workspace := { c.workspace with
      counters := { counters with mappingsCreated := counters.mappingsCreated + 1 } }
    uncounted := c.uncounted - 1 }

/-- What the steps of clients make of a workspace without entities, in any order, while time goes
on. -/
inductive Reached : Clients → Prop
  | fresh (zones : Zones) (backends : PerCategory (Option Backend)) (options : ExecutionOptions)
      (ids : Nat → Uuid) : Reached ⟨.fresh zones backends options ids, [], 0⟩
  | perform {c : Clients} (h : Reached c) (operation : Operation) :
      Reached { c with workspace := (c.workspace.perform operation).2 }
  | wait {c : Clients} (h : Reached c) (clock : Timestamp) :
      Reached { c with workspace := { c.workspace with clock := clock } }
  | check {c : Clients} (h : Reached c) (projectId : Int) (displayName : String)
      (properties : List Property) : Reached (c.check projectId displayName properties).2
  | insert {c : Clients} (h : Reached c) {m : PropertyMapping} (hm : m ∈ c.checked) :
      Reached (c.insert m).2
  | count {c : Clients} (h : Reached c) (huncounted : 0 < c.uncounted) : Reached c.count

/-- What every step keeps: the mappings are valid, those in the store and those under way, and no two
of them have got the same one of the identifiers that have been issued. -/
structure Kept (c : Clients) : Prop where
  stored : c.workspace.mappings.Valid
  checked : ∀ m ∈ c.checked, m.Valid
  ids : ((c.workspace.mappings ++ c.checked).map (·.id)).Subperm c.workspace.issuedIds

variable {c : Clients}

/-- One more mapping takes one more identifier. -/
theorem Kept.subperm_of_new (h : c.Kept) {m : PropertyMapping} {all : List PropertyMapping}
    (hall : all.Perm (c.workspace.mappings ++ c.checked ++ [m]))
    (hid : m.id = c.workspace.nextStamp.id) :
    (all.map (·.id)).Subperm (c.workspace.issuedIds ++ [c.workspace.nextStamp.id]) := by
  apply (hall.map _).subperm.trans
  rw [List.map_append, List.map_singleton, hid]
  exact h.ids.append (List.Subperm.refl _)

theorem Kept.perform (h : c.Kept) (operation : Operation) :
    Kept { c with workspace := (c.workspace.perform operation).2 } := by
  cases Workspace.entityStep_perform c.workspace operation with
  | kept hmappings _ hissued =>
      refine ⟨hmappings ▸ h.stored, h.checked, ?_⟩
      rw [hmappings, hissued]
      exact h.ids
  | @createdMapping projectId displayName properties m hcreate _ hissued =>
      refine ⟨h.stored.create hcreate, h.checked, ?_⟩
      obtain ⟨hlater, hid, -⟩ := MappingStore.of_create hcreate
      rw [hlater, hissued]
      apply h.subperm_of_new _ hid
      rw [List.append_assoc, List.append_assoc]
      exact List.perm_append_comm.append_left _
  | deletedMapping hdelete _ hissued =>
      have hsublist := MappingStore.sublist_of_delete hdelete
      refine ⟨h.stored.of_sublist hsublist, h.checked, ?_⟩
      rw [hissued]
      exact ((hsublist.append (List.Sublist.refl c.checked)).map _).subperm.trans h.ids
  | createdDerived _ hmappings hissued =>
      refine ⟨hmappings ▸ h.stored, h.checked, ?_⟩
      rw [hmappings, hissued]
      exact h.ids.trans (List.sublist_append_left _ _).subperm
  | deletedDerived _ hmappings hissued =>
      refine ⟨hmappings ▸ h.stored, h.checked, ?_⟩
      rw [hmappings, hissued]
      exact h.ids

theorem Kept.check (h : c.Kept) (projectId : Int) (displayName : String)
    (properties : List Property) : Kept (c.check projectId displayName properties).2 := by
  rw [Clients.check]
  split
  · exact h
  · rename_i m hm
    refine ⟨h.stored, List.forall_mem_cons.mpr ⟨PropertyMapping.valid_of_ofRequest hm, h.checked⟩, ?_⟩
    change ((c.workspace.mappings ++ m :: c.checked).map (·.id)).Subperm
      ((List.range (c.workspace.issued + 1)).map c.workspace.ids)
    have hid : m.id = c.workspace.nextStamp.id := by rw [PropertyMapping.of_ofRequest hm]
    rw [Workspace.issuedIds_succ]
    apply h.subperm_of_new _ hid
    rw [List.append_assoc]
    exact (List.perm_append_singleton m c.checked).symm.append_left _

theorem Kept.insert (h : c.Kept) {m : PropertyMapping} (hm : m ∈ c.checked) :
    Kept (c.insert m).2 := by
  have herased : ∀ other ∈ c.checked.erase m, other.Valid :=
    fun other hother => h.checked other (List.mem_of_mem_erase hother)
  rw [Clients.insert]
  split
  · refine ⟨h.stored, herased, ?_⟩
    have hsublist : (c.workspace.mappings ++ c.checked.erase m).Sublist
        (c.workspace.mappings ++ c.checked) := (List.Sublist.refl _).append List.erase_sublist
    exact (hsublist.map _).subperm.trans h.ids
  · rename_i mappings hinsert
    refine ⟨h.stored.insert (h.checked m hm) hinsert, herased, ?_⟩
    obtain ⟨-, rfl⟩ := MappingStore.insert_eq_ok_iff.mp hinsert
    have hmoved : (c.workspace.mappings ++ [m] ++ c.checked.erase m).Perm
        (c.workspace.mappings ++ c.checked) := by
      rw [List.append_assoc]
      exact (List.perm_cons_erase hm).symm.append_left _
    exact (hmoved.map _).subperm.trans h.ids

/-- Every step keeps the mappings valid and their identifiers apart. -/
theorem Reached.kept (h : c.Reached) : c.Kept := by
  induction h with
  | fresh backends options ids =>
      exact ⟨MappingStore.valid_nil, by simp, List.nil_subperm⟩
  | perform _ operation ih => exact ih.perform operation
  | wait _ clock ih => exact ⟨ih.stored, ih.checked, ih.ids⟩
  | check _ projectId displayName properties ih => exact ih.check projectId displayName properties
  | insert _ hm ih => exact ih.insert hm
  | count _ _ ih => exact ⟨ih.stored, ih.checked, ih.ids⟩

/-- The identifiers of stored mappings differ if those that have been issued do. -/
theorem Kept.nodup_ids (h : c.Kept) (hissued : c.workspace.issuedIds.Nodup) :
    (c.workspace.mappings.map (·.id)).Nodup := by
  obtain ⟨issued, hperm, hsublist⟩ := h.ids
  have hall := hperm.nodup_iff.mp (hissued.sublist hsublist)
  rw [List.map_append] at hall
  exact hall.of_append_left

end Clients

namespace Workspace

variable {w : Workspace} {projectId : Int} {displayName : String} {properties : List Property}

/-- Creating a mapping in one go makes the requirements of the store in their order. -/
theorem requires_createMapping (w : Workspace) (projectId : Int) (displayName : String)
    (properties : List Property) :
    Requires (w.createMapping projectId displayName properties).1
      (w.mappings.createRequirements projectId displayName properties) := by
  intro f
  rw [← w.mappings.requires_create w.nextStamp projectId displayName properties f, createMapping]
  split <;> simp_all

/-- A mapping that is not created leaves all as it is. -/
theorem createMapping_of_error {f : Failure}
    (h : (w.createMapping projectId displayName properties).1 = .error f) :
    (w.createMapping projectId displayName properties).2 = w := by
  rw [createMapping] at h ⊢
  split at h
  · rfl
  · cases h

/-- A mapping that is created comes behind the others and is counted. -/
theorem createMapping_of_ok {m : PropertyMapping}
    (h : (w.createMapping projectId displayName properties).1 = .ok m) :
    m = ⟨w.ids w.issued, projectId, Text.trim displayName,
        PropertyMapping.normalizeName displayName, properties, w.clock⟩ ∧
      (w.createMapping projectId displayName properties).2 = { w with
        mappings := w.mappings ++ [m]
        issued := w.issued + 1
        counters := { w.counters with mappingsCreated := w.counters.mappingsCreated + 1 } } := by
  rw [createMapping] at h ⊢
  split at h
  · cases h
  · rename_i created mappings hcreate
    cases h
    obtain ⟨hchecked, hinserted⟩ := MappingStore.create_eq_ok_iff.mp hcreate
    obtain ⟨-, rfl⟩ := MappingStore.insert_eq_ok_iff.mp hinserted
    exact ⟨PropertyMapping.of_ofRequest hchecked, rfl⟩

/-- A deletion fails if the project has no mapping with the identifier. -/
theorem deleteMapping_of_unknown {id : Uuid}
    (h : ∀ m ∈ w.mappings, m.projectId = projectId → m.id ≠ id) :
    w.deleteMapping projectId id = (.error (.mappingIdNotFound id), w) := by
  rw [deleteMapping, MappingStore.delete_eq_error_iff.mpr ⟨h, rfl⟩]

/-- A deletion takes out what the project has under the identifier. -/
theorem deleteMapping_of_mem {m : PropertyMapping} (hm : m ∈ w.mappings) :
    w.deleteMapping m.projectId m.id = (.ok (), { w with
      mappings := w.mappings.filter fun other =>
        ¬ (other.projectId = m.projectId ∧ other.id = m.id) }) := by
  rw [deleteMapping, MappingStore.delete_eq_ok_iff.mpr ⟨⟨m, hm, rfl, rfl⟩, rfl⟩]

end Workspace

namespace Clients

variable {c : Clients} {projectId : Int} {displayName : String} {properties : List Property}

/-- A check makes the requirements that do not depend on the store, in their order. -/
theorem requires_check (c : Clients) (projectId : Int) (displayName : String)
    (properties : List Property) :
    Requires (c.check projectId displayName properties).1
      (PropertyMapping.requirements displayName properties) := by
  intro f
  rw [← PropertyMapping.requires_ofRequest c.workspace.nextStamp projectId displayName properties f,
    check]
  split <;> simp_all

theorem check_of_error {f : Failure}
    (h : (c.check projectId displayName properties).1 = .error f) :
    (c.check projectId displayName properties).2 = c := by
  rw [check] at h ⊢
  split at h
  · rfl
  · cases h

theorem check_of_ok {m : PropertyMapping}
    (h : (c.check projectId displayName properties).1 = .ok m) :
    m.projectId = projectId ∧ m.name = PropertyMapping.normalizeName displayName ∧
      m ∈ (c.check projectId displayName properties).2.checked := by
  rw [check] at h ⊢
  split at h
  · cases h
  · rename_i checked hchecked
    cases h
    rw [PropertyMapping.of_ofRequest hchecked]
    exact ⟨rfl, rfl, List.mem_cons_self⟩

/-- A checked mapping whose name is free comes behind the others. -/
theorem insert_of_free {m : PropertyMapping}
    (hfree : c.workspace.mappings.Free m.projectId m.name) :
    c.insert m = (.ok m, {
      workspace := { c.workspace with mappings := c.workspace.mappings ++ [m] }
      checked := c.checked.erase m
      uncounted := c.uncounted + 1 }) := by
  rw [insert, MappingStore.insert_eq_ok_iff.mpr ⟨hfree, rfl⟩]

/-- A checked mapping whose name is taken does not change the workspace. -/
theorem insert_of_taken {m : PropertyMapping}
    (htaken : ¬ c.workspace.mappings.Free m.projectId m.name) :
    c.insert m = (.error .nameTaken, { c with checked := c.checked.erase m }) := by
  rw [insert, MappingStore.insert_eq_error_iff.mpr ⟨htaken, rfl⟩]

/-- The three steps of a client that nobody comes between are a creation in one go. -/
theorem createMapping_eq_steps {m : PropertyMapping}
    (hcheck : (c.check projectId displayName properties).1 = .ok m)
    (hfree : c.workspace.mappings.Free m.projectId m.name) :
    c.workspace.createMapping projectId displayName properties =
      (.ok m, ((c.check projectId displayName properties).2.insert m).2.count.workspace) := by
  rw [check] at hcheck ⊢
  split at hcheck
  · cases hcheck
  · rename_i checked hchecked
    cases hcheck
    have hinsert := MappingStore.insert_eq_ok_iff.mpr ⟨hfree, rfl⟩
    rw [Workspace.createMapping, MappingStore.create_eq_ok_iff.mpr ⟨hchecked, hinsert⟩, insert]
    dsimp only
    rw [hinsert]
    rfl

/-- Whatever steps clients have taken in whatever order, the mappings are valid, and what can be done
with them next is exact.

A look-up gives the property of the mapping with the name for the display category, and otherwise it
fails in one of two ways. A mapping is created if all requirements hold, and otherwise the first
violated one decides the failure and nothing changes; this is so in one go as well as in steps, where
the name has to be free when the mapping is put into the store. A deletion takes out what the project
has under the identifier, and fails without a change if there is nothing; it takes out one mapping and
makes its name free if no identifier has been issued twice. -/
theorem Reached.mappings_valid_and_exact (h : c.Reached) :
    c.workspace.mappings.Valid ∧
    (∀ projectId name displayCategory,
      (∀ p, c.workspace.mappings.resolve projectId name displayCategory = .ok p ↔
        ∃ m ∈ c.workspace.mappings, m.projectId = projectId ∧ m.name = name ∧
          p ∈ m.properties ∧ p.displayCategory = displayCategory) ∧
      ∀ f, c.workspace.mappings.resolve projectId name displayCategory = .error f ↔
        c.workspace.mappings.Free projectId name ∧ f = .mappingNotFound name ∨
        ∃ m ∈ c.workspace.mappings, m.projectId = projectId ∧ m.name = name ∧
          (∀ p ∈ m.properties, p.displayCategory ≠ displayCategory) ∧
          f = .uncovered name displayCategory) ∧
    (∀ projectId displayName properties,
      ((∃ m, (c.workspace.createMapping projectId displayName properties).1 = .ok m) ↔
        ∀ r ∈ c.workspace.mappings.createRequirements projectId displayName properties, r.1) ∧
      (∀ f, (c.workspace.createMapping projectId displayName properties).1 = .error f ↔
        FirstViolated
          (c.workspace.mappings.createRequirements projectId displayName properties) f) ∧
      (∀ f, (c.workspace.createMapping projectId displayName properties).1 = .error f →
        (c.workspace.createMapping projectId displayName properties).2 = c.workspace) ∧
      ∀ m, (c.workspace.createMapping projectId displayName properties).1 = .ok m →
        (c.workspace.createMapping projectId displayName properties).2 = { c.workspace with
          mappings := c.workspace.mappings ++ [m]
          issued := c.workspace.issued + 1
          counters := { c.workspace.counters with
            mappingsCreated := c.workspace.counters.mappingsCreated + 1 } }) ∧
    (∀ projectId displayName properties,
      (∀ f, (c.check projectId displayName properties).1 = .error f ↔
        FirstViolated (PropertyMapping.requirements displayName properties) f) ∧
      (∀ f, (c.check projectId displayName properties).1 = .error f →
        (c.check projectId displayName properties).2 = c) ∧
      ∀ m, (c.check projectId displayName properties).1 = .ok m →
        m.projectId = projectId ∧ m.name = PropertyMapping.normalizeName displayName ∧
          m ∈ (c.check projectId displayName properties).2.checked) ∧
    (∀ m ∈ c.checked, m.Valid ∧
      (c.workspace.mappings.Free m.projectId m.name →
        c.insert m = (.ok m, {
          workspace := { c.workspace with mappings := c.workspace.mappings ++ [m] }
          checked := c.checked.erase m
          uncounted := c.uncounted + 1 })) ∧
      (¬ c.workspace.mappings.Free m.projectId m.name →
        c.insert m = (.error .nameTaken, { c with checked := c.checked.erase m }))) ∧
    (∀ m ∈ c.workspace.mappings,
      c.workspace.deleteMapping m.projectId m.id = (.ok (), { c.workspace with
        mappings := c.workspace.mappings.filter fun other =>
          ¬ (other.projectId = m.projectId ∧ other.id = m.id) }) ∧
      (c.workspace.issuedIds.Nodup →
        (c.workspace.deleteMapping m.projectId m.id).2.mappings = c.workspace.mappings.erase m ∧
        (c.workspace.deleteMapping m.projectId m.id).2.mappings.Free m.projectId m.name)) ∧
    ∀ projectId id, (∀ m ∈ c.workspace.mappings, m.projectId = projectId → m.id ≠ id) →
      c.workspace.deleteMapping projectId id = (.error (.mappingIdNotFound id), c.workspace) := by
  have hkept := h.kept
  have hvalid := hkept.stored
  refine ⟨hvalid, ?_, ?_, ?_, ?_, ?_, ?_⟩
  · intro projectId name displayCategory
    exact ⟨fun p => hvalid.resolve_eq_ok_iff, fun f => hvalid.resolve_eq_error_iff⟩
  · intro projectId displayName properties
    have hrequires := c.workspace.requires_createMapping projectId displayName properties
    exact ⟨hrequires.exists_eq_ok_iff, hrequires, fun f => Workspace.createMapping_of_error,
      fun m hm => (Workspace.createMapping_of_ok hm).2⟩
  · intro projectId displayName properties
    exact ⟨c.requires_check projectId displayName properties, fun f => check_of_error,
      fun m => check_of_ok⟩
  · intro m hm
    exact ⟨hkept.checked m hm, insert_of_free, insert_of_taken⟩
  · intro m hm
    have hdelete := Workspace.deleteMapping_of_mem hm
    refine ⟨hdelete, fun hissued => ?_⟩
    have herased := MappingStore.filter_eq_erase (hkept.nodup_ids hissued) hm
    rw [hdelete]
    dsimp only
    rw [herased]
    exact ⟨rfl, hvalid.free_erase hm⟩
  · exact fun projectId id => Workspace.deleteMapping_of_unknown

/-- A mapping for the countries of contacts. -/
def country (id : Uuid) (displayName : String) : PropertyMapping :=
  ⟨id, 1, displayName, "country", [⟨.profiles, "contacts", "", "country", .categorical, ""⟩], .zero⟩

/-- Two clients are about to create mappings whose names differ in case and blanks. Both have passed
the check, and the mapping of the second client is in the store. -/
def twoCountries : Clients :=
  let fresh : Clients := ⟨.fresh (fun _ => none) (.all none) .standard fun n => ⟨BitVec.ofNat 128 n⟩, [], 0⟩
  let first := (fresh.check 1 "Country" (country ⟨0⟩ "Country").properties).2
  let second := (first.check 1 " country " (country ⟨1⟩ "country").properties).2
  (second.insert (country ⟨1⟩ "country")).2

/-- The mapping of the first client is refused, although it has passed the check. -/
theorem mappings_valid_and_exact_twoCountries :
    twoCountries.Reached ∧ twoCountries.workspace.mappings.Valid ∧
      twoCountries.insert (country ⟨0⟩ "Country") =
        (.error .nameTaken, { twoCountries with checked := [] }) := by
  have hreached : twoCountries.Reached :=
    .insert (.check (.check (.fresh _ _ _ _) _ _ _) _ _ _) (by decide +kernel)
  obtain ⟨hvalid, -, -, -, hinsert, -, -⟩ := hreached.mappings_valid_and_exact
  have hchecked : twoCountries.checked = [country ⟨0⟩ "Country"] := rfl
  obtain ⟨-, -, hrefused⟩ := hinsert (country ⟨0⟩ "Country") (by simp [hchecked])
  have htaken : ¬ twoCountries.workspace.mappings.Free 1 "country" :=
    fun hfree => hfree (country ⟨1⟩ "country") (by decide +kernel) rfl rfl
  have herased : twoCountries.checked.erase (country ⟨0⟩ "Country") = [] := by
    simp [hchecked]
  exact ⟨hreached, hvalid, herased ▸ hrefused htaken⟩

end Clients

end FederatedMetrics
