import FederatedMetrics.Proofs.Mapping.Store
import FederatedMetrics.Proofs.Requirement
import Mathlib.Data.List.Dedup

/-!
# Valid mappings

Creating a mapping checks the new entity first and then puts it into the store, and only the second
part looks at the store. A mapping that has passed its check is valid by itself, and a store into
which only checked mappings are put is valid: in it a display category has at most one property under
a name, although no look-up checks that.
-/

namespace FederatedMetrics

/-- Dropping repetitions makes no list longer. -/
theorem length_eraseDups_le : (items : List String) → items.eraseDups.length ≤ items.length
  | [] => by simp
  | item :: rest => by
      have hfilter := List.length_filter_le (fun other => !other == item) rest
      have hrest := length_eraseDups_le (rest.filter fun other => !other == item)
      rw [List.eraseDups_cons, List.length_cons, List.length_cons]
      omega
termination_by items => items.length
decreasing_by
  rw [List.length_cons]
  omega

/-- A list has no repetitions exactly if dropping them leaves it as long as it is. -/
theorem length_eraseDups_eq_iff (items : List String) :
    items.eraseDups.length = items.length ↔ items.Nodup := by
  induction items with
  | nil => simp
  | cons item rest ih =>
      rw [List.eraseDups_cons, List.length_cons, List.length_cons, Nat.add_right_cancel_iff,
        List.nodup_cons]
      by_cases hrepeated : item ∈ rest
      · have hshorter : (rest.filter fun other => !other == item).length < rest.length :=
          List.length_filter_lt_length_iff_exists.mpr ⟨item, hrepeated, by simp⟩
        have hle := length_eraseDups_le (rest.filter fun other => !other == item)
        constructor
        · omega
        · exact fun h => absurd hrepeated h.1
      · have hsame : rest.filter (fun other => !other == item) = rest := by
          apply List.filter_eq_self.mpr
          intro other hother
          have hne : other ≠ item := fun h => hrepeated (h ▸ hother)
          simpa using hne
        rw [hsame, ih]
        exact (and_iff_right hrepeated).symm

/-- What the properties of a mapping are like. -/
structure ValidProperties (properties : List Property) : Prop where
  nonempty : properties ≠ []
  unblank : ∀ p ∈ properties,
    Text.isBlankText p.displayCategory = false ∧ Text.isBlankText p.name = false
  sameType : ∀ p ∈ properties, ∀ other ∈ properties, p.dataType = other.dataType
  distinct : (properties.map (·.displayCategory)).Nodup

/-- What properties are required to be, in the order of the checks. -/
def propertyRequirements (properties : List Property) : List (Prop × Failure) :=
  [(properties ≠ [], .invalidProperties),
    (∀ p ∈ properties,
      Text.isBlankText p.displayCategory = false ∧ Text.isBlankText p.name = false,
      .invalidProperties),
    (∀ p ∈ properties, ∀ other ∈ properties, p.dataType = other.dataType, .mixedDataTypes),
    ((properties.map (·.displayCategory)).Nodup, .repeatedDisplayCategory)]

theorem validProperties_iff {properties : List Property} :
    ValidProperties properties ↔ ∀ r ∈ propertyRequirements properties, r.1 := by
  simp only [propertyRequirements, List.forall_mem_cons, List.not_mem_nil, false_implies,
    implies_true, and_true]
  constructor
  · rintro ⟨hnonempty, hunblank, hsame, hdistinct⟩
    exact ⟨hnonempty, hunblank, hsame, hdistinct⟩
  · rintro ⟨hnonempty, hunblank, hsame, hdistinct⟩
    exact ⟨hnonempty, hunblank, hsame, hdistinct⟩

/-- The check of properties makes the requirements in their order. -/
theorem requires_validateProperties (properties : List Property) :
    Requires (validateProperties properties) (propertyRequirements properties) := by
  cases properties with
  | nil =>
      intro e
      simp [validateProperties, propertyRequirements, firstViolated_cons_iff]
  | cons p rest =>
      rw [validateProperties, propertyRequirements]
      apply Requires.of_holds (List.cons_ne_nil p rest)
      apply Requires.ite (by simp)
      apply Requires.ite
      · rw [List.any_eq_true]
        constructor
        · -- Whatever has the type of the first property has the type of all the others.
          intro h q hq other hother
          have hfirst : ∀ q ∈ p :: rest, q.dataType = p.dataType := by
            intro q hq
            by_contra hdiffers
            exact h ⟨q, hq, by simpa using hdiffers⟩
          rw [hfirst q hq, hfirst other hother]
        · rintro h ⟨q, hq, hdiffers⟩
          exact absurd (h q hq p (by simp)) (by simpa using hdiffers)
      · apply Requires.ite
        · rw [not_not, ← length_eraseDups_eq_iff, List.length_map]
        · exact .of_ok ()

namespace PropertyMapping

/-- What a stored mapping is like, apart from the others. -/
structure Valid (m : PropertyMapping) : Prop where
  name_ne : m.name ≠ ""
  name_eq : m.name = normalizeName m.displayName
  properties : ValidProperties m.properties

/-- A new mapping, which is checked without a look at the store. -/
def ofRequest (stamp : Stamp) (projectId : Int) (displayName : String)
    (properties : List Property) : Except Failure PropertyMapping := do
  if normalizeName displayName = "" then throw .invalidDisplayName
  validateProperties properties
  return ⟨stamp.id, projectId, Text.trim displayName, normalizeName displayName, properties,
    stamp.createdAt⟩

/-- What is required of a new mapping by itself, in the order of the checks. -/
def requirements (displayName : String) (properties : List Property) : List (Prop × Failure) :=
  (normalizeName displayName ≠ "", .invalidDisplayName) :: propertyRequirements properties

variable {stamp : Stamp} {projectId : Int} {displayName : String} {properties : List Property}
  {m : PropertyMapping}

theorem requires_ofRequest (stamp : Stamp) (projectId : Int) (displayName : String)
    (properties : List Property) :
    Requires (ofRequest stamp projectId displayName properties)
      (requirements displayName properties) := by
  have hproperties := (requires_validateProperties properties).bind fun _ _ => Requires.of_ok
    (⟨stamp.id, projectId, Text.trim displayName, normalizeName displayName, properties,
      stamp.createdAt⟩ : PropertyMapping)
  rw [List.append_nil] at hproperties
  rw [ofRequest, requirements]
  exact Requires.guard Iff.rfl hproperties

theorem of_ofRequest (h : ofRequest stamp projectId displayName properties = .ok m) :
    m = ⟨stamp.id, projectId, Text.trim displayName, normalizeName displayName, properties,
      stamp.createdAt⟩ := by
  rw [ofRequest] at h
  obtain ⟨-, h⟩ := guard_eq_ok_iff.mp h
  obtain ⟨-, h⟩ := check_bind_eq_ok_iff.mp h
  cases h
  rfl

/-- What has passed its check is valid. -/
theorem valid_of_ofRequest (h : ofRequest stamp projectId displayName properties = .ok m) :
    m.Valid := by
  have hrequired := (requires_ofRequest stamp projectId displayName properties).exists_eq_ok_iff.mp
    ⟨m, h⟩
  obtain ⟨hname, hproperties⟩ := List.forall_mem_cons.mp hrequired
  rw [of_ofRequest h]
  exact ⟨hname, (normalizeName_trim displayName).symm, validProperties_iff.mpr hproperties⟩

/-- In a valid mapping every property is the one for its display category. -/
theorem Valid.propertyFor?_eq_some_iff (hm : m.Valid) {p : Property} {displayCategory : String} :
    m.propertyFor? displayCategory = some p ↔
      p ∈ m.properties ∧ p.displayCategory = displayCategory := by
  rw [propertyFor?]
  constructor
  · intro h
    exact ⟨List.mem_of_find?_eq_some h, by simpa using List.find?_some h⟩
  · rintro ⟨hp, rfl⟩
    have hfound : m.covers p.displayCategory = true := (m.covers_iff _).mpr ⟨p, hp, rfl⟩
    obtain ⟨found, hfind⟩ := Option.isSome_iff_exists.mp hfound
    rw [propertyFor?] at hfind
    rw [hfind]
    have hsame : found.displayCategory = p.displayCategory := by
      simpa using List.find?_some hfind
    exact congrArg some <|
      List.inj_on_of_nodup_map hm.properties.distinct (List.mem_of_find?_eq_some hfind) hp hsame

theorem Valid.property_eq_ok_iff (hm : m.Valid) {p : Property} {displayCategory : String} :
    m.property displayCategory = .ok p ↔
      p ∈ m.properties ∧ p.displayCategory = displayCategory := by
  rw [← hm.propertyFor?_eq_some_iff, property]
  cases m.propertyFor? displayCategory <;> simp

theorem property_eq_error_iff {displayCategory : String} {f : Failure} :
    m.property displayCategory = .error f ↔
      (∀ p ∈ m.properties, p.displayCategory ≠ displayCategory) ∧
        f = .uncovered m.name displayCategory := by
  have hnone : m.propertyFor? displayCategory = none ↔
      ∀ p ∈ m.properties, p.displayCategory ≠ displayCategory := by
    simp [propertyFor?]
  rw [← hnone, property]
  cases m.propertyFor? displayCategory <;> simp [eq_comm]

end PropertyMapping

namespace MappingStore

variable {s later : MappingStore} {m : PropertyMapping} {stamp : Stamp} {projectId : Int}
  {displayName : String} {properties : List Property}

/-- A project has no mapping of a name. -/
def Free (s : MappingStore) (projectId : Int) (name : String) : Prop :=
  ∀ m ∈ s, m.projectId = projectId → m.name ≠ name

theorem find?_eq_none_iff {name : String} : s.find? projectId name = none ↔ s.Free projectId name := by
  rw [find?, List.find?_eq_none, Free]
  apply forall₂_congr
  intro m _
  simp

/-- Put a checked mapping behind the others, unless its name is taken. -/
def insert (s : MappingStore) (m : PropertyMapping) : Except Failure MappingStore :=
  if (s.find? m.projectId m.name).isSome then .error .nameTaken else .ok (s ++ [m])

theorem insert_eq_ok_iff : s.insert m = .ok later ↔ s.Free m.projectId m.name ∧ later = s ++ [m] := by
  rw [insert, ← find?_eq_none_iff]
  cases s.find? m.projectId m.name <;> simp [eq_comm]

theorem insert_eq_error_iff {f : Failure} :
    s.insert m = .error f ↔ ¬ s.Free m.projectId m.name ∧ f = .nameTaken := by
  rw [insert, ← find?_eq_none_iff]
  cases s.find? m.projectId m.name <;> simp [eq_comm]

/-- Creating a mapping is to check it and then to put it into the store. -/
theorem create_eq (s : MappingStore) (stamp : Stamp) (projectId : Int) (displayName : String)
    (properties : List Property) :
    s.create stamp projectId displayName properties = do
      let m ← PropertyMapping.ofRequest stamp projectId displayName properties
      let later ← s.insert m
      return (m, later) := by
  rw [create, PropertyMapping.ofRequest]
  by_cases hname : PropertyMapping.normalizeName displayName = ""
  · simp [hname, throw, throwThe, MonadExceptOf.throw, bind, Except.bind]
  cases validateProperties properties with
  | error f => simp [hname, bind, Except.bind]
  | ok _ =>
      by_cases hfree : (s.find? projectId (PropertyMapping.normalizeName displayName)).isSome
      · simp [hname, hfree, insert, throw, throwThe, MonadExceptOf.throw, bind, Except.bind, pure,
          Except.pure]
      · simp [hname, hfree, insert, bind, Except.bind, pure, Except.pure]

theorem create_eq_ok_iff : s.create stamp projectId displayName properties = .ok (m, later) ↔
    PropertyMapping.ofRequest stamp projectId displayName properties = .ok m ∧
      s.insert m = .ok later := by
  rw [create_eq, bind_eq_ok_iff]
  constructor
  · rintro ⟨_, hchecked, h⟩
    obtain ⟨_, hinserted, h⟩ := bind_eq_ok_iff.mp h
    cases h
    exact ⟨hchecked, hinserted⟩
  · rintro ⟨hchecked, hinserted⟩
    exact ⟨m, hchecked, bind_eq_ok_iff.mpr ⟨later, hinserted, rfl⟩⟩

/-- What is required to create a mapping, in the order of the checks. -/
def createRequirements (s : MappingStore) (projectId : Int) (displayName : String)
    (properties : List Property) : List (Prop × Failure) :=
  PropertyMapping.requirements displayName properties ++
    [(s.Free projectId (PropertyMapping.normalizeName displayName), .nameTaken)]

theorem requires_create (s : MappingStore) (stamp : Stamp) (projectId : Int) (displayName : String)
    (properties : List Property) :
    Requires (s.create stamp projectId displayName properties)
      (s.createRequirements projectId displayName properties) := by
  rw [create_eq]
  apply (PropertyMapping.requires_ofRequest stamp projectId displayName properties).bind
  intro m hm e
  obtain rfl := PropertyMapping.of_ofRequest hm
  rw [bind_eq_error_iff, firstViolated_cons_iff, insert_eq_error_iff]
  simp [pure, Except.pure, eq_comm]

/-- What a store is like into which only checked mappings have been put. -/
structure Valid (s : MappingStore) : Prop extends Sound s where
  valid : ∀ m ∈ s, m.Valid

theorem valid_nil : Valid [] := ⟨sound_nil, by simp⟩

/-- A store stays valid when a checked mapping is put into it. -/
theorem Valid.insert (hs : s.Valid) (hm : m.Valid) (h : s.insert m = .ok later) : later.Valid := by
  obtain ⟨hfree, rfl⟩ := insert_eq_ok_iff.mp h
  constructor
  · apply hs.append (find?_eq_none_iff.mpr hfree)
    rw [hm.name_eq]
    exact PropertyMapping.hasBlank_normalizeName _
  · exact List.forall_mem_append.mpr ⟨hs.valid, by simpa using hm⟩

theorem Valid.create (hs : s.Valid)
    (h : s.create stamp projectId displayName properties = .ok (m, later)) : later.Valid := by
  obtain ⟨hchecked, hinserted⟩ := create_eq_ok_iff.mp h
  exact hs.insert (PropertyMapping.valid_of_ofRequest hchecked) hinserted

/-- A store stays valid when mappings are taken out. -/
theorem Valid.of_sublist (hs : s.Valid) (h : later.Sublist s) : later.Valid :=
  ⟨hs.toSound.of_sublist h, fun m hm => hs.valid m (h.subset hm)⟩

theorem Valid.find?_eq_some_iff (hs : s.Valid) {name : String} :
    s.find? projectId name = some m ↔ m ∈ s ∧ m.projectId = projectId ∧ m.name = name := by
  constructor
  · intro h
    rw [find?] at h
    exact ⟨List.mem_of_find?_eq_some h, by simpa using List.find?_some h⟩
  · rintro ⟨hm, rfl, rfl⟩
    exact hs.find?_eq_some hm

theorem Valid.get_eq_ok_iff (hs : s.Valid) {name : String} :
    s.get projectId name = .ok m ↔ m ∈ s ∧ m.projectId = projectId ∧ m.name = name := by
  rw [← hs.find?_eq_some_iff, get]
  cases s.find? projectId name <;> simp

theorem get_eq_error_iff {name : String} {f : Failure} :
    s.get projectId name = .error f ↔ s.Free projectId name ∧ f = .mappingNotFound name := by
  rw [← find?_eq_none_iff, get]
  cases s.find? projectId name <;> simp [eq_comm]

/-- A look-up gives the property of the mapping with the name for the display category. There is at
most one, since a look-up gives at most one. -/
theorem Valid.resolve_eq_ok_iff (hs : s.Valid) {name displayCategory : String} {p : Property} :
    s.resolve projectId name displayCategory = .ok p ↔
      ∃ m ∈ s, m.projectId = projectId ∧ m.name = name ∧ p ∈ m.properties ∧
        p.displayCategory = displayCategory := by
  rw [resolve, bind_eq_ok_iff]
  apply exists_congr
  intro m
  rw [hs.get_eq_ok_iff, and_assoc, and_assoc]
  apply and_congr_right
  intro hm
  rw [(hs.valid m hm).property_eq_ok_iff]

/-- A look-up fails if there is no mapping of the name, or if the mapping of the name has no property
for the display category. -/
theorem Valid.resolve_eq_error_iff (hs : s.Valid) {name displayCategory : String} {f : Failure} :
    s.resolve projectId name displayCategory = .error f ↔
      s.Free projectId name ∧ f = .mappingNotFound name ∨
        ∃ m ∈ s, m.projectId = projectId ∧ m.name = name ∧
          (∀ p ∈ m.properties, p.displayCategory ≠ displayCategory) ∧
          f = .uncovered name displayCategory := by
  rw [resolve, bind_eq_error_iff, get_eq_error_iff]
  apply or_congr_right
  apply exists_congr
  intro m
  rw [hs.get_eq_ok_iff, PropertyMapping.property_eq_error_iff, and_assoc, and_assoc]
  apply and_congr_right
  intro _
  apply and_congr_right
  intro _
  apply and_congr_right
  rintro rfl
  rfl

/-- Deleting takes out what the project has under the identifier, if there is anything. -/
theorem delete_eq (s : MappingStore) (projectId : Int) (id : Uuid) :
    s.delete projectId id =
      if ∃ m ∈ s, m.projectId = projectId ∧ m.id = id then
        .ok (List.filter (fun m => ¬ (m.projectId = projectId ∧ m.id = id)) s)
      else .error (.mappingIdNotFound id) := by
  have hany : s.any (fun m => m.projectId = projectId && m.id = id) = true ↔
      ∃ m ∈ s, m.projectId = projectId ∧ m.id = id := by
    simp
  simp [delete, hany]

theorem delete_eq_ok_iff {id : Uuid} :
    s.delete projectId id = .ok later ↔
      (∃ m ∈ s, m.projectId = projectId ∧ m.id = id) ∧
        later = List.filter (fun m => ¬ (m.projectId = projectId ∧ m.id = id)) s := by
  rw [delete_eq]
  split
  · rename_i hstored
    rw [Except.ok.injEq, and_iff_right hstored, eq_comm]
  · rename_i hstored
    simp only [reduceCtorEq, hstored, false_and]

theorem delete_eq_error_iff {id : Uuid} {f : Failure} :
    s.delete projectId id = .error f ↔
      (∀ m ∈ s, m.projectId = projectId → m.id ≠ id) ∧ f = .mappingIdNotFound id := by
  have hnone : (∀ m ∈ s, m.projectId = projectId → m.id ≠ id) ↔
      ¬ ∃ m ∈ s, m.projectId = projectId ∧ m.id = id := by
    simp
  rw [delete_eq, hnone]
  split
  · rename_i hstored
    simp only [reduceCtorEq, hstored, not_true, false_and]
  · rename_i hstored
    rw [Except.error.injEq, and_iff_right hstored, eq_comm]

/-- Where no two mappings have the same identifier, a deletion takes out one mapping. -/
theorem filter_eq_erase (hids : (s.map (·.id)).Nodup) (hm : m ∈ s) :
    List.filter (fun other => ¬ (other.projectId = m.projectId ∧ other.id = m.id)) s = s.erase m := by
  rw [(List.Nodup.of_map _ hids).erase_eq_filter]
  apply List.filter_congr
  intro other hother
  have hsame : other.id = m.id → other = m := List.inj_on_of_nodup_map hids hother hm
  by_cases h : other = m
  · simp [h]
  · have hid : other.id ≠ m.id := fun hid => h (hsame hid)
    simp [h, hid]

/-- Taking a mapping out of a valid store makes its name free. -/
theorem Valid.free_erase (hs : s.Valid) (hm : m ∈ s) : Free (s.erase m) m.projectId m.name := by
  intro other hother hproject hname
  obtain ⟨hne, hstored⟩ := hs.toSound.nodup.mem_erase_iff.mp hother
  have hsame := hs.find?_eq_some hstored
  rw [hproject, hname, hs.find?_eq_some hm] at hsame
  exact hne (Option.some.inj hsame).symm

end MappingStore

end FederatedMetrics
