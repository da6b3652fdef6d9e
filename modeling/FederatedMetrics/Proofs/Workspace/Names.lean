import FederatedMetrics.Proofs.Plan.Names
import FederatedMetrics.Proofs.Workspace.Clients

/-!
# Names that are taken

A stored mapping has a name in normal form, and its display name has this normal form as well. So whoever
asks for a mapping under either of them asks for the name that is taken.
-/

namespace FederatedMetrics

/-- A normal form can stand in a reference: only what confines the reference can still hold blanks. -/
theorem Reference.check_normalizeName (isMapping : Bool) (name objectType entity : String) :
    Reference.check ⟨isMapping, PropertyMapping.normalizeName name, objectType, entity⟩ = .ok () ↔
      Text.hasBlank objectType = false ∧ Text.hasBlank entity = false := by
  rw [Reference.check_eq_ok_iff]
  constructor
  · rintro ⟨-, hobjectType, hentity⟩
    exact ⟨hobjectType, hentity⟩
  · rintro ⟨hobjectType, hentity⟩
    exact ⟨PropertyMapping.hasBlank_normalizeName name, hobjectType, hentity⟩

/-- A normal form can stand in a global reference to a mapping. -/
theorem Reference.checkGlobal_normalizeName (mappingsRequired : Bool) (name : String) :
    Reference.checkGlobal mappingsRequired ⟨true, PropertyMapping.normalizeName name, "", ""⟩ =
      .ok () := by
  have hcheck := (Reference.check_normalizeName true name "" "").mpr ⟨rfl, rfl⟩
  rw [Reference.checkGlobal, hcheck]
  simp [bind, Except.bind, pure, Except.pure]

/-- Whoever asks for a name that is taken, and for nothing that is invalid, gets a conflict. -/
theorem Workspace.createMapping_of_taken {w : Workspace} {projectId : Int} {displayName : String}
    {properties : List Property} (hname : PropertyMapping.normalizeName displayName ≠ "")
    (hproperties : ValidProperties properties)
    (htaken : ¬ w.mappings.Free projectId (PropertyMapping.normalizeName displayName)) :
    w.createMapping projectId displayName properties = (.error .nameTaken, w) := by
  have hothers : ∀ r ∈ PropertyMapping.requirements displayName properties, r.1 :=
    List.forall_mem_cons.mpr ⟨hname, validProperties_iff.mp hproperties⟩
  have hviolated : FirstViolated (w.mappings.createRequirements projectId displayName properties)
      .nameTaken := firstViolated_append_iff.mpr (.inr ⟨hothers, .here htaken⟩)
  have herror := (w.requires_createMapping projectId displayName properties _).mpr hviolated
  exact Prod.ext herror (Workspace.createMapping_of_error herror)

/-- The name of a valid mapping is the normal form of the name itself and of the display name. -/
theorem PropertyMapping.Valid.normalizeName_eq {m : PropertyMapping} (hm : m.Valid) {displayName : String}
    (h : displayName = m.name ∨ displayName = m.displayName) : normalizeName displayName = m.name := by
  rcases h with rfl | rfl
  · rw [hm.name_eq, normalizeName_normalizeName]
  · exact hm.name_eq.symm

namespace Clients

open PropertyMapping

/-- Normal forms of names are canonical and usable.

The normal form of a normal form is itself, it is empty for blank names only, and neither blanks on the
sides of a name nor the width and kind of a gap inside it make a difference. A normal form has no blanks,
so it passes the check of names in every reference, also in a global one to a mapping.

So a stored mapping has its name for itself, whatever steps clients have taken: if a mapping is asked for
under its name or its display name, with valid properties, there is a conflict and the stored mappings stay
as they are, in one go as well as when a mapping that has passed the check is put into the store. -/
theorem normal_forms_canonical_and_usable :
    (∀ name, normalizeName (normalizeName name) = normalizeName name) ∧
    (∀ name, Text.hasBlank (normalizeName name) = false ∧
      (∀ isMapping objectType entity,
        Reference.check ⟨isMapping, normalizeName name, objectType, entity⟩ = .ok () ↔
          Text.hasBlank objectType = false ∧ Text.hasBlank entity = false) ∧
      ∀ mappingsRequired,
        Reference.checkGlobal mappingsRequired ⟨true, normalizeName name, "", ""⟩ = .ok ()) ∧
    (∀ name, normalizeName name = "" ↔ Text.isBlankText name = true) ∧
    (∀ left name right, Text.isBlankText left = true → Text.isBlankText right = true →
      normalizeName (left ++ name ++ right) = normalizeName name) ∧
    (∀ name gap other rest, Text.isBlankText gap = true → gap ≠ "" → Text.isBlankText other = true →
      other ≠ "" → normalizeName (name ++ gap ++ rest) = normalizeName (name ++ other ++ rest)) ∧
    (∀ c : Clients, c.Reached → ∀ m ∈ c.workspace.mappings, ∀ displayName,
      displayName = m.name ∨ displayName = m.displayName →
        (∀ properties, ValidProperties properties →
          c.workspace.createMapping m.projectId displayName properties =
            (.error .nameTaken, c.workspace)) ∧
        ∀ new ∈ c.checked, new.projectId = m.projectId → new.displayName = displayName →
          c.insert new = (.error .nameTaken, { c with checked := c.checked.erase new })) ∧
    Failure.nameTaken.kind = .conflict := by
  refine ⟨normalizeName_normalizeName, fun name => ⟨hasBlank_normalizeName name,
    fun isMapping => Reference.check_normalizeName isMapping name,
    fun mappingsRequired => Reference.checkGlobal_normalizeName mappingsRequired name⟩,
    normalizeName_eq_empty_iff, fun left name right hleft hright =>
      normalizeName_append_sides hleft hright name, ?_, ?_, rfl⟩
  · intro name gap other rest hgap hne hother hne'
    rw [normalizeName_append_gap hgap hne, normalizeName_append_gap hother hne']
  · intro c hc m hm displayName hdisplayName
    have hvalid := hc.kept.stored.valid m hm
    have hname := hvalid.normalizeName_eq hdisplayName
    have htaken : ¬ c.workspace.mappings.Free m.projectId m.name := fun hfree => hfree m hm rfl rfl
    refine ⟨fun properties hproperties => ?_, fun new hnew hproject hnewName => ?_⟩
    · rw [← hname] at htaken
      exact Workspace.createMapping_of_taken (hname ▸ hvalid.name_ne) hproperties htaken
    · have hsame : new.name = m.name := by
        rw [(hc.kept.checked new hnew).name_eq, hnewName, hname]
      apply insert_of_taken
      rwa [hproject, hsame]

/-- A mapping for the streets of contacts. -/
def street (id : Uuid) (displayName : String) : PropertyMapping :=
  ⟨id, 1, displayName, "οδος_α", [⟨.profiles, "contacts", "", "street", .categorical, ""⟩], .zero⟩

/-- A mapping is stored under a name that ends in a final sigma before a gap, while another client has
checked one whose display name is this normal form. -/
def streets : Clients :=
  let fresh : Clients := ⟨.fresh (fun _ => none) (.all none) .standard fun n => ⟨BitVec.ofNat 128 n⟩, [], 0⟩
  let checked := (fresh.check 1 "οδος_α" (street ⟨0⟩ "").properties).2
  { checked with
    workspace := (checked.workspace.perform
      (.createMapping 1 "\tΟΔΟΣ  Α" (street ⟨1⟩ "").properties)).2 }

theorem normal_forms_canonical_and_usable_streets :
    normalizeName ("\n" ++ "ΟΔΟΣ  Α" ++ "\u3000") = normalizeName "ΟΔΟΣ  Α" ∧
      normalizeName ("ΟΔΟΣ" ++ "\u00a0\t" ++ "Α") = normalizeName ("ΟΔΟΣ" ++ " " ++ "Α") ∧
      streets.Reached ∧ street ⟨1⟩ "ΟΔΟΣ  Α" ∈ streets.workspace.mappings ∧
      (∀ displayName ∈ ["οδος_α", "ΟΔΟΣ  Α"],
        streets.workspace.createMapping 1 displayName (street ⟨1⟩ "").properties =
          (.error .nameTaken, streets.workspace)) ∧
      streets.insert (street ⟨0⟩ "οδος_α") = (.error .nameTaken, { streets with checked := [] }) := by
  obtain ⟨-, -, -, hsides, hgaps, htaken, -⟩ := normal_forms_canonical_and_usable
  have hreached : streets.Reached := .perform (.check (.fresh _ _ _ _) _ _ _) _
  have hstored : street ⟨1⟩ "ΟΔΟΣ  Α" ∈ streets.workspace.mappings := by decide +kernel
  have hchecked : streets.checked = [street ⟨0⟩ "οδος_α"] := by decide +kernel
  have hproperties : ValidProperties (street ⟨1⟩ "").properties :=
    validProperties_iff.mpr ((requires_validateProperties _).exists_eq_ok_iff.mp ⟨(), rfl⟩)
  have hstreet := htaken streets hreached _ hstored
  refine ⟨hsides "\n" _ "\u3000" (by decide) (by decide),
    hgaps "ΟΔΟΣ" "\u00a0\t" " " "Α" (by decide) (by decide) (by decide) (by decide), hreached, hstored,
    ?_, ?_⟩
  · intro displayName hdisplayName
    apply (hstreet displayName ?_).1 _ hproperties
    simpa [street] using hdisplayName
  · have herased : streets.checked.erase (street ⟨0⟩ "οδος_α") = [] := by simp [hchecked]
    rw [← herased]
    exact (hstreet "οδος_α" (.inl rfl)).2 _ (by simp [hchecked]) rfl rfl

end Clients

end FederatedMetrics
