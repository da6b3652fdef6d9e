import FederatedMetrics.Proofs.Mapping.Coverage

/-!
# Stored definitions

The definition of a derived metric is checked when the metric is created. In whatever state operations
have led to, the stored definitions are valid, so that a derived query that names a stored metric is
only refused because of its time zone or of a mapping.
-/

namespace FederatedMetrics

/-- A derived query without a definition of its own that names a stored metric. -/
structure Query.Names (q : Query) (projectId : Int) (m : DerivedMetric) : Prop where
  isDerived : q.isDerived = true
  definition_eq : q.definition = none
  projectId_eq : m.projectId = projectId
  name_eq : q.metrics.head? = some m.name

namespace MappingSource

variable {source : MappingSource} {derived : DerivedStore} {group : QueryGroup} {q : Query}
  {m : DerivedMetric}

/-- A query that names a stored metric is defined by it, and validly. -/
theorem definedBy_of_names {projectId : Int} (hderived : derived.Valid) (hm : m ∈ derived)
    (hq : q.Names projectId m) :
    q.DefinedBy derived projectId m.definition ∧
      ∃ formula, m.definition.validateDefinition = .ok formula := by
  have hname : q.metrics.headD "" = m.name := by
    rw [List.headD_eq_head?_getD, hq.name_eq, Option.getD_some]
  obtain ⟨formula, hformula⟩ := (hderived.valid m hm).defines
  refine ⟨.inr ⟨hq.definition_eq, m, ?_, rfl⟩, formula,
    QueryGroup.validateDefinition_eq_ok_iff.mpr hformula⟩
  rw [hname, ← hq.projectId_eq]
  exact hderived.find?_eq_some hm

/-- A query is at fault only for its zone or for a mapping, if it has a valid definition in case it is
derived. -/
theorem fault_of_defined {f : Failure} (h : q.Fault source derived group f)
    (hdefined : q.isDerived = true → ∃ definition formula,
      q.DefinedBy derived source.projectId definition ∧
        definition.validateDefinition = .ok formula) :
    f = .invalidZone q.timezone ∨ (∃ name, f = .mappingNotFound name) ∨
      ∃ name displayCategory, f = .uncovered name displayCategory := by
  cases h with
  | zone h =>
      rw [Query.zone] at h
      split at h
      · cases h
      · exact .inl (Except.error.inj h).symm
  | undefined hderived hnone hfind =>
      obtain ⟨_, _, hown | ⟨-, m, hm, -⟩, -⟩ := hdefined hderived
      · cases hnone.symm.trans hown
      · cases hfind.symm.trans hm
  | definition hderived hother hinvalid =>
      obtain ⟨_, _, hvalid, hformula⟩ := hdefined hderived
      obtain rfl := definedBy_unique hvalid hother
      cases hformula.symm.trans hinvalid
  | reference _ _ hlacks =>
      cases hlacks with
      | missing _ => exact .inr (.inl ⟨_, rfl⟩)
      | uncovered _ _ => exact .inr (.inr ⟨_, _, rfl⟩)

end MappingSource

namespace Workspace

variable {w : Workspace} {projectId : Int} {request : NewDerivedMetric}

/-- A metric is created exactly if the request is valid and its name is free. -/
theorem exists_createDerived_iff :
    (∃ m, (w.createDerived projectId request).1 = .ok m) ↔
      request.Valid ∧ w.derived.Free projectId (Text.trim request.name) := by
  rw [← w.derived.exists_create_iff w.nextStamp, createDerived]
  split <;> simp_all

theorem createDerived_of_error {f : Failure}
    (h : (w.createDerived projectId request).1 = .error f) :
    (w.createDerived projectId request).2 = w := by
  rw [createDerived] at h ⊢
  split at h
  · rfl
  · cases h

/-- A metric that is created comes behind the others. -/
theorem createDerived_of_ok {m : DerivedMetric}
    (h : (w.createDerived projectId request).1 = .ok m) :
    m = .ofRequest w.nextStamp projectId request ∧
      (w.createDerived projectId request).2.derived = w.derived ++ [m] := by
  rw [createDerived] at h ⊢
  split at h
  · cases h
  · rename_i created derived hcreate
    cases h
    exact (DerivedStore.create_eq_ok_iff.mp hcreate).2

theorem deleteDerived_of_error {id : Uuid} {f : Failure}
    (h : (w.deleteDerived projectId id).1 = .error f) : (w.deleteDerived projectId id).2 = w := by
  rw [deleteDerived] at h ⊢
  split at h
  · rfl
  · cases h

/-- Wherever operations have led, the derived metrics are valid: their names are unique in their
projects and hold no blanks, and their definitions pass the check, which accepts exactly what
`QueryGroup.Defines` describes. A metric is created exactly if the request is valid and its name is
free, and what fails changes nothing. So planning finds the definition of a query that names a stored
metric, and fails at the query only for its zone or for a mapping; a group in which all derived members
name stored metrics fails besides only for its shape. -/
theorem Reached.derived_valid_and_plannable (h : w.Reached) :
    w.derived.Valid ∧
    (∀ definition formula,
      definition.validateDefinition = .ok formula ↔ QueryGroup.Defines definition formula) ∧
    (∀ projectId request,
      ((∃ m, (w.createDerived projectId request).1 = .ok m) ↔
        request.Valid ∧ w.derived.Free projectId (Text.trim request.name)) ∧
      (∀ f, (w.createDerived projectId request).1 = .error f →
        (w.createDerived projectId request).2 = w) ∧
      ∀ m, (w.createDerived projectId request).1 = .ok m →
        m = .ofRequest w.nextStamp projectId request ∧
          (w.createDerived projectId request).2.derived = w.derived ++ [m]) ∧
    (∀ projectId id f, (w.deleteDerived projectId id).1 = .error f →
      (w.deleteDerived projectId id).2 = w) ∧
    (∀ projectId, ∀ m ∈ w.derived, ∀ q, Query.Names q projectId m →
      MappingSource.definitionOf w.derived projectId q = .ok m.definition ∧
      (∃ formula, m.definition.validateDefinition = .ok formula) ∧
      ∀ group f, ((w.source projectId).planMember w.derived group q).result = .error f →
        f = .invalidZone q.timezone ∨ (∃ name, f = .mappingNotFound name) ∨
          ∃ name displayCategory, f = .uncovered name displayCategory) ∧
    ∀ projectId group,
      (∀ q ∈ group.queries, q.isDerived = true → ∃ m ∈ w.derived, q.Names projectId m) →
      ∀ f, ((w.source projectId).normalize w.derived group).result = .error f →
        group.validate = .error f ∨ (∃ name, f = .invalidZone name) ∨
          (∃ name, f = .mappingNotFound name) ∨
          ∃ name displayCategory, f = .uncovered name displayCategory := by
  have hvalid := h.derived
  refine ⟨hvalid, fun _ _ => QueryGroup.validateDefinition_eq_ok_iff, ?_, ?_, ?_, ?_⟩
  · exact fun projectId request => ⟨exists_createDerived_iff, fun f => createDerived_of_error,
      fun m => createDerived_of_ok⟩
  · exact fun projectId id f => deleteDerived_of_error
  · intro projectId m hm q hq
    obtain ⟨hdefined, hformula⟩ := MappingSource.definedBy_of_names hvalid hm hq
    refine ⟨MappingSource.definitionOf_eq_ok_iff.mpr hdefined, hformula, fun group f hfails => ?_⟩
    obtain ⟨formula, hformula⟩ := hformula
    exact MappingSource.fault_of_defined (MappingSource.fault_of_planMember hfails)
      fun _ => ⟨_, formula, hdefined, hformula⟩
  · intro projectId group hgroup f hfails
    rcases MappingSource.fault_of_normalize hfails with hshape | ⟨q, hq, hfault⟩
    · exact .inl hshape
    · have hdefined : q.isDerived = true → ∃ definition formula,
          q.DefinedBy w.derived projectId definition ∧
            definition.validateDefinition = .ok formula := by
        intro hderived
        obtain ⟨m, hm, hnames⟩ := hgroup q hq hderived
        obtain ⟨hdefined, formula, hformula⟩ := MappingSource.definedBy_of_names hvalid hm hnames
        exact ⟨_, formula, hdefined, hformula⟩
      rcases MappingSource.fault_of_defined hfault hdefined with hzone | hmapping
      · exact .inr (.inl ⟨_, hzone⟩)
      · exact .inr (.inr hmapping)

/-- A query for the rate of the workspace `staged`. -/
def rateQuery : Query := { counted "" "" with metrics := ["rate"], queryType := .derived }

/-- Whatever group the rate is asked for in, its definition is found and accepted. -/
theorem derived_valid_and_plannable_staged :
    staged.Reached ∧ ∃ m ∈ staged.derived, rateQuery.Names 1 m ∧
      MappingSource.definitionOf staged.derived 1 rateQuery = .ok m.definition ∧
      (∃ formula, m.definition.validateDefinition = .ok formula) ∧
      ∀ group f, ((staged.source 1).planMember staged.derived group rateQuery).result = .error f →
        f = .invalidZone "" ∨ (∃ name, f = .mappingNotFound name) ∨
          ∃ name displayCategory, f = .uncovered name displayCategory := by
  have hreached : staged.Reached := .perform (.perform (.fresh _ _ _ _) _) _
  obtain ⟨m, hm, hnames⟩ : ∃ m ∈ staged.derived, rateQuery.Names 1 m :=
    ⟨_, List.mem_singleton.mpr rfl, rfl, rfl, rfl, rfl⟩
  obtain ⟨-, -, -, -, hplannable, -⟩ := hreached.derived_valid_and_plannable
  exact ⟨hreached, m, hm, hnames, hplannable 1 m hm rateQuery hnames⟩

end Workspace

end FederatedMetrics
