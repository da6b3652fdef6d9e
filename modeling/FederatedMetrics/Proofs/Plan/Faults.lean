import FederatedMetrics.Proofs.Plan.Localize

/-!
# Why a group cannot be planned

A group is planned unless it has a fault: its shape is wrong, a member is in no known zone, a derived
member has no valid definition, or a mapping that a member refers to does not exist or lacks the
display category at which it is needed. Planning fails with one of the faults, and fails whenever
there is one.
-/

namespace FederatedMetrics

open Resolving

/-- Why a name stands for no property of a display category. -/
inductive MappingSource.Lacks (source : MappingSource) (name displayCategory : String) :
    Failure → Prop
  | missing (h : source.store.find? source.projectId name = none) :
      Lacks source name displayCategory (.mappingNotFound name)
  | uncovered {m : PropertyMapping} (hm : source.store.find? source.projectId name = some m)
      (h : m.propertyFor? displayCategory = none) :
      Lacks source name displayCategory (.uncovered m.name displayCategory)

/-- The references that apply to a member at a display category: its own and the global ones at its
own display category, or, if it is derived, these and those of a sub-query at that of the
sub-query. -/
inductive Query.Refers (derived : DerivedStore) (projectId : Int) (group : QueryGroup) (q : Query)
    (r : Reference) : String → Prop
  | direct (hdirect : q.isDerived = false) (hr : r ∈ q.references ∨ r ∈ group.globalReferences) :
      Refers derived projectId group q r q.displayCategory
  | derived {definition : QueryGroup} {sub : Query} (hderived : q.isDerived = true)
      (hdefined : q.DefinedBy derived projectId definition) (hsub : sub ∈ definition.queries)
      (hr : r ∈ sub.references ∨ r ∈ q.references ∨ r ∈ group.globalReferences) :
      Refers derived projectId group q r sub.displayCategory

/-- Why a member cannot be planned. -/
inductive Query.Fault (source : MappingSource) (derived : DerivedStore) (group : QueryGroup)
    (q : Query) : Failure → Prop
  | zone {f : Failure} (h : q.zone source.zones = .error f) : Fault source derived group q f
  | undefined (hderived : q.isDerived = true) (hnone : q.definition = none)
      (h : derived.find? source.projectId (q.metrics.headD "") = none) :
      Fault source derived group q (.derivedNotFound (q.metrics.headD ""))
  | definition {definition : QueryGroup} {f : Failure} (hderived : q.isDerived = true)
      (hdefined : q.DefinedBy derived source.projectId definition)
      (h : definition.validateDefinition = .error f) : Fault source derived group q f
  | reference {r : Reference} {displayCategory : String} {f : Failure}
      (hr : q.Refers derived source.projectId group r displayCategory)
      (hmapping : r.isMapping = true) (h : source.Lacks r.propertyName displayCategory f) :
      Fault source derived group q f

/-- Why a group cannot be planned. -/
def QueryGroup.Fault (source : MappingSource) (derived : DerivedStore) (group : QueryGroup)
    (f : Failure) : Prop :=
  group.validate = .error f ∨ ∃ q ∈ group.queries, q.Fault source derived group f

theorem Query.kind_of_zone {q : Query} {zones : Zones} {f : Failure} (h : q.zone zones = .error f) :
    f.kind = .invalidInput := by
  rw [zone] at h
  split at h <;> cases h
  rfl

theorem Reference.kind_of_check {r : Reference} {f : Failure} (h : r.check = .error f) :
    f.kind = .invalidInput := by
  rw [check] at h
  split at h <;> cases h
  rfl

theorem Reference.kind_of_checkGlobal {r : Reference} {mappingsRequired : Bool} {f : Failure}
    (h : r.checkGlobal mappingsRequired = .error f) : f.kind = .invalidInput := by
  rw [checkGlobal] at h
  rcases bind_eq_error_iff.mp h with h | ⟨_, -, h⟩
  · exact kind_of_check h
  · rcases guard_eq_error_iff.mp h with ⟨-, rfl⟩ | ⟨-, h⟩
    · rfl
    · split at h <;> cases h
      rfl

theorem Query.kind_of_check {q : Query} {f : Failure} (h : q.check = .error f) :
    f.kind = .invalidInput := by
  rw [check] at h
  rcases bind_eq_error_iff.mp h with h | ⟨_, -, h⟩
  · rw [checkMetrics] at h
    repeat' split at h
    all_goals cases h <;> rfl
  · obtain ⟨r, -, hr⟩ := exists_of_forM_eq_error h
    exact Reference.kind_of_check hr

/-- A group of a wrong shape is invalid input. -/
theorem QueryGroup.kind_of_validate {g : QueryGroup} {f : Failure} (h : g.validate = .error f) :
    f.kind = .invalidInput := by
  rw [validate] at h
  rcases guard_eq_error_iff.mp h with ⟨-, rfl⟩ | ⟨-, h⟩
  · rfl
  · rcases bind_eq_error_iff.mp h with h | ⟨_, -, h⟩
    · obtain ⟨q, -, hq⟩ := exists_of_forM_eq_error h
      exact Query.kind_of_check hq
    · obtain ⟨r, -, hr⟩ := exists_of_forM_eq_error h
      exact Reference.kind_of_checkGlobal hr

/-- What is missing is either invalid input or a mapping that does not exist. -/
theorem MappingSource.Lacks.kind {source : MappingSource} {name displayCategory : String}
    {f : Failure} (h : source.Lacks name displayCategory f) :
    f.kind = .invalidInput ∨ f = .mappingNotFound name := by
  cases h with
  | missing _ => exact .inr rfl
  | uncovered _ _ => exact .inl rfl

/-- A fault is invalid input, except that a mapping or a derived metric may not exist. -/
theorem Query.Fault.kind {source : MappingSource} {derived : DerivedStore} {group : QueryGroup}
    {q : Query} {f : Failure} (h : q.Fault source derived group f) :
    f.kind = .invalidInput ∨ ∃ name, f = .mappingNotFound name ∨ f = .derivedNotFound name := by
  cases h with
  | zone h => exact .inl (kind_of_zone h)
  | undefined _ _ _ => exact .inr ⟨_, .inr rfl⟩
  | definition _ _ h => exact .inl (QueryGroup.kind_of_validateDefinition h)
  | reference _ _ h =>
      rcases h.kind with hkind | hmissing
      · exact .inl hkind
      · exact .inr ⟨_, .inl hmissing⟩

theorem QueryGroup.Fault.kind {source : MappingSource} {derived : DerivedStore}
    {group : QueryGroup} {f : Failure} (h : group.Fault source derived f) :
    f.kind = .invalidInput ∨ ∃ name, f = .mappingNotFound name ∨ f = .derivedNotFound name := by
  rcases h with hshape | ⟨q, -, hq⟩
  · exact .inl (kind_of_validate hshape)
  · exact hq.kind

namespace MappingSource

variable {source : MappingSource} {derived : DerivedStore} {group : QueryGroup}
  {displayCategory : String} {f : Failure}

theorem resolve_eq_error_iff {name : String} :
    (source.resolve name displayCategory).result = .error f ↔ source.Lacks name displayCategory f := by
  rw [result_resolve, MappingStore.resolve, MappingStore.get]
  cases hfind : source.store.find? source.projectId name with
  | none =>
      simp only [bind_eq_error_iff, Except.error.injEq, reduceCtorEq, false_and, exists_false, or_false]
      constructor
      · rintro rfl
        exact .missing hfind
      · intro h
        cases h with
        | missing _ => rfl
        | uncovered hm _ => simp [hfind] at hm
  | some m =>
      have hbind : (Except.ok m >>= fun m => m.property displayCategory) =
          m.property displayCategory := rfl
      rw [hbind, PropertyMapping.property]
      cases hproperty : m.propertyFor? displayCategory with
      | some p =>
          simp only [reduceCtorEq, false_iff]
          intro h
          cases h with
          | missing hnone => simp [hfind] at hnone
          | uncovered hm hnone =>
              cases hfind.symm.trans hm
              simp [hproperty] at hnone
      | none =>
          simp only [Except.error.injEq]
          constructor
          · rintro rfl
            exact .uncovered hfind hproperty
          · intro h
            cases h with
            | missing hnone => simp [hfind] at hnone
            | uncovered hm _ =>
                cases hfind.symm.trans hm
                rfl

/-- A name that stands for a property lacks nothing. -/
theorem Lacks.not_provides {name : String} {p : Property}
    (h : source.Lacks name displayCategory f) : ¬ source.Provides name displayCategory p := by
  rintro ⟨m, hm, hp⟩
  cases h with
  | missing hnone => simp [hnone] at hm
  | uncovered hm' hnone =>
      cases hm.symm.trans hm'
      simp [hp] at hnone

/-- Replacing a placeholder fails only if its name stands for nothing. -/
theorem lacks_of_replace {α : Type} {isMapping : Bool} {name : String} {x : α}
    {replace : Property → α}
    (h : result (if isMapping then do
        let p ← source.resolve name displayCategory
        return replace p
      else pure x) = .error f) : isMapping = true ∧ source.Lacks name displayCategory f := by
  cases isMapping with
  | false => cases h
  | true =>
      refine ⟨rfl, resolve_eq_error_iff.mp ?_⟩
      rw [if_pos rfl, (transparent_resolve source name displayCategory).result_bind fun p =>
        transparent_pure (replace p)] at h
      rcases bind_eq_error_iff.mp h with h | ⟨_, -, hnever⟩
      · exact h
      · cases hnever

/-- A query is not resolved because of its zone or one of the references that apply to it. -/
theorem fault_of_resolveQuery {q : Query} {filters : List Filter} {groupBys : List GroupBy}
    (h : (source.resolveQuery q filters groupBys).result = .error f) :
    q.zone source.zones = .error f ∨ ∃ r ∈ filters.map Filter.reference ++ groupBys.map GroupBy.reference,
      r.isMapping = true ∧ source.Lacks r.propertyName q.displayCategory f := by
  have hfilters := fun x => (yields_resolveFilter source q.displayCategory x).transparent
  have hgroupBys := fun x => (yields_resolveGroupBy source q.displayCategory x).transparent
  rw [resolveQuery, (transparent_liftM (q.zone source.zones)).result_bind fun _ =>
    (transparent_mapM hfilters filters).bind fun _ =>
      (transparent_mapM hgroupBys groupBys).bind fun _ => transparent_pure _, result_liftM] at h
  rcases bind_eq_error_iff.mp h with hzone | ⟨_, -, h⟩
  · exact .inl hzone
  rw [(transparent_mapM hfilters filters).result_bind fun _ =>
    (transparent_mapM hgroupBys groupBys).bind fun _ => transparent_pure _, result_mapM hfilters] at h
  rcases bind_eq_error_iff.mp h with h | ⟨_, -, h⟩
  · obtain ⟨x, hx, hfails⟩ := exists_of_mapM_eq_error h
    exact .inr ⟨x.reference, List.mem_append_left _ (List.mem_map_of_mem hx),
      lacks_of_replace hfails⟩
  rw [(transparent_mapM hgroupBys groupBys).result_bind fun _ => transparent_pure _,
    result_mapM hgroupBys] at h
  rcases bind_eq_error_iff.mp h with h | ⟨_, -, hnever⟩
  · obtain ⟨x, hx, hfails⟩ := exists_of_mapM_eq_error h
    exact .inr ⟨x.reference, List.mem_append_right _ (List.mem_map_of_mem hx),
      lacks_of_replace hfails⟩
  · cases hnever

/-- Every placeholder of a resolved query stands for a property. -/
theorem provides_of_resolvesTo {q : Query} {filters : List Filter} {groupBys : List GroupBy}
    {resolved : ResolvedQuery} (h : q.ResolvesTo source filters groupBys resolved) {r : Reference}
    (hr : r ∈ filters.map Filter.reference ++ groupBys.map GroupBy.reference)
    (hmapping : r.isMapping = true) : ∃ p, source.Provides r.propertyName q.displayCategory p := by
  rcases List.mem_append.mp hr with hr | hr
  · obtain ⟨x, hx, rfl⟩ := List.mem_map.mp hr
    obtain ⟨y, -, hy⟩ := exists_of_mem_of_forall₂ h.filtersTo.flip hx
    cases hy with
    | concrete hconcrete => simp [Filter.reference, hconcrete] at hmapping
    | mapped _ hp => exact ⟨_, hp⟩
  · obtain ⟨x, hx, rfl⟩ := List.mem_map.mp hr
    obtain ⟨y, -, hy⟩ := exists_of_mem_of_forall₂ h.groupBysTo.flip hx
    cases hy with
    | concrete hconcrete => simp [GroupBy.reference, hconcrete] at hmapping
    | mapped _ hp => exact ⟨_, hp⟩

/-- The references of a member with the global ones behind them. -/
theorem mem_references_append {q : Query} {r : Reference} :
    r ∈ (q.filters ++ group.globalFilters).map Filter.reference ++
        (q.groupBys ++ group.globalGroupBys).map GroupBy.reference ↔
      r ∈ q.references ∨ r ∈ group.globalReferences :=
  group.mem_references_localize q r

/-- The references of a sub-query with those of the member and the global ones behind them. -/
theorem mem_references_append₂ {outer sub : Query} {r : Reference} :
    r ∈ (sub.filters ++ outer.filters ++ group.globalFilters).map Filter.reference ++
        (sub.groupBys ++ outer.groupBys ++ group.globalGroupBys).map GroupBy.reference ↔
      r ∈ sub.references ∨ r ∈ outer.references ∨ r ∈ group.globalReferences := by
  simp only [Query.references, QueryGroup.globalReferences, List.map_append, List.mem_append]
  tauto

/-- A definition is not found only if it is a stored one that does not exist. -/
theorem fault_of_definitionOf {q : Query} {projectId : Int}
    (h : definitionOf derived projectId q = .error f) :
    q.definition = none ∧ derived.find? projectId (q.metrics.headD "") = none ∧
      f = .derivedNotFound (q.metrics.headD "") := by
  rw [definitionOf] at h
  cases hown : q.definition with
  | some own => simp [hown] at h
  | none =>
      rw [hown] at h
      rcases bind_eq_error_iff.mp h with h | ⟨_, -, hnever⟩
      · rw [DerivedStore.get] at h
        cases hfind : derived.find? projectId (q.metrics.headD "") with
        | none =>
            rw [hfind] at h
            cases h
            exact ⟨rfl, rfl, rfl⟩
        | some m =>
            rw [hfind] at h
            cases h
      · cases hnever

/-- A derived member cannot be planned only if it has a fault. -/
theorem fault_of_planDerived {q : Query} (hderived : q.isDerived = true)
    (h : (source.planDerived derived group q).result = .error f) :
    q.Fault source derived group f := by
  have hsubs := fun sub => (yields_planSubQuery source group q sub).transparent
  rw [planDerived, (transparent_liftM _).result_bind fun _ => (transparent_liftM _).bind fun _ =>
    (transparent_mapM hsubs _).bind fun _ => transparent_pure _, result_liftM] at h
  rcases bind_eq_error_iff.mp h with h | ⟨definition, hdefinition, h⟩
  · obtain ⟨hnone, hfind, rfl⟩ := fault_of_definitionOf h
    exact .undefined hderived hnone hfind
  have hdefined := definitionOf_eq_ok_iff.mp hdefinition
  rw [(transparent_liftM _).result_bind fun _ =>
    (transparent_mapM hsubs _).bind fun _ => transparent_pure _, result_liftM] at h
  rcases bind_eq_error_iff.mp h with h | ⟨_, -, h⟩
  · exact .definition hderived hdefined h
  rw [(transparent_mapM hsubs _).result_bind fun _ => transparent_pure _, result_mapM hsubs] at h
  rcases bind_eq_error_iff.mp h with h | ⟨_, -, hnever⟩
  · obtain ⟨sub, hsub, h⟩ := exists_of_mapM_eq_error h
    rw [planSubQuery, (yields_resolveQuery source _ _ _).transparent.result_bind fun _ =>
      transparent_pure _] at h
    rcases bind_eq_error_iff.mp h with h | ⟨_, -, hnever⟩
    · rcases fault_of_resolveQuery h with hzone | ⟨r, hr, hmapping, hlacks⟩
      · exact .zone hzone
      · exact .reference (.derived hderived hdefined hsub (mem_references_append₂.mp hr)) hmapping
          hlacks
    · cases hnever
  · cases hnever

/-- A member cannot be planned only if it has a fault. -/
theorem fault_of_planMember {q : Query} (h : (source.planMember derived group q).result = .error f) :
    q.Fault source derived group f := by
  rw [planMember] at h
  cases hderived : q.isDerived with
  | true =>
      rw [if_pos hderived, (yields_planDerived source derived group q).transparent.result_bind
        fun _ => transparent_pure _] at h
      rcases bind_eq_error_iff.mp h with h | ⟨_, -, hnever⟩
      · exact fault_of_planDerived hderived h
      · cases hnever
  | false =>
      rw [if_neg (by simp [hderived]), (yields_resolveQuery source q _ _).transparent.result_bind
        fun _ => transparent_pure _] at h
      rcases bind_eq_error_iff.mp h with h | ⟨_, -, hnever⟩
      · rcases fault_of_resolveQuery h with hzone | ⟨r, hr, hmapping, hlacks⟩
        · exact .zone hzone
        · exact .reference (.direct hderived (mem_references_append.mp hr)) hmapping hlacks
      · cases hnever

/-- Planning fails with a fault of the group. -/
theorem fault_of_normalize (h : (source.normalize derived group).result = .error f) :
    group.Fault source derived f := by
  have hmembers := fun q => (yields_planMember source derived group q).transparent
  rw [normalize, (transparent_liftM _).result_bind fun _ => transparent_mapM hmembers _,
    result_liftM] at h
  rcases bind_eq_error_iff.mp h with hshape | ⟨_, -, h⟩
  · exact .inl hshape
  · rw [result_mapM hmembers] at h
    obtain ⟨q, hq, hfails⟩ := exists_of_mapM_eq_error h
    exact .inr ⟨q, hq, fault_of_planMember hfails⟩

theorem definedBy_unique {q : Query} {projectId : Int} {definition other : QueryGroup}
    (h : q.DefinedBy derived projectId definition) (hother : q.DefinedBy derived projectId other) :
    definition = other :=
  Except.ok.inj <|
    (definitionOf_eq_ok_iff.mpr h).symm.trans (definitionOf_eq_ok_iff.mpr hother)

/-- A planned member has no fault. -/
theorem not_fault_of_plannedAs {q : Query} {plan : Plan}
    (h : q.PlannedAs source derived group plan) : ¬ q.Fault source derived group f := by
  intro hfault
  cases h with
  | direct hdirect hresolved =>
      cases hfault with
      | zone hzone => simp [hresolved.inZone] at hzone
      | undefined hderived _ _ => simp [hdirect] at hderived
      | definition hderived _ _ => simp [hdirect] at hderived
      | reference hr hmapping hlacks =>
          cases hr with
          | direct _ hr =>
              obtain ⟨p, hp⟩ := provides_of_resolvesTo hresolved (mem_references_append.mpr hr)
                hmapping
              exact hlacks.not_provides hp
          | derived hderived _ _ _ => simp [hdirect] at hderived
  | @derived definition p hderived hp =>
      cases hfault with
      | zone hzone =>
          -- A valid definition has a sub-query, and it is resolved in the zone of the member.
          obtain ⟨sub, hsub⟩ := List.exists_mem_of_ne_nil _
            (QueryGroup.of_validateDefinition hp.valid).1
          obtain ⟨entry, -, hentry⟩ := exists_of_mem_of_forall₂ hp.subQueriesTo.flip hsub
          have hknown : q.zone source.zones = .ok entry.2.zone := hentry.resolvesTo.inZone
          simp [hknown] at hzone
      | undefined _ hnone hfind =>
          rcases hp.definedBy with hown | ⟨-, m, hm, -⟩
          · simp [hnone] at hown
          · cases hfind.symm.trans hm
      | definition _ hdefined hinvalid =>
          cases definedBy_unique hp.definedBy hdefined
          simp [hp.valid] at hinvalid
      | reference hr hmapping hlacks =>
          cases hr with
          | direct hdirect _ => simp [hderived] at hdirect
          | derived _ hdefined hsub hr =>
              cases definedBy_unique hp.definedBy hdefined
              obtain ⟨entry, -, hentry⟩ := exists_of_mem_of_forall₂ hp.subQueriesTo.flip hsub
              obtain ⟨p, hp⟩ := provides_of_resolvesTo hentry.resolvesTo
                (mem_references_append₂.mpr hr) hmapping
              exact hlacks.not_provides hp

/-- A group is planned if and only if it has no fault. -/
theorem exists_plans_iff_not_fault (source : MappingSource) (derived : DerivedStore)
    (group : QueryGroup) :
    (∃ plans, (source.normalize derived group).result = .ok plans) ↔
      ∀ f, ¬ group.Fault source derived f := by
  constructor
  · rintro ⟨plans, hplans⟩ f hfault
    obtain ⟨hvalid, hmembers⟩ :=
      ((yields_normalize source derived group).result_eq_ok_iff plans).mp hplans
    rcases hfault with hshape | ⟨q, hq, hfault⟩
    · simp [hvalid] at hshape
    · obtain ⟨plan, -, hplan⟩ := exists_of_mem_of_forall₂ hmembers.flip hq
      exact not_fault_of_plannedAs hplan hfault
  · intro h
    cases hresult : (source.normalize derived group).result with
    | ok plans => exact ⟨plans, rfl⟩
    | error f => exact absurd (fault_of_normalize hresult) (h f)

end MappingSource

end FederatedMetrics
