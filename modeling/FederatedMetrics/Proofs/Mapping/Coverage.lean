import FederatedMetrics.Proofs.Plan.Faults
import FederatedMetrics.Proofs.Workspace.Reached

/-!
# Common mappings and planning

The look-up of common mappings offers exactly the mappings to which a group can refer globally. The
look-up covers the display categories that it is asked for; planning resolves the reference for every
member, and for every sub-query of the derived ones. Both come to the same, and when they decline, the
mapping lacks a display category.
-/

namespace FederatedMetrics

/-- The display categories at which a member needs what its group refers to globally. -/
inductive Query.Spans (derived : DerivedStore) (projectId : Int) (q : Query) : String → Prop
  | direct (hdirect : q.isDerived = false) : Spans derived projectId q q.displayCategory
  | derived {definition : QueryGroup} {sub : Query} (hderived : q.isDerived = true)
      (hdefined : q.DefinedBy derived projectId definition) (hsub : sub ∈ definition.queries) :
      Spans derived projectId q sub.displayCategory

/-- A member on what an entry of a look-up asks for: on its display category, or for the stored
derived metric of its name. -/
inductive CommonRequest.AskedBy (r : CommonRequest) (q : Query) : Prop
  | standard (hr : r.isDerived = false) (hq : q.isDerived = false)
      (hname : q.displayCategory = r.name)
  | derived (hr : r.isDerived = true) (hq : q.isDerived = true) (hstored : q.definition = none)
      (hname : q.metrics.head? = some r.name)

/-- The reference to a mapping that is confined to nothing. -/
def Reference.ofMapping (name : String) : Reference := ⟨true, name, "", ""⟩

/-- A group with one more global filter or group-by, on a mapping of some name. -/
inductive QueryGroup.WidenedBy (g : QueryGroup) (name : String) : QueryGroup → Prop
  | filter (f : Filter) (hf : f.reference = .ofMapping name) :
      WidenedBy g name { g with globalFilters := g.globalFilters ++ [f] }
  | groupBy (x : GroupBy) (hx : x.reference = .ofMapping name) :
      WidenedBy g name { g with globalGroupBys := g.globalGroupBys ++ [x] }

namespace MappingStore

variable {s : MappingStore} {derived : DerivedStore} {projectId : Int}
  {requests : List CommonRequest} {common : List PropertyMapping} {categories : List (List String)}

/-- The look-up answers with the mappings that cover what its entries stand for. -/
theorem findCommon_eq_ok_iff :
    s.findCommon derived projectId requests = .ok common ↔ ∃ categories,
      requests.mapM (CommonRequest.displayCategories derived projectId) = .ok categories ∧
        (s.ofProject projectId).filter (fun m => categories.flatten.all m.covers) = common := by
  rw [findCommon, bind_eq_ok_iff]
  simp only [pure, Except.pure, Except.ok.injEq]

/-- The display categories of a look-up are those for which its entries stand. -/
theorem mem_categories_iff
    (h : requests.mapM (CommonRequest.displayCategories derived projectId) = .ok categories)
    (displayCategory : String) :
    displayCategory ∈ categories.flatten ↔ ∃ r ∈ requests, ∃ names,
      r.displayCategories derived projectId = .ok names ∧ displayCategory ∈ names := by
  have hentries := mapM_eq_ok_iff.mp h
  rw [List.mem_flatten]
  constructor
  · rintro ⟨names, hnames, hmem⟩
    obtain ⟨r, hr, hok⟩ := exists_of_mem_of_forall₂ hentries hnames
    exact ⟨r, hr, names, hok, hmem⟩
  · rintro ⟨r, hr, names, hok, hmem⟩
    obtain ⟨others, hothers, hsame⟩ := exists_of_mem_of_forall₂ hentries.flip hr
    obtain rfl : names = others := Except.ok.inj (hok.symm.trans hsame)
    exact ⟨names, hothers, hmem⟩

/-- Neither the order nor the repetition of entries changes what a look-up answers. -/
theorem findCommon_congr {others : List CommonRequest} (hsame : ∀ r, r ∈ others ↔ r ∈ requests)
    (h : s.findCommon derived projectId requests = .ok common) :
    s.findCommon derived projectId others = .ok common := by
  obtain ⟨categories, hcategories, rfl⟩ := findCommon_eq_ok_iff.mp h
  obtain ⟨again, hagain⟩ :
      ∃ again, others.mapM (CommonRequest.displayCategories derived projectId) = .ok again := by
    apply exists_mapM_eq_ok
    intro r hr
    obtain ⟨names, -, hnames⟩ :=
      exists_of_mem_of_forall₂ (mapM_eq_ok_iff.mp hcategories).flip ((hsame r).mp hr)
    exact ⟨names, hnames⟩
  refine findCommon_eq_ok_iff.mpr ⟨again, hagain, ?_⟩
  apply List.filter_congr
  intro m _
  rw [Bool.eq_iff_iff, List.all_eq_true, List.all_eq_true]
  simp only [mem_categories_iff hcategories, mem_categories_iff hagain, hsame]

end MappingStore

namespace QueryGroup

variable {group widened : QueryGroup} {name : String}

theorem WidenedBy.queries_eq (h : group.WidenedBy name widened) : widened.queries = group.queries := by
  cases h <;> rfl

/-- The references of the wider group are those of the group and the new one. -/
theorem WidenedBy.mem_globalReferences (h : group.WidenedBy name widened) (r : Reference) :
    r ∈ widened.globalReferences ↔ r ∈ group.globalReferences ∨ r = .ofMapping name := by
  cases h with
  | filter f hf =>
      simp only [globalReferences, List.map_append, List.map_cons, List.map_nil, List.mem_append,
        List.mem_singleton, hf]
      tauto
  | groupBy x hx =>
      simp only [globalReferences, List.map_append, List.map_cons, List.map_nil, List.mem_append,
        List.mem_singleton, hx]
      tauto

theorem WidenedBy.requiresMappings_eq (h : group.WidenedBy name widened) :
    widened.requiresMappings = group.requiresMappings := by
  rw [requiresMappings, displayCategories, h.queries_eq]
  rfl

/-- A valid group stays valid with a mapping whose name holds no blanks. -/
theorem WidenedBy.validate (h : group.WidenedBy name widened) (hvalid : group.validate = .ok ())
    (hname : Text.hasBlank name = false) : widened.validate = .ok () := by
  obtain ⟨hnonempty, hchecks, hglobals⟩ := group.validate_eq_ok_iff.mp hvalid
  refine widened.validate_eq_ok_iff.mpr ⟨?_, ?_, ?_⟩
  · rw [h.queries_eq]
    exact hnonempty
  · rw [h.queries_eq]
    exact hchecks
  · intro r hr
    rw [h.requiresMappings_eq]
    rcases (h.mem_globalReferences r).mp hr with hold | rfl
    · exact hglobals r hold
    · have hempty : Text.hasBlank "" = false := rfl
      simp [Reference.checkGlobal, Reference.check, Reference.ofMapping, hname, hempty, bind,
        Except.bind, pure, Except.pure]

end QueryGroup

namespace MappingSource

variable {source : MappingSource} {derived : DerivedStore} {group widened : QueryGroup}
  {name displayCategory : String} {f : Failure} {q : Query}

/-- What the wider group refers to in addition is the mapping, wherever a member needs it. -/
theorem refers_of_widenedBy (h : group.WidenedBy name widened) {r : Reference}
    (hr : q.Refers derived source.projectId widened r displayCategory) :
    q.Refers derived source.projectId group r displayCategory ∨
      r = .ofMapping name ∧ q.Spans derived source.projectId displayCategory := by
  cases hr with
  | direct hdirect hr =>
      rcases hr with hown | hglobal
      · exact .inl (.direct hdirect (.inl hown))
      · rcases (h.mem_globalReferences r).mp hglobal with hold | hnew
        · exact .inl (.direct hdirect (.inr hold))
        · exact .inr ⟨hnew, .direct hdirect⟩
  | derived hderived hdefined hsub hr =>
      rcases hr with hsubs | hown | hglobal
      · exact .inl (.derived hderived hdefined hsub (.inl hsubs))
      · exact .inl (.derived hderived hdefined hsub (.inr (.inl hown)))
      · rcases (h.mem_globalReferences r).mp hglobal with hold | hnew
        · exact .inl (.derived hderived hdefined hsub (.inr (.inr hold)))
        · exact .inr ⟨hnew, .derived hderived hdefined hsub⟩

/-- The wider group refers to the mapping wherever a member needs it. -/
theorem refers_ofMapping (h : group.WidenedBy name widened)
    (hspans : q.Spans derived source.projectId displayCategory) :
    q.Refers derived source.projectId widened (.ofMapping name) displayCategory := by
  have hnew : .ofMapping name ∈ widened.globalReferences :=
    (h.mem_globalReferences _).mpr (.inr rfl)
  cases hspans with
  | direct hdirect => exact .direct hdirect (.inr hnew)
  | derived hderived hdefined hsub => exact .derived hderived hdefined hsub (.inr (.inr hnew))

/-- A group without faults gets one from a mapping only where the mapping stands for nothing. -/
theorem fault_widened_iff (h : group.WidenedBy name widened) (hname : Text.hasBlank name = false)
    (hplanned : ∀ f, ¬ group.Fault source derived f) :
    widened.Fault source derived f ↔ ∃ q ∈ group.queries, ∃ displayCategory,
      q.Spans derived source.projectId displayCategory ∧ source.Lacks name displayCategory f := by
  constructor
  · rintro (hshape | ⟨q, hq, hfault⟩)
    · have hvalid : group.validate = .ok () := by
        cases hresult : group.validate with
        | ok => rfl
        | error other => exact absurd (.inl hresult) (hplanned other)
      rw [h.validate hvalid hname] at hshape
      cases hshape
    · rw [h.queries_eq] at hq
      have hsound : ¬ q.Fault source derived group f := fun hfault =>
        hplanned f (.inr ⟨q, hq, hfault⟩)
      cases hfault with
      | zone hzone => exact absurd (.zone hzone) hsound
      | undefined hderived hnone hfind => exact absurd (.undefined hderived hnone hfind) hsound
      | definition hderived hdefined hinvalid =>
          exact absurd (.definition hderived hdefined hinvalid) hsound
      | reference hr hmapping hlacks =>
          rcases refers_of_widenedBy h hr with hold | ⟨rfl, hspans⟩
          · exact absurd (.reference hold hmapping hlacks) hsound
          · exact ⟨q, hq, _, hspans, hlacks⟩
  · rintro ⟨q, hq, displayCategory, hspans, hlacks⟩
    refine .inr ⟨q, h.queries_eq ▸ hq, ?_⟩
    exact .reference (refers_ofMapping h hspans) rfl hlacks

/-- An entry stands for the display categories at which a planned member that asks for the same needs
global references. -/
theorem exists_displayCategories {r : CommonRequest} (h : r.AskedBy q)
    (hplanned : ∀ f, ¬ q.Fault source derived group f) :
    ∃ names, r.displayCategories derived source.projectId = .ok names ∧
      ∀ displayCategory, displayCategory ∈ names ↔
        q.Spans derived source.projectId displayCategory := by
  cases h with
  | standard hr hq hname =>
      refine ⟨[r.name], by simp [CommonRequest.displayCategories, hr], fun displayCategory => ?_⟩
      rw [List.mem_singleton]
      constructor
      · rintro rfl
        rw [← hname]
        exact .direct hq
      · intro hspans
        cases hspans with
        | direct _ => exact hname
        | derived hderived _ _ => simp [hq] at hderived
  | derived hr hq hstored hname =>
      have hmetric : q.metrics.headD "" = r.name := by
        rw [List.headD_eq_head?_getD, hname]
        rfl
      cases hfind : derived.find? source.projectId r.name with
      | none =>
          rw [← hmetric] at hfind
          exact absurd (.undefined hq hstored hfind) (hplanned _)
      | some m =>
          have hdefined : q.DefinedBy derived source.projectId m.definition :=
            .inr ⟨hstored, m, by rw [hmetric, hfind], rfl⟩
          refine ⟨m.definition.displayCategories, ?_, fun displayCategory => ?_⟩
          · simp [CommonRequest.displayCategories, hr, DerivedStore.get, hfind, bind, Except.bind,
              pure, Except.pure]
          · rw [QueryGroup.displayCategories, List.mem_eraseDups, List.mem_map]
            constructor
            · rintro ⟨sub, hsub, rfl⟩
              exact .derived hq hdefined hsub
            · intro hspans
              cases hspans with
              | direct hdirect => simp [hq] at hdirect
              | derived _ hother hsub =>
                  obtain rfl := definedBy_unique hdefined hother
                  exact ⟨_, hsub, rfl⟩

/-- A look-up succeeds if planned members ask for the same, and covers the display categories at which
they need global references. -/
theorem exists_findCommon {requests : List CommonRequest}
    (hrequests : List.Forall₂ CommonRequest.AskedBy requests group.queries)
    (hplanned : ∀ f, ¬ group.Fault source derived f) :
    ∃ common, source.store.findCommon derived source.projectId requests = .ok common ∧
      common.Sublist (source.store.ofProject source.projectId) ∧
        ∀ m ∈ source.store.ofProject source.projectId, m ∈ common ↔
          ∀ q ∈ group.queries, ∀ displayCategory,
            q.Spans derived source.projectId displayCategory → m.covers displayCategory = true := by
  have hmembers : ∀ q ∈ group.queries, ∀ f, ¬ q.Fault source derived group f :=
    fun q hq f hfault => hplanned f (.inr ⟨q, hq, hfault⟩)
  obtain ⟨categories, hcategories⟩ : ∃ categories, requests.mapM
      (CommonRequest.displayCategories derived source.projectId) = .ok categories := by
    apply exists_mapM_eq_ok
    intro r hr
    obtain ⟨q, hq, hasked⟩ := exists_of_mem_of_forall₂ hrequests.flip hr
    obtain ⟨names, hnames, -⟩ := exists_displayCategories hasked (hmembers q hq)
    exact ⟨names, hnames⟩
  have hspans : ∀ displayCategory, displayCategory ∈ categories.flatten ↔
      ∃ q ∈ group.queries, q.Spans derived source.projectId displayCategory := by
    intro displayCategory
    rw [MappingStore.mem_categories_iff hcategories]
    constructor
    · rintro ⟨r, hr, names, hok, hmem⟩
      obtain ⟨q, hq, hasked⟩ := exists_of_mem_of_forall₂ hrequests.flip hr
      obtain ⟨others, hothers, hiff⟩ := exists_displayCategories hasked (hmembers q hq)
      obtain rfl : names = others := Except.ok.inj (hok.symm.trans hothers)
      exact ⟨q, hq, (hiff displayCategory).mp hmem⟩
    · rintro ⟨q, hq, hneeds⟩
      obtain ⟨r, hr, hasked⟩ := exists_of_mem_of_forall₂ hrequests hq
      obtain ⟨names, hnames, hiff⟩ := exists_displayCategories hasked (hmembers q hq)
      exact ⟨r, hr, names, hnames, (hiff displayCategory).mpr hneeds⟩
  refine ⟨_, MappingStore.findCommon_eq_ok_iff.mpr ⟨categories, hcategories, rfl⟩,
    List.filter_sublist, fun m hm => ?_⟩
  rw [List.mem_filter, List.all_eq_true]
  simp only [hm, true_and, hspans]
  constructor
  · intro hcovers q hq displayCategory hneeds
    exact hcovers displayCategory ⟨q, hq, hneeds⟩
  · rintro hcovers displayCategory ⟨q, hq, hneeds⟩
    exact hcovers q hq displayCategory hneeds

/-- A mapping of a sound store lacks exactly what it does not cover. -/
theorem lacks_iff_of_sound (hsound : source.store.Sound) {m : PropertyMapping}
    (hm : m ∈ source.store.ofProject source.projectId) :
    source.Lacks m.name displayCategory f ↔
      m.covers displayCategory = false ∧ f = .uncovered m.name displayCategory := by
  obtain ⟨hstored, hproject⟩ := List.mem_filter.mp hm
  have hfind : source.store.find? source.projectId m.name = some m := by
    rw [← of_decide_eq_true hproject]
    exact hsound.find?_eq_some hstored
  rw [PropertyMapping.covers, Option.isSome_eq_false_iff, Option.isNone_iff_eq_none]
  constructor
  · intro h
    cases h with
    | missing hnone => simp [hfind] at hnone
    | uncovered hother huncovered =>
        cases hfind.symm.trans hother
        exact ⟨huncovered, rfl⟩
  · rintro ⟨huncovered, rfl⟩
    exact .uncovered hfind huncovered

/-- The only faults that a mapping of a sound store brings into a planned group are the display
categories that it does not cover. -/
theorem fault_widened_iff_of_sound (hsound : source.store.Sound) {m : PropertyMapping}
    (hm : m ∈ source.store.ofProject source.projectId) (h : group.WidenedBy m.name widened)
    (hplanned : ∀ f, ¬ group.Fault source derived f) :
    widened.Fault source derived f ↔ ∃ q ∈ group.queries, ∃ displayCategory,
      q.Spans derived source.projectId displayCategory ∧ m.covers displayCategory = false ∧
        f = .uncovered m.name displayCategory := by
  have hname : Text.hasBlank m.name = false := hsound.unblank m (List.mem_of_mem_filter hm)
  rw [fault_widened_iff h hname hplanned]
  simp only [lacks_iff_of_sound hsound hm]

/-- A planned group can be planned with a mapping of a sound store if and only if the mapping covers
all display categories at which it is needed. -/
theorem exists_plans_widened_iff (hsound : source.store.Sound) {m : PropertyMapping}
    (hm : m ∈ source.store.ofProject source.projectId) (h : group.WidenedBy m.name widened)
    (hplanned : ∀ f, ¬ group.Fault source derived f) :
    (∃ plans, (source.normalize derived widened).result = .ok plans) ↔
      ∀ q ∈ group.queries, ∀ displayCategory,
        q.Spans derived source.projectId displayCategory → m.covers displayCategory = true := by
  rw [exists_plans_iff_not_fault]
  constructor
  · intro hnone q hq displayCategory hspans
    by_contra huncovered
    apply hnone (.uncovered m.name displayCategory)
    apply (fault_widened_iff_of_sound hsound hm h hplanned).mpr
    exact ⟨q, hq, displayCategory, hspans, by simpa using huncovered, rfl⟩
  · intro hcovers f hfault
    obtain ⟨q, hq, displayCategory, hspans, huncovered, -⟩ :=
      (fault_widened_iff_of_sound hsound hm h hplanned).mp hfault
    simp [hcovers q hq displayCategory hspans] at huncovered

end MappingSource

namespace Workspace

variable {w : Workspace} {projectId : Int} {requests : List CommonRequest} {group : QueryGroup}
  {plans : List Plan}

/-- In every workspace that operations lead to, the look-up of common mappings agrees with planning: a
mapping of the project is common to what the members of a planned group ask for if and only if the
group can still be planned with a global filter or group-by on the mapping, and otherwise planning
fails with invalid input. The common mappings come in order of creation, each of them once, whatever
the order and the repetition of the requests. -/
theorem mem_common_iff_planned (hw : w.Reached)
    (hrequests : List.Forall₂ CommonRequest.AskedBy requests group.queries)
    (hplans : ((w.source projectId).normalize w.derived group).result = .ok plans) :
    ∃ common, w.mappings.findCommon w.derived projectId requests = .ok common ∧
      common.Sublist (w.mappings.ofProject projectId) ∧ common.Nodup ∧
      (common.map (·.id)).Sublist w.issuedIds ∧
      (∀ others, (∀ r, r ∈ others ↔ r ∈ requests) →
        w.mappings.findCommon w.derived projectId others = .ok common) ∧
      ∀ m ∈ w.mappings.ofProject projectId, ∀ widened, group.WidenedBy m.name widened →
        (m ∈ common ↔
          ∃ plans, ((w.source projectId).normalize w.derived widened).result = .ok plans) ∧
        (m ∉ common → ∃ f, ((w.source projectId).normalize w.derived widened).result = .error f ∧
          f.kind = .invalidInput) := by
  obtain ⟨hsound, hissued⟩ := hw.mappings
  have hplanned := (MappingSource.exists_plans_iff_not_fault (w.source projectId) w.derived
    group).mp ⟨plans, hplans⟩
  obtain ⟨common, hcommon, hsublist, hmem⟩ :=
    MappingSource.exists_findCommon hrequests hplanned
  have hstored : common.Sublist w.mappings := hsublist.trans List.filter_sublist
  refine ⟨common, hcommon, hsublist, hsound.nodup.sublist hstored, (hstored.map _).trans hissued,
    fun others hsame => MappingStore.findCommon_congr hsame hcommon, ?_⟩
  intro m hm widened hwidened
  have hiff := MappingSource.exists_plans_widened_iff hsound hm hwidened hplanned
  constructor
  · exact (hmem m hm).trans hiff.symm
  · intro hout
    cases hresult : ((w.source projectId).normalize w.derived widened).result with
    | ok plans => exact absurd ((hmem m hm).mpr (hiff.mp ⟨plans, hresult⟩)) hout
    | error f =>
        obtain ⟨_, _, _, _, _, rfl⟩ :=
          (MappingSource.fault_widened_iff_of_sound hsound hm hwidened hplanned).mp
            (MappingSource.fault_of_normalize hresult)
        exact ⟨_, rfl, rfl⟩

/-- A sub-query that counts the records of a display category. -/
def counted (displayCategory name : String) : Query :=
  ⟨.events, displayCategory, ["count"], [], [], 0, 9, none, .standard, name, "", "", none⟩

/-- A derived metric over two display categories. -/
def rate : NewDerivedMetric :=
  ⟨"rate", "", "", ⟨"", "won / seen", [counted "deals" "won", counted "visits" "seen"], [], [], ""⟩⟩

/-- A mapping for the stages of deals and of visits. -/
def stage : PropertyMapping :=
  ⟨⟨0⟩, 1, "Stage", "stage", [⟨.events, "deals", "", "deal_stage", .categorical, ""⟩,
    ⟨.events, "visits", "", "visit_stage", .categorical, ""⟩], .zero⟩

/-- A workspace in which the mapping and the metric have been created. -/
def staged : Workspace :=
  (((fresh (fun _ => none) (.all none) ⟨false, false, 2, none⟩ fun n => ⟨BitVec.ofNat 128 n⟩).perform
    (.createMapping 1 "Stage" stage.properties)).2.perform (.createDerived 1 rate)).2

/-- A group on deals and on the rate. -/
def dealsAndRate : QueryGroup :=
  ⟨"", "", [counted "deals" "", { counted "" "" with metrics := ["rate"], queryType := .derived }],
    [], [], ""⟩

/-- The mapping is common to deals and the rate, so both can be grouped by it. -/
theorem mem_common_iff_planned_staged :
    staged.mappings.findCommon staged.derived 1 [⟨"deals", false⟩, ⟨"rate", true⟩] = .ok [stage] ∧
      ∃ plans, ((staged.source 1).normalize staged.derived
        { dealsAndRate with
          globalGroupBys := [⟨"", "stage", true, .categorical, ""⟩] }).result = .ok plans := by
  obtain ⟨plans, hplans⟩ :
      ∃ plans, ((staged.source 1).normalize staged.derived dealsAndRate).result = .ok plans :=
    ⟨_, rfl⟩
  have hreached : staged.Reached := .perform (.perform (.fresh _ _ _ _) _) _
  have hrequests : List.Forall₂ CommonRequest.AskedBy [⟨"deals", false⟩, ⟨"rate", true⟩]
      dealsAndRate.queries := .cons (.standard rfl rfl rfl) (.cons (.derived rfl rfl rfl rfl) .nil)
  obtain ⟨common, hcommon, -, -, -, -, hagree⟩ :=
    mem_common_iff_planned hreached hrequests hplans
  have hmappings : staged.mappings = [stage] := rfl
  have hstage : stage ∈ staged.mappings.ofProject 1 := by
    rw [hmappings]
    exact List.mem_singleton.mpr rfl
  have hfound : staged.mappings.findCommon staged.derived 1 [⟨"deals", false⟩, ⟨"rate", true⟩] =
      .ok [stage] := rfl
  obtain rfl : common = [stage] := Except.ok.inj (hcommon.symm.trans hfound)
  exact ⟨hfound, (hagree stage hstage _ (.groupBy _ rfl)).1.mp (List.mem_singleton.mpr rfl)⟩

end Workspace

end FederatedMetrics
