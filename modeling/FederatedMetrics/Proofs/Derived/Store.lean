import FederatedMetrics.Derived.Store
import FederatedMetrics.Proofs.Derived.Definition
import FederatedMetrics.Proofs.Requirement

/-!
# Stores of derived metrics

A definition is checked when a metric is created, and only then. A store into which metrics come by
creation alone holds valid definitions, under names that are unique in their projects.
-/

namespace FederatedMetrics

/-- Where names are unique in a project, an entity is found by its project and its name. -/
theorem find?_eq_some_of_distinct {α : Type} {projectId : α → Int} {name : α → String}
    {items : List α} (hdistinct : items.Pairwise fun a b => projectId a = projectId b → name a ≠ name b)
    {a : α} (ha : a ∈ items) :
    items.find? (fun b => projectId b = projectId a && name b = name a) = some a := by
  obtain ⟨before, behind, rfl⟩ := List.append_of_mem ha
  have hbefore : before.find? (fun b => projectId b = projectId a && name b = name a) = none := by
    apply List.find?_eq_none.mpr
    intro b hb
    have hdiffers := (List.pairwise_append.mp hdistinct).2.2 b hb a (by simp)
    simpa using hdiffers
  rw [List.find?_append, hbefore, List.find?_cons_of_pos (by simp), Option.none_or]

/-- What a valid definition is like: a formula over plain sub-queries that are named by its
variables. -/
structure QueryGroup.Defines (g : QueryGroup) (formula : Formula) : Prop where
  nonempty : g.queries ≠ []
  parsed : Formula.ofSource g.formula = .ok formula
  plain : ∀ q ∈ g.queries,
    q.isDerived = false ∧ q.metrics.length = 1 ∧ q.groupBys = [] ∧ q.granularity = none
  named : ∀ q ∈ g.queries, q.variableName ≠ ""
  distinct : (g.queries.map Query.variableName).Nodup
  mem_variableNames : ∀ name,
    name ∈ formula.variableNames ↔ name ∈ g.queries.map Query.variableName

/-- The first sub-query is checked before the others. -/
theorem subQueryNames_cons_eq_ok_iff {q : Query} {rest : List Query} {found names : List String} :
    subQueryNames found (q :: rest) = .ok names ↔
      q.checkSubQuery = .ok () ∧ q.variableName ≠ "" ∧ q.variableName ∉ found ∧
        subQueryNames (found ++ [q.variableName]) rest = .ok names := by
  rw [subQueryNames, check_bind_eq_ok_iff]
  generalize q.variableName = name
  by_cases hname : name = "" ∨ name ∈ found
  · have hrefused : (decide (name = "") || found.contains name) = true := by simpa using hname
    simp only [hrefused, ↓reduceIte, reduceCtorEq, and_false, false_iff]
    tauto
  · have haccepted : (decide (name = "") || found.contains name) = false := by simpa using hname
    simp only [haccepted, Bool.false_eq_true, ↓reduceIte]
    tauto

/-- Sub-queries get names if they pass their checks and their variables are neither blank nor repeated,
nor among those found before. -/
theorem subQueryNames_eq_ok_iff {queries : List Query} {found names : List String} :
    subQueryNames found queries = .ok names ↔
      names = found ++ queries.map Query.variableName ∧
        (∀ q ∈ queries, q.checkSubQuery = .ok () ∧ q.variableName ≠ "" ∧ q.variableName ∉ found) ∧
        (queries.map Query.variableName).Nodup := by
  induction queries generalizing found with
  | nil =>
      rw [subQueryNames, Except.ok.injEq, List.map_nil, List.append_nil, eq_comm]
      simp
  | cons q rest ih =>
      rw [subQueryNames_cons_eq_ok_iff, ih, List.forall_mem_cons, List.map_cons, List.nodup_cons,
        List.append_assoc, List.singleton_append]
      constructor
      · rintro ⟨hcheck, hnamed, hnew, hnames, hrest, hdistinct⟩
        refine ⟨hnames, ⟨⟨hcheck, hnamed, hnew⟩, fun other hother => ?_⟩, ?_, hdistinct⟩
        · obtain ⟨hotherCheck, hotherNamed, hotherNew⟩ := hrest other hother
          exact ⟨hotherCheck, hotherNamed, fun h => hotherNew (List.mem_append_left _ h)⟩
        · intro hrepeated
          obtain ⟨other, hother, hsame⟩ := List.mem_map.mp hrepeated
          exact (hrest other hother).2.2 (by simp [hsame])
      · rintro ⟨hnames, ⟨⟨hcheck, hnamed, hnew⟩, hrest⟩, hunrepeated, hdistinct⟩
        refine ⟨hcheck, hnamed, hnew, hnames, fun other hother => ?_, hdistinct⟩
        obtain ⟨hotherCheck, hotherNamed, hotherNew⟩ := hrest other hother
        refine ⟨hotherCheck, hotherNamed, fun h => ?_⟩
        rcases List.mem_append.mp h with h | h
        · exact hotherNew h
        · exact hunrepeated (List.mem_singleton.mp h ▸ List.mem_map_of_mem hother)

namespace QueryGroup

variable {g : QueryGroup} {formula : Formula}

/-- The check of a definition accepts exactly what is described, and gives its formula. -/
theorem validateDefinition_eq_ok_iff : g.validateDefinition = .ok formula ↔ g.Defines formula := by
  constructor
  · intro h
    have hmem := mem_variableNames_iff h
    rw [validateDefinition] at h
    obtain ⟨hqueries, h⟩ := guard_eq_ok_iff.mp h
    obtain ⟨parsed, hparsed, h⟩ := bind_eq_ok_iff.mp h
    obtain ⟨names, hnames, h⟩ := bind_eq_ok_iff.mp h
    obtain ⟨-, hchecks, hdistinct⟩ := subQueryNames_eq_ok_iff.mp hnames
    split at h
    · cases h
      exact ⟨by simpa using hqueries, hparsed,
        fun q hq => q.checkSubQuery_eq_ok_iff.mp (hchecks q hq).1,
        fun q hq => (hchecks q hq).2.1, hdistinct, hmem⟩
    · cases h
  · intro h
    have hnames : subQueryNames [] g.queries = .ok (g.queries.map Query.variableName) := by
      apply subQueryNames_eq_ok_iff.mpr
      exact ⟨rfl, fun q hq => ⟨q.checkSubQuery_eq_ok_iff.mpr (h.plain q hq), h.named q hq,
        List.not_mem_nil⟩, h.distinct⟩
    have hvariables : formula.variableNames = Ordered.ofList (g.queries.map Query.variableName) := by
      apply (Ordered.ofList_eq_ofList_iff _ _).mpr
      intro name
      rw [← h.mem_variableNames name, Formula.variableNames, Expr.variableNames, Ordered.mem_ofList]
    rw [validateDefinition]
    apply guard_eq_ok_iff.mpr
    refine ⟨by simpa using h.nonempty, bind_eq_ok_iff.mpr ⟨formula, h.parsed, ?_⟩⟩
    refine bind_eq_ok_iff.mpr ⟨_, hnames, ?_⟩
    rw [if_pos hvariables]
    rfl

end QueryGroup

/-- What is required of a request by itself: a name without blanks in it, and a valid definition. -/
structure NewDerivedMetric.Valid (request : NewDerivedMetric) : Prop where
  name_ne : Text.trim request.name ≠ ""
  unblank : Text.hasBlank (Text.trim request.name) = false
  defines : ∃ formula, request.definition.Defines formula

/-- What is stored for a request. -/
def DerivedMetric.ofRequest (stamp : Stamp) (projectId : Int) (request : NewDerivedMetric) :
    DerivedMetric where
  id := stamp.id
  projectId := projectId
  name := Text.trim request.name
  description := request.description
  displayCategory :=
    if Text.isBlankText request.displayCategory then othersDisplayCategory
    else request.displayCategory
  definition := request.definition
  createdAt := stamp.createdAt

/-- What a stored metric is like, apart from the others. -/
structure DerivedMetric.Valid (m : DerivedMetric) : Prop where
  name_ne : m.name ≠ ""
  unblank : Text.hasBlank m.name = false
  defines : ∃ formula, m.definition.Defines formula

namespace DerivedStore

variable {s later : DerivedStore} {m : DerivedMetric} {stamp : Stamp} {projectId : Int}
  {request : NewDerivedMetric}

/-- A project has no derived metric of a name. -/
def Free (s : DerivedStore) (projectId : Int) (name : String) : Prop :=
  ∀ m ∈ s, m.projectId = projectId → m.name ≠ name

theorem find?_eq_none_iff {name : String} : s.find? projectId name = none ↔ s.Free projectId name := by
  rw [find?, List.find?_eq_none, Free]
  apply forall₂_congr
  intro m _
  simp

/-- A metric is created exactly if the request is valid and its name is free. It comes behind the
others. -/
theorem create_eq_ok_iff :
    s.create stamp projectId request = .ok (m, later) ↔
      (request.Valid ∧ s.Free projectId (Text.trim request.name)) ∧
        m = .ofRequest stamp projectId request ∧ later = s ++ [m] := by
  rw [create, guard_eq_ok_iff, bind_eq_ok_iff]
  constructor
  · rintro ⟨hname, formula, hformula, h⟩
    obtain ⟨hfree, h⟩ := guard_eq_ok_iff.mp h
    cases h
    rw [Bool.or_eq_true, decide_eq_true_iff, not_or, Bool.not_eq_true] at hname
    refine ⟨⟨⟨hname.1, hname.2, formula, QueryGroup.validateDefinition_eq_ok_iff.mp hformula⟩, ?_⟩,
      rfl, rfl⟩
    exact find?_eq_none_iff.mp (by simpa using hfree)
  · rintro ⟨⟨⟨hname, hunblank, formula, hformula⟩, hfree⟩, rfl, rfl⟩
    refine ⟨by simp [hname, hunblank], formula,
      QueryGroup.validateDefinition_eq_ok_iff.mpr hformula, guard_eq_ok_iff.mpr ⟨?_, rfl⟩⟩
    simp [find?_eq_none_iff.mpr hfree]

theorem exists_create_iff (s : DerivedStore) (stamp : Stamp) :
    (∃ created, s.create stamp projectId request = .ok created) ↔
      request.Valid ∧ s.Free projectId (Text.trim request.name) := by
  constructor
  · rintro ⟨⟨m, later⟩, h⟩
    exact (create_eq_ok_iff.mp h).1
  · intro h
    exact ⟨(_, _), create_eq_ok_iff.mpr ⟨h, rfl, rfl⟩⟩

/-- Deleting leaves the other metrics in their order. -/
theorem sublist_of_delete {id : Uuid} (h : s.delete projectId id = .ok later) : later.Sublist s := by
  rw [delete] at h
  split at h
  · cases h
    exact List.filter_sublist
  · cases h

/-- What a store is like into which metrics have come by creation alone. -/
structure Valid (s : DerivedStore) : Prop where
  distinct : s.Pairwise fun m other => m.projectId = other.projectId → m.name ≠ other.name
  valid : ∀ m ∈ s, m.Valid

theorem valid_nil : Valid [] := ⟨.nil, by simp⟩

/-- A store stays valid when a metric is created. -/
theorem Valid.create (hs : s.Valid)
    (h : s.create stamp projectId request = .ok (m, later)) : later.Valid := by
  obtain ⟨⟨hrequest, hfree⟩, rfl, rfl⟩ := create_eq_ok_iff.mp h
  constructor
  · refine List.pairwise_append.mpr ⟨hs.distinct, List.pairwise_singleton _ _, ?_⟩
    intro other hother new hnew hproject
    obtain rfl := List.mem_singleton.mp hnew
    exact hfree other hother hproject
  · refine List.forall_mem_append.mpr ⟨hs.valid, ?_⟩
    intro new hnew
    obtain rfl := List.mem_singleton.mp hnew
    exact ⟨hrequest.name_ne, hrequest.unblank, hrequest.defines⟩

/-- A store stays valid when metrics are taken out. -/
theorem Valid.of_sublist (hs : s.Valid) (h : later.Sublist s) : later.Valid :=
  ⟨hs.distinct.sublist h, fun m hm => hs.valid m (h.subset hm)⟩

/-- In a valid store a metric is found by its name. -/
theorem Valid.find?_eq_some (hs : s.Valid) (hm : m ∈ s) : s.find? m.projectId m.name = some m :=
  find?_eq_some_of_distinct hs.distinct hm

end DerivedStore

end FederatedMetrics
