import FederatedMetrics.Proofs.Json.Decoding
import FederatedMetrics.Query.Codec
import FederatedMetrics.Record.Metric

/-!
# Decoding what has been encoded

Filters, group-bys, properties, metric definitions, queries and query groups are read from the text of
their encoding as they were.
-/

namespace FederatedMetrics

open Json

theorem Category.reads (c : Category) : Reads Category.decode c.encode c :=
  reads_choice (by cases c <;> rfl)

theorem DataType.reads (t : DataType) : Reads DataType.decode t.encode t :=
  reads_choice (by cases t <;> rfl)

theorem Comparison.reads (c : Comparison) : Reads Comparison.decode c.encode c :=
  reads_choice (by cases c <;> rfl)

theorem Connective.reads (c : Connective) : Reads Connective.decode c.encode c :=
  reads_choice (by cases c <;> rfl)

theorem QueryType.reads (t : QueryType) : Reads QueryType.decode t.encode t :=
  reads_choice (by cases t <;> rfl)

/-- A granularity has a name that is not the one for none. -/
theorem Granularity.reads (g : Granularity) : Reads decodeOptional g.encode (some g) := by
  intro nesting _
  cases g <;> rfl

theorem Property.reads (p : Property) : Reads Property.decode p.encode p := by
  obtain ⟨category, displayCategory, objectType, name, dataType, entity⟩ := p
  refine reads_record fun nesting hdepth => ?_
  iterate 5 refine FieldResult.seq_eq_value ?_ ?_
  · exact FieldResult.map_eq_value (Fields.read_eq_value rfl category.reads hdepth _ _)
  · exact Fields.read_eq_value rfl (reads_text _) hdepth _ _
  · exact Fields.read_eq_value rfl (reads_text _) hdepth _ _
  · exact Fields.read_eq_value rfl (reads_text _) hdepth _ _
  · exact Fields.read_eq_value rfl dataType.reads hdepth _ _
  · exact Fields.read_eq_value rfl (reads_text _) hdepth _ _

theorem Property.isExact_encode (p : Property) : p.encode.IsExact := by
  simp [encode, Category.encode, DataType.encode]

theorem Filter.reads (f : Filter) : Reads Filter.decode f.encode f := by
  obtain ⟨objectType, propertyName, isMapping, dataType, entity, comparison, value, connective⟩ := f
  refine reads_record fun nesting hdepth => ?_
  iterate 7 refine FieldResult.seq_eq_value ?_ ?_
  · exact FieldResult.map_eq_value (Fields.read_eq_value rfl (reads_text _) hdepth _ _)
  · exact Fields.read_eq_value rfl (reads_text _) hdepth _ _
  · exact Fields.read_eq_value rfl (reads_flag _) hdepth _ _
  · exact Fields.read_eq_value rfl dataType.reads hdepth _ _
  · exact Fields.read_eq_value rfl (reads_text _) hdepth _ _
  · exact Fields.read_eq_value rfl comparison.reads hdepth _ _
  · exact Fields.read_eq_value rfl (reads_text _) hdepth _ _
  · exact Fields.read_eq_value rfl connective.reads hdepth _ _

theorem Filter.isExact_encode (f : Filter) : f.encode.IsExact := by
  simp [encode, DataType.encode, Comparison.encode, Connective.encode]

theorem GroupBy.reads (g : GroupBy) : Reads GroupBy.decode g.encode g := by
  obtain ⟨objectType, propertyName, isMapping, dataType, entity⟩ := g
  refine reads_record fun nesting hdepth => ?_
  iterate 4 refine FieldResult.seq_eq_value ?_ ?_
  · exact FieldResult.map_eq_value (Fields.read_eq_value rfl (reads_text _) hdepth _ _)
  · exact Fields.read_eq_value rfl (reads_text _) hdepth _ _
  · exact Fields.read_eq_value rfl (reads_flag _) hdepth _ _
  · exact Fields.read_eq_value rfl dataType.reads hdepth _ _
  · exact Fields.read_eq_value rfl (reads_text _) hdepth _ _

theorem GroupBy.isExact_encode (g : GroupBy) : g.encode.IsExact := by
  simp [encode, DataType.encode]

/-- An aggregate is read if its operator is found and what the operator needs. -/
theorem Aggregate.reads_of_operator (operator : Operator) {entries : List (String × Json)}
    {name : String} {a : Aggregate} (hname : Operator.names.lookup name = some operator)
    (hentry : entries.filter (fun entry => ["op"].contains entry.1) = [("op", .str name)])
    (h : ∀ nesting, entriesDepth entries ≤ nesting →
      ofOperator (.ofObject entries nesting) operator = .value a) :
    Reads Aggregate.decode (.obj entries) a := by
  refine reads_record fun nesting hdepth => ?_
  have hoperator : (Fields.ofObject entries nesting).required 0 ["op"] (choice Operator.names) =
      .value operator := Fields.read_eq_value hentry (reads_choice hname) hdepth _ _
  rw [hoperator]
  exact h nesting hdepth

theorem Aggregate.reads (a : Aggregate) : Reads Aggregate.decode a.encode a := by
  cases a with
  | count =>
      refine reads_of_operator .count rfl rfl fun nesting _ => ?_
      exact FieldResult.map_eq_value (Fields.read_eq_absent rfl _ nesting _ _)
  | sum property =>
      refine reads_of_operator .sum rfl rfl fun nesting hdepth => ?_
      exact FieldResult.map_eq_value (Fields.read_eq_value rfl (reads_text _) hdepth _ _)
  | countDistinct property =>
      refine reads_of_operator .countDistinct rfl rfl fun nesting hdepth => ?_
      exact FieldResult.map_eq_value (Fields.read_eq_value rfl (reads_text _) hdepth _ _)

theorem MetricDefinition.reads (d : MetricDefinition) :
    Reads MetricDefinition.decode d.encode d := by
  obtain ⟨aggregate, objectType⟩ := d
  refine reads_record fun nesting hdepth => ?_
  refine FieldResult.seq_eq_value (FieldResult.map_eq_value ?_) ?_
  · exact Fields.read_eq_value rfl aggregate.reads hdepth _ _
  · cases objectType with
    | none => exact Fields.read_eq_value rfl (reads_nullable_null _) hdepth _ _
    | some objectType =>
        exact Fields.read_eq_value rfl (reads_nullable (by simp) (reads_text _)) hdepth _ _

theorem MetricDefinition.isExact_encode (d : MetricDefinition) : d.encode.IsExact := by
  obtain ⟨aggregate, objectType⟩ := d
  cases aggregate <;> cases objectType <;> simp [encode, Aggregate.encode]

/-! ## Queries -/

mutual

/-- A query whose window, and those of the definitions in it, are given by integers of 64 bits. -/
inductive Query.InRange : Query → Prop
  | intro {q : Query} (hfirst : IsInt64 q.first) (hlast : IsInt64 q.last)
      (hdefinition : ∀ g, q.definition = some g → QueryGroup.InRange g) : Query.InRange q

inductive QueryGroup.InRange : QueryGroup → Prop
  | intro {g : QueryGroup} (hqueries : ∀ q ∈ g.queries, Query.InRange q) : QueryGroup.InRange g

end

theorem forall₂_reads {α : Type} {decode : Decoder α} {encode : α → Json} {xs : List α}
    (h : ∀ x ∈ xs, Reads decode (encode x) x) : List.Forall₂ (Reads decode) (xs.map encode) xs :=
  List.forall₂_map_left_iff.mpr (List.forall₂_same.mpr h)

/-- An entry of an object that is left out where there is nothing to write. -/
def optionalEntry (key : String) (value : Option Json) : List (String × Json) :=
  (value.map fun value => (key, value)).toList

theorem filter_optionalEntry (names : List String) (key : String) (value : Option Json) :
    ((optionalEntry key value).filter fun entry => names.contains entry.1) =
      if names.contains key then optionalEntry key value else [] := by
  cases value with
  | none => simp [optionalEntry]
  | some value => by_cases h : key ∈ names <;> simp [optionalEntry, h]

theorem isExact_of_mem_optionalEntry {α : Type} (key : String) {value : Option α} {encode : α → Json}
    (h : ∀ x, value = some x → (encode x).IsExact) :
    ∀ entry ∈ optionalEntry key (value.map encode), entry.2.IsExact := by
  intro entry hentry
  cases value with
  | none => cases hentry
  | some x =>
      obtain rfl := List.mem_singleton.mp hentry
      exact h x rfl

namespace QueryGroup

/-- The entries of a group in front of its way of display. -/
def leadingEntries (g : QueryGroup) : List (String × Json) :=
  [("class", .str g.className), ("formula", .str g.formula),
    ("queries", .arr (g.queries.map Query.encode)),
    ("global_filters", .arr (g.globalFilters.map Filter.encode)),
    ("global_group_bys", .arr (g.globalGroupBys.map GroupBy.encode))]

/-- The way of display of a group, if it has one. -/
def display? (g : QueryGroup) : Option String :=
  if g.displayResultAs = "" then none else some g.displayResultAs

def entries (g : QueryGroup) : List (String × Json) :=
  g.leadingEntries ++ optionalEntry "display_result_as" (g.display?.map Json.str)

theorem encode_eq (g : QueryGroup) : g.encode = .obj g.entries := by
  obtain ⟨_, _, queries, _, _, displayResultAs⟩ := g
  by_cases h : displayResultAs = "" <;>
    simp [encode, encodeQueries_eq_map, entries, leadingEntries, display?, optionalEntry, h]

theorem filter_entries (g : QueryGroup) (names : List String) :
    (g.entries.filter fun entry => names.contains entry.1) =
      (g.leadingEntries.filter fun entry => names.contains entry.1) ++
        if names.contains "display_result_as" then
          optionalEntry "display_result_as" (g.display?.map Json.str) else [] := by
  rw [entries, List.filter_append, filter_optionalEntry]

/-- A group is read if its members are. -/
theorem reads_decodeWith {decode : Decoder Query} {g : QueryGroup}
    (hqueries : ∀ q ∈ g.queries, Reads decode q.encode q) :
    Reads (decodeWith decode) g.encode g := by
  rw [encode_eq]
  refine reads_record fun nesting hdepth => ?_
  have hfind := g.filter_entries
  generalize g.entries = entries at hfind hdepth
  obtain ⟨className, formula, queries, globalFilters, globalGroupBys, displayResultAs⟩ := g
  iterate 5 refine FieldResult.seq_eq_value ?_ ?_
  · exact FieldResult.map_eq_value
      (Fields.read_eq_value ((hfind _).trans rfl) (reads_text _) hdepth _ _)
  · exact Fields.read_eq_value ((hfind _).trans rfl) (reads_text _) hdepth _ _
  · exact Fields.read_eq_value ((hfind _).trans rfl) (reads_listOf (forall₂_reads hqueries)) hdepth _ _
  · exact Fields.read_eq_value ((hfind _).trans rfl)
      (reads_listOf (forall₂_reads fun f _ => f.reads)) hdepth _ _
  · exact Fields.read_eq_value ((hfind _).trans rfl)
      (reads_listOf (forall₂_reads fun g _ => g.reads)) hdepth _ _
  · by_cases hdisplay : displayResultAs = ""
    · subst hdisplay
      exact Fields.read_eq_absent ((hfind _).trans rfl) _ _ _ _
    · simp only [display?, if_neg hdisplay] at hfind
      exact Fields.read_eq_value ((hfind _).trans rfl) (reads_text _) hdepth _ _

/-- A member of a group is nested less deeply. -/
theorem depth_lt_of_mem {g : QueryGroup} {q : Query} (h : q ∈ g.queries) :
    q.encode.depth < g.encode.depth := by
  have hqueries : ("queries", Json.arr (g.queries.map Query.encode)) ∈ g.entries := by
    simp [entries, leadingEntries]
  rw [encode_eq]
  exact Nat.lt_trans (depth_lt_of_mem_items (List.mem_map_of_mem h))
    (depth_lt_of_mem_entries hqueries)

end QueryGroup

namespace Query

/-- The entries of a query in front of its granularity. -/
def leadingEntries (q : Query) : List (String × Json) :=
  [("category", q.category.encode), ("display_category", .str q.displayCategory),
    ("metrics", .arr (q.metrics.map Json.str)), ("filters", .arr (q.filters.map Filter.encode)),
    ("group_bys", .arr (q.groupBys.map GroupBy.encode)), ("from", .int q.first),
    ("to", .int q.last)]

/-- The entries of a query between its granularity and its definition. -/
def middleEntries (q : Query) : List (String × Json) :=
  [("query_type", q.queryType.encode), ("name", .str q.name), ("alias_name", .str q.aliasName),
    ("timezone", .str q.timezone)]

def entries (q : Query) : List (String × Json) :=
  q.leadingEntries ++ optionalEntry "group_by_timestamp" (q.granularity.map Granularity.encode) ++
    q.middleEntries ++ optionalEntry "definition" (q.definition.map QueryGroup.encode)

theorem encode_eq (q : Query) : q.encode = .obj q.entries := by
  obtain ⟨_, _, _, _, _, _, _, granularity, _, _, _, _, definition⟩ := q
  cases granularity <;> cases definition <;> rfl

theorem filter_entries (q : Query) (names : List String) :
    (q.entries.filter fun entry => names.contains entry.1) =
      (q.leadingEntries.filter fun entry => names.contains entry.1) ++
        (if names.contains "group_by_timestamp" then
          optionalEntry "group_by_timestamp" (q.granularity.map Granularity.encode) else []) ++
        (q.middleEntries.filter fun entry => names.contains entry.1) ++
        if names.contains "definition" then
          optionalEntry "definition" (q.definition.map QueryGroup.encode) else [] := by
  simp only [entries, List.filter_append, filter_optionalEntry]

/-- A query is read if its definition is. -/
theorem reads_decodeWith {decode : Decoder QueryGroup} {q : Query} (hfirst : IsInt64 q.first)
    (hlast : IsInt64 q.last)
    (hdefinition : ∀ g, q.definition = some g → Reads decode g.encode g) :
    Reads (decodeWith decode) q.encode q := by
  rw [encode_eq]
  refine reads_record fun nesting hdepth => ?_
  have hfind := q.filter_entries
  generalize q.entries = entries at hfind hdepth
  obtain ⟨category, displayCategory, metrics, filters, groupBys, first, last, granularity, queryType,
    name, aliasName, timezone, definition⟩ := q
  iterate 12 refine FieldResult.seq_eq_value ?_ ?_
  · exact FieldResult.map_eq_value
      (Fields.read_eq_value ((hfind _).trans rfl) category.reads hdepth _ _)
  · exact Fields.read_eq_value ((hfind _).trans rfl) (reads_text _) hdepth _ _
  · exact Fields.read_eq_value ((hfind _).trans rfl)
      (reads_listOf (forall₂_reads fun s _ => reads_text s)) hdepth _ _
  · exact Fields.read_eq_value ((hfind _).trans rfl)
      (reads_listOf (forall₂_reads fun f _ => f.reads)) hdepth _ _
  · exact Fields.read_eq_value ((hfind _).trans rfl)
      (reads_listOf (forall₂_reads fun g _ => g.reads)) hdepth _ _
  · exact Fields.read_eq_value ((hfind _).trans rfl) (reads_int64 hfirst) hdepth _ _
  · exact Fields.read_eq_value ((hfind _).trans rfl) (reads_int64 hlast) hdepth _ _
  · cases granularity with
    | none => exact Fields.read_eq_absent ((hfind _).trans rfl) _ _ _ _
    | some g => exact Fields.read_eq_value ((hfind _).trans rfl) g.reads hdepth _ _
  · exact Fields.read_eq_value ((hfind _).trans rfl) queryType.reads hdepth _ _
  · exact Fields.read_eq_value ((hfind _).trans rfl) (reads_text _) hdepth _ _
  · exact Fields.read_eq_value ((hfind _).trans rfl) (reads_text _) hdepth _ _
  · exact Fields.read_eq_value ((hfind _).trans rfl) (reads_text _) hdepth _ _
  · cases definition with
    | none => exact Fields.read_eq_absent ((hfind _).trans rfl) _ _ _ _
    | some g =>
        refine Fields.read_eq_value ((hfind _).trans rfl) (reads_nullable ?_ (hdefinition g rfl))
          hdepth _ _
        rw [QueryGroup.encode_eq]
        exact Json.noConfusion

theorem depth_lt_of_definition {q : Query} {g : QueryGroup} (h : q.definition = some g) :
    g.encode.depth < q.encode.depth := by
  have hdefinition : ("definition", g.encode) ∈ q.entries := by
    simp [entries, optionalEntry, h]
  rw [encode_eq]
  exact depth_lt_of_mem_entries hdefinition

end Query

/-- A group is read by a decoder that reaches as deep as its encoding does. -/
theorem QueryGroup.reads_decodeWithin {depth : Nat} {g : QueryGroup} (h : g.InRange)
    (hdepth : g.encode.depth ≤ depth) : Reads (decodeWithin depth) g.encode g := by
  induction depth generalizing g with
  | zero =>
      rw [encode_eq] at hdepth
      exact absurd hdepth (Nat.not_succ_le_zero _)
  | succ depth ih =>
      obtain ⟨hqueries⟩ := h
      refine reads_decodeWith fun q hq => ?_
      obtain ⟨hfirst, hlast, hdefinition⟩ := hqueries q hq
      refine Query.reads_decodeWith hfirst hlast fun inner hinner => ?_
      have hquery := depth_lt_of_mem hq
      have hdeeper := Query.depth_lt_of_definition hinner
      exact ih (hdefinition inner hinner) (by omega)

theorem QueryGroup.reads {g : QueryGroup} (h : g.InRange) : Reads QueryGroup.decode g.encode g :=
  fun nesting hdepth => reads_decodeWithin h hdepth nesting hdepth

theorem Query.reads {q : Query} (h : q.InRange) : Reads Query.decode q.encode q := by
  obtain ⟨hfirst, hlast, hdefinition⟩ := h
  intro nesting hdepth
  refine reads_decodeWith hfirst hlast (fun g hg => ?_) nesting hdepth
  have hdeeper := depth_lt_of_definition hg
  exact QueryGroup.reads_decodeWithin (hdefinition g hg) (by omega)

mutual

theorem Query.InRange.isExact_encode {q : Query} : q.InRange → q.encode.IsExact
  | .intro hfirst hlast hdefinition => by
      rw [Query.encode_eq, isExact_obj, Query.entries, List.forall_mem_append,
        List.forall_mem_append, List.forall_mem_append]
      refine ⟨⟨⟨?_, ?_⟩, ?_⟩, ?_⟩
      · simp only [Query.leadingEntries, List.forall_mem_cons, List.not_mem_nil, IsEmpty.forall_iff,
          isExact_str, isExact_int, isExact_arr, List.forall_mem_map, implies_true, and_true, true_and]
        exact ⟨.str _, fun f _ => f.isExact_encode, fun g _ => g.isExact_encode,
          isWord_of_isInt64 hfirst, isWord_of_isInt64 hlast⟩
      · exact isExact_of_mem_optionalEntry _ fun g _ => .str _
      · simp [Query.middleEntries, QueryType.encode]
      · exact isExact_of_mem_optionalEntry _ fun g hg => (hdefinition g hg).isExact_encode

theorem QueryGroup.InRange.isExact_encode {g : QueryGroup} : g.InRange → g.encode.IsExact
  | .intro hqueries => by
      rw [QueryGroup.encode_eq, isExact_obj, QueryGroup.entries, List.forall_mem_append]
      constructor
      · simp only [QueryGroup.leadingEntries, List.forall_mem_cons, List.not_mem_nil,
          IsEmpty.forall_iff, isExact_str, isExact_arr, List.forall_mem_map, implies_true, and_true,
          true_and]
        exact ⟨fun q hq => (hqueries q hq).isExact_encode, fun f _ => f.isExact_encode,
          fun g _ => g.isExact_encode⟩
      · exact isExact_of_mem_optionalEntry _ fun s _ => .str s

end

/-- A decoder undoes an encoding at a value: it reads the value from the encoding, and from the text of
the encoding. -/
def Undoes {α : Type} (decode : Decoder α) (encode : α → Json) (x : α) : Prop :=
  Json.decode decode (encode x) = .ok x ∧ decodeText decode (encode x).print = .ok x

theorem undoes_of_reads {α : Type} {decode : Decoder α} {encode : α → Json} {x : α}
    (h : Reads decode (encode x) x) (hexact : (encode x).IsExact)
    (hdepth : (encode x).depth ≤ maxNesting) : Undoes decode encode x :=
  ⟨h maxNesting hdepth, decodeText_print h hexact hdepth⟩

/-- Decoding undoes encoding: filters, group-bys, properties and metric definitions come back from the
text of their encoding as they were, and so do queries and groups with windows of 64 bits whose
definitions are not nested more deeply than texts are read. -/
theorem decode_undoes_encode :
    (∀ f : Filter, Undoes Filter.decode Filter.encode f) ∧
    (∀ g : GroupBy, Undoes GroupBy.decode GroupBy.encode g) ∧
    (∀ p : Property, Undoes Property.decode Property.encode p) ∧
    (∀ d : MetricDefinition, Undoes MetricDefinition.decode MetricDefinition.encode d) ∧
    (∀ q : Query, q.InRange → q.encode.depth ≤ maxNesting → Undoes Query.decode Query.encode q) ∧
    ∀ g : QueryGroup, g.InRange → g.encode.depth ≤ maxNesting →
      Undoes QueryGroup.decode QueryGroup.encode g := by
  refine ⟨?_, ?_, ?_, ?_, ?_, ?_⟩
  · exact fun f => undoes_of_reads f.reads f.isExact_encode (Nat.le_of_ble_eq_true rfl)
  · exact fun g => undoes_of_reads g.reads g.isExact_encode (Nat.le_of_ble_eq_true rfl)
  · exact fun p => undoes_of_reads p.reads p.isExact_encode (Nat.le_of_ble_eq_true rfl)
  · intro d
    have hdepth : d.encode.depth ≤ maxNesting := by
      obtain ⟨aggregate, objectType⟩ := d
      cases aggregate <;> cases objectType <;> exact Nat.le_of_ble_eq_true rfl
    exact undoes_of_reads d.reads d.isExact_encode hdepth
  · exact fun q h hdepth => undoes_of_reads (Query.reads h) h.isExact_encode hdepth
  · exact fun g h hdepth => undoes_of_reads (QueryGroup.reads h) h.isExact_encode hdepth

/-- A member by the hour, with a definition on the spot and a quote in its alias. -/
def hourlyMember (definition : Option QueryGroup) : Query :=
  ⟨.events, "visits", ["count"], [], [], -1, 9, some .hour, .derived, "a", "\"a\"\n", "", definition⟩

/-- A group with a definition inside a definition. -/
def nestedGroup : QueryGroup :=
  let inner : QueryGroup := ⟨"", "a", [hourlyMember none], [], [], ""⟩
  ⟨"", "", [hourlyMember (some ⟨"", "a", [hourlyMember (some inner)], [], [], ""⟩)], [], [], "chart"⟩

theorem inRange_hourlyMember {definition : Option QueryGroup}
    (h : ∀ g, definition = some g → g.InRange) : (hourlyMember definition).InRange := by
  have hfirst : IsInt64 (-1) := ⟨by decide, by decide⟩
  have hlast : IsInt64 9 := ⟨by decide, by decide⟩
  exact .intro hfirst hlast h

/-- A group with a definition inside a definition comes back as it was. -/
theorem decode_undoes_encode_nested :
    nestedGroup.InRange ∧ nestedGroup.encode.depth = 10 ∧
      Undoes QueryGroup.decode QueryGroup.encode nestedGroup := by
  have hinner : (hourlyMember none).InRange := inRange_hourlyMember nofun
  have hrange : nestedGroup.InRange := by
    refine .intro (List.forall_mem_singleton.mpr (inRange_hourlyMember fun g hg => ?_))
    obtain rfl := Option.some.inj hg
    refine .intro (List.forall_mem_singleton.mpr (inRange_hourlyMember fun g hg => ?_))
    obtain rfl := Option.some.inj hg
    exact .intro (List.forall_mem_singleton.mpr hinner)
  have hdepth : nestedGroup.encode.depth = 10 := by decide +kernel
  have hnesting : nestedGroup.encode.depth ≤ maxNesting := by rw [hdepth]; decide
  exact ⟨hrange, hdepth, decode_undoes_encode.2.2.2.2.2 nestedGroup hrange hnesting⟩

end FederatedMetrics
