import FederatedMetrics.Proofs.Derived.Store
import FederatedMetrics.Proofs.Plan.Broadcast
import FederatedMetrics.Proofs.Table.Align
import FederatedMetrics.Proofs.Table.Combine
import FederatedMetrics.Proofs.Table.Harmonize
import Mathlib.Data.List.Pairwise

/-!
# The order of rows

Joins do not depend on the order in which executors give their rows. Where no two rows of a table have
the same key, every row goes to a place of its own, and rows that go to different places may be put
there in either order.
-/

namespace FederatedMetrics

namespace ResultTable

/-- Two tables have the same rows under the same headers, perhaps in another order. -/
structure SameRows (t u : ResultTable) : Prop where
  headers_eq : t.headers = u.headers
  rows_perm : t.rows.Perm u.rows

theorem SameRows.fits {t u : ResultTable} {width : Nat} (h : t.SameRows u) :
    t.Fits width ↔ u.Fits width := by
  rw [Fits, Fits, isRectangular, isRectangular, h.headers_eq, h.rows_perm.all_eq]

end ResultTable

/-- Items that may be taken in either order one by one may be taken in any order. -/
theorem foldl_eq_of_perm {α β : Type} {f : β → α → β} {items others : List α}
    (hperm : items.Perm others)
    (hcomm : items.Pairwise fun x y => ∀ b, f (f b x) y = f (f b y) x) (b : β) :
    items.foldl f b = others.foldl f b := by
  have : Std.Symm fun x y => ∀ b, f (f b x) y = f (f b y) x := ⟨fun _ _ h b => (h b).symm⟩
  exact hperm.foldl_eq'
    (fun x hx y hy b => hcomm.forall_of_forall (fun _ _ _ => rfl) hx hy b) b

namespace Alignment

variable {a : Alignment} {width : Nat}

/-- Rows that differ in their key or in their variable may be added in either order. -/
theorem addRow_comm {first second : String × List Json}
    (h : first.1 ≠ second.1 ∨
      (first.2.take width).map Json.asText ≠ (second.2.take width).map Json.asText)
    (joined : List (List String × Sums)) :
    addRow width second.1 second.2 (addRow width first.1 first.2 joined) =
      addRow width first.1 first.2 (addRow width second.1 second.2 joined) := by
  by_cases hkey : (first.2.take width).map Json.asText = (second.2.take width).map Json.asText
  · have hname : first.1 ≠ second.1 := h.resolve_right (not_not_intro hkey)
    simp only [addRow, hkey, Ordered.alter_alter, Option.getD_some]
    congr 1
    funext sums
    exact Ordered.alter_comm hname.symm _ _ _
  · exact Ordered.alter_comm (Ne.symm hkey) _ _ joined

/-- In tables of different sub-queries, each without repeated keys, any two rows differ in their key or
in their variable. -/
theorem pairwise_entries {tables : List (String × ResultTable)}
    (hnames : (tables.map (·.1)).Nodup) (hfits : ∀ entry ∈ tables, entry.2.Fits width)
    (hkeys : ∀ entry ∈ tables, entry.2.DistinctKeys width) :
    (entries tables).Pairwise fun first second => first.1 ≠ second.1 ∨
      (first.2.take width).map Json.asText ≠ (second.2.take width).map Json.asText := by
  have htexts : ∀ entry ∈ tables, ∀ row ∈ entry.2.rows,
      keyTexts width row = (row.take width).map Json.asText := by
    intro entry hentry row hrow
    obtain ⟨hwide, hrect⟩ := hfits entry hentry
    have hlength := ResultTable.length_of_isRectangular hrect hrow
    exact keyTexts_eq_map_take (by omega)
  rw [entries, List.pairwise_flatMap]
  constructor
  · intro entry hentry
    rw [List.pairwise_map]
    refine (List.pairwise_map.mp (hkeys entry hentry)).imp_of_mem ?_
    intro row other hrow hother hne
    rw [← htexts entry hentry row hrow, ← htexts entry hentry other hother]
    exact .inr hne
  · refine (List.pairwise_map.mp hnames).imp ?_
    intro entry other hne first hfirst second hsecond
    obtain ⟨_, -, rfl⟩ := List.mem_map.mp hfirst
    obtain ⟨_, -, rfl⟩ := List.mem_map.mp hsecond
    exact .inl hne

/-- Two lists of named tables hold the same tables under the same names, where the tables may come in
another order, and their rows too. -/
def Shuffled (tables others : List (String × ResultTable)) : Prop :=
  ∃ reordered, List.Forall₂ (fun entry other => entry.1 = other.1 ∧ entry.2.SameRows other.2) tables
    reordered ∧ reordered.Perm others

theorem Shuffled.entries_perm {tables others : List (String × ResultTable)}
    (h : Shuffled tables others) : (entries tables).Perm (entries others) := by
  obtain ⟨reordered, hrows, hperm⟩ := h
  refine List.Perm.trans ?_ (hperm.flatMap_right _)
  clear hperm
  induction hrows with
  | nil => exact .refl _
  | @cons entry other tables reordered hentry _ ih =>
      obtain ⟨hname, hrows⟩ := hentry
      rw [entries, List.flatMap_cons, List.flatMap_cons, hname]
      exact (hrows.rows_perm.map _).append ih

theorem Shuffled.fits {tables others : List (String × ResultTable)} (h : Shuffled tables others) :
    (∀ entry ∈ tables, entry.2.Fits width) ↔ ∀ entry ∈ others, entry.2.Fits width := by
  obtain ⟨reordered, hrows, hperm⟩ := h
  simp only [← hperm.mem_iff]
  exact forall_mem_iff_of_forall₂ (hrows.imp fun _ _ hentry => hentry.2.fits)

/-- Sub-queries are aligned alike in any order of their tables and rows. -/
theorem align_eq_ok_iff_of_shuffled {tables others : List (String × ResultTable)}
    (hnames : (tables.map (·.1)).Nodup)
    (hkeys : ∀ entry ∈ tables, entry.2.DistinctKeys a.layout.width)
    (hshuffled : Shuffled tables others) (t : ResultTable) :
    a.align tables = .ok t ↔ a.align others = .ok t := by
  have hjoined : ∀ joined, tables.foldlM (addTable a.layout.width) [] = .ok joined ↔
      others.foldlM (addTable a.layout.width) [] = .ok joined := by
    intro joined
    rw [foldlM_addTable_eq_ok_iff, foldlM_addTable_eq_ok_iff, ← hshuffled.fits]
    apply and_congr_right
    intro hfits
    rw [foldl_eq_of_perm hshuffled.entries_perm
      ((pairwise_entries hnames hfits hkeys).imp fun h => addRow_comm h)]
  rw [align, align, bind_eq_ok_iff, bind_eq_ok_iff]
  simp only [hjoined]

end Alignment

namespace CombineMember

variable {m n : CombineMember} {headers : List String}

/-- Two members have the same query and plan, and the same rows, perhaps in another order. -/
structure SameRows (m n : CombineMember) : Prop where
  query_eq : m.query = n.query
  plan_eq : m.plan = n.plan
  table : m.table.SameRows n.table

theorem SameRows.keyHeaders_eq (h : m.SameRows n) : m.keyHeaders = n.keyHeaders := by
  rw [keyHeaders, keyHeaders, width, width, h.plan_eq, h.table.headers_eq]

theorem SameRows.metricCount_eq (h : m.SameRows n) : m.metricCount = n.metricCount := by
  rw [metricCount, metricCount, width, width, h.plan_eq, h.table.headers_eq]

theorem SameRows.metricHeaders_eq (h : m.SameRows n) : m.metricHeaders = n.metricHeaders := by
  have hheader : m.metricHeader = n.metricHeader := by
    funext index
    simp only [metricHeader, metricName, h.query_eq, h.plan_eq]
  rw [metricHeaders, metricHeaders, h.metricCount_eq, hheader]

theorem SameRows.addRow_eq (h : m.SameRows n) (headers : List String) (total offset : Nat) :
    Combine.addRow headers total offset m = Combine.addRow headers total offset n := by
  have hkey : m.keyOf headers = n.keyOf headers := by
    funext row
    rw [keyOf, keyOf, keyPlaces, keyPlaces, h.keyHeaders_eq]
  have hwidth : m.width = n.width := congrArg (·.layout.width) h.plan_eq
  funext joined row
  rw [Combine.addRow, Combine.addRow, hkey, hwidth, h.metricCount_eq]

end CombineMember

namespace Combine

variable {members others : List CombineMember} {headers : List String}

/-- Rows with different keys may be joined in either order. -/
theorem addRow_comm {total offset : Nat} {m : CombineMember} {row other : List Json}
    (h : m.keyOf headers row ≠ m.keyOf headers other) (joined : List (List String × List Json)) :
    addRow headers total offset m (addRow headers total offset m joined row) other =
      addRow headers total offset m (addRow headers total offset m joined other) row :=
  Ordered.alter_comm h.symm _ _ joined

/-- Members whose rows are joined under different keys may have them in any order. -/
theorem addMembers_eq_of_sameRows (hrows : List.Forall₂ CombineMember.SameRows members others)
    (hkeys : ∀ m ∈ members, (m.table.rows.map (m.keyOf headers)).Nodup) (total offset : Nat)
    (joined : List (List String × List Json)) :
    addMembers headers total offset members joined =
      addMembers headers total offset others joined := by
  induction hrows generalizing offset joined with
  | nil => rfl
  | @cons m n members others hmn _ ih =>
      obtain ⟨hm, hmembers⟩ := List.forall_mem_cons.mp hkeys
      rw [addMembers, addMembers, ih hmembers, hmn.metricCount_eq, ← hmn.addRow_eq,
        foldl_eq_of_perm hmn.table.rows_perm]
      exact (List.pairwise_map.mp hm).imp fun hne => addRow_comm hne

/-- Members without repeated key headers and repeated keys are combined alike in any order of their
rows. -/
theorem partition_eq_of_sameRows (hrows : List.Forall₂ CombineMember.SameRows members others)
    (hheaders : ∀ m ∈ members, m.keyHeaders.Nodup)
    (hkeys : ∀ m ∈ members, m.table.DistinctKeys m.keyHeaders.length) :
    partition members = partition others := by
  cases hrows with
  | nil => rfl
  | @cons first other rest others hfirst hrest =>
      have hmembers := List.Forall₂.cons hfirst hrest
      have hmetrics : (first :: rest).flatMap (·.metricHeaders) =
          (other :: others).flatMap (·.metricHeaders) := by
        rw [List.flatMap_def, List.flatMap_def,
          map_eq_map_of_forall₂ (hmembers.imp fun _ _ h => h.metricHeaders_eq)]
      have htotal : metricTotal (first :: rest) = metricTotal (other :: others) :=
        congrArg List.length hmetrics
      have hsame : (∀ m ∈ first :: rest, m.HasKeys first.keyHeaders) ↔
          ∀ n ∈ other :: others, n.HasKeys other.keyHeaders := by
        refine forall_mem_iff_of_forall₂ (hmembers.imp fun _ _ h => ?_)
        rw [CombineMember.HasKeys, CombineMember.HasKeys, h.keyHeaders_eq, hfirst.keyHeaders_eq]
      rw [partition_cons, partition_cons]
      by_cases hfits : ∀ m ∈ first :: rest, m.HasKeys first.keyHeaders
      · have hjoined := addMembers_eq_of_sameRows hmembers (fun m hm =>
          (CombineMember.nodup_keyOf_iff (hfits m hm)
            fun row _ => CombineMember.uniform_of_nodup (hheaders m hm) row).mpr (hkeys m hm))
        rw [if_pos hfits, if_pos (hsame.mp hfits), combinedTable, combinedTable, hmetrics, hjoined,
          htotal, hfirst.keyHeaders_eq]
      · rw [if_neg hfits, if_neg (mt hsame.mpr hfits)]

/-- The combined view does not depend on the order of rows. -/
theorem combine_eq_of_sameRows (hrows : List.Forall₂ CombineMember.SameRows members others)
    (hheaders : ∀ m ∈ members, m.keyHeaders.Nodup)
    (hkeys : ∀ m ∈ members, m.table.DistinctKeys m.keyHeaders.length) :
    combine members = combine others := by
  have hpart : ∀ select : KeyLayout → Bool,
      partition (members.filter fun m => select m.plan.layout) =
        partition (others.filter fun m => select m.plan.layout) := by
    intro select
    refine partition_eq_of_sameRows (List.rel_filter (fun m n h => ?_) hrows)
      (fun m hm => hheaders m (List.mem_of_mem_filter hm))
      (fun m hm => hkeys m (List.mem_of_mem_filter hm))
    simp only [h.plan_eq]
  rw [combine, combine, hpart KeyLayout.bucketed, hpart fun k => !k.bucketed]

end Combine

/-- The sub-queries of a derived member have different names. -/
theorem nodup_names_of_expandsTo {source : MappingSource} {derived : DerivedStore}
    {group definition : QueryGroup} {outer : Query} {p : DerivedPlan}
    (h : outer.ExpandsTo source derived group definition p) : (p.subQueries.map (·.1)).Nodup := by
  have hdefines := QueryGroup.validateDefinition_eq_ok_iff.mp h.valid
  have hnames : definition.queries.map Query.variableName = p.subQueries.map (·.1) :=
    map_eq_map_of_forall₂ (h.subQueriesTo.imp fun _ _ hsub => hsub.name_eq.symm)
  exact hnames ▸ hdefines.distinct

/-- Joins do not depend on the order of rows. The sub-tables of a derived plan, in which no two rows of
one table have the same key texts, are aligned alike whichever order the tables and their rows are in;
so they are with any other alignment of differently named tables. Members with distinct key headers
and distinct keys are combined alike in any order of the rows of each. -/
theorem joins_independent_of_row_order :
    (∀ (source : MappingSource) (derived : DerivedStore) (group : QueryGroup) (q : Query)
      (p : DerivedPlan), q.PlannedAs source derived group (.derived p) →
        (p.subQueries.map (·.1)).Nodup) ∧
    (∀ (a : Alignment) (tables others : List (String × ResultTable)),
      (tables.map (·.1)).Nodup → (∀ entry ∈ tables, entry.2.DistinctKeys a.layout.width) →
        Alignment.Shuffled tables others →
          ∀ t, a.align tables = .ok t ↔ a.align others = .ok t) ∧
    ∀ members others : List CombineMember,
      (∀ m ∈ members, m.keyHeaders.Nodup ∧ m.table.DistinctKeys m.keyHeaders.length) →
        List.Forall₂ CombineMember.SameRows members others →
          Combine.combine members = Combine.combine others := by
  refine ⟨?_, ?_, ?_⟩
  · intro source derived group q p hplanned
    cases hplanned with
    | derived _ hp => exact nodup_names_of_expandsTo hp
  · intro a tables others hnames hkeys hshuffled t
    exact Alignment.align_eq_ok_iff_of_shuffled hnames hkeys hshuffled t
  · intro members others hmembers hrows
    exact Combine.combine_eq_of_sameRows hrows (fun m hm => (hmembers m hm).1)
      fun m hm => (hmembers m hm).2

/-- A derived member that adds up the counts of two sub-queries by city. -/
def summedMember : Query :=
  { Harmonize.plainMember ["city"] with
    queryType := .derived
    definition := some ⟨"", "a + b", [{ Harmonize.plainMember [] with name := "a" },
      { Harmonize.plainMember [] with name := "b" }], [], [], ""⟩ }

/-- Counts for two cities, in one of two orders. -/
def countsByCity (reversed : Bool) : ResultTable :=
  let rows : List (List Json) := [[.str "x", .int 1], [.str "y", .int 2]]
  ⟨["city", "count"], if reversed then rows.reverse else rows⟩

/-- The sum of two sub-queries, and the counts in the combined view, come out the same when the rows of
all tables are turned round, and the tables as well. -/
theorem joins_independent_of_row_order_cities :
    ∃ p, summedMember.PlannedAs ⟨[], 1, fun _ => none⟩ [] ⟨"", "", [summedMember], [], [], ""⟩ (.derived p) ∧
      (p.subQueries.map (·.1)).Nodup ∧
      (∀ t, p.alignment.align [("a", countsByCity false), ("b", countsByCity false)] = .ok t ↔
        p.alignment.align [("b", countsByCity true), ("a", countsByCity true)] = .ok t) ∧
      Combine.combine [⟨summedMember, .derived p, countsByCity false⟩] =
        Combine.combine [⟨summedMember, .derived p, countsByCity true⟩] := by
  obtain ⟨hnames, halign, hcombine⟩ := joins_independent_of_row_order
  have hplans : ∃ p, (((⟨[], 1, fun _ => none⟩ : MappingSource).normalize []
      ⟨"", "", [summedMember], [], [], ""⟩).run.run .fresh).1 = .ok [.derived p] := ⟨_, rfl⟩
  obtain ⟨p, hp⟩ := hplans
  have hplanned := ((MappingSource.yields_normalize _ _ _).result_eq_ok_iff _).mp hp
  obtain ⟨hmember, -⟩ := List.forall₂_cons.mp hplanned.2
  have hlayout : p.layout = ⟨false, ["city"]⟩ := by
    cases hmember with
    | derived _ hexpands => exact hexpands.layout_eq
  have hkeys : (countsByCity false).DistinctKeys 1 := by decide
  have hreversed : (countsByCity false).SameRows (countsByCity true) := ⟨rfl, List.Perm.swap _ _ _⟩
  refine ⟨p, hmember, hnames _ _ _ _ p hmember, ?_, ?_⟩
  · have hwidth : p.alignment.layout.width = 1 := congrArg KeyLayout.width hlayout
    refine halign _ _ _ (by decide) (by simpa [hwidth] using hkeys) ?_
    exact ⟨[("a", countsByCity true), ("b", countsByCity true)],
      .cons ⟨rfl, hreversed⟩ (.cons ⟨rfl, hreversed⟩ .nil), List.Perm.swap _ _ _⟩
  · have hheaders : (⟨summedMember, .derived p, countsByCity false⟩ : CombineMember).keyHeaders =
        ["city"] := by
      rw [CombineMember.keyHeaders, CombineMember.width, Plan.layout, hlayout]
      rfl
    refine hcombine _ _ ?_ (.cons ⟨rfl, rfl, hreversed⟩ .nil)
    simpa [hheaders] using hkeys

end FederatedMetrics
