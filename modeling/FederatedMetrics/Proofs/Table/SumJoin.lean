import FederatedMetrics.Proofs.Table.Numbers

/-!
# Aligning as a join of sums

The tables of sub-queries are joined on their keys. An aligned table has one row for every key of a
table, in ascending order, and the formula is evaluated on the sums of the sub-queries under that key.
Joining stops at the first table that does not fit, whatever the formula is.
-/

namespace FederatedMetrics

namespace ResultTable

theorem not_fits_iff {t : ResultTable} {width : Nat} :
    ¬ t.Fits width ↔ t.headers.length ≤ width ∨ ∃ row ∈ t.rows, row.length ≠ t.headers.length := by
  rw [Fits, not_and_or, Nat.not_lt, isRectangular]
  simp

end ResultTable

namespace Alignment

variable {a : Alignment} {width : Nat}
  {tables : List (String × ResultTable)} {t : ResultTable}

/-- The sum of the first metric column of a table over the rows with a key, from the first row to the
last. -/
def sumIn (width : Nat) (t : ResultTable) (key : List String) : Float :=
  Binary64.sum ((t.rows.filter fun row => keyOf width row = key).map (valueIn width))

/-- The values of the variables under a key: each that of the sub-query with this name. -/
def sumsUnder (width : Nat) (tables : List (String × ResultTable)) (key : List String)
    (name : String) : Option Float :=
  (tables.lookup name).map fun t => sumIn width t key

/-- The cell that a percentage or a plain value is written as. -/
def derivedCell (a : Alignment) (x : Float) : Json :=
  .ofFloat (if a.percentage then x * 100.0 else x)

/-- A table joins sub-queries on their keys: it has the key columns and one derived column, and a row for
every key of a sub-query in ascending order, with the value of the formula on the sums under this key. -/
structure IsSumJoin (a : Alignment) (tables : List (String × ResultTable)) (t : ResultTable) : Prop where
  headers_eq : t.headers = a.layout.headers ++ [a.label]
  rows_eq : ∃ keys : List (List String), keys.Pairwise (· < ·) ∧
    (∀ key, key ∈ keys ↔
      ∃ entry ∈ tables, ∃ row ∈ entry.2.rows, keyOf a.layout.width row = key) ∧
    List.Forall₂ (fun key row => ∃ x,
      a.formula.eval (sumsUnder a.layout.width tables key) = .ok x ∧
        row = key.map Json.str ++ [a.derivedCell x]) keys t.rows

theorem addends_append (rows others : List (String × List Json)) (key : List String) (name : String) :
    addends width (rows ++ others) key name =
      addends width rows key name ++ addends width others key name := by
  simp only [addends, List.filter_append, List.map_append]

theorem addends_of_not_mem {name : String} (h : name ∉ tables.map (·.1)) (key : List String) :
    addends width (entries tables) key name = [] := by
  rw [addends, List.map_eq_nil_iff, List.filter_eq_nil_iff]
  rintro entry hentry hname
  obtain ⟨table, htable, hentry⟩ := List.mem_flatMap.mp hentry
  obtain ⟨row, -, rfl⟩ := List.mem_map.mp hentry
  exact h (List.mem_map.mpr ⟨table, htable, (of_decide_eq_true hname).1⟩)

/-- What a table adds up for its own variable are its cells under the key. -/
theorem addends_own (name : String) (rows : List (List Json)) (key : List String) :
    addends width (rows.map fun row => (name, row)) key name =
      (rows.filter fun row => keyOf width row = key).map (valueIn width) := by
  rw [addends, List.filter_map, List.map_map]
  simp [Function.comp_def]

theorem addends_other {name other : String} (h : name ≠ other) (rows : List (List Json))
    (key : List String) :
    addends width (rows.map fun row => (name, row)) key other = [] := by
  rw [addends, List.filter_map, List.map_map]
  simp [Function.comp_def, h]

/-- Among tables of different names, only the table of a variable adds to its sum. -/
theorem sumsUnder_eq (hnames : (tables.map (·.1)).Nodup) (key : List String) (name : String) :
    sumsUnder width tables key name =
      if name ∈ tables.map (·.1) then
        some (Binary64.sum (addends width (entries tables) key name))
      else none := by
  induction tables with
  | nil => rfl
  | cons entry rest ih =>
      obtain ⟨own, t⟩ := entry
      rw [List.map_cons, List.nodup_cons] at hnames
      have hentries : entries ((own, t) :: rest) =
          (t.rows.map fun row => (own, row)) ++ entries rest := List.flatMap_cons
      rw [sumsUnder, List.lookup_cons, hentries, addends_append]
      by_cases hname : name = own
      · subst hname
        simp [addends_of_not_mem hnames.1, addends_own, sumIn]
      · have hrest := ih hnames.2
        have hmem : name ∈ ((own, t) :: rest).map (·.1) ↔ name ∈ rest.map (·.1) :=
          List.mem_cons.trans (or_iff_right hname)
        rw [addends_other (Ne.symm hname), List.nil_append, if_congr hmem rfl rfl, ← hrest,
          beq_eq_false_iff_ne.mpr hname]
        rfl

/-- The formula is evaluated on the sums of the sub-queries. -/
theorem totals_eq_sumsUnder (hnames : tables.map (·.1) = a.variableNames)
    (hnodup : a.variableNames.Nodup) (key : List String) :
    a.totals tables key = sumsUnder a.layout.width tables key := by
  funext name
  rw [totals, sumsUnder_eq (hnames ▸ hnodup), hnames]
  simp only [List.contains_iff_mem]

theorem ofFloat_scaled (a : Alignment) (x : Float) :
    Json.ofFloat (x * (if a.percentage then 100.0 else 1.0)) = a.derivedCell x := by
  rw [derivedCell]
  split
  · rfl
  · rw [Binary64.mul_one]

theorem exists_mem_entries_iff (p : List Json → Prop) :
    (∃ entry ∈ entries tables, p entry.2) ↔ ∃ entry ∈ tables, ∃ row ∈ entry.2.rows, p row := by
  simp only [entries, List.mem_flatMap, List.mem_map]
  constructor
  · rintro ⟨_, ⟨entry, hentry, row, hrow, rfl⟩, h⟩
    exact ⟨entry, hentry, row, hrow, h⟩
  · rintro ⟨entry, hentry, row, hrow, h⟩
    exact ⟨_, ⟨entry, hentry, row, hrow, rfl⟩, h⟩

theorem isSumJoin_of_align (hnames : tables.map (·.1) = a.variableNames)
    (hnodup : a.variableNames.Nodup) (h : a.align tables = .ok t) : a.IsSumJoin tables t := by
  obtain ⟨joined, hjoin, hrows⟩ := exists_joined_of_align h
  have hjoined := isJoined_of_foldlM hjoin
  refine ⟨headers_of_align h, joined.map (·.1), ?_, fun key => ?_, ?_⟩
  · exact List.pairwise_map.mpr hjoined.ascending
  · rw [Ordered.mem_keys_iff hjoined.ascending, (find?_joined hjoin key).1]
    exact exists_mem_entries_iff fun row => keyOf a.layout.width row = key
  · rw [List.forall₂_map_left_iff]
    have hpairs := (List.forall₂_and_left _ _).mpr ⟨fun entry hentry => hentry, hrows⟩
    refine hpairs.imp fun entry cells hentry => ?_
    obtain ⟨x, hx, rfl⟩ := exists_of_row_eq_ok hentry.2
    rw [valueOf_eq_totals hjoin hentry.1, totals_eq_sumsUnder hnames hnodup] at hx
    exact ⟨x, hx, by rw [ofFloat_scaled]⟩

/-- A formula never fails as an execution does, so such a failure comes from a table. -/
theorem exists_executionFailure_iff :
    (∃ f, a.align tables = .error f ∧ f.kind = .executionFailure) ↔
      ∃ entry ∈ tables, ¬ entry.2.Fits a.layout.width := by
  constructor
  · rintro ⟨f, h, hkind⟩
    by_contra hall
    have hfits : ∀ entry ∈ tables, entry.2.Fits a.layout.width := by
      simpa only [not_exists, not_and, not_not] using hall
    rw [align, foldlM_addTable_eq_ok_iff.mpr ⟨hfits, rfl⟩] at h
    rcases bind_eq_error_iff.mp h with hnever | ⟨joined, -, h⟩
    · cases hnever
    rcases bind_eq_error_iff.mp h with hrows | ⟨rows, -, hnever⟩
    · obtain ⟨entry, -, hentry⟩ := exists_of_mapM_eq_error hrows
      obtain ⟨name, -, -, rfl⟩ := exists_of_row_eq_error hentry
      cases hkind
    · cases hnever
  · rintro ⟨entry, hentry, hmisfit⟩
    cases hjoin : tables.foldlM (addTable a.layout.width) [] with
    | ok joined => exact absurd ((foldlM_addTable_eq_ok_iff.mp hjoin).1 entry hentry) hmisfit
    | error f =>
        obtain ⟨_, -, _, hfault⟩ := exists_of_foldlM_eq_error hjoin
        refine ⟨f, ?_, kind_of_addTable hfault⟩
        rw [align, hjoin]
        rfl

/-- Aligning the tables of the sub-queries of a plan is their join on the keys, with the formula on the
sums. It fails as an execution if and only if a table has no column behind the keys or a row of another
width than its headers; otherwise it has an answer if the formula is about the sub-queries. -/
theorem align_is_sum_join (a : Alignment) (tables : List (String × ResultTable))
    (hnames : tables.map (·.1) = a.variableNames) (hnodup : a.variableNames.Nodup) :
    ((∃ f, a.align tables = .error f ∧ f.kind = .executionFailure) ↔
      ∃ entry ∈ tables, entry.2.headers.length ≤ a.layout.width ∨
        ∃ row ∈ entry.2.rows, row.length ≠ entry.2.headers.length) ∧
    ((∀ entry ∈ tables, entry.2.Fits a.layout.width) →
      (∀ name ∈ a.formula.variableNames, name ∈ a.variableNames) →
      ∃ t, a.align tables = .ok t ∧ a.IsSumJoin tables t) := by
  simp only [exists_executionFailure_iff, ResultTable.not_fits_iff, true_and]
  intro hfits hvariables
  cases h : a.align tables with
  | ok t => exact ⟨t, rfl, isSumJoin_of_align hnames hnodup h⟩
  | error f =>
      have hfails := exists_executionFailure_iff.mp ⟨f, h, kind_of_align hvariables h⟩
      obtain ⟨entry, hentry, hmisfit⟩ := hfails
      exact absurd (hfits entry hentry) hmisfit

/-- The share of visits that were bought in, by city. -/
def boughtShare : Alignment :=
  ⟨⟨"bought / visits", .binary .divide (.var "bought") (.var "visits")⟩, ["bought", "visits"],
    ⟨false, ["city"]⟩, true, "share"⟩

/-- Cities with two rows, with visits only and with purchases only. -/
def boughtTables : List (String × ResultTable) :=
  [("bought", ⟨["city", "count"], [[.str "x", .int 1], [.str "z", .int 2], [.str "x", .str "3"]]⟩),
    ("visits", ⟨["city", "count"], [[.str "y", .int 5], [.str "x", .int 8]]⟩)]

/-- The share of some visits in percent. -/
def shareOf (bought visits : Float) : Float :=
  Expr.settle (ArithmeticOp.divide.apply bought visits) * 100.0

/-- Rows of one city are added up, and a city without visits or purchases counts as zero there. -/
theorem align_is_sum_join_bought :
    boughtTables.map (·.1) = boughtShare.variableNames ∧ boughtShare.variableNames.Nodup ∧
      (∀ entry ∈ boughtTables, entry.2.Fits boughtShare.layout.width) ∧
      (∀ name ∈ boughtShare.formula.variableNames, name ∈ boughtShare.variableNames) ∧
      boughtShare.IsSumJoin boughtTables ⟨["city", "share"],
        [[.str "x", .float 50.0], [.str "y", .float 0.0], [.str "z", .float 0.0]]⟩ := by
  have hnames : boughtTables.map (·.1) = boughtShare.variableNames := rfl
  have hnodup : boughtShare.variableNames.Nodup := by decide
  have hfits : ∀ entry ∈ boughtTables, entry.2.Fits boughtShare.layout.width := by
    simp [boughtTables, boughtShare, ResultTable.Fits, ResultTable.isRectangular, KeyLayout.width,
      KeyLayout.offset]
  have hvariables : ∀ name ∈ boughtShare.formula.variableNames, name ∈ boughtShare.variableNames := by
    decide
  have halign : boughtShare.align boughtTables = .ok ⟨["city", "share"],
      [[.str "x", .ofFloat (shareOf (0.0 + (Json.int 1).asNumber + (Json.str "3").asNumber)
          (0.0 + (Json.int 8).asNumber))],
        [.str "y", .ofFloat (shareOf 0.0 (0.0 + (Json.int 5).asNumber))],
        [.str "z", .ofFloat (shareOf (0.0 + (Json.int 2).asNumber) 0.0)]]⟩ := rfl
  have hboth : shareOf (0.0 + (Json.int 1).asNumber + (Json.str "3").asNumber)
      (0.0 + (Json.int 8).asNumber) = 50.0 := by decide +kernel
  have hvisited : shareOf 0.0 (0.0 + (Json.int 5).asNumber) = 0.0 := by decide +kernel
  have hbought : shareOf (0.0 + (Json.int 2).asNumber) 0.0 = 0.0 := by decide +kernel
  rw [hboth, hvisited, hbought] at halign
  obtain ⟨t, ht, hjoin⟩ := (align_is_sum_join boughtShare boughtTables hnames hnodup).2 hfits hvariables
  obtain rfl := Except.ok.inj (halign.symm.trans ht)
  exact ⟨hnames, hnodup, hfits, hvariables, hjoin⟩

end Alignment

end FederatedMetrics
