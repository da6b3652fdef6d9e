import FederatedMetrics.Proofs.Record.Numbers
import FederatedMetrics.Proofs.Table.Align

/-!
# Numbers in aligned tables

Under every key, a variable of a formula is the sum of its cells. An operator settles whatever its
operands are, so only a formula that is a single variable or a single literal can be infinite or
undefined; a percentage can still leave the range when it is scaled.
-/

namespace FederatedMetrics

namespace Expr

/-- Whether the value of a formula is finite, given what is added up for its variables: an operator
settles its result, but a variable or a literal by itself is as it is. -/
def StaysFinite (addends : String → List Float) : Expr → Prop
  | .var name => Binary64.StaysFinite (addends name)
  | .literal x => x.isFinite = true
  | .binary _ _ _ => True

theorem isFinite_eval_iff {lookup : String → Option Float} {addends : String → List Float} {e : Expr}
    {x : Float} (hlookup : ∀ name y, lookup name = some y → y = Binary64.sum (addends name))
    (h : e.eval lookup = .ok x) : x.isFinite = true ↔ e.StaysFinite addends := by
  cases e with
  | var name =>
      rw [eval] at h
      split at h
      · next hvalue =>
          cases h
          rw [hlookup _ _ hvalue, Binary64.isFinite_sum_iff]
          rfl
      · cases h
  | literal y =>
      cases h
      rfl
  | binary op left right =>
      obtain ⟨y, z, -, -, rfl⟩ := eval_binary_eq_ok_iff.mp h
      exact iff_of_true (isFinite_settle _) trivial

end Expr

namespace Alignment

variable {a : Alignment} {width : Nat} {joined : List (List String × Sums)}
  {tables : List (String × ResultTable)} {t : ResultTable}

/-- The key of a row of a sub-query. -/
def keyOf (width : Nat) (row : List Json) : List String := (row.take width).map Json.asText

/-- The number that a row of a sub-query adds to its key. -/
def valueIn (width : Nat) (row : List Json) : Float := (row[width]?.getD .null).asNumber

/-- The numbers that are added up for a variable under a key. -/
def addends (width : Nat) (rows : List (String × List Json)) (key : List String) (name : String) :
    List Float :=
  (rows.filter fun entry => entry.1 = name ∧ keyOf width entry.2 = key).map fun entry =>
    valueIn width entry.2

/-- The values of the variables of a plan under a key, each the sum of its cells. -/
def totals (a : Alignment) (tables : List (String × ResultTable)) (key : List String) (name : String) :
    Option Float :=
  if a.variableNames.contains name then
    some (Binary64.sum (addends a.layout.width (entries tables) key name))
  else none

/-- Whether the derived cell of a key is finite: the formula is, and if it is a percentage, so is a
hundred times its value. -/
def StaysFiniteUnder (a : Alignment) (tables : List (String × ResultTable)) (key : List String) : Prop :=
  a.formula.expr.StaysFinite (addends a.layout.width (entries tables) key) ∧
    (a.percentage = true → ∀ x, a.formula.eval (a.totals tables key) = .ok x →
      (x * 100.0).isFinite = true)

/-- Whether the derived cells of all keys are finite. -/
def StaysFinite (a : Alignment) (tables : List (String × ResultTable)) : Prop :=
  ∀ entry ∈ entries tables, a.StaysFiniteUnder tables (keyOf a.layout.width entry.2)

/-- The sum of a variable under a key. -/
def sumAt (joined : List (List String × Sums)) (key : List String) (name : String) : Float :=
  ((Ordered.find? key joined).bind (Ordered.find? name)).getD 0.0

theorem addRow_eq_alter (name : String) (row : List Json) (joined : List (List String × Sums)) :
    addRow width name row joined = Ordered.alter (keyOf width row)
      (fun sums => Ordered.alter name (fun sum => sum.getD 0.0 + valueIn width row) (sums.getD []))
      joined := rfl

theorem sumAt_addRow (name : String) (row : List Json) (joined : List (List String × Sums))
    (key : List String) (other : String) :
    sumAt (addRow width name row joined) key other =
      if name = other ∧ keyOf width row = key then sumAt joined key other + valueIn width row
      else sumAt joined key other := by
  rw [sumAt, sumAt, addRow_eq_alter]
  by_cases hkey : keyOf width row = key
  · subst hkey
    rw [Ordered.find?_alter_self, Option.bind_some]
    by_cases hname : name = other
    · subst hname
      rw [Ordered.find?_alter_self, if_pos ⟨rfl, rfl⟩]
      cases Ordered.find? (keyOf width row) joined <;> rfl
    · rw [Ordered.find?_alter_of_ne (Ne.symm hname), if_neg (fun h => hname h.1)]
      cases Ordered.find? (keyOf width row) joined <;> rfl
  · rw [Ordered.find?_alter_of_ne (Ne.symm hkey), if_neg (fun h => hkey h.2)]

/-- The sums after some rows, by the numbers of these rows. -/
theorem sumAt_foldl_addRow (rows : List (String × List Json)) (joined : List (List String × Sums))
    (key : List String) (name : String) :
    sumAt (rows.foldl (fun joined entry => addRow width entry.1 entry.2 joined) joined) key name =
      (addends width rows key name).foldl (fun sum x => sum + x) (sumAt joined key name) := by
  induction rows generalizing joined with
  | nil => rfl
  | cons entry rest ih =>
      rw [List.foldl_cons, ih, sumAt_addRow, addends, addends, List.filter_cons]
      by_cases h : entry.1 = name ∧ keyOf width entry.2 = key
      · rw [if_pos h, if_pos (decide_eq_true h), List.map_cons, List.foldl_cons]
      · rw [if_neg h, if_neg (by simpa using h)]

/-- A key is joined if it was before or one of the rows has it. -/
theorem isSome_find?_foldl_addRow (rows : List (String × List Json))
    (joined : List (List String × Sums)) (key : List String) :
    (Ordered.find? key
        (rows.foldl (fun joined entry => addRow width entry.1 entry.2 joined) joined)).isSome = true ↔
      (Ordered.find? key joined).isSome = true ∨ ∃ entry ∈ rows, keyOf width entry.2 = key :=
  Ordered.isSome_find?_foldl_alter (fun entry : String × List Json => keyOf width entry.2)
    (fun entry sums =>
      Ordered.alter entry.1 (fun sum => sum.getD 0.0 + valueIn width entry.2) (sums.getD []))
    rows joined key

/-- What is joined under a key are the sums of all rows with this key. -/
theorem find?_joined (h : tables.foldlM (addTable width) [] = .ok joined) (key : List String) :
    ((Ordered.find? key joined).isSome = true ↔ ∃ entry ∈ entries tables, keyOf width entry.2 = key) ∧
      ∀ name, sumAt joined key name = Binary64.sum (addends width (entries tables) key name) := by
  obtain ⟨-, rfl⟩ := foldlM_addTable_eq_ok_iff.mp h
  refine ⟨by simp [isSome_find?_foldl_addRow], fun name => ?_⟩
  rw [sumAt_foldl_addRow]
  rfl

theorem exists_of_row_eq_ok {entry : List String × Sums} {cells : List Json}
    (h : a.row entry = .ok cells) : ∃ x, a.formula.eval (a.valueOf entry.2) = .ok x ∧
      cells = entry.1.map Json.str ++ [.ofFloat (x * (if a.percentage then 100.0 else 1.0))] := by
  rw [Alignment.row] at h
  split at h
  · next x hx =>
      cases h
      exact ⟨x, hx, rfl⟩
  · cases h

theorem isFinite_scaled_iff (percentage : Bool) (x : Float) :
    (x * (if percentage then 100.0 else 1.0)).isFinite = true ↔
      x.isFinite = true ∧ (percentage = true → (x * 100.0).isFinite = true) := by
  cases percentage with
  | false => simp [Binary64.mul_one]
  | true =>
      simp only [if_true, forall_const]
      exact ⟨fun h => ⟨(Binary64.isFinite_of_mul h).1, h⟩, fun h => h.2⟩

/-- The rows of an aligned table are as wide as its headers. -/
theorem isRectangular_of_align (h : a.align tables = .ok t) : t.isRectangular = true := by
  obtain ⟨joined, hjoin, hrows⟩ := exists_joined_of_align h
  refine List.all_eq_true.mpr fun cells hcells => decide_eq_true ?_
  obtain ⟨entry, hentry, hrow⟩ := exists_of_mem_of_forall₂ hrows hcells
  obtain ⟨x, -, rfl⟩ := exists_of_row_eq_ok hrow
  rw [headers_of_align h, List.length_append, List.length_append, List.length_map,
    (isJoined_of_foldlM hjoin).sized entry hentry, KeyLayout.length_headers]
  rfl

/-- A formula looks up the sums of the rows with a key. -/
theorem valueOf_eq_totals (hjoin : tables.foldlM (addTable a.layout.width) [] = .ok joined)
    {entry : List String × Sums} (hentry : entry ∈ joined) :
    a.valueOf entry.2 = a.totals tables entry.1 := by
  obtain ⟨key, sums⟩ := entry
  have hfound := Ordered.find?_eq_some_of_mem (isJoined_of_foldlM hjoin).ascending hentry
  funext name
  rw [valueOf, totals, ← (find?_joined hjoin key).2 name, sumAt, hfound, Option.bind_some]

/-- The derived cell of a joined key is a number if and only if it stays finite under the key. -/
theorem isNumber_row_iff (hjoin : tables.foldlM (addTable a.layout.width) [] = .ok joined)
    {entry : List String × Sums} (hentry : entry ∈ joined) {cells : List Json}
    (hrow : a.row entry = .ok cells) :
    (∀ cell ∈ cells.drop a.layout.width, cell.IsNumber) ↔ a.StaysFiniteUnder tables entry.1 := by
  have hvalues := valueOf_eq_totals hjoin hentry
  obtain ⟨key, sums⟩ := entry
  have hjoined := isJoined_of_foldlM hjoin
  obtain ⟨x, hx, rfl⟩ := exists_of_row_eq_ok hrow
  have hsized : (key.map Json.str).length = a.layout.width :=
    (List.length_map _).trans (hjoined.sized _ hentry)
  have hfinite : x.isFinite = true ↔
      a.formula.expr.StaysFinite (addends a.layout.width (entries tables) key) := by
    refine Expr.isFinite_eval_iff ?_ (hvalues ▸ hx)
    intro name y hy
    rw [totals] at hy
    split at hy
    · exact (Option.some.inj hy).symm
    · cases hy
  rw [List.drop_left' hsized, List.forall_mem_singleton, Json.isNumber_ofFloat, isFinite_scaled_iff,
    hfinite, StaysFiniteUnder, ← hvalues]
  simp [hx]

/-- The derived cells of an aligned table are numbers if and only if they stay finite. -/
theorem numbersFrom_align_iff (h : a.align tables = .ok t) :
    t.NumbersFrom a.layout.width ↔ a.StaysFinite tables := by
  obtain ⟨joined, hjoin, hrows⟩ := exists_joined_of_align h
  have hcells : List.Forall₂ (fun entry cells => a.StaysFiniteUnder tables entry.1 ↔
      ∀ cell ∈ cells.drop a.layout.width, cell.IsNumber) joined t.rows := by
    have hpairs := (List.forall₂_and_left _ _).mpr ⟨fun entry hentry => hentry, hrows⟩
    exact hpairs.imp fun entry cells h => (isNumber_row_iff hjoin h.1 h.2).symm
  rw [ResultTable.NumbersFrom, and_iff_right (isRectangular_of_align h),
    ← forall_mem_iff_of_forall₂ hcells]
  have hkeys := fun key => (find?_joined hjoin key).1
  constructor
  · intro hfinite entry hentry
    obtain ⟨sums, hsums⟩ := Option.isSome_iff_exists.mp ((hkeys _).mpr ⟨entry, hentry, rfl⟩)
    exact hfinite _ (Ordered.mem_of_find?_eq_some hsums)
  · intro hfinite joint hjoint
    have hfound := Ordered.find?_eq_some_of_mem (isJoined_of_foldlM hjoin).ascending hjoint
    obtain ⟨entry, hentry, hkey⟩ := (hkeys joint.1).mp (by rw [hfound]; rfl)
    exact hkey ▸ hfinite entry hentry

end Alignment

/-- When metric cells are numbers. Those of an answer are if and only if everything that a metric adds up
in a row stays finite, where counts always do. The derived cells are if and only if under every key the
formula stays finite, where every operator does, and for a percentage also its scaled value. What is added
up is finite unless it is a text that stands for something infinite or undefined. -/
theorem numbersFrom_iff_staysFinite (s : RecordStore) (projectId : Int) (r : ResolvedQuery)
    (a : Alignment) (tables : List (String × ResultTable)) (t : ResultTable) (value : Json) :
    (s.records.length < 2 ^ 64 → s.answer projectId r = .ok (some t) →
      (t.NumbersFrom r.keyWidth ↔ s.StaysFinite projectId r)) ∧
    (a.align tables = .ok t → (t.NumbersFrom a.layout.width ↔ a.StaysFinite tables)) ∧
    (value.InRange → (value.asNumber.isFinite = true ↔
      ∀ text x, value = .str text → Decimal.ofText? text = some x → x.isFinite = true)) :=
  ⟨fun hfew h => RecordStore.numbersFrom_answer_iff hfew h, Alignment.numbersFrom_align_iff,
    Json.isFinite_asNumber_iff⟩

/-- A store with deals of some amounts, which are added up. -/
def deals (amounts : List Json) : RecordStore :=
  ⟨amounts.map fun amount => ⟨1, "deals", "", 5, [("amount", amount)]⟩,
    [(("deals", "amount"), ⟨.sum "amount", none⟩)]⟩

/-- The amount of all deals. -/
def dealtAmount : ResolvedQuery :=
  ⟨⟨.events, "deals", ["amount"], [], [], 0, 9, none, .standard, "", "", "UTC", none⟩, [], .utc⟩

/-- A sub-query as a percentage of a target. -/
def ofTarget : Alignment :=
  ⟨⟨"a / 4", .binary .divide (.var "a") (.literal 4.0)⟩, ["a"], ⟨false, []⟩, true, "share"⟩

/-- The table of a sub-query with one amount. -/
def dealtOnce (amount : Json) : List (String × ResultTable) := [("a", ⟨["amount"], [[amount]]⟩)]

/-- The table of one number. -/
def ResultTable.single (header : String) (x : Float) : ResultTable := ⟨[header], [[.ofFloat x]]⟩

theorem ResultTable.numbersFrom_single (header : String) (x : Float) :
    (single header x).NumbersFrom 0 ↔ x.isFinite = true := by
  simp [single, NumbersFrom, isRectangular, Json.isNumber_ofFloat]

theorem align_ofTarget (amount : Json) : ofTarget.align (dealtOnce amount) =
    .ok (.single "share"
      (Expr.settle (ArithmeticOp.divide.apply (0.0 + amount.asNumber) 4.0) * 100.0)) := by
  simp [ofTarget, dealtOnce, ResultTable.single, Alignment.align, Alignment.addTable,
    Alignment.addRows, Alignment.addRow, Alignment.row, Alignment.valueOf, Formula.eval, Expr.eval,
    Ordered.find?, KeyLayout.width, KeyLayout.offset, KeyLayout.headers, bind, Except.bind, pure,
    Except.pure]

/-- Amounts of which one is written in a text are added up to a number, and a percentage is one. -/
theorem numbersFrom_iff_staysFinite_deals :
    (∃ t, (deals [.str "2.5", .int 1]).answer 1 dealtAmount = .ok (some t) ∧
      t.NumbersFrom dealtAmount.keyWidth ∧
      (deals [.str "2.5", .int 1]).StaysFinite 1 dealtAmount) ∧
    (∃ t, ofTarget.align (dealtOnce (.str "1")) = .ok t ∧
      t.NumbersFrom ofTarget.layout.width ∧ ofTarget.StaysFinite (dealtOnce (.str "1"))) ∧
    ∀ x, Decimal.ofText? "2.5" = some x → x.isFinite = true := by
  refine ⟨?_, ?_, ?_⟩
  · have hanswer : (deals [.str "2.5", .int 1]).answer 1 dealtAmount =
        .ok (some (.single "amount" (0.0 + (Json.str "2.5").asNumber + (Json.int 1).asNumber))) := rfl
    have hnumbers := (ResultTable.numbersFrom_single "amount" _).mpr
      (by decide +kernel : (0.0 + (Json.str "2.5").asNumber + (Json.int 1).asNumber).isFinite = true)
    have hiff := (numbersFrom_iff_staysFinite _ 1 _ ofTarget [] _ .null).1 (by decide) hanswer
    exact ⟨_, hanswer, hnumbers, hiff.mp hnumbers⟩
  · have halign := align_ofTarget (.str "1")
    have hnumbers := (ResultTable.numbersFrom_single "share" _).mpr
      (by decide +kernel : (Expr.settle (ArithmeticOp.divide.apply
        (0.0 + (Json.str "1").asNumber) 4.0) * 100.0).isFinite = true)
    have hiff := (numbersFrom_iff_staysFinite (deals []) 1 dealtAmount _ _ _ .null).2.1 halign
    exact ⟨_, halign, hnumbers, hiff.mp hnumbers⟩
  · intro x hx
    have hiff := (numbersFrom_iff_staysFinite (deals []) 1 dealtAmount ofTarget [] .empty
      (.str "2.5")).2.2 trivial
    exact hiff.mp (by decide +kernel) _ x rfl hx

/-- An amount that is written like infinity leaves a null in the place of a metric, and so does a value
that is finite as long as it is not made a percentage. -/
theorem null_of_infinite_deals :
    (deals [.str "inf"]).answer 1 dealtAmount = .ok (some ⟨["amount"], [[.null]]⟩) ∧
      ¬ ResultTable.NumbersFrom ⟨["amount"], [[.null]]⟩ dealtAmount.keyWidth ∧
      ofTarget.align (dealtOnce (.str "1e308")) = .ok ⟨["share"], [[.null]]⟩ ∧
      ¬ ResultTable.NumbersFrom ⟨["share"], [[.null]]⟩ ofTarget.layout.width := by
  have hanswer : (deals [.str "inf"]).answer 1 dealtAmount =
      .ok (some ⟨["amount"], [[.ofFloat (0.0 + (Json.str "inf").asNumber)]]⟩) := rfl
  have hsum : Json.ofFloat (0.0 + (Json.str "inf").asNumber) = .null := if_neg (by decide +kernel)
  have hshare : Json.ofFloat (Expr.settle (ArithmeticOp.divide.apply
      (0.0 + (Json.str "1e308").asNumber) 4.0) * 100.0) = .null :=
    if_neg (by decide +kernel)
  have hnull : ∀ header, ¬ ResultTable.NumbersFrom ⟨[header], [[.null]]⟩ 0 := by
    intro header hnumbers
    obtain ⟨x, -, hx⟩ := hnumbers.2 [.null] (by simp) .null (by simp)
    cases hx
  rw [hanswer, align_ofTarget, ResultTable.single, hsum, hshare]
  exact ⟨rfl, hnull _, rfl, hnull _⟩

end FederatedMetrics
