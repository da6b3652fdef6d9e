import FederatedMetrics.Proofs.Decimal.Finite
import FederatedMetrics.Proofs.Record.Reference

/-!
# Numbers in answers

A metric cell is a finite number or null. Counts are numbers, however many records are counted. A sum is
a number if and only if everything that is added up is finite, and so is the sum after each record: a
property that is written like infinity, or values that are too large together, leave a null.
-/

namespace FederatedMetrics

/-- A cell is a finite number. -/
def Json.IsNumber (cell : Json) : Prop := ∃ x : Float, x.isFinite = true ∧ cell = .float x

theorem Json.isNumber_ofFloat (x : Float) : (Json.ofFloat x).IsNumber ↔ x.isFinite = true := by
  rw [ofFloat]
  split
  · next h => exact ⟨fun _ => h, fun _ => ⟨x, h, rfl⟩⟩
  · next h =>
      refine ⟨?_, fun hx => absurd hx h⟩
      rintro ⟨_, _, hnull⟩
      cases hnull

/-- A number is one that a document can hold. -/
def Json.InRange : Json → Prop
  | .int n => isWord n = true
  | .float x => x.isFinite = true
  | _ => True

/-- A value adds something finite, unless it is a text that stands for something infinite or
undefined. -/
theorem Json.isFinite_asNumber_iff {value : Json} (h : value.InRange) :
    value.asNumber.isFinite = true ↔
      ∀ text x, value = .str text → Decimal.ofText? text = some x → x.isFinite = true := by
  cases value with
  | str text =>
      rw [asNumber]
      cases hx : Decimal.ofText? text with
      | none => exact iff_of_true rfl fun _ _ heq hsome => by cases heq; simp [hx] at hsome
      | some x =>
          constructor
          · intro hfinite _ y heq hsome
            cases heq
            obtain rfl : x = y := Option.some.inj (hx.symm.trans hsome)
            exact hfinite
          · exact fun hall => hall text x rfl hx
  | int n =>
      have hword : -2 ^ 63 ≤ n ∧ n < 2 ^ 64 := by
        simpa [InRange, isWord] using h
      exact iff_of_true (Binary64.isFinite_ofInt (by omega)) fun _ _ heq => by cases heq
  | float x => exact iff_of_true h fun _ _ heq => by cases heq
  | _ =>
      have hzero : (0.0 : Float).isFinite = true := rfl
      simp [asNumber, hzero]

/-- A table has all its cells, and those from a column on are numbers. -/
def ResultTable.NumbersFrom (t : ResultTable) (column : Nat) : Prop :=
  t.isRectangular = true ∧ ∀ row ∈ t.rows, ∀ cell ∈ row.drop column, cell.IsNumber

/-- The texts of a property in the records that have it. -/
def Record.carriedTexts (property : String) (records : List Record) : List String :=
  (records.filter fun record => record.hasProperty property).map fun record => record.textOf property

/-- There are at most as many distinct texts as records. -/
theorem Record.length_texts_le (property : String) (records : List Record) :
    (Ordered.ofList (carriedTexts property records)).length ≤ records.length := by
  have hcarried : (carriedTexts property records).length ≤ records.length := by
    rw [carriedTexts, List.length_map]
    exact List.length_filter_le _ _
  exact (Ordered.length_ofList_le _).trans hcarried

namespace MetricDefinition

variable {d : MetricDefinition} {records : List Record}

/-- If a metric adds up a property, then the values of the records that it accepts are finite, and so is
every sum on the way. -/
def StaysFinite (d : MetricDefinition) (records : List Record) : Prop :=
  ∀ property, d.aggregate = .sum property →
    Binary64.StaysFinite ((records.filter d.accepts).map fun record => record.numberOf property)

/-- A total takes records by what each of them adds. -/
theorem foldl_add_total {aggregate : Aggregate} {weight : Record → Float}
    (h : ∀ record sum, Accumulator.add aggregate record (.total sum) = .total (sum + weight record))
    (records : List Record) (start : Float) :
    records.foldl (fun a record => Accumulator.add aggregate record a) (.total start) =
      .total ((records.map weight).foldl (fun sum x => sum + x) start) := by
  induction records generalizing start with
  | nil => rfl
  | cons record rest ih => rw [List.foldl_cons, h, ih, List.map_cons, List.foldl_cons]

theorem total_of_count (h : d.aggregate = .count) (records : List Record) :
    d.total records = Binary64.sum (List.replicate records.length 1.0) := by
  have hstart : Accumulator.start d.aggregate = .total 0.0 := by rw [h]; rfl
  rw [total, hstart, h, foldl_add_total (fun _ _ => rfl), List.map_const']
  rfl

theorem total_of_sum {property : String} (h : d.aggregate = .sum property) (records : List Record) :
    d.total records = Binary64.sum (records.map fun record => record.numberOf property) := by
  have hstart : Accumulator.start d.aggregate = .total 0.0 := by rw [h]; rfl
  rw [total, hstart, h, foldl_add_total (fun _ _ => rfl)]
  rfl

theorem foldl_add_distinct (property : String) (records : List Record) (texts : List String) :
    records.foldl (fun a record => Accumulator.add (.countDistinct property) record a)
        (.distinct texts) =
      .distinct ((Record.carriedTexts property records).foldl (fun found text => Ordered.insert text found)
        texts) := by
  induction records generalizing texts with
  | nil => rfl
  | cons record rest ih =>
      rw [List.foldl_cons, Accumulator.add, Record.carriedTexts, List.filter_cons]
      split
      · rw [ih, List.map_cons, List.foldl_cons]
        rfl
      · exact ih texts

theorem total_of_countDistinct {property : String} (h : d.aggregate = .countDistinct property)
    (records : List Record) :
    d.total records =
      Decimal.ofInt ((Ordered.ofList (Record.carriedTexts property records)).length : Nat) := by
  rw [total, h, Accumulator.start, foldl_add_distinct]
  rfl

/-- The value of a metric is finite if and only if what it adds up stays finite. -/
theorem isFinite_total_iff (hfew : records.length < 2 ^ 64) :
    (d.total (records.filter d.accepts)).isFinite = true ↔ d.StaysFinite records := by
  cases haggregate : d.aggregate with
  | count =>
      have hnone : d.StaysFinite records := by
        intro property hsum
        rw [haggregate] at hsum
        cases hsum
      rw [total_of_count haggregate]
      exact iff_of_true (Binary64.isFinite_sum_ones _) hnone
  | sum property =>
      rw [total_of_sum haggregate, Binary64.isFinite_sum_iff, StaysFinite, haggregate]
      exact ⟨fun h other hother => by cases hother; exact h, fun h => h property rfl⟩
  | countDistinct property =>
      have hnone : d.StaysFinite records := by
        intro other hsum
        rw [haggregate] at hsum
        cases hsum
      have htexts := Record.length_texts_le property (records.filter d.accepts)
      have hlength := List.length_filter_le d.accepts records
      rw [total_of_countDistinct haggregate]
      exact iff_of_true (Binary64.isFinite_ofInt (by omega)) hnone

end MetricDefinition

namespace RecordStore

variable {s : RecordStore} {projectId : Int} {r : ResolvedQuery} {labels : List String}
  {definitions : List MetricDefinition} {t : ResultTable}

/-- Whether everything that an answer adds up stays finite, in the row of every bucket and key. -/
def StaysFinite (s : RecordStore) (projectId : Int) (r : ResolvedQuery) : Prop :=
  ∀ labels definitions, bucketLabels r = some labels →
    r.query.metrics.mapM (s.metric r.query.displayCategory) = .ok definitions →
      ∀ place ∈ s.places projectId r.query labels, ∀ d ∈ definitions,
        d.StaysFinite (share r labels (s.selected projectId r.query) place)

theorem length_of_mem_keySpace {q : Query} {records : List Record} {key : List String}
    (h : key ∈ keySpace q records) : key.length = q.groupBys.length := by
  rw [keySpace] at h
  split at h
  · next hempty =>
      obtain rfl := List.mem_singleton.mp h
      rw [List.isEmpty_iff.mp hempty]
      rfl
  · obtain ⟨record, -, rfl⟩ := List.mem_map.mp ((Ordered.mem_ofList _ _).mp h)
    exact List.length_map _

/-- The bucket and the key fill the columns in front of the metrics. -/
theorem length_placeCells {place : Nat × List String}
    (h : place ∈ s.places projectId r.query labels) :
    ((if r.isBucketed then labels[place.1]?.toList.map Json.str else [])
      ++ place.2.map Json.str).length = r.keyWidth := by
  obtain ⟨hbucket, hkey⟩ := List.mem_product.mp h
  rw [List.length_append, List.length_map, length_of_mem_keySpace hkey, ResolvedQuery.keyWidth,
    List.getElem?_eq_getElem (List.mem_range.mp hbucket)]
  cases r.isBucketed <;> rfl

theorem length_metricsOf (share : List Record) :
    (metricsOf definitions share).length = definitions.length := by
  rw [metricsOf_eq, List.length_map]

/-- The rows of an answer are as wide as its headers. -/
theorem isRectangular_of_answer (h : s.answer projectId r = .ok (some t)) : t.isRectangular = true := by
  obtain ⟨definitions, labels, hdefinitions, -, -, hheaders, hrows⟩ := answer_eq_ok_iff.mp h
  have hmetrics := (mapM_eq_ok_iff.mp hdefinitions).length_eq
  refine List.all_eq_true.mpr fun row hrow => decide_eq_true ?_
  rw [hrows] at hrow
  obtain ⟨place, hplace, rfl⟩ := List.mem_map.mp hrow
  rw [rowAt, List.length_append, length_placeCells hplace, length_metricsOf, hheaders, ← hmetrics,
    ResolvedQuery.keyWidth]
  cases r.isBucketed
  · simp
  · simp
    omega

/-- The metric cells of an answer are numbers if and only if everything that is added up stays
finite. -/
theorem numbersFrom_answer_iff (hfew : s.records.length < 2 ^ 64)
    (h : s.answer projectId r = .ok (some t)) :
    t.NumbersFrom r.keyWidth ↔ s.StaysFinite projectId r := by
  obtain ⟨definitions, labels, hdefinitions, hlabels, -, -, hrows⟩ := answer_eq_ok_iff.mp h
  have hshare : ∀ place,
      (share r labels (s.selected projectId r.query) place).length < 2 ^ 64 := by
    intro place
    refine Nat.lt_of_le_of_lt ?_ hfew
    exact (((List.filter_sublist.trans List.filter_sublist).trans List.filter_sublist)).length_le
  have hcells : ∀ place ∈ s.places projectId r.query labels,
      (∀ cell ∈ (rowAt r labels definitions (s.selected projectId r.query) place).drop r.keyWidth,
          cell.IsNumber) ↔
        ∀ d ∈ definitions, d.StaysFinite (share r labels (s.selected projectId r.query) place) := by
    intro place hplace
    rw [rowAt, List.drop_left' (length_placeCells hplace), metricsOf_eq, List.forall_mem_map]
    refine forall₂_congr fun d _ => ?_
    rw [Json.isNumber_ofFloat, MetricDefinition.isFinite_total_iff (hshare place)]
  rw [ResultTable.NumbersFrom, and_iff_right (isRectangular_of_answer h), hrows, List.forall_mem_map,
    forall₂_congr hcells, StaysFinite]
  constructor
  · intro hfinite others otherDefinitions hothers hotherDefinitions
    obtain rfl : labels = others := Option.some.inj (hlabels.symm.trans hothers)
    obtain rfl : definitions = otherDefinitions :=
      Except.ok.inj (hdefinitions.symm.trans hotherDefinitions)
    exact hfinite
  · intro hfinite
    exact hfinite labels definitions hlabels hdefinitions

end RecordStore

end FederatedMetrics
