import FederatedMetrics.Proofs.Failure
import FederatedMetrics.Proofs.Record.Answer

/-!
# Answers by reference

An answer can be given cell by cell: a row for every bucket and every key, and in it each metric over
the records that belong to this bucket, this key and this metric. One pass over the records computes
the same table if and only if none of the records falls into a bucket that starts before the calendar
or is itself beyond the local calendar.
-/

namespace FederatedMetrics

/-- The value of a metric over records that it accepts, taken in their order. -/
def MetricDefinition.total (d : MetricDefinition) (records : List Record) : Float :=
  (records.foldl (fun a record => Accumulator.add d.aggregate record a) (.start d.aggregate)).value

/-- A metric without records is zero. -/
@[simp] theorem MetricDefinition.total_nil (d : MetricDefinition) : d.total [] = 0.0 := by
  rw [total, List.foldl_nil]
  cases d.aggregate with
  | count => rfl
  | sum property => rfl
  | countDistinct property =>
      have hzero : Decimal.ofInt 0 = 0.0 := by decide +kernel
      exact hzero

/-- Records that the metric does not accept leave its value alone. -/
theorem MetricDefinition.value_gather (d : MetricDefinition) (records : List Record) :
    (d.gather records).value = d.total (records.filter d.accepts) := by
  rw [total, List.foldl_filter]
  rfl

namespace RecordStore

variable {s : RecordStore} {projectId : Int} {r : ResolvedQuery} {labels : List String}
  {definitions : List MetricDefinition} {t : ResultTable}

/-- Whether a record belongs to a bucket: to the one with its label, or to the only one of a query
without buckets. -/
def inBucket (r : ResolvedQuery) (label : String) (record : Record) : Bool :=
  r.query.granularity.all fun g => g.labelOf? r.zone record.timestamp = some (some label)

/-- The records over which a metric is taken for the cell of a bucket and a key. -/
def contributions (s : RecordStore) (projectId : Int) (r : ResolvedQuery) (label : String)
    (key : List String) (d : MetricDefinition) : List Record :=
  s.records.filter fun record =>
    record.projectId = projectId && record.displayCategory = r.query.displayCategory
      && decide (r.query.first ≤ record.timestamp) && decide (record.timestamp ≤ r.query.last)
      && satisfies record r.query.filters && d.accepts record
      && keyOf r.query record = key && inBucket r label record

/-- The keys of an answer: those of all records of the window, and the empty one if there are no
group-bys. -/
def HasKey (s : RecordStore) (projectId : Int) (q : Query) (key : List String) : Prop :=
  (q.groupBys = [] ∧ key = []) ∨ ∃ record ∈ s.inWindow projectId q, keyOf q record = key

/-- A table has a row for every bucket in order and every key in ascending order, and in each row the
metrics over the records that contribute to it. -/
structure Tabulates (s : RecordStore) (projectId : Int) (r : ResolvedQuery) (labels : List String)
    (t : ResultTable) : Prop where
  headers_eq : t.headers = (if r.isBucketed then [datetimeHeader] else [])
    ++ r.query.groupBys.map (·.propertyName) ++ r.query.metrics
  rows_eq : ∃ (keys : List (List String)) (definitions : List MetricDefinition), keys.Pairwise (· < ·) ∧
    (∀ key, key ∈ keys ↔ s.HasKey projectId r.query key) ∧
    List.Forall₂ (fun name d => s.metric r.query.displayCategory name = .ok d) r.query.metrics
      definitions ∧
    t.rows = labels.flatMap fun label => keys.map fun key =>
      (if r.isBucketed then [.str label] else []) ++ key.map Json.str
        ++ definitions.map fun d => .ofFloat (d.total (s.contributions projectId r label key d))

/-- The first metric of a query that has no definition for its display category. -/
def undefined? (s : RecordStore) (q : Query) : Option String :=
  q.metrics.find? fun name => (s.metrics.lookup (q.displayCategory, name)).isNone

/-- The answer to a query fails at the first metric without a definition, and otherwise it is the
table of the contributions. -/
def AnswersByReference (s : RecordStore) (projectId : Int) (r : ResolvedQuery)
    (labels : List String) : Prop :=
  match s.undefined? r.query with
  | some name => s.answer projectId r = .error (.unknownMetric name r.query.displayCategory)
  | none => ∃ t, s.answer projectId r = .ok (some t) ∧ s.Tabulates projectId r labels t

/-- No record that counts falls into a bucket beyond the calendar. -/
def HasBuckets (s : RecordStore) (projectId : Int) (r : ResolvedQuery) : Prop :=
  ∀ record ∈ s.selected projectId r.query, ∀ g, r.query.granularity = some g →
    Calendar.holds record.timestamp → (g.start? r.zone record.timestamp).isSome

/-- The last place of a label among different ones is its only place. -/
theorem lastIndexOf?_eq_some_iff (hdistinct : labels.Nodup) {label : String} {i : Nat} :
    lastIndexOf? label labels = some i ↔ labels[i]? = some label := by
  have hplace : ∀ j, lastIndexOf? label labels = some j → labels[j]? = some label := by
    intro j hj
    obtain ⟨m, hm, rfl⟩ := Option.map_eq_some_iff.mp hj
    obtain ⟨hlt, hlabel, -⟩ := List.findIdx?_eq_some_iff_getElem.mp hm
    rw [List.length_reverse] at hlt
    rw [List.getElem_reverse] at hlabel
    rw [List.getElem?_eq_getElem (by omega), eq_of_beq hlabel]
  constructor
  · exact hplace i
  · intro hi
    obtain ⟨j, hlt, hj⟩ := lastIndexOf?_of_mem (List.mem_of_getElem? hi)
    rw [hj, (List.getElem?_inj hlt hdistinct).mp ((hplace j hj).trans hi.symm)]

/-- Among different labels, a record is put into the bucket to which it belongs. -/
theorem bucketOf_eq_some_some_iff (hlabels : bucketLabels r = some labels) (hdistinct : labels.Nodup)
    {label : String} {i : Nat} (hi : labels[i]? = some label) (record : Record) :
    bucketOf r labels record = some (some i) ↔ inBucket r label record = true := by
  cases hgranularity : r.query.granularity with
  | none =>
      obtain rfl : [""] = labels := by simpa [bucketLabels, hgranularity] using hlabels
      obtain ⟨rfl, -⟩ : i = 0 ∧ "" = label := by simpa [List.getElem?_cons] using hi
      simp [bucketOf, inBucket, hgranularity]
  | some g =>
      cases hlabel : g.labelOf? r.zone record.timestamp with
      | none => simp [bucketOf, inBucket, hgranularity, hlabel]
      | some found =>
          cases found with
          | none => simp [bucketOf, inBucket, hgranularity, hlabel]
          | some other =>
              simp only [bucketOf, inBucket, hgranularity, hlabel, Option.map_some, Option.bind_some,
                lastIndexOf?_eq_some_iff hdistinct, hi, Option.all_some, Option.some.injEq,
                decide_eq_true_eq]
              exact eq_comm

/-- A record has an answer for its bucket unless that is beyond the calendar. -/
theorem exists_bucketOf_iff (record : Record) :
    (∃ bucket, bucketOf r labels record = some bucket) ↔
      ∀ g, r.query.granularity = some g → Calendar.holds record.timestamp →
        (g.start? r.zone record.timestamp).isSome := by
  cases hgranularity : r.query.granularity with
  | none => simp [bucketOf, hgranularity]
  | some g =>
      by_cases hholds : Calendar.holds record.timestamp
      · cases hstart : g.start? r.zone record.timestamp <;>
          simp [bucketOf, hgranularity, Granularity.labelOf?, hholds, hstart]
      · simp [bucketOf, hgranularity, Granularity.labelOf?, hholds]

/-- The records of a row that a metric accepts are its contributions. -/
theorem filter_accepts_share (hlabels : bucketLabels r = some labels) (hdistinct : labels.Nodup)
    {label : String} {i : Nat} (hi : labels[i]? = some label) (key : List String)
    (d : MetricDefinition) :
    (share r labels (s.selected projectId r.query) (i, key)).filter d.accepts =
      s.contributions projectId r label key d := by
  have hplace : ∀ record, placeOf? r labels record = some (i, key) ↔
      keyOf r.query record = key ∧ inBucket r label record = true := by
    intro record
    rw [← bucketOf_eq_some_some_iff hlabels hdistinct hi record, placeOf?]
    cases bucketOf r labels record with
    | none => simp
    | some bucket => cases bucket <;> simp [and_comm]
  rw [share, selected, inWindow, contributions, List.filter_filter, List.filter_filter,
    List.filter_filter]
  apply List.filter_congr
  intro record _
  rw [Bool.eq_iff_iff]
  simp only [Bool.and_eq_true, decide_eq_true_eq, hplace]
  tauto

/-- The metric cells of a row, by the records that each metric accepts. -/
theorem metricsOf_eq (share : List Record) :
    metricsOf definitions share = definitions.map fun d => .ofFloat (d.total (share.filter d.accepts)) := by
  simp only [metricsOf, ← MetricDefinition.value_gather]
  split
  · rename_i hempty
    rw [List.isEmpty_iff.mp hempty]
    simp only [MetricDefinition.value_gather, List.filter_nil, MetricDefinition.total_nil]
  · rfl

/-- The row of a bucket and a key, by contributions. -/
theorem rowAt_eq (hlabels : bucketLabels r = some labels) (hdistinct : labels.Nodup)
    {label : String} {i : Nat} (hi : labels[i]? = some label) (key : List String) :
    rowAt r labels definitions (s.selected projectId r.query) (i, key) =
      (if r.isBucketed then [.str label] else []) ++ key.map Json.str
        ++ definitions.map fun d =>
          .ofFloat (d.total (s.contributions projectId r label key d)) := by
  rw [rowAt, metricsOf_eq, hi]
  simp only [filter_accepts_share hlabels hdistinct hi]
  rfl

/-- The rows of all places, bucket by bucket. -/
theorem map_rowAt_places (hlabels : bucketLabels r = some labels) (hdistinct : labels.Nodup) :
    (s.places projectId r.query labels).map
        (rowAt r labels definitions (s.selected projectId r.query)) =
      labels.flatMap fun label =>
        (keySpace r.query (s.inWindow projectId r.query)).map fun key =>
          (if r.isBucketed then [.str label] else []) ++ key.map Json.str
            ++ definitions.map fun d =>
              .ofFloat (d.total (s.contributions projectId r label key d)) := by
  have hplaces : (s.places projectId r.query labels).map
        (rowAt r labels definitions (s.selected projectId r.query)) =
      (List.range labels.length).flatMap fun i =>
        (keySpace r.query (s.inWindow projectId r.query)).map fun key =>
          rowAt r labels definitions (s.selected projectId r.query) (i, key) := by
    simp [places, SProd.sprod, List.product, List.map_flatMap, Function.comp_def]
  rw [hplaces, List.flatMap_def, List.flatMap_def]
  congr 1
  apply List.ext_getElem (by simp)
  intro i hi _
  have hlt : i < labels.length := by simpa using hi
  simp only [List.getElem_map, List.getElem_range]
  apply List.map_congr_left
  intro key _
  exact rowAt_eq hlabels hdistinct (List.getElem?_eq_getElem hlt) key

theorem pairwise_keySpace (q : Query) (records : List Record) :
    (keySpace q records).Pairwise (· < ·) := by
  rw [keySpace]
  split
  · simp
  · exact Ordered.pairwise_ofList _

theorem mem_keySpace_iff (q : Query) (key : List String) :
    key ∈ keySpace q (s.inWindow projectId q) ↔ s.HasKey projectId q key := by
  rw [keySpace, HasKey]
  split
  · rename_i hempty
    have hnone : q.groupBys = [] := List.isEmpty_iff.mp hempty
    have hkey : ∀ record, keyOf q record = [] := fun record => by simp [keyOf, hnone]
    simp only [List.mem_singleton, hnone, hkey, true_and, iff_self_or]
    rintro ⟨_, -, rfl⟩
    rfl
  · rename_i hsome
    have hne : q.groupBys ≠ [] := fun hnone => hsome (by simp [hnone])
    simp [hne]

/-- An answer is the table of the contributions. -/
theorem tabulates_of_answer (hlabels : bucketLabels r = some labels) (hdistinct : labels.Nodup)
    (h : s.answer projectId r = .ok (some t)) : s.Tabulates projectId r labels t := by
  obtain ⟨definitions, others, hdefinitions, hothers, -, hheaders, hrows⟩ := answer_eq_ok_iff.mp h
  obtain rfl : labels = others := Option.some.inj (hlabels.symm.trans hothers)
  refine ⟨hheaders, _, definitions, pairwise_keySpace r.query _, mem_keySpace_iff r.query,
    mapM_eq_ok_iff.mp hdefinitions, ?_⟩
  rw [hrows, map_rowAt_places hlabels hdistinct]

/-- The metrics of a query are looked up in order, and the first without a definition is reported. -/
theorem mapM_metric_of_find? {displayCategory name : String} {names : List String}
    (h : names.find? (fun name => (s.metrics.lookup (displayCategory, name)).isNone) = some name) :
    names.mapM (s.metric displayCategory) = .error (.unknownMetric name displayCategory) := by
  induction names with
  | nil => cases h
  | cons first rest ih =>
      rw [List.mapM_cons]
      cases hlookup : s.metrics.lookup (displayCategory, first) with
      | none =>
          obtain rfl : first = name := by simpa [hlookup] using h
          simp [metric, hlookup, bind, Except.bind]
      | some d =>
          have hrest := ih (by simpa [hlookup] using h)
          simp [metric, hlookup, hrest, bind, Except.bind]

theorem answer_of_undefined? {name : String} (h : s.undefined? r.query = some name) :
    s.answer projectId r = .error (.unknownMetric name r.query.displayCategory) := by
  rw [answer, mapM_metric_of_find? h]
  rfl

theorem exists_definitions (h : s.undefined? r.query = none) :
    ∃ definitions, r.query.metrics.mapM (s.metric r.query.displayCategory) = .ok definitions := by
  apply exists_mapM_eq_ok
  intro name hname
  have hdefined := List.find?_eq_none.mp h name hname
  cases hlookup : s.metrics.lookup (r.query.displayCategory, name) with
  | none => simp [hlookup] at hdefined
  | some d => exact ⟨d, by simp [metric, hlookup]⟩

/-- A query with known metrics has an answer if and only if no record that counts falls into a bucket
beyond the calendar. -/
theorem exists_answer_iff (hlabels : bucketLabels r = some labels)
    (hdefined : s.undefined? r.query = none) :
    (∃ t, s.answer projectId r = .ok (some t)) ↔ s.HasBuckets projectId r := by
  constructor
  · rintro ⟨t, ht⟩ record hrecord
    obtain ⟨_, others, -, -, hbuckets, -⟩ := answer_eq_ok_iff.mp ht
    exact (exists_bucketOf_iff record).mp (hbuckets record hrecord)
  · intro hbuckets
    obtain ⟨definitions, hdefinitions⟩ := exists_definitions hdefined
    exact ⟨⟨_, _⟩, answer_eq_ok_iff.mpr ⟨definitions, labels, hdefinitions, hlabels,
      fun record hrecord => (exists_bucketOf_iff record).mpr (hbuckets record hrecord), rfl, rfl⟩⟩

/-- The one pass over the records computes the answer by reference if and only if a metric is
undefined or no record that counts falls into a bucket beyond the calendar. -/
theorem answersByReference_iff (hlabels : bucketLabels r = some labels)
    (hdistinct : labels.Nodup) :
    s.AnswersByReference projectId r labels ↔
      (s.undefined? r.query).isSome ∨ s.HasBuckets projectId r := by
  cases hundefined : s.undefined? r.query with
  | some name =>
      rw [AnswersByReference, hundefined]
      simpa using answer_of_undefined? hundefined
  | none =>
      rw [AnswersByReference, hundefined]
      simp only [Option.isSome_none, Bool.false_eq_true, false_or,
        ← exists_answer_iff hlabels hundefined]
      constructor
      · rintro ⟨t, ht, -⟩
        exact ⟨t, ht⟩
      · rintro ⟨t, ht⟩
        exact ⟨t, ht, tabulates_of_answer hlabels hdistinct ht⟩

/-- A store with visits to cities at some instants. -/
def cityVisits (visits : List (String × Int)) : RecordStore :=
  ⟨visits.map fun visit => ⟨1, "visits", "", visit.2, [("city", .str visit.1)]⟩,
    [(("visits", "count"), ⟨.count, none⟩)]⟩

/-- The visits to cities other than x, by day in Kolkata and by city. -/
def dailyVisits (first last : Int) : ResolvedQuery :=
  ⟨⟨.events, "visits", ["count"], [⟨"", "city", false, .categorical, "", .notEqual, "x", .and⟩],
    [⟨"", "city", false, .categorical, ""⟩], first, last, some .date, .standard, "", "",
    "Asia/Kolkata", none⟩, ["city"], .fixed "Asia/Kolkata" 19800⟩

/-- Visits on two days, of which the filter admits one, are answered by reference. -/
theorem answersByReference_twoDays :
    bucketLabels (dailyVisits 0 86400) =
        some ["1970-01-01T00:00:00+05:30", "1970-01-02T00:00:00+05:30"] ∧
      (cityVisits [("x", 10), ("y", 80000)]).HasBuckets 1 (dailyVisits 0 86400) ∧
      (cityVisits [("x", 10), ("y", 80000)]).AnswersByReference 1 (dailyVisits 0 86400)
        ["1970-01-01T00:00:00+05:30", "1970-01-02T00:00:00+05:30"] := by
  have hlabels : bucketLabels (dailyVisits 0 86400) =
      some ["1970-01-01T00:00:00+05:30", "1970-01-02T00:00:00+05:30"] := by rfl
  have hbuckets : (cityVisits [("x", 10), ("y", 80000)]).HasBuckets 1 (dailyVisits 0 86400) := by
    have hselected : (cityVisits [("x", 10), ("y", 80000)]).selected 1 (dailyVisits 0 86400).query =
        [⟨1, "visits", "", 80000, [("city", .str "y")]⟩] := by rfl
    intro record hrecord g hg _
    obtain rfl := List.mem_singleton.mp (hselected ▸ hrecord)
    cases hg
    decide
  exact ⟨hlabels, hbuckets,
    (answersByReference_iff hlabels (by decide)).mpr (.inr hbuckets)⟩

/-- The visit of the last second of the calendar is beyond the calendar of Kolkata, where that second
belongs to no day: there is no answer, although the buckets of the window are known. -/
theorem not_answersByReference_lastSecond :
    bucketLabels (dailyVisits 8210266790400 8210266876799) =
        some ["+262142-12-31T00:00:00+05:30"] ∧
      (cityVisits [("y", 8210266876799)]).undefined?
        (dailyVisits 8210266790400 8210266876799).query = none ∧
      ¬ (cityVisits [("y", 8210266876799)]).AnswersByReference 1
        (dailyVisits 8210266790400 8210266876799) ["+262142-12-31T00:00:00+05:30"] := by
  have hlabels : bucketLabels (dailyVisits 8210266790400 8210266876799) =
      some ["+262142-12-31T00:00:00+05:30"] := by rfl
  refine ⟨hlabels, rfl, ?_⟩
  rintro ⟨t, ht, -⟩
  have hbuckets := (exists_answer_iff hlabels rfl).mp ⟨t, ht⟩
  exact absurd (hbuckets _ (List.mem_singleton.mpr rfl) .date rfl (by decide)) (by decide)

end RecordStore

end FederatedMetrics
