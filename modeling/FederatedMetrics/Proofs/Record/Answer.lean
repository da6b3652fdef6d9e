import FederatedMetrics.Record.Store
import FederatedMetrics.Proofs.Failure
import FederatedMetrics.Proofs.Ordered
import Mathlib.Data.List.ProdSigma
import Mathlib.Data.String.Basic

/-!
# The rows of an answer

Every row of an answer belongs to a bucket and a key. Its metric cells come from the records that
have this bucket and this key, one by one in their order, and a record has at most one row.
-/

namespace FederatedMetrics

/-- The accumulator of a metric after some records. -/
def MetricDefinition.gather (d : MetricDefinition) (records : List Record) : Accumulator :=
  records.foldl (fun a record => a.push d record) (.start d.aggregate)

namespace RecordStore

variable {s : RecordStore} {projectId : Int} {r : ResolvedQuery} {labels : List String}
  {definitions : List MetricDefinition} {records : List Record} {tallies out : List Tally}

/-- The records that count in an answer. -/
def selected (s : RecordStore) (projectId : Int) (q : Query) : List Record :=
  (s.inWindow projectId q).filter fun record => satisfies record q.filters

/-- The bucket and the key of the row in which a record counts. -/
def placeOf? (r : ResolvedQuery) (labels : List String) (record : Record) :
    Option (Nat × List String) :=
  (bucketOf r labels record).join.map fun bucket => (bucket, keyOf r.query record)

/-- The records that count in the row of a bucket and a key. -/
def share (r : ResolvedQuery) (labels : List String) (records : List Record)
    (place : Nat × List String) : List Record :=
  records.filter fun record => placeOf? r labels record = some place

/-- The metric cells of the records of one row; without records they are zeros. -/
def metricsOf (definitions : List MetricDefinition) (share : List Record) : List Json :=
  if share.isEmpty then definitions.map fun _ => .ofFloat 0.0
  else definitions.map fun d => .ofFloat (d.gather share).value

/-- The buckets and keys of the rows of an answer, in order. -/
def places (s : RecordStore) (projectId : Int) (q : Query) (labels : List String) :
    List (Nat × List String) :=
  List.range labels.length ×ˢ keySpace q (s.inWindow projectId q)

/-- The row of a bucket and a key. -/
def rowAt (r : ResolvedQuery) (labels : List String) (definitions : List MetricDefinition)
    (records : List Record) (place : Nat × List String) : List Json :=
  (if r.isBucketed then labels[place.1]?.toList.map Json.str else []) ++ place.2.map Json.str
    ++ metricsOf definitions (share r labels records place)

/-- The accumulators of a key after one more record. -/
def pushAll (definitions : List MetricDefinition) (record : Record)
    (found : Option (List Accumulator)) : List Accumulator :=
  List.zipWith (fun a d => a.push d record)
    (found.getD (definitions.map fun d => .start d.aggregate)) definitions

/-- The accumulators that are found under a bucket and a key. -/
def foundAt (tallies : List Tally) (place : Nat × List String) : Option (List Accumulator) :=
  tallies[place.1]?.bind (Ordered.find? place.2)

theorem tally_eq_alter (key : List String) (record : Record) :
    tally definitions key record = Ordered.alter key (pushAll definitions record) := rfl

theorem foundAt_modify {bucket : Nat} (key : List String) (record : Record)
    (place : Nat × List String) (hlength : place.1 < tallies.length) :
    foundAt (tallies.modify bucket (tally definitions key record)) place =
      if (bucket, key) = place then some (pushAll definitions record (foundAt tallies place))
      else foundAt tallies place := by
  obtain ⟨other, otherKey⟩ := place
  simp only [foundAt, List.getElem?_modify, List.getElem?_eq_getElem hlength, Prod.mk.injEq]
  by_cases hbucket : bucket = other
  · by_cases hkey : key = otherKey
    · simp [hbucket, hkey, tally_eq_alter]
    · simp [hbucket, hkey, tally_eq_alter, Ordered.find?_alter_of_ne (Ne.symm hkey)]
  · simp [hbucket]

/-- What is found in the end under a bucket and a key has taken the records of their row. -/
theorem tallyAll_spec (h : tallyAll r labels definitions records tallies = some out) :
    out.length = tallies.length ∧
      (∀ record ∈ records, ∃ bucket, bucketOf r labels record = some bucket) ∧
      ∀ place : Nat × List String, place.1 < tallies.length →
        foundAt out place = (share r labels records place).foldl
          (fun found record => some (pushAll definitions record found)) (foundAt tallies place) := by
  -- The tallies change along the records, so the claim is about those found at the start.
  induction records generalizing tallies with
  | nil =>
      obtain rfl : tallies = out := Option.some.inj h
      simp [share]
  | cons record rest ih =>
      rw [tallyAll] at h
      obtain ⟨bucket?, hbucket, h⟩ := Option.bind_eq_some_iff.mp h
      cases bucket? with
      | none =>
          have hplace : placeOf? r labels record = none := by simp [placeOf?, hbucket]
          obtain ⟨hlength, hbuckets, hfound⟩ := ih h
          refine ⟨hlength, by simpa [hbucket] using hbuckets, ?_⟩
          intro place hlt
          rw [hfound place hlt, share, share, List.filter_cons_of_neg (by simp [hplace])]
      | some bucket =>
          have hplace : placeOf? r labels record = some (bucket, keyOf r.query record) := by
            simp [placeOf?, hbucket]
          obtain ⟨hlength, hbuckets, hfound⟩ := ih h
          rw [List.length_modify] at hlength hfound
          refine ⟨hlength, by simpa [hbucket] using hbuckets, ?_⟩
          intro place hlt
          rw [hfound place hlt, foundAt_modify _ _ _ hlt, share, share]
          by_cases hsame : (bucket, keyOf r.query record) = place
          · rw [if_pos hsame, List.filter_cons_of_pos (by simp [hplace, hsame]), List.foldl_cons]
          · rw [if_neg hsame, List.filter_cons_of_neg (by simp [hplace, hsame])]

/-- Records cannot be put into accumulators exactly if one of them has no answer for its bucket. -/
theorem tallyAll_eq_none_iff :
    tallyAll r labels definitions records tallies = none ↔
      ∃ record ∈ records, bucketOf r labels record = none := by
  induction records generalizing tallies with
  | nil => simp [tallyAll]
  | cons record rest ih =>
      rw [tallyAll, List.exists_mem_cons_iff]
      cases hbucket : bucketOf r labels record with
      | none => simp
      | some bucket? => cases bucket? <;> simp [ih]

theorem pushAll_map (record : Record) (state : MetricDefinition → Accumulator) :
    pushAll definitions record (some (definitions.map state)) =
      definitions.map fun d => (state d).push d record := by
  simp [pushAll, List.zipWith_map_left]

theorem pushAll_none (record : Record) :
    pushAll definitions record none =
      pushAll definitions record (some (definitions.map fun d => .start d.aggregate)) := rfl

/-- Accumulators of all metrics take records as each of them does by itself. -/
theorem foldl_pushAll_map (records : List Record) (state : MetricDefinition → Accumulator) :
    records.foldl (fun found record => some (pushAll definitions record found))
        (some (definitions.map state)) =
      some (definitions.map fun d =>
        records.foldl (fun a record => a.push d record) (state d)) := by
  induction records generalizing state with
  | nil => rfl
  | cons record rest ih => rw [List.foldl_cons, pushAll_map, ih]; rfl

/-- The accumulators of a row that starts without any. -/
theorem foldl_pushAll_none (records : List Record) :
    records.foldl (fun found record => some (pushAll definitions record found)) none =
      if records.isEmpty then none else some (definitions.map fun d => d.gather records) := by
  cases records with
  | nil => rfl
  | cons record rest =>
      rw [List.foldl_cons, pushAll_none, pushAll_map, foldl_pushAll_map]
      rfl

/-- The cells of a key under which the accumulators of some records are found. -/
theorem metricCells_eq_metricsOf {key : List String} {t : Tally} {share : List Record}
    (h : Ordered.find? key t =
      if share.isEmpty then none else some (definitions.map fun d => d.gather share)) :
    metricCells definitions key t = metricsOf definitions share := by
  rw [metricCells, metricsOf, h]
  by_cases hempty : share.isEmpty
  · simp [hempty]
  · simp [hempty, Function.comp_def]

/-- The rows of all buckets, where the tallies have taken all records. -/
theorem flatten_bucketRows {keys : List (List String)} (hlength : out.length = labels.length)
    (hfound : ∀ place : Nat × List String, place.1 < labels.length →
      foundAt out place = (share r labels records place).foldl
        (fun found record => some (pushAll definitions record found)) none) :
    (List.zipWith (bucketRows r definitions keys) labels out).flatten =
      (List.range labels.length ×ˢ keys).map (rowAt r labels definitions records) := by
  have hrows : List.zipWith (bucketRows r definitions keys) labels out =
      (List.range labels.length).map fun i =>
        keys.map fun key => rowAt r labels definitions records (i, key) := by
    apply List.ext_getElem (by simp [hlength])
    intro i hi _
    have hlabel : i < labels.length := by simp at hi; omega
    simp only [List.getElem_zipWith, List.getElem_map, List.getElem_range, bucketRows, rowAt]
    apply List.map_congr_left
    intro key _
    have hcells := hfound (i, key) hlabel
    rw [foldl_pushAll_none, foundAt, List.getElem?_eq_getElem (hlength ▸ hlabel),
      Option.bind_some] at hcells
    rw [metricCells_eq_metricsOf hcells, List.getElem?_eq_getElem hlabel]
    rfl
  rw [hrows, List.flatten_eq_flatMap, List.flatMap_map]
  simp [SProd.sprod, List.product, List.map_flatMap, Function.comp_def]

/-- There is no table for known metrics if the window has no labels or a record that counts has no
answer for its bucket. -/
theorem tabulate?_eq_none_iff :
    s.tabulate? projectId r definitions = none ↔
      ∀ labels, bucketLabels r = some labels →
        ∃ record ∈ s.selected projectId r.query, bucketOf r labels record = none := by
  rw [tabulate?]
  cases hlabels : bucketLabels r with
  | none => simp
  | some labels =>
      have htally : tallyAll r labels definitions (s.selected projectId r.query)
          (labels.map fun _ => []) = none ↔
          ∃ record ∈ s.selected projectId r.query, bucketOf r labels record = none :=
        tallyAll_eq_none_iff
      rw [selected] at htally
      simp only [bind, Option.bind_some, pure, Option.some.injEq, forall_eq', selected, ← htally]
      cases tallyAll r labels definitions _ _ <;> simp

/-- The rows of a table for known metrics are computed place by place. -/
theorem eq_of_tabulate? {table : ResultTable} (hlabels : bucketLabels r = some labels)
    (h : s.tabulate? projectId r definitions = some table) :
    table.headers = (if r.isBucketed then [datetimeHeader] else [])
        ++ r.query.groupBys.map (·.propertyName) ++ r.query.metrics ∧
      table.rows = (s.places projectId r.query labels).map
        (rowAt r labels definitions (s.selected projectId r.query)) := by
  rw [tabulate?] at h
  obtain ⟨others, hothers, h⟩ := Option.bind_eq_some_iff.mp h
  cases hlabels.symm.trans hothers
  obtain ⟨out, hout, h⟩ := Option.bind_eq_some_iff.mp h
  cases h
  obtain ⟨hlength, -, hfound⟩ := tallyAll_spec hout
  rw [List.length_map] at hlength hfound
  refine ⟨rfl, flatten_bucketRows hlength fun place hlt => ?_⟩
  rw [hfound place hlt]
  simp [foundAt, hlt, selected]

/-- The answer to a query exists if its metrics are known, its window has labels and every record
that counts has an answer for its bucket; its rows are computed place by place. -/
theorem answer_eq_ok_iff {table : ResultTable} :
    s.answer projectId r = .ok (some table) ↔
      ∃ definitions labels, r.query.metrics.mapM (s.metric r.query.displayCategory) =
          .ok definitions ∧ bucketLabels r = some labels ∧
        (∀ record ∈ s.selected projectId r.query,
          ∃ bucket, bucketOf r labels record = some bucket) ∧
        table.headers = (if r.isBucketed then [datetimeHeader] else [])
          ++ r.query.groupBys.map (·.propertyName) ++ r.query.metrics ∧
        table.rows = (s.places projectId r.query labels).map
          (rowAt r labels definitions (s.selected projectId r.query)) := by
  rw [answer, bind_eq_ok_iff]
  refine exists_congr fun definitions => ?_
  have hsome : (∃ labels, bucketLabels r = some labels ∧
        ∀ record ∈ s.selected projectId r.query, ∃ bucket, bucketOf r labels record = some bucket) ↔
      ∃ found, s.tabulate? projectId r definitions = some found := by
    rw [← Option.ne_none_iff_exists', ne_eq, tabulate?_eq_none_iff]
    simp [Option.ne_none_iff_exists']
  constructor
  · rintro ⟨hdefinitions, htable⟩
    have htable := Except.ok.inj htable
    obtain ⟨labels, hlabels, hbuckets⟩ := hsome.mpr ⟨table, htable⟩
    exact ⟨labels, hdefinitions, hlabels, hbuckets, eq_of_tabulate? hlabels htable⟩
  · rintro ⟨labels, hdefinitions, hlabels, hbuckets, hheaders, hrows⟩
    obtain ⟨found, hfound⟩ := hsome.mp ⟨labels, hlabels, hbuckets⟩
    obtain ⟨hsameHeaders, hsameRows⟩ := eq_of_tabulate? hlabels hfound
    obtain rfl : found = table := by
      cases found
      cases table
      simp_all
    exact ⟨hdefinitions, congrArg Except.ok hfound⟩

/-- A query is refused exactly if one of its metrics is unknown. -/
theorem answer_eq_error_iff {f : Failure} : s.answer projectId r = .error f ↔
    r.query.metrics.mapM (s.metric r.query.displayCategory) = .error f := by
  rw [answer, bind_eq_error_iff]
  simp [pure, Except.pure]

/-- A query of known metrics has no answer if its window has no labels or a record that counts has no
answer for its bucket. -/
theorem answer_eq_none_iff : s.answer projectId r = .ok none ↔
    (∃ definitions, r.query.metrics.mapM (s.metric r.query.displayCategory) = .ok definitions) ∧
      ∀ labels, bucketLabels r = some labels →
        ∃ record ∈ s.selected projectId r.query, bucketOf r labels record = none := by
  rw [answer, bind_eq_ok_iff]
  simp [pure, Except.pure, tabulate?_eq_none_iff]

theorem keyOf_mem_keySpace {q : Query} {record : Record} (h : record ∈ records) :
    keyOf q record ∈ keySpace q records := by
  rw [keySpace]
  split
  · rename_i hempty
    simp [keyOf, List.isEmpty_iff.mp hempty]
  · exact (Ordered.mem_ofList _ _).mpr (List.mem_map_of_mem h)

theorem nodup_keySpace (q : Query) (records : List Record) : (keySpace q records).Nodup := by
  rw [keySpace]
  split
  · simp
  · exact Ordered.nodup_ofList _

theorem nodup_places (s : RecordStore) (projectId : Int) (q : Query) (labels : List String) :
    (s.places projectId q labels).Nodup :=
  List.nodup_range.product (nodup_keySpace q _)

/-- A label of the list has a last place in it. -/
theorem lastIndexOf?_of_mem {label : String} (h : label ∈ labels) :
    ∃ i < labels.length, lastIndexOf? label labels = some i := by
  have hpos : 0 < labels.length := List.length_pos_of_mem h
  cases hindex : labels.reverse.idxOf? label with
  | none =>
      rw [List.idxOf?_eq_none_iff, List.mem_reverse] at hindex
      exact absurd h hindex
  | some i => exact ⟨labels.length - 1 - i, by omega, by rw [lastIndexOf?, hindex]; rfl⟩

/-- A record in a bucket of the answer counts in exactly one row. -/
theorem existsUnique_place {record : Record} {bucket : Nat}
    (hrecord : record ∈ s.selected projectId r.query)
    (hbucket : bucketOf r labels record = some (some bucket)) (hlt : bucket < labels.length) :
    ∃! n : Nat, ∃ place, (s.places projectId r.query labels)[n]? = some place ∧
      record ∈ share r labels (s.selected projectId r.query) place := by
  have hplace : placeOf? r labels record = some (bucket, keyOf r.query record) := by
    simp [placeOf?, hbucket]
  have hshare : ∀ place, record ∈ share r labels (s.selected projectId r.query) place ↔
      place = (bucket, keyOf r.query record) := by
    intro place
    simp [share, hrecord, hplace, eq_comm]
  have hmem : (bucket, keyOf r.query record) ∈ s.places projectId r.query labels :=
    List.mem_product.mpr
      ⟨List.mem_range.mpr hlt, keyOf_mem_keySpace (List.mem_of_mem_filter hrecord)⟩
  obtain ⟨n, hn⟩ := List.mem_iff_getElem?.mp hmem
  refine ⟨n, ⟨_, hn, (hshare _).mpr rfl⟩, ?_⟩
  rintro m ⟨place, hm, hrecordPlace⟩
  rw [(hshare place).mp hrecordPlace, ← hn] at hm
  have hlength : n < (s.places projectId r.query labels).length :=
    (List.getElem?_eq_some_iff.mp hn).1
  exact (List.getElem?_inj hlength (nodup_places s projectId r.query labels)).mp hm.symm |>.symm

end RecordStore

end FederatedMetrics
