import FederatedMetrics.Proofs.Decimal.Exact
import FederatedMetrics.Proofs.Record.Numbers

/-!
# Null properties

A property that is null reads like one that is absent, as a text and as a number. Removing nulls from
records leaves alone in which rows they count, and also all counts and sums. It only shows where the
presence of a property is asked for itself: among distinct texts and among the values of a property, where
a null brings up the text of an absent property.
-/

namespace FederatedMetrics

namespace Record

/-- A record is another one without some of the properties that are null there. -/
structure WithoutNulls (r bare : Record) : Prop where
  projectId_eq : bare.projectId = r.projectId
  displayCategory_eq : bare.displayCategory = r.displayCategory
  objectType_eq : bare.objectType = r.objectType
  timestamp_eq : bare.timestamp = r.timestamp
  property_eq (name : String) : bare.property? name = r.property? name ∨
    r.property? name = some .null ∧ bare.property? name = none

variable {r bare : Record} {records bares : List Record} {property : String}

theorem WithoutNulls.textOf_eq (h : r.WithoutNulls bare) (name : String) :
    bare.textOf name = r.textOf name := by
  rcases h.property_eq name with hsame | ⟨hnull, hnone⟩
  · rw [textOf, textOf, hsame]
  · rw [textOf, textOf, hnull, hnone]

theorem WithoutNulls.numberOf_eq (h : r.WithoutNulls bare) (name : String) :
    bare.numberOf name = r.numberOf name := by
  rcases h.property_eq name with hsame | ⟨hnull, hnone⟩
  · rw [numberOf, numberOf, hsame]
  · rw [numberOf, numberOf, hnull, hnone]
    rfl

/-- A property that is removed has had the text of an absent one. -/
theorem WithoutNulls.hasProperty_cases (h : r.WithoutNulls bare) (name : String) :
    bare.hasProperty name = r.hasProperty name ∨
      r.hasProperty name = true ∧ bare.hasProperty name = false ∧ r.textOf name = noneValue := by
  rcases h.property_eq name with hsame | ⟨hnull, hnone⟩
  · exact .inl (by rw [hasProperty, hasProperty, hsame])
  · exact .inr ⟨by rw [hasProperty, hnull]; rfl, by rw [hasProperty, hnone]; rfl,
      by rw [textOf, hnull]⟩

/-- Filters look at the texts of a record. -/
theorem satisfiesFrom_congr (h : ∀ name, bare.textOf name = r.textOf name) (group : Bool)
    (filters : List Filter) : satisfiesFrom bare group filters = satisfiesFrom r group filters := by
  induction filters generalizing group with
  | nil => rfl
  | cons f rest ih => simp only [satisfiesFrom, Filter.holds, h, ih]

theorem satisfies_congr (h : ∀ name, bare.textOf name = r.textOf name) (filters : List Filter) :
    satisfies bare filters = satisfies r filters := by
  cases filters with
  | nil => rfl
  | cons f rest => simp only [satisfies, Filter.holds, h, satisfiesFrom_congr h]

theorem mem_carriedTexts {text : String} : text ∈ carriedTexts property records ↔
    ∃ record ∈ records, record.hasProperty property = true ∧ record.textOf property = text := by
  simp only [carriedTexts, List.mem_map, List.mem_filter, and_assoc]

/-- Without nulls no text is carried that was not before. -/
theorem mem_carriedTexts_of_bare (h : List.Forall₂ WithoutNulls records bares) {text : String}
    (htext : text ∈ carriedTexts property bares) : text ∈ carriedTexts property records := by
  obtain ⟨bare, hbare, hhas, rfl⟩ := mem_carriedTexts.mp htext
  obtain ⟨record, hrecord, hnulls⟩ := exists_of_mem_of_forall₂ h hbare
  refine mem_carriedTexts.mpr ⟨record, hrecord, ?_, (hnulls.textOf_eq property).symm⟩
  rcases hnulls.hasProperty_cases property with hsame | ⟨hhad, -, -⟩
  · rw [← hsame, hhas]
  · exact hhad

/-- The only text that may be missing without nulls is that of an absent property. -/
theorem mem_carriedTexts_or (h : List.Forall₂ WithoutNulls records bares) {text : String}
    (htext : text ∈ carriedTexts property records) :
    text ∈ carriedTexts property bares ∨ text = noneValue := by
  obtain ⟨record, hrecord, hhas, rfl⟩ := mem_carriedTexts.mp htext
  obtain ⟨bare, hbare, hnulls⟩ := exists_of_mem_of_forall₂ h.flip hrecord
  rcases hnulls.hasProperty_cases property with hsame | ⟨-, -, hnone⟩
  · exact .inl (mem_carriedTexts.mpr ⟨bare, hbare, hsame.trans hhas, hnulls.textOf_eq property⟩)
  · exact .inr hnone

/-- The same texts are carried without nulls unless that of an absent property is then missing. -/
theorem mem_carriedTexts_congr (h : List.Forall₂ WithoutNulls records bares)
    (hnone : noneValue ∈ carriedTexts property records → noneValue ∈ carriedTexts property bares)
    (text : String) : text ∈ carriedTexts property records ↔ text ∈ carriedTexts property bares := by
  refine ⟨fun htext => ?_, mem_carriedTexts_of_bare h⟩
  rcases mem_carriedTexts_or h htext with hcarried | rfl
  · exact hcarried
  · exact hnone htext

end Record

namespace MetricDefinition

variable {d : MetricDefinition} {records bares : List Record}

/-- Whether a metric takes as many distinct texts from records as from them without nulls: the text of an
absent property is not among them, or it still is without the nulls. -/
def CountsAlike (d : MetricDefinition) (records bares : List Record) : Prop :=
  ∀ property, d.aggregate = .countDistinct property →
    noneValue ∈ Record.carriedTexts property records → noneValue ∈ Record.carriedTexts property bares

theorem total_eq_of_countsAlike (h : List.Forall₂ Record.WithoutNulls records bares)
    (halike : d.CountsAlike records bares) : d.total bares = d.total records := by
  cases haggregate : d.aggregate with
  | count => rw [total_of_count haggregate, total_of_count haggregate, h.length_eq]
  | sum property =>
      rw [total_of_sum haggregate, total_of_sum haggregate,
        map_eq_map_of_forall₂ (h.imp fun _ _ hnulls => (hnulls.numberOf_eq property).symm)]
  | countDistinct property =>
      have htexts := Record.mem_carriedTexts_congr h (halike property haggregate)
      rw [total_of_countDistinct haggregate, total_of_countDistinct haggregate,
        (Ordered.ofList_eq_ofList_iff _ _).mpr htexts]

/-- If the values are the same, so are the distinct texts, as they are not too many to be told apart. -/
theorem countsAlike_of_ofFloat_eq (h : List.Forall₂ Record.WithoutNulls records bares)
    (hfew : records.length < 2 ^ 53)
    (hvalue : Json.ofFloat (d.total bares) = .ofFloat (d.total records)) :
    d.CountsAlike records bares := by
  intro property haggregate hnone
  have hlength := Record.length_texts_le property records
  have hbares := Record.length_texts_le property bares
  rw [← h.length_eq] at hbares
  rw [total_of_countDistinct haggregate, total_of_countDistinct haggregate, Json.ofFloat,
    if_pos (Binary64.isFinite_ofInt (by omega)), Json.ofFloat,
    if_pos (Binary64.isFinite_ofInt (by omega))] at hvalue
  have hcount := (Binary64.ofInt_natCast_inj (by omega) (by omega)).mp (Json.float.inj hvalue)
  -- All texts of the one are texts of the other, so as many of them are all of them.
  have hsub : Ordered.ofList (Record.carriedTexts property bares) ⊆
      Ordered.ofList (Record.carriedTexts property records) := by
    intro text htext
    rw [Ordered.mem_ofList] at htext ⊢
    exact Record.mem_carriedTexts_of_bare h htext
  have hperm := (List.Nodup.subperm (Ordered.nodup_ofList _) hsub).perm_of_length_le hcount.symm.le
  exact (Ordered.mem_ofList _ _).mp (hperm.mem_iff.mpr ((Ordered.mem_ofList _ _).mpr hnone))

end MetricDefinition

namespace RecordStore

variable {s bare : RecordStore} {projectId : Int} {r : ResolvedQuery} {labels : List String}
  {definitions : List MetricDefinition}

/-- A store has the records of another one without some of their null properties. -/
structure WithoutNulls (s bare : RecordStore) : Prop where
  metrics_eq : bare.metrics = s.metrics
  records : List.Forall₂ Record.WithoutNulls s.records bare.records

/-- Records that are chosen alike are without nulls what they were. -/
theorem withoutNulls_filter {records bares : List Record} {p : Record → Bool}
    (h : List.Forall₂ Record.WithoutNulls records bares)
    (hp : ∀ record bare, record.WithoutNulls bare → p record = p bare) :
    List.Forall₂ Record.WithoutNulls (records.filter p) (bares.filter p) :=
  List.rel_filter (fun record bare hnulls => by simp only [hp record bare hnulls]) h

theorem WithoutNulls.inWindow (h : s.WithoutNulls bare) (projectId : Int) (q : Query) :
    List.Forall₂ Record.WithoutNulls (s.inWindow projectId q) (bare.inWindow projectId q) :=
  withoutNulls_filter h.records fun record bare hnulls => by
    rw [hnulls.projectId_eq, hnulls.displayCategory_eq, hnulls.timestamp_eq]

theorem WithoutNulls.selected (h : s.WithoutNulls bare) (projectId : Int) (q : Query) :
    List.Forall₂ Record.WithoutNulls (s.selected projectId q) (bare.selected projectId q) :=
  withoutNulls_filter (h.inWindow projectId q) fun _ _ hnulls =>
    (Record.satisfies_congr hnulls.textOf_eq q.filters).symm

theorem keyOf_eq {record bare : Record} (h : record.WithoutNulls bare) (q : Query) :
    keyOf q bare = keyOf q record := by
  simp only [keyOf, h.textOf_eq]

theorem bucketOf_eq {record bare : Record} (h : record.WithoutNulls bare) (r : ResolvedQuery)
    (labels : List String) : bucketOf r labels bare = bucketOf r labels record := by
  rw [bucketOf, bucketOf, h.timestamp_eq]

theorem placeOf?_eq {record bare : Record} (h : record.WithoutNulls bare) (r : ResolvedQuery)
    (labels : List String) : placeOf? r labels bare = placeOf? r labels record := by
  rw [placeOf?, placeOf?, bucketOf_eq h, keyOf_eq h]

theorem WithoutNulls.places_eq (h : s.WithoutNulls bare) (projectId : Int) (q : Query)
    (labels : List String) : bare.places projectId q labels = s.places projectId q labels := by
  have hkeys : (s.inWindow projectId q).map (keyOf q) = (bare.inWindow projectId q).map (keyOf q) :=
    map_eq_map_of_forall₂ ((h.inWindow projectId q).imp fun _ _ hnulls => (keyOf_eq hnulls q).symm)
  rw [places, places, keySpace, keySpace, hkeys]

/-- The records that a metric takes in the row of a bucket and a key. -/
def taken (s : RecordStore) (projectId : Int) (r : ResolvedQuery) (labels : List String)
    (place : Nat × List String) (d : MetricDefinition) : List Record :=
  (share r labels (s.selected projectId r.query) place).filter d.accepts

theorem WithoutNulls.taken (h : s.WithoutNulls bare) (place : Nat × List String)
    (d : MetricDefinition) : List.Forall₂ Record.WithoutNulls (s.taken projectId r labels place d)
      (bare.taken projectId r labels place d) := by
  refine withoutNulls_filter (withoutNulls_filter (h.selected projectId r.query) ?_) ?_
  · intro record bare hnulls
    rw [placeOf?_eq hnulls]
  · intro record bare hnulls
    rw [MetricDefinition.accepts, MetricDefinition.accepts, hnulls.objectType_eq]

theorem length_taken_le (place : Nat × List String) (d : MetricDefinition) :
    (s.taken projectId r labels place d).length ≤ s.records.length :=
  (((List.filter_sublist.trans List.filter_sublist).trans List.filter_sublist).trans
    List.filter_sublist).length_le

/-- Whether an answer counts as many distinct texts without the nulls, in the row of every bucket and
key. -/
def CountsAlike (s bare : RecordStore) (projectId : Int) (r : ResolvedQuery) : Prop :=
  ∀ labels definitions, bucketLabels r = some labels →
    r.query.metrics.mapM (s.metric r.query.displayCategory) = .ok definitions →
      ∀ place ∈ s.places projectId r.query labels, ∀ d ∈ definitions,
        d.CountsAlike (s.taken projectId r labels place d) (bare.taken projectId r labels place d)

theorem WithoutNulls.metric_eq (h : s.WithoutNulls bare) (displayCategory : String) :
    bare.metric displayCategory = s.metric displayCategory := by
  funext name
  rw [metric, metric, h.metrics_eq]

/-- A query is refused without the nulls exactly if it is with them. -/
theorem WithoutNulls.answer_eq_error_iff (h : s.WithoutNulls bare) (f : Failure) :
    bare.answer projectId r = .error f ↔ s.answer projectId r = .error f := by
  rw [RecordStore.answer_eq_error_iff, RecordStore.answer_eq_error_iff, h.metric_eq]

/-- A query has no answer without the nulls exactly if it has none with them. -/
theorem WithoutNulls.answer_eq_none_iff (h : s.WithoutNulls bare) :
    bare.answer projectId r = .ok none ↔ s.answer projectId r = .ok none := by
  have hbeyond : ∀ labels, (∃ record ∈ s.selected projectId r.query, bucketOf r labels record = none) ↔
      ∃ record ∈ bare.selected projectId r.query, bucketOf r labels record = none := by
    intro labels
    apply exists_mem_iff_of_forall₂
    exact (h.selected projectId r.query).imp fun _ _ hnulls => by rw [bucketOf_eq hnulls]
  simp only [RecordStore.answer_eq_none_iff, h.metric_eq, hbeyond]

theorem rowAt_eq_rowAt_iff {records bares : List Record} {place : Nat × List String} :
    rowAt r labels definitions bares place = rowAt r labels definitions records place ↔
      ∀ d ∈ definitions, Json.ofFloat (d.total ((share r labels bares place).filter d.accepts)) =
        .ofFloat (d.total ((share r labels records place).filter d.accepts)) := by
  rw [rowAt, rowAt, List.append_cancel_left_eq, metricsOf_eq, metricsOf_eq, List.map_inj_left]

theorem eq_of_answer {t : ResultTable} (h : s.answer projectId r = .ok (some t))
    (hdefinitions : r.query.metrics.mapM (s.metric r.query.displayCategory) = .ok definitions)
    (hlabels : bucketLabels r = some labels) :
    t = ⟨(if r.isBucketed then [datetimeHeader] else []) ++ r.query.groupBys.map (·.propertyName)
      ++ r.query.metrics, (s.places projectId r.query labels).map
        (rowAt r labels definitions (s.selected projectId r.query))⟩ := by
  obtain ⟨_, _, hsame, hsameLabels, -, hheaders, hrows⟩ := answer_eq_ok_iff.mp h
  cases hdefinitions.symm.trans hsame
  cases hlabels.symm.trans hsameLabels
  rw [← hheaders, ← hrows]

/-- The answer is the same without the nulls if and only if all its metric cells are. -/
theorem WithoutNulls.answer_eq_ok_iff_cells (h : s.WithoutNulls bare) {t : ResultTable}
    (ht : s.answer projectId r = .ok (some t))
    (hdefinitions : r.query.metrics.mapM (s.metric r.query.displayCategory) = .ok definitions)
    (hlabels : bucketLabels r = some labels) :
    bare.answer projectId r = .ok (some t) ↔ ∀ place ∈ s.places projectId r.query labels, ∀ d ∈ definitions,
      Json.ofFloat (d.total (bare.taken projectId r labels place d)) =
        .ofFloat (d.total (s.taken projectId r labels place d)) := by
  match hbare : bare.answer projectId r with
  | .error f =>
      rw [h.answer_eq_error_iff, ht] at hbare
      cases hbare
  | .ok none =>
      rw [h.answer_eq_none_iff, ht] at hbare
      cases hbare
  | .ok (some u) =>
      rw [eq_of_answer ht hdefinitions hlabels,
        eq_of_answer hbare (by rw [h.metric_eq, hdefinitions]) hlabels, h.places_eq]
      simp only [Except.ok.injEq, Option.some.injEq, ResultTable.mk.injEq, true_and,
        List.map_inj_left]
      exact forall₂_congr fun place _ => rowAt_eq_rowAt_iff

/-- What is the same without the nulls are the answers that count the same distinct texts. -/
theorem WithoutNulls.answer_eq_of_countsAlike (h : s.WithoutNulls bare) {t : ResultTable}
    (ht : s.answer projectId r = .ok (some t)) (halike : s.CountsAlike bare projectId r) :
    bare.answer projectId r = .ok (some t) := by
  obtain ⟨definitions, labels, hdefinitions, hlabels, -⟩ := answer_eq_ok_iff.mp ht
  refine (h.answer_eq_ok_iff_cells ht hdefinitions hlabels).mpr fun place hplace d hd => ?_
  rw [MetricDefinition.total_eq_of_countsAlike (h.taken place d)
    (halike labels definitions hlabels hdefinitions place hplace d hd)]

theorem WithoutNulls.countsAlike_of_answer_eq (h : s.WithoutNulls bare)
    (hfew : s.records.length < 2 ^ 53) {t : ResultTable} (ht : s.answer projectId r = .ok (some t))
    (hbare : bare.answer projectId r = .ok (some t)) : s.CountsAlike bare projectId r := by
  intro labels definitions hlabels hdefinitions place hplace d hd
  have hcells := (h.answer_eq_ok_iff_cells ht hdefinitions hlabels).mp hbare place hplace d hd
  exact MetricDefinition.countsAlike_of_ofFloat_eq (h.taken place d)
    (Nat.lt_of_le_of_lt (length_taken_le place d) hfew) hcells

/-- The records whose texts are looked up as the values of a property. -/
def asked (s : RecordStore) (projectId : Int) (p : Property) : List Record :=
  s.records.filter fun record =>
    record.projectId = projectId && record.displayCategory = p.displayCategory
      && (p.objectType = "" || record.objectType = p.objectType)

theorem WithoutNulls.asked (h : s.WithoutNulls bare) (projectId : Int) (p : Property) :
    List.Forall₂ Record.WithoutNulls (s.asked projectId p) (bare.asked projectId p) :=
  withoutNulls_filter h.records fun record bare hnulls => by
    rw [hnulls.projectId_eq, hnulls.displayCategory_eq, hnulls.objectType_eq]

theorem filterValues_eq (s : RecordStore) (projectId : Int) (p : Property) :
    s.filterValues projectId p =
      (Ordered.ofList (Record.carriedTexts p.name (s.asked projectId p))).take maxFilterValues := by
  rw [filterValues, Record.carriedTexts, asked, List.filter_filter]
  simp only [Bool.and_comm]

/-- Values are the same without the nulls unless that of an absent property is then missing. -/
theorem WithoutNulls.filterValues_eq_iff (h : s.WithoutNulls bare) (p : Property) :
    bare.filterValues projectId p = s.filterValues projectId p ↔
      (noneValue ∈ s.filterValues projectId p → noneValue ∈ bare.filterValues projectId p) := by
  have hasked := h.asked projectId p
  refine ⟨fun hsame hnone => hsame ▸ hnone, ?_⟩
  rw [filterValues_eq, filterValues_eq]
  exact Ordered.take_ofList_eq (fun text htext => Record.mem_carriedTexts_of_bare hasked htext)
    fun text htext => Record.mem_carriedTexts_or hasked htext

/-- A null property is the same as an absent one, except where it brings up the text of an absent property
by itself. Removing null properties from records never changes whether and why a query is refused, or whether
the arithmetic of its buckets leaves the calendar. Its answer stays the same if no metric counts a distinct
text less, and only then as long as the records are not too many for their number to be exact; the values of
a property stay the same if and only if the text of an absent property is not lost among them. -/
theorem nulls_are_absent_iff (s bare : RecordStore) (h : s.WithoutNulls bare) (projectId : Int)
    (r : ResolvedQuery) (p : Property) :
    (∀ f, bare.answer projectId r = .error f ↔ s.answer projectId r = .error f) ∧
    (bare.answer projectId r = .ok none ↔ s.answer projectId r = .ok none) ∧
    (∀ t, s.answer projectId r = .ok (some t) →
      (s.CountsAlike bare projectId r → bare.answer projectId r = .ok (some t)) ∧
      (s.records.length < 2 ^ 53 → bare.answer projectId r = .ok (some t) →
        s.CountsAlike bare projectId r)) ∧
    (bare.filterValues projectId p = s.filterValues projectId p ↔
      (noneValue ∈ s.filterValues projectId p → noneValue ∈ bare.filterValues projectId p)) := by
  refine ⟨h.answer_eq_error_iff, h.answer_eq_none_iff, fun t ht => ⟨?_, ?_⟩,
    h.filterValues_eq_iff p⟩
  · exact h.answer_eq_of_countsAlike ht
  · intro hfew hbare
    exact h.countsAlike_of_answer_eq hfew ht hbare

/-- A visit with a value for the user, or without this property. -/
def userVisit (user : Option Json) : Record :=
  ⟨1, "visits", "", 5, user.toList.map fun value => ("user", value)⟩

/-- A store with visits, of which the distinct users are counted. -/
def userVisits (users : List (Option Json)) : RecordStore :=
  ⟨users.map userVisit, [(("visits", "users"), ⟨.countDistinct "user", none⟩)]⟩

/-- The users of all visits. -/
def visitingUsers : ResolvedQuery :=
  ⟨⟨.events, "visits", ["users"], [], [], 0, 9, none, .standard, "", "", "UTC", none⟩, [], .utc⟩

def userProperty : Property := ⟨.events, "visits", "", "user", .categorical, ""⟩

theorem withoutNulls_userVisits {users others : List (Option Json)}
    (h : List.Forall₂ (fun user other => other = user ∨ user = some .null ∧ other = none) users others) :
    (userVisits users).WithoutNulls (userVisits others) := by
  refine ⟨rfl, List.forall₂_map_left_iff.mpr (List.forall₂_map_right_iff.mpr (h.imp ?_))⟩
  rintro user other (rfl | ⟨rfl, rfl⟩)
  · exact ⟨rfl, rfl, rfl, rfl, fun _ => .inl rfl⟩
  · refine ⟨rfl, rfl, rfl, rfl, fun name => ?_⟩
    by_cases hname : name = "user"
    · subst hname
      exact .inr ⟨rfl, rfl⟩
    · left
      simp [Record.property?, userVisit, List.lookup_cons, beq_eq_false_iff_ne.mpr hname]

/-- Where another null stays, removing one changes nothing. -/
theorem nulls_are_absent_iff_twice :
    (userVisits [some .null, some .null, some (.str "ann")]).WithoutNulls
        (userVisits [none, some .null, some (.str "ann")]) ∧
      (userVisits [some .null, some .null, some (.str "ann")]).CountsAlike
        (userVisits [none, some .null, some (.str "ann")]) 1 visitingUsers ∧
      (userVisits [none, some .null, some (.str "ann")]).filterValues 1 userProperty =
        (userVisits [some .null, some .null, some (.str "ann")]).filterValues 1 userProperty := by
  have hnulls : (userVisits [some .null, some .null, some (.str "ann")]).WithoutNulls
      (userVisits [none, some .null, some (.str "ann")]) :=
    withoutNulls_userVisits (.cons (.inr ⟨rfl, rfl⟩) (.cons (.inl rfl) (.cons (.inl rfl) .nil)))
  have hanswer : (userVisits [some .null, some .null, some (.str "ann")]).answer 1 visitingUsers =
      .ok (some ⟨["users"], [[.ofFloat (Decimal.ofInt 2)]]⟩) := rfl
  have hbare : (userVisits [none, some .null, some (.str "ann")]).answer 1 visitingUsers =
      .ok (some ⟨["users"], [[.ofFloat (Decimal.ofInt 2)]]⟩) := rfl
  obtain ⟨-, -, hanswers, hvalues⟩ := nulls_are_absent_iff _ _ hnulls 1 visitingUsers userProperty
  exact ⟨hnulls, (hanswers _ hanswer).2 (by decide) hbare, hvalues.mpr fun _ => by decide⟩

/-- The null of a single visit is counted as a user and listed among the users; without it there is none. -/
theorem null_counts_as_text :
    (userVisits [some .null]).WithoutNulls (userVisits [none]) ∧
      (userVisits [some .null]).answer 1 visitingUsers = .ok (some ⟨["users"], [[.float 1.0]]⟩) ∧
      (userVisits [none]).answer 1 visitingUsers = .ok (some ⟨["users"], [[.float 0.0]]⟩) ∧
      (userVisits [some .null]).answer 1 visitingUsers ≠ (userVisits [none]).answer 1 visitingUsers ∧
      (userVisits [some .null]).filterValues 1 userProperty = [noneValue] ∧
      (userVisits [none]).filterValues 1 userProperty = [] := by
  have hone : Decimal.ofInt 1 = 1.0 := by decide +kernel
  have hzero : Decimal.ofInt 0 = 0.0 := by decide +kernel
  have hcounted : (userVisits [some .null]).answer 1 visitingUsers =
      .ok (some ⟨["users"], [[.ofFloat (Decimal.ofInt 1)]]⟩) := rfl
  have habsent : (userVisits [none]).answer 1 visitingUsers =
      .ok (some ⟨["users"], [[.ofFloat 0.0]]⟩) := rfl
  rw [hone] at hcounted
  have hdiffer : (userVisits [some .null]).answer 1 visitingUsers ≠
      (userVisits [none]).answer 1 visitingUsers := by
    rw [hcounted, habsent]
    intro h
    have hcell : Json.float 1.0 = .float 0.0 := (List.cons.inj (List.cons.inj
      (congrArg ResultTable.rows (Option.some.inj (Except.ok.inj h)))).1).1
    exact absurd (Json.float.inj hcell) (by decide +kernel)
  exact ⟨withoutNulls_userVisits (.cons (.inr ⟨rfl, rfl⟩) .nil), hcounted, habsent, hdiffer, rfl, rfl⟩

end RecordStore

end FederatedMetrics
