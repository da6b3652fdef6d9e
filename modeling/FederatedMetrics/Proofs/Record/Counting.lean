import FederatedMetrics.Proofs.Record.Answer
import FederatedMetrics.Proofs.Time.LocalTime
import FederatedMetrics.Proofs.Time.Walk

/-!
# Records that count in an answer

An answer with buckets counts every record of its window once if the buckets cover the window. Where
a zone changes its offset the walk may stop or go over a bucket, and the records of that bucket do
not count.
-/

namespace FederatedMetrics

namespace RecordStore

variable {g : Granularity} {zone : Zone} {first last : Int}

/-- The answer to a query exists, every row is computed from the records that count in it, and every
record of the window that satisfies the filters counts in exactly one row. -/
def CountsOnce (s : RecordStore) (projectId : Int) (r : ResolvedQuery)
    (definitions : List MetricDefinition) : Prop :=
  ∃ labels table, bucketLabels r = some labels ∧ s.answer projectId r = .ok (some table) ∧
    table.rows = (s.places projectId r.query labels).map
      (rowAt r labels definitions (s.selected projectId r.query)) ∧
    ∀ record ∈ s.selected projectId r.query,
      ∃! n : Nat, ∃ place, (s.places projectId r.query labels)[n]? = some place ∧
        record ∈ share r labels (s.selected projectId r.query) place

/-- A record that counts in an answer lies in the window. -/
theorem first_le_timestamp_of_mem_selected {s : RecordStore} {projectId : Int} {q : Query}
    {record : Record} (h : record ∈ s.selected projectId q) :
    q.first ≤ record.timestamp ∧ record.timestamp ≤ q.last := by
  have hwindow : record ∈ s.inWindow projectId q := List.mem_of_mem_filter h
  simp only [inWindow, List.mem_filter, Bool.and_eq_true, decide_eq_true_eq] at hwindow
  exact ⟨hwindow.2.1.2, hwindow.2.2⟩

/-- Records count once where the label of every instant of the window is among the labels. -/
theorem countsOnce_of_forall_label {s : RecordStore} {projectId : Int} {r : ResolvedQuery}
    {definitions : List MetricDefinition} {labels : List String}
    (hgranularity : r.query.granularity = some g)
    (hlabels : g.labels? r.zone r.query.first r.query.last = some labels)
    (hmem : ∀ instant, r.query.first ≤ instant → instant ≤ r.query.last →
      ∃ label, g.labelOf? r.zone instant = some (some label) ∧ label ∈ labels)
    (hdefinitions : r.query.metrics.mapM (s.metric r.query.displayCategory) = .ok definitions) :
    s.CountsOnce projectId r definitions := by
  have hbucketLabels : bucketLabels r = some labels := by
    simp [bucketLabels, hgranularity, hlabels]
  have hbucketOf : ∀ record ∈ s.selected projectId r.query,
      ∃ bucket < labels.length, bucketOf r labels record = some (some bucket) := by
    intro record hrecord
    obtain ⟨hge, hle⟩ := first_le_timestamp_of_mem_selected hrecord
    obtain ⟨label, hlabel, hlisted⟩ := hmem record.timestamp hge hle
    obtain ⟨bucket, hlt, hbucket⟩ := lastIndexOf?_of_mem hlisted
    exact ⟨bucket, hlt, by simp [bucketOf, hgranularity, hlabel, hbucket]⟩
  let table : ResultTable :=
    ⟨(if r.isBucketed then [datetimeHeader] else [])
        ++ r.query.groupBys.map (·.propertyName) ++ r.query.metrics,
      (s.places projectId r.query labels).map
        (rowAt r labels definitions (s.selected projectId r.query))⟩
  have hanswer : s.answer projectId r = .ok (some table) := by
    apply answer_eq_ok_iff.mpr
    refine ⟨definitions, labels, hdefinitions, hbucketLabels, ?_, rfl, rfl⟩
    intro record hrecord
    obtain ⟨bucket, -, hbucket⟩ := hbucketOf record hrecord
    exact ⟨some bucket, hbucket⟩
  refine ⟨labels, table, hbucketLabels, hanswer, rfl, ?_⟩
  intro record hrecord
  obtain ⟨bucket, hlt, hbucket⟩ := hbucketOf record hrecord
  exact existsUnique_place hrecord hbucket hlt

/-- A window is covered by its buckets if and only if the label of every instant is among its labels
and every query over it counts each record once. -/
theorem covers_iff_countsOnce (hfirst : Calendar.holds first) (hlast : Calendar.holds last) :
    g.Covers zone first last ↔
      (∃ labels, g.labels? zone first last = some labels ∧
        ∀ instant, first ≤ instant → instant ≤ last →
          ∃ label, g.labelOf? zone instant = some (some label) ∧ label ∈ labels) ∧
      ∀ (s : RecordStore) (projectId : Int) (r : ResolvedQuery)
        (definitions : List MetricDefinition), r.zone = zone → r.query.granularity = some g →
        r.query.first = first → r.query.last = last →
        r.query.metrics.mapM (s.metric r.query.displayCategory) = .ok definitions →
          s.CountsOnce projectId r definitions := by
  constructor
  · intro hcovers
    obtain ⟨labels, hlabels, hmem⟩ :=
      (Granularity.covers_iff_forall_label hfirst hlast).mp hcovers
    refine ⟨⟨labels, hlabels, hmem⟩, ?_⟩
    rintro s projectId r definitions rfl hgranularity rfl rfl hdefinitions
    exact countsOnce_of_forall_label hgranularity hlabels hmem hdefinitions
  · rintro ⟨hlabels, -⟩
    exact (Granularity.covers_iff_forall_label hfirst hlast).mpr hlabels

/-- New York, with the changes of the year 2023. -/
def newYork : Zone := ⟨"America/New_York", -18000, [(1678604400, -14400), (1699164000, -18000)]⟩

/-- A store with visits at some instants, and a metric that counts visits. -/
def visits (instants : List Int) : RecordStore :=
  ⟨instants.map fun instant => ⟨1, "visits", "", instant, []⟩, [(("visits", "count"), ⟨.count, none⟩)]⟩

/-- The visits by hours or longer buckets in New York. -/
def visitsBy (g : Granularity) (first last : Int) : ResolvedQuery :=
  ⟨⟨.events, "visits", ["count"], [], [], first, last, some g, .standard, "", "",
    "America/New_York", none⟩, [], newYork⟩

/-- An instant belongs to the day that local clocks show. -/
theorem labelOf?_date {instant day : Int} (hholds : Calendar.holds instant)
    (hday : Calendar.dayOf (zone.clock instant) = day)
    (hbegins : Calendar.firstSecond ≤ Calendar.midnight day)
    (hends : Calendar.midnight (day + 1) ≤ Calendar.lastSecond) :
    Granularity.date.labelOf? zone instant =
      some (some (zone.stamp (zone.localize (Calendar.midnight day)))) := by
  simp only [Calendar.dayOf, Calendar.midnight, Calendar.secondsPerDay] at hday hbegins hends
  have hclock : Calendar.holds (zone.clock instant) := Calendar.holds_iff.mpr (by omega)
  have hmidnight : Calendar.holds (Calendar.midnight day) := by
    rw [Calendar.holds_iff, Calendar.midnight, Calendar.secondsPerDay]
    omega
  have hfloor : Granularity.date.floor (zone.clock instant) = Calendar.midnight day := by
    rw [Granularity.floor, Calendar.dayOf, Calendar.secondsPerDay, hday]
  rw [Granularity.labelOf?, if_pos hholds, Granularity.start?, hfloor, hclock, hmidnight]
  rfl

/-- Three days are covered, also where the one in the middle is an hour longer. -/
theorem covers_longDay : Granularity.date.Covers newYork 1699113600 1699290000 := by
  let labels := ["2023-11-04T00:00:00-04:00", "2023-11-05T00:00:00-04:00", "2023-11-06T00:00:00-05:00"]
  apply (Granularity.covers_iff_forall_label (by decide) (by decide)).mpr
  refine ⟨labels, by decide +kernel, fun instant hge hle => ?_⟩
  have hholds : Calendar.holds instant :=
    Calendar.holds_iff.mpr ⟨le_trans (by decide) hge, le_trans hle (by decide)⟩
  have hday : Calendar.dayOf (newYork.clock instant) =
      if instant < 1699156800 then 19665 else if instant < 1699246800 then 19666 else 19667 := by
    have hclock : newYork.clock instant = instant + (if 1699164000 ≤ instant then -18000 else
        if 1678604400 ≤ instant then -14400 else -18000) := rfl
    rw [hclock, Calendar.dayOf, Calendar.secondsPerDay]
    repeat' split
    all_goals omega
  have hlabel := labelOf?_date hholds hday
  refine ⟨_, hlabel ?_ ?_, ?_⟩
  · split_ifs <;> decide
  · split_ifs <;> decide
  · split_ifs <;> decide +kernel

/-- Every visit of three days counts once, also those of the hour that New York has twice. -/
theorem countsOnce_repeatedHour :
    (visits [1699120000, 1699162200, 1699165800, 1699250000]).CountsOnce 1
      (visitsBy .date 1699113600 1699290000) [⟨.count, none⟩] :=
  ((covers_iff_countsOnce (by decide) (by decide)).mp covers_longDay).2 _ 1 _ _ rfl rfl rfl rfl rfl

/-- The walk by hours stops at the hour that New York has twice: the hours after it have no label, and a
visit in them does not count. -/
theorem not_countsOnce_repeatedHour :
    (∃ labels label, Granularity.hour.labels? newYork 1699156800 1699174800 = some labels ∧
      Granularity.hour.labelOf? newYork 1699167600 = some (some label) ∧ label ∉ labels) ∧
    ¬ (visits [1699167600]).CountsOnce 1 (visitsBy .hour 1699156800 1699174800)
      [⟨.count, none⟩] := by
  let labels := ["2023-11-05T00:00:00-04:00", "2023-11-05T01:00:00-04:00"]
  have hlabels : Granularity.hour.labels? newYork 1699156800 1699174800 = some labels := by
    decide +kernel
  refine ⟨⟨labels, "2023-11-05T02:00:00-05:00", hlabels, by decide +kernel, by decide⟩, ?_⟩
  rintro ⟨others, table, hothers, -, -, hcounts⟩
  obtain rfl : labels = others := Option.some.inj (hlabels.symm.trans hothers)
  obtain ⟨n, ⟨place, -, hshare⟩, -⟩ := hcounts _ (List.mem_singleton.mpr rfl)
  have hnowhere : placeOf? (visitsBy .hour 1699156800 1699174800) labels
      ⟨1, "visits", "", 1699167600, []⟩ = none := by decide +kernel
  simp [share, hnowhere] at hshare

end RecordStore

end FederatedMetrics
