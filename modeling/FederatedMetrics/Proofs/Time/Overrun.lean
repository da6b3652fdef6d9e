import FederatedMetrics.Proofs.Time.Tiling

/-!
# Steps beyond the calendar

The bucket of an instant and the buckets of a window are found by arithmetic on local times. Days,
months and quarters end with the calendar, but an hour or a week steps beyond it, and a week may
begin before it. Far enough from both ends no zone leads out of it whose clocks stay within a day of
universal time.
-/

namespace FederatedMetrics

namespace Granularity

open Calendar (dayOf midnight weekday)

variable {g : Granularity} {zone : Zone} {first last instant start number time : Int}

/-! ## The bucket of an instant -/

/-- The calendar begins with an hour, a day, a month and a quarter. -/
theorem firstSecond_le_floor (hg : g ≠ .week) (h : Calendar.firstSecond ≤ time) :
    Calendar.firstSecond ≤ g.floor time := by
  have hstart : g.startOf (g.numberOf Calendar.firstSecond) = Calendar.firstSecond := by
    cases g with
    | hour | date | month | quarter => decide +kernel
    | week => exact absurd rfl hg
  rw [floor_eq, ← hstart]
  exact g.startOf_strictMono.monotone (g.numberOf_mono h)

/-- The local time of an instant and the start of its bucket belong to the calendar. -/
structure Begins (g : Granularity) (zone : Zone) (instant : Int) : Prop where
  clock_holds : Calendar.holds (zone.clock instant)
  sunday_holds : g = .week → Calendar.firstSecond ≤
    midnight (dayOf (zone.clock instant) - weekday (dayOf (zone.clock instant)))

theorem start?_eq_some_iff : g.start? zone instant = some start ↔
    Calendar.holds (zone.clock instant) ∧ Calendar.holds (g.floor (zone.clock instant)) ∧
      zone.localize (g.floor (zone.clock instant)) = start := by
  simp [start?, and_assoc]

theorem exists_start_iff :
    (∃ start, g.start? zone instant = some start) ↔ g.Begins zone instant := by
  have hfloor : Calendar.holds (zone.clock instant) → (Calendar.holds (g.floor (zone.clock instant)) ↔
      Calendar.firstSecond ≤ g.floor (zone.clock instant)) := by
    intro hholds
    have hle := floor_le g (zone.clock instant)
    rw [Calendar.holds_iff] at hholds ⊢
    omega
  simp only [start?_eq_some_iff, exists_and_left, exists_eq', and_true]
  constructor
  · rintro ⟨hclock, hstart⟩
    refine ⟨hclock, ?_⟩
    rintro rfl
    exact (hfloor hclock).mp hstart
  · rintro ⟨hclock, hsunday⟩
    refine ⟨hclock, (hfloor hclock).mpr ?_⟩
    by_cases hg : g = .week
    · subst hg
      exact hsunday rfl
    · exact firstSecond_le_floor hg (Calendar.holds_iff.mp hclock).1

/-! ## The step to the next bucket -/

/-- The times that the step from a bucket computes belong to the calendar, or the step ends with the
calendar. -/
structure Steps (g : Granularity) (zone : Zone) (start : Int) : Prop where
  clock_holds : Calendar.holds (zone.clock start)
  hour_holds : g = .hour →
    Calendar.holds (start + 3600) ∧ Calendar.holds (zone.clock (start + 3600))
  sunday_holds : g = .week → midnight (dayOf (zone.clock start) + 7) ≤ Calendar.lastSecond

theorem after_ne_beyond (previous start : Int) : Next.after previous start ≠ .beyond := by
  rw [Next.after]
  split <;> simp

theorem onDay_ne_beyond_iff {previous day : Int} {otherwise : Next} :
    Next.onDay zone previous day otherwise ≠ .beyond ↔
      midnight day ≤ Calendar.lastSecond ∨ otherwise ≠ .beyond := by
  by_cases h : midnight day ≤ Calendar.lastSecond
  · simp [Next.onDay, h, after_ne_beyond]
  · simp [Next.onDay, h]

theorem exists_start_hour_iff :
    (∃ start, start? .hour zone instant = some start) ↔ Calendar.holds (zone.clock instant) :=
  exists_start_iff.trans ⟨Begins.clock_holds, fun h => ⟨h, by simp⟩⟩

theorem next_ne_beyond_iff : g.next zone start ≠ .beyond ↔ g.Steps zone start := by
  by_cases hclock : Calendar.holds (zone.clock start)
  · have hsteps : g.Steps zone start ↔
        (g = .hour → Calendar.holds (start + 3600) ∧ Calendar.holds (zone.clock (start + 3600))) ∧
          (g = .week → midnight (dayOf (zone.clock start) + 7) ≤ Calendar.lastSecond) :=
      ⟨fun h => ⟨h.hour_holds, h.sunday_holds⟩, fun h => ⟨hclock, h.1, h.2⟩⟩
    simp only [hsteps, next, hclock, Bool.not_true, Bool.false_eq_true, if_false]
    cases g with
    | hour =>
        by_cases hstop : Calendar.holds (start + 3600)
        · have hstart : (∃ later, start? .hour zone (start + 3600) = some later) ↔
              Calendar.holds (zone.clock (start + 3600)) := exists_start_hour_iff
          cases hlater : start? .hour zone (start + 3600) with
          | some later =>
              have hholds := hstart.mp ⟨later, hlater⟩
              simp [hstop, hholds, after_ne_beyond]
          | none =>
              simp only [hlater, reduceCtorEq, exists_false, false_iff] at hstart
              simp [hstop, hstart]
        · simp [hstop]
    | date | month | quarter => simp [onDay_ne_beyond_iff]
    | week => simp [onDay_ne_beyond_iff]
  · have hsteps : ¬ g.Steps zone start := fun h => hclock h.clock_holds
    simp [next, hclock, hsteps]

/-- The walk over a window begins in the calendar, and no step of it leaves the calendar. -/
structure StaysInside (g : Granularity) (zone : Zone) (first last : Int) : Prop where
  begins : g.Begins zone first
  steps : ∀ start bucket, g.start? zone first = some start → g.Reaches zone start bucket →
    bucket ≤ last → g.Steps zone bucket

theorem exists_labels_iff (hfirst : Calendar.holds first) (hlast : Calendar.holds last) :
    (∃ labels, g.labels? zone first last = some labels) ↔ g.StaysInside zone first last := by
  simp only [labels?_eq_some_iff hfirst hlast]
  constructor
  · rintro ⟨_, start, run, hstart, hrun, rfl⟩
    refine ⟨exists_start_iff.mp ⟨start, hstart⟩, fun other bucket hother hreaches hle => ?_⟩
    obtain rfl : start = other := Option.some.inj (hstart.symm.trans hother)
    exact next_ne_beyond_iff.mp (exists_walks_iff.mp ⟨run, hrun⟩ bucket hreaches hle)
  · rintro ⟨hbegins, hsteps⟩
    obtain ⟨start, hstart⟩ := exists_start_iff.mpr hbegins
    have hrun : ∃ run, g.Walks zone last start run := exists_walks_iff.mpr
      fun bucket hreaches hle => next_ne_beyond_iff.mpr (hsteps start bucket hstart hreaches hle)
    obtain ⟨run, hrun⟩ := hrun
    exact ⟨_, start, run, hstart, hrun, rfl⟩

/-! ## Universal time -/

theorem start?_utc_eq_some_iff : g.start? .utc instant = some start ↔
    Calendar.holds instant ∧ Calendar.holds start ∧ g.startOf (g.numberOf instant) = start := by
  rw [start?_eq_some_iff, Zone.clock_utc, floor_eq]
  refine and_congr_right fun _ => ⟨?_, ?_⟩
  · rintro ⟨hholds, rfl⟩
    rw [Zone.localize_utc hholds]
    exact ⟨hholds, rfl⟩
  · rintro ⟨hholds, rfl⟩
    exact ⟨hholds, Zone.localize_utc hholds⟩

theorem startIn_utc (g : Granularity) (number : Int) : g.startIn .utc number = g.startOf number :=
  sub_zero _

theorem shows_startIn_utc_iff :
    Zone.utc.Shows (g.startIn .utc number) ↔ Calendar.holds (g.startOf number) := by
  simp [Zone.Shows, startIn_utc]

/-- In universal time the walk over a window reaches the bucket of its last instant. -/
theorem reaches_last_utc (hlast : Calendar.holds last) (hle : first ≤ last)
    (hstart : g.start? .utc first = some start) :
    g.Reaches .utc start (g.startOf (g.numberOf last)) := by
  obtain ⟨-, hholds, rfl⟩ := start?_utc_eq_some_iff.mp hstart
  have hmono := g.numberOf_mono hle
  obtain ⟨count, hcount⟩ : ∃ count : Nat, g.numberOf last = g.numberOf first + count :=
    ⟨(g.numberOf last - g.numberOf first).toNat, by omega⟩
  have hinside : ∀ other, g.numberOf first ≤ other → other ≤ g.numberOf first + count →
      Zone.utc.Shows (g.startIn .utc other) := by
    intro other hge hother
    have hlower := g.startOf_strictMono.monotone hge
    have hupper : g.startOf other ≤ last := startOf_le_iff.mpr (hcount ▸ hother)
    rw [shows_startIn_utc_iff]
    rw [Calendar.holds_iff] at hholds hlast ⊢
    omega
  have hreaches := reaches_startIn Zone.isConstant_utc hinside
  rwa [← hcount, startIn_utc, startIn_utc] at hreaches

/-- In universal time a window has labels unless its first week begins before the calendar or its
last hour or week ends beyond it. -/
theorem exists_labels_utc_iff (hfirst : Calendar.holds first) (hlast : Calendar.holds last)
    (hle : first ≤ last) :
    (∃ labels, g.labels? .utc first last = some labels) ↔
      Calendar.firstSecond ≤ g.floor first ∧
        (g = .hour ∨ g = .week → g.startOf (g.numberOf last + 1) ≤ Calendar.lastSecond) := by
  rw [exists_labels_iff hfirst hlast, floor_eq]
  constructor
  · intro h
    obtain ⟨start, hstart⟩ := exists_start_iff.mpr h.begins
    have hreaches := reaches_last_utc hlast hle hstart
    have hsteps := h.steps _ _ hstart hreaches (g.startOf_numberOf_le last)
    obtain ⟨-, hholds, rfl⟩ := start?_utc_eq_some_iff.mp hstart
    refine ⟨(Calendar.holds_iff.mp hholds).1, ?_⟩
    rintro (rfl | rfl)
    · have hhour := (Calendar.holds_iff.mp (hsteps.hour_holds rfl).1).2
      simp only [startOf] at hhour ⊢
      omega
    · have hsunday := hsteps.sunday_holds rfl
      simp only [startOf, Zone.clock_utc, Calendar.dayOf_midnight] at hsunday ⊢
      rwa [show (numberOf .week last + 1) * 7 - 4 = numberOf .week last * 7 - 4 + 7 by omega]
  · rintro ⟨hbegins, hends⟩
    have hfloor := g.startOf_numberOf_le first
    have hafter := g.lt_startOf_succ last
    have hbounds := Calendar.holds_iff.mp hfirst
    have hbounds' := Calendar.holds_iff.mp hlast
    have hholds : Calendar.holds (g.startOf (g.numberOf first)) :=
      Calendar.holds_iff.mpr (by omega)
    by_cases hg : g = .hour ∨ g = .week
    · have hstop : Calendar.holds (g.startOf (g.numberOf last + 1)) :=
        Calendar.holds_iff.mpr ⟨by omega, hends hg⟩
      obtain ⟨starts, hlabels, -⟩ := labels_tile_window (g := g) Zone.isConstant_utc hle
        (by rwa [Zone.clock_utc, shows_startIn_utc_iff])
        (by rwa [Zone.clock_utc, shows_startIn_utc_iff])
      exact (exists_labels_iff hfirst hlast).mp ⟨_, hlabels⟩
    · have hstart := start?_utc_eq_some_iff.mpr ⟨hfirst, hholds, rfl⟩
      refine ⟨exists_start_iff.mp ⟨_, hstart⟩, fun start bucket hfound hreaches hbucket => ?_⟩
      obtain ⟨-, -, rfl⟩ := start?_utc_eq_some_iff.mp hfound
      have hge := hreaches.le
      refine ⟨?_, fun hhour => absurd (Or.inl hhour) hg, fun hweek => absurd (Or.inr hweek) hg⟩
      rw [Zone.clock_utc, Calendar.holds_iff]
      omega

/-! ## Far from the ends of the calendar -/

theorem begins_of_far (hzone : zone.IsNear)
    (hlow : Calendar.firstSecond + 8 * 86400 ≤ instant)
    (hhigh : instant ≤ Calendar.lastSecond - 86400) : g.Begins zone instant := by
  obtain ⟨hlower, hupper⟩ := hzone.clock_near instant
  constructor
  · rw [Calendar.holds_iff]
    omega
  · intro
    simp only [midnight, dayOf, weekday, Calendar.secondsPerDay]
    omega

theorem steps_of_far (hzone : zone.IsNear) (hlow : Calendar.firstSecond + 86400 ≤ start)
    (hhigh : start ≤ Calendar.lastSecond - 8 * 86400) : g.Steps zone start := by
  obtain ⟨hlower, hupper⟩ := hzone.clock_near start
  obtain ⟨hlater, hlater'⟩ := hzone.clock_near (start + 3600)
  refine ⟨?_, fun _ => ⟨?_, ?_⟩, fun _ => ?_⟩
  · rw [Calendar.holds_iff]
    omega
  · rw [Calendar.holds_iff]
    omega
  · rw [Calendar.holds_iff]
    omega
  · simp only [midnight, dayOf, Calendar.secondsPerDay]
    omega

/-- A window that keeps a good quarter away from both ends of the calendar has labels, and so has
every instant in it. -/
theorem exists_labels_of_far (hzone : zone.IsNear) (hle : first ≤ last)
    (hfirst : Calendar.firstSecond + 100 * 86400 ≤ first)
    (hlast : last ≤ Calendar.lastSecond - 100 * 86400) :
    (∃ labels, g.labels? zone first last = some labels) ∧
      ∀ instant, first ≤ instant → instant ≤ last →
        ∃ label, g.labelOf? zone instant = some (some label) := by
  have hbegins : ∀ instant, first ≤ instant → instant ≤ last → g.Begins zone instant :=
    fun instant hge hle => begins_of_far hzone (by omega) (by omega)
  have hinside : ∀ instant, first ≤ instant → instant ≤ last → Calendar.holds instant :=
    fun instant hge hle => Calendar.holds_iff.mpr (by omega)
  constructor
  · refine (exists_labels_iff (hinside first le_rfl hle) (hinside last hle le_rfl)).mpr ?_
    refine ⟨hbegins first le_rfl hle, fun start bucket hstart hreaches hbucket => ?_⟩
    -- The first bucket starts at most a quarter before the window.
    have hfloor := lt_floor_add g (zone.clock first)
    have hclock := hzone.clock_near first
    have hlocalize := hzone.localize_ge (g.floor (zone.clock first))
    have hsame := (start?_eq_some_iff.mp hstart).2.2
    have hge : start ≤ bucket := hreaches.le
    exact steps_of_far hzone (by omega) (by omega)
  · intro instant hge hle
    obtain ⟨start, hstart⟩ := exists_start_iff.mpr (hbegins instant hge hle)
    exact ⟨zone.stamp start, by simp [labelOf?, hinside instant hge hle, hstart]⟩

/-! ## The arithmetic of buckets -/

/-- There are labels for a window if and only if the calendar does not hold its ends or the walk over it
leads to no time beyond the calendar, and likewise for an instant. In universal time this says how near
to its ends a window may come, and in a zone near to it a hundred days are far enough. -/
theorem bucket_arithmetic_stays_iff (g : Granularity) (zone : Zone) (first last instant : Int) :
    ((∃ labels, g.labels? zone first last = some labels) ↔
      (Calendar.holds first → Calendar.holds last → g.StaysInside zone first last)) ∧
    ((∃ label, g.labelOf? zone instant = some label) ↔
      (Calendar.holds instant → g.Begins zone instant)) ∧
    (Calendar.holds first → Calendar.holds last → first ≤ last →
      ((∃ labels, g.labels? .utc first last = some labels) ↔
        Calendar.firstSecond ≤ g.floor first ∧
          (g = .hour ∨ g = .week → g.startOf (g.numberOf last + 1) ≤ Calendar.lastSecond))) ∧
    (zone.IsNear → first ≤ last → Calendar.firstSecond + 100 * 86400 ≤ first →
      last ≤ Calendar.lastSecond - 100 * 86400 →
        (∃ labels, g.labels? zone first last = some labels) ∧
          ∀ instant, first ≤ instant → instant ≤ last →
            ∃ label, g.labelOf? zone instant = some (some label)) := by
  refine ⟨?_, ?_, exists_labels_utc_iff, exists_labels_of_far⟩
  · by_cases hinside : Calendar.holds first ∧ Calendar.holds last
    · rw [exists_labels_iff hinside.1 hinside.2]
      simp [hinside.1, hinside.2]
    · have hempty : g.labels? zone first last = some [] := by
        rw [labels?, starts?, if_neg (by simpa using hinside)]
        rfl
      simp only [hempty, Option.some.injEq, exists_eq', true_iff]
      exact fun hfirst hlast => absurd ⟨hfirst, hlast⟩ hinside
  · rw [labelOf?, ← exists_start_iff]
    by_cases hinside : Calendar.holds instant
    · simp [hinside]
    · simp [hinside]

/-- The last hour of the calendar has a label, but its window has none: the step to the next hour
leaves the calendar. -/
theorem not_stays_lastHour :
    labelOf? .hour Zone.utc Calendar.lastSecond = some (some "+262142-12-31T23:00:00+00:00") ∧
      ¬ ((∀ g zone first last, ∃ labels, labels? g zone first last = some labels) ∧
        ∀ g zone instant, ∃ label, labelOf? g zone instant = some label) := by
  refine ⟨by decide +kernel, fun h => ?_⟩
  obtain ⟨labels, hlabels⟩ := h.1 .hour Zone.utc Calendar.lastSecond Calendar.lastSecond
  have hnone : labels? .hour Zone.utc Calendar.lastSecond Calendar.lastSecond = none := by
    decide +kernel
  rw [hnone] at hlabels
  cases hlabels

end Granularity

end FederatedMetrics
