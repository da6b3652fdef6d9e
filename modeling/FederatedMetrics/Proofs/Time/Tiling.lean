import FederatedMetrics.Proofs.Time.LocalTime
import FederatedMetrics.Proofs.Time.Numbering
import FederatedMetrics.Proofs.Time.Walk
import Mathlib.Data.List.Nodup
import Mathlib.Data.List.Range

/-!
# The buckets of a zone that never changes its offset

There the local clocks run as universal time does, so the buckets of a window are those of local
time, and the walk lists them one after the other.
-/

namespace FederatedMetrics

namespace Granularity

variable {g : Granularity} {zone : Zone} {number instant first last : Int}

/-- The instant at which a bucket starts in a zone that keeps its first offset. -/
def startIn (g : Granularity) (zone : Zone) (number : Int) : Int := g.startOf number - zone.base

theorem startIn_strictMono (g : Granularity) (zone : Zone) : StrictMono (g.startIn zone) :=
  fun _ _ h => sub_lt_sub_right (g.startOf_strictMono h) _

theorem clock_startIn (hzone : zone.IsConstant) (number : Int) :
    zone.clock (g.startIn zone number) = g.startOf number := by
  rw [hzone.clock_eq, startIn]
  omega

theorem startIn_le_iff (hzone : zone.IsConstant) :
    g.startIn zone number ≤ instant ↔ number ≤ g.numberOf (zone.clock instant) := by
  rw [← startOf_le_iff, hzone.clock_eq, startIn]
  omega

theorem lt_startIn_iff (hzone : zone.IsConstant) :
    instant < g.startIn zone number ↔ g.numberOf (zone.clock instant) < number := by
  rw [← not_le, startIn_le_iff hzone, not_le]

/-- Local clocks show the start of a bucket at the instant at which it starts. -/
theorem localize_startOf (hzone : zone.IsConstant) (h : zone.Shows (g.startIn zone number)) :
    zone.localize (g.startOf number) = g.startIn zone number := by
  rw [← clock_startIn hzone, hzone.localize_clock h.1]

/-- Every instant of a bucket has its start. -/
theorem start?_eq_startIn (hzone : zone.IsConstant) (hstart : zone.Shows (g.startIn zone number))
    (hshows : zone.Shows instant) (hnumber : g.numberOf (zone.clock instant) = number) :
    g.start? zone instant = some (g.startIn zone number) := by
  have hlocal : Calendar.holds (g.startOf number) := clock_startIn hzone number ▸ hstart.2
  rw [start?, floor_eq, hnumber, hshows.2, hlocal, localize_startOf hzone hstart]
  rfl

private theorem onDay_eq (hzone : zone.IsConstant) {day later : Int} {otherwise : Next}
    (hday : g.startOf later = Calendar.midnight day) (hlater : zone.Shows (g.startIn zone later))
    (hlt : number < later) :
    Next.onDay zone (g.startIn zone number) day otherwise = .bucket (g.startIn zone later) := by
  have hlocal : Calendar.holds (g.startOf later) := clock_startIn hzone later ▸ hlater.2
  have hinside : Calendar.midnight day ≤ Calendar.lastSecond :=
    hday ▸ (Calendar.holds_iff.mp hlocal).2
  rw [Next.onDay, if_pos hinside, ← hday, localize_startOf hzone hlater, Next.after,
    if_pos (startIn_strictMono g zone hlt)]

/-- A step goes from one bucket to the next. -/
theorem follows_startIn (hzone : zone.IsConstant) (hstart : zone.Shows (g.startIn zone number))
    (hlater : zone.Shows (g.startIn zone (number + 1))) :
    g.Follows zone (g.startIn zone number) (g.startIn zone (number + 1)) := by
  have hlocal : Calendar.holds (g.startOf number) := clock_startIn hzone number ▸ hstart.2
  have hlt : number < number + 1 := lt_add_one number
  simp only [Follows, next, clock_startIn hzone, hlocal, Bool.not_true, Bool.false_eq_true, if_false]
  cases g with
  | hour =>
      have hstep : startIn .hour zone number + 3600 = startIn .hour zone (number + 1) := by
        simp only [startIn, startOf]
        omega
      have hown : numberOf .hour (zone.clock (startIn .hour zone (number + 1))) = number + 1 := by
        rw [clock_startIn hzone, numberOf_startOf]
      simp only [hstep, hlater.1, if_true, start?_eq_startIn hzone hlater hlater hown]
      rw [Next.after, if_pos (startIn_strictMono _ zone hlt)]
  | date => exact onDay_eq hzone (by simp [startOf]) hlater hlt
  | week =>
      refine onDay_eq hzone ?_ hlater hlt
      simp only [startOf, Calendar.dayOf_midnight]
      congr 1
      omega
  | month =>
      refine onDay_eq hzone ?_ hlater hlt
      simp [startOf, Date.toDay_addMonths_monthStart]
  | quarter =>
      refine onDay_eq hzone ?_ hlater hlt
      simp only [startOf, Calendar.dayOf_midnight, Date.toDay_addMonths_monthStart]
      congr 2
      omega

theorem reaches_startIn (hzone : zone.IsConstant) {count : Nat}
    (hshows : ∀ other, number ≤ other → other ≤ number + count → zone.Shows (g.startIn zone other)) :
    g.Reaches zone (g.startIn zone number) (g.startIn zone (number + count)) := by
  induction count with
  | zero =>
      rw [Nat.cast_zero, add_zero]
      exact .refl
  | succ count ih =>
      have hreaches := ih fun other hge hle => hshows other hge (by omega)
      refine .tail hreaches ?_
      rw [Nat.cast_add, Nat.cast_one, ← add_assoc]
      exact follows_startIn hzone (hshows _ (by omega) (by omega)) (hshows _ (by omega) (by omega))

/-- The starts of a number of buckets from one on. -/
def startsFrom (g : Granularity) (zone : Zone) (number : Int) (count : Nat) : List Int :=
  (List.range count).map fun (place : Nat) => g.startIn zone (number + place)

theorem startsFrom_succ (number : Int) (count : Nat) : g.startsFrom zone number (count + 1) =
    g.startIn zone number :: g.startsFrom zone (number + 1) count := by
  simp only [startsFrom, List.range_succ_eq_map, List.map_cons, List.map_map, Nat.cast_zero, add_zero,
    List.cons.injEq, true_and]
  refine List.map_congr_left fun place _ => ?_
  simp only [Function.comp_apply, Nat.succ_eq_add_one, Nat.cast_add, Nat.cast_one]
  rw [add_assoc, add_comm 1 (place : Int)]

theorem mem_startsFrom_iff {start : Int} {count : Nat} : start ∈ g.startsFrom zone number count ↔
    ∃ other, number ≤ other ∧ other < number + count ∧ g.startIn zone other = start := by
  simp only [startsFrom, List.mem_map, List.mem_range]
  constructor
  · rintro ⟨place, hplace, rfl⟩
    exact ⟨number + place, by omega, by omega, rfl⟩
  · rintro ⟨other, hge, hlt, rfl⟩
    refine ⟨(other - number).toNat, by omega, ?_⟩
    rw [show number + ((other - number).toNat : Int) = other by omega]

theorem pairwise_startsFrom (count : Nat) :
    (g.startsFrom zone number count).Pairwise (· < ·) := by
  refine List.pairwise_map.mpr (List.pairwise_lt_range.imp fun {place later} hlt => ?_)
  exact startIn_strictMono g zone (by omega)

/-- The walk from a bucket to the one of the last instant lists the buckets in between. -/
theorem walks_startsFrom (hzone : zone.IsConstant) {count : Nat}
    (hend : g.numberOf (zone.clock last) + 1 = number + count)
    (hshows : ∀ other, number ≤ other → other ≤ number + count → zone.Shows (g.startIn zone other)) :
    g.Walks zone last (g.startIn zone number) (g.startsFrom zone number count) := by
  induction count generalizing number with
  | zero =>
      refine .past ((lt_startIn_iff hzone).mpr ?_)
      omega
  | succ count ih =>
      rw [startsFrom_succ]
      refine .goes ((startIn_le_iff hzone).mpr (by omega))
        (follows_startIn hzone (hshows _ (by omega) (by omega)) (hshows _ (by omega) (by omega))) ?_
      exact ih (by omega) fun other hge hle => hshows other (by omega) (by omega)

/-- The starts are those of the buckets of a window, in order of time. Each bucket lasts until the
next one starts. -/
structure Tiles (g : Granularity) (zone : Zone) (first last : Int) (starts : List Int) : Prop where
  ascending : starts.Pairwise (· < ·)
  mem_iff : ∀ start, start ∈ starts ↔
    ∃ instant, first ≤ instant ∧ instant ≤ last ∧ g.start? zone instant = some start
  exists_start : ∀ instant, first ≤ instant → instant ≤ last →
    ∃ start ∈ starts, g.start? zone instant = some start
  adjacent : starts.IsChain fun start later =>
    ∀ instant, start ≤ instant → instant < later → g.start? zone instant = some start
  aligned : ∀ start ∈ starts, g.IsAligned (zone.clock start)

/-- The instants of a bucket are those from its start up to that of the next one. -/
theorem start?_of_between (hzone : zone.IsConstant) (hstart : zone.Shows (g.startIn zone number))
    (hlater : zone.Shows (g.startIn zone (number + 1))) (hge : g.startIn zone number ≤ instant)
    (hlt : instant < g.startIn zone (number + 1)) :
    g.start? zone instant = some (g.startIn zone number) := by
  have hshows : zone.Shows instant := hzone.shows_of_mem hstart hlater hge hlt.le
  rw [startIn_le_iff hzone] at hge
  rw [lt_startIn_iff hzone] at hlt
  exact start?_eq_startIn hzone hstart hshows (by omega)

theorem tiles_startsFrom (hzone : zone.IsConstant) (hle : first ≤ last) {count : Nat}
    (hfirst : g.numberOf (zone.clock first) = number)
    (hlast : g.numberOf (zone.clock last) + 1 = number + count)
    (hshows : ∀ other, number ≤ other → other ≤ number + count → zone.Shows (g.startIn zone other)) :
    g.Tiles zone first last (g.startsFrom zone number count) := by
  have hbetween : ∀ other instant, number ≤ other → other < number + count →
      g.startIn zone other ≤ instant → instant < g.startIn zone (other + 1) →
      g.start? zone instant = some (g.startIn zone other) :=
    fun other instant hge hlt => start?_of_between hzone (hshows other hge hlt.le)
      (hshows (other + 1) (by omega) (by omega))
  have hexists : ∀ instant, first ≤ instant → instant ≤ last →
      ∃ start ∈ g.startsFrom zone number count, g.start? zone instant = some start := by
    intro instant hge hle
    obtain ⟨own, hown⟩ : ∃ own, g.numberOf (zone.clock instant) = own := ⟨_, rfl⟩
    have hafter : number ≤ own := hfirst ▸ hown ▸ g.numberOf_mono (hzone.clock_strictMono.monotone hge)
    have hbefore : own ≤ g.numberOf (zone.clock last) :=
      hown ▸ g.numberOf_mono (hzone.clock_strictMono.monotone hle)
    refine ⟨g.startIn zone own, mem_startsFrom_iff.mpr ⟨own, hafter, by omega, rfl⟩, ?_⟩
    exact hbetween own instant hafter (by omega) ((startIn_le_iff hzone).mpr hown.ge)
      ((lt_startIn_iff hzone).mpr (by omega))
  constructor
  case ascending => exact pairwise_startsFrom count
  case exists_start => exact hexists
  case mem_iff =>
    intro start
    constructor
    · intro hmem
      obtain ⟨other, hge, hlt, rfl⟩ := mem_startsFrom_iff.mp hmem
      have hbegins : g.startIn zone other ≤ last := (startIn_le_iff hzone).mpr (by omega)
      have hends : first < g.startIn zone (other + 1) := (lt_startIn_iff hzone).mpr (by omega)
      -- The window may begin within the bucket.
      refine ⟨max first (g.startIn zone other), le_max_left _ _, max_le hle hbegins, ?_⟩
      exact hbetween other _ hge hlt (le_max_right _ _)
        (max_lt hends (startIn_strictMono g zone (lt_add_one other)))
    · rintro ⟨instant, hge, hle, hstart⟩
      obtain ⟨own, hmem, hown⟩ := hexists instant hge hle
      rw [hstart, Option.some.injEq] at hown
      exact hown ▸ hmem
  case adjacent =>
    refine (List.isChain_map _).mpr ((List.isChain_range _ _).mpr fun place hplace => ?_)
    intro instant hge hlt
    refine hbetween (number + place) instant (by omega) (by omega) hge ?_
    rwa [Nat.succ_eq_add_one, Nat.cast_add, Nat.cast_one, ← add_assoc] at hlt
  case aligned =>
    intro start hmem
    obtain ⟨other, -, -, rfl⟩ := mem_startsFrom_iff.mp hmem
    rw [clock_startIn hzone]
    exact g.isAligned_startOf other

/-- The labels of a window are those of its buckets, each once, where the buckets begin and end in
the calendar. -/
theorem labels_tile_window (hzone : zone.IsConstant) (hle : first ≤ last)
    (hfirst : zone.Shows (g.startIn zone (g.numberOf (zone.clock first))))
    (hlast : zone.Shows (g.startIn zone (g.numberOf (zone.clock last) + 1))) :
    ∃ starts, g.labels? zone first last = some (starts.map zone.stamp) ∧
      (starts.map zone.stamp).Nodup ∧ g.Tiles zone first last starts := by
  obtain ⟨number, hnumber⟩ : ∃ number, g.numberOf (zone.clock first) = number := ⟨_, rfl⟩
  have hmono : g.numberOf (zone.clock first) ≤ g.numberOf (zone.clock last) :=
    g.numberOf_mono (hzone.clock_strictMono.monotone hle)
  obtain ⟨count, hcount⟩ : ∃ count : Nat, g.numberOf (zone.clock last) + 1 = number + count :=
    ⟨(g.numberOf (zone.clock last) + 1 - number).toNat, by omega⟩
  have hbegins : g.startIn zone number ≤ first := (startIn_le_iff hzone).mpr hnumber.ge
  have hends : last < g.startIn zone (number + count) := (lt_startIn_iff hzone).mpr (by omega)
  rw [hnumber] at hfirst
  rw [hcount] at hlast
  have hshows : ∀ other, number ≤ other → other ≤ number + count →
      zone.Shows (g.startIn zone other) := fun other hge hle =>
    hzone.shows_of_mem hfirst hlast ((startIn_strictMono g zone).monotone hge)
      ((startIn_strictMono g zone).monotone hle)
  have hinside : ∀ instant, first ≤ instant → instant ≤ last → zone.Shows instant :=
    fun instant hge hle => hzone.shows_of_mem hfirst hlast (by omega) (by omega)
  have htiles := tiles_startsFrom hzone hle hnumber hcount hshows
  refine ⟨g.startsFrom zone number count, ?_, ?_, htiles⟩
  · refine (labels?_eq_some_iff (hinside first le_rfl hle).1 (hinside last hle le_rfl).1).mpr ?_
    exact ⟨g.startIn zone number, _, start?_eq_startIn hzone hfirst (hinside first le_rfl hle) hnumber,
      walks_startsFrom hzone hcount hshows, rfl⟩
  · have hnodup : (g.startsFrom zone number count).Nodup := htiles.ascending.imp ne_of_lt
    exact hnodup.map hzone.stamp_injective

/-- A window in India that ends in March of a leap year. -/
theorem labels_tile_window_leapYear :
    Zone.kolkata.IsConstant ∧ (1706000000 : Int) ≤ 1710000000 ∧
      Zone.kolkata.Shows
        (startIn .month Zone.kolkata (numberOf .month (Zone.kolkata.clock 1706000000))) ∧
      Zone.kolkata.Shows
        (startIn .month Zone.kolkata (numberOf .month (Zone.kolkata.clock 1710000000) + 1)) ∧
      ∃ starts, labels? .month Zone.kolkata 1706000000 1710000000 =
          some (starts.map Zone.kolkata.stamp) ∧
        (starts.map Zone.kolkata.stamp).Nodup ∧
        Tiles .month Zone.kolkata 1706000000 1710000000 starts := by
  have hzone : Zone.kolkata.IsConstant := Zone.isConstant_fixed _ _
  have hle : (1706000000 : Int) ≤ 1710000000 := by decide
  have hfirst : Zone.kolkata.Shows
      (startIn .month Zone.kolkata (numberOf .month (Zone.kolkata.clock 1706000000))) := by
    constructor <;> decide +kernel
  have hlast : Zone.kolkata.Shows
      (startIn .month Zone.kolkata (numberOf .month (Zone.kolkata.clock 1710000000) + 1)) := by
    constructor <;> decide +kernel
  exact ⟨hzone, hle, hfirst, hlast, labels_tile_window hzone hle hfirst hlast⟩

end Granularity

end FederatedMetrics
