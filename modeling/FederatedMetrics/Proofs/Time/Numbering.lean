import FederatedMetrics.Proofs.Time.Months
import FederatedMetrics.Time.Bucket

/-!
# Numbers of buckets

The buckets of local time are numbered in order of time, so that each one ends where the next one
starts: hours and days by their place, weeks by that of their Sunday, months and quarters from the
year zero.
-/

namespace FederatedMetrics

namespace Calendar

@[simp] theorem dayOf_midnight (day : Int) : dayOf (midnight day) = day := by
  unfold dayOf midnight secondsPerDay
  omega

theorem midnight_le_iff {day second : Int} : midnight day ≤ second ↔ day ≤ dayOf second := by
  unfold dayOf midnight secondsPerDay
  omega

theorem midnight_strictMono : StrictMono midnight := fun day later h => by
  unfold midnight secondsPerDay
  omega

end Calendar

namespace Granularity

open Calendar (dayOf midnight weekday)
open Date (monthOf monthStart)

variable {g : Granularity} {number time : Int}

/-- The local time at which a bucket starts. -/
def startOf (g : Granularity) (number : Int) : Int :=
  match g with
  | .hour => number * 3600
  | .date => midnight number
  | .week => midnight (number * 7 - 4)
  | .month => midnight (monthStart number)
  | .quarter => midnight (monthStart (number * 3))

/-- The number of the bucket of a local time. -/
def numberOf (g : Granularity) (time : Int) : Int :=
  match g with
  | .hour => time / 3600
  | .date => dayOf time
  | .week => (dayOf time + 4) / 7
  | .month => monthOf (dayOf time)
  | .quarter => monthOf (dayOf time) / 3

/-- The bucket of a local time is the last one that starts up to it. -/
theorem startOf_le_iff : g.startOf number ≤ time ↔ number ≤ g.numberOf time := by
  cases g with
  | hour =>
      simp only [startOf, numberOf]
      omega
  | date => exact Calendar.midnight_le_iff
  | week =>
      simp only [startOf, numberOf, Calendar.midnight_le_iff]
      omega
  | month =>
      simp only [startOf, numberOf, Calendar.midnight_le_iff, Date.monthStart_le_iff]
  | quarter =>
      simp only [startOf, numberOf, Calendar.midnight_le_iff, Date.monthStart_le_iff]
      omega

theorem lt_startOf_iff : time < g.startOf number ↔ g.numberOf time < number := by
  rw [← not_le, startOf_le_iff, not_le]

theorem floor_eq (g : Granularity) (time : Int) : g.floor time = g.startOf (g.numberOf time) := by
  cases g with
  | hour | date => rfl
  | week =>
      simp only [floor, startOf, numberOf, weekday]
      congr 1
      omega
  | month => simp only [floor, startOf, numberOf, Date.toDay_startOfMonth]
  | quarter => simp only [floor, startOf, numberOf, Date.toDay_startOfQuarter]

theorem startOf_strictMono (g : Granularity) : StrictMono g.startOf := by
  intro number later h
  cases g with
  | hour =>
      simp only [startOf]
      omega
  | date => exact Calendar.midnight_strictMono h
  | week => exact Calendar.midnight_strictMono (by omega)
  | month => exact Calendar.midnight_strictMono (Date.monthStart_strictMono h)
  | quarter => exact Calendar.midnight_strictMono (Date.monthStart_strictMono (by omega))

/-- A bucket holds the local times from its start to that of the next one. -/
theorem numberOf_eq_iff :
    g.numberOf time = number ↔ g.startOf number ≤ time ∧ time < g.startOf (number + 1) := by
  rw [startOf_le_iff, lt_startOf_iff]
  omega

@[simp] theorem numberOf_startOf (g : Granularity) (number : Int) :
    g.numberOf (g.startOf number) = number :=
  numberOf_eq_iff.mpr ⟨le_rfl, g.startOf_strictMono (lt_add_one number)⟩

theorem numberOf_mono (g : Granularity) : Monotone g.numberOf := fun _ _ h =>
  startOf_le_iff.mp ((startOf_le_iff.mpr le_rfl).trans h)

theorem startOf_numberOf_le (g : Granularity) (time : Int) : g.startOf (g.numberOf time) ≤ time :=
  startOf_le_iff.mpr le_rfl

theorem lt_startOf_succ (g : Granularity) (time : Int) :
    time < g.startOf (g.numberOf time + 1) :=
  lt_startOf_iff.mpr (lt_add_one _)

theorem floor_le (g : Granularity) (time : Int) : g.floor time ≤ time :=
  floor_eq g time ▸ g.startOf_numberOf_le time

/-- A bucket is at most as long as a quarter. -/
theorem startOf_succ_le (g : Granularity) (number : Int) :
    g.startOf (number + 1) ≤ g.startOf number + 93 * 86400 := by
  have hmonth (month : Int) : Date.monthStart (month + 1) ≤ Date.monthStart month + 31 := by
    have hlength := Date.monthLength_le (month / 12) (month % 12 + 1)
    rw [Date.monthStart_succ]
    omega
  cases g with
  | hour | date | week =>
      simp only [startOf, midnight, Calendar.secondsPerDay]
      omega
  | month =>
      have h := hmonth number
      simp only [startOf, midnight, Calendar.secondsPerDay]
      omega
  | quarter =>
      have h := hmonth (number * 3)
      have h' := hmonth (number * 3 + 1)
      have h'' := hmonth (number * 3 + 1 + 1)
      rw [show number * 3 + 1 + 1 + 1 = (number + 1) * 3 by omega] at h''
      simp only [startOf, midnight, Calendar.secondsPerDay]
      omega

theorem lt_floor_add (g : Granularity) (time : Int) : time < g.floor time + 93 * 86400 := by
  rw [floor_eq]
  exact (g.lt_startOf_succ time).trans_le (startOf_succ_le g _)

/-- A local time is a full hour, a midnight, the midnight of a Sunday, of the first of a month or of
the first of a quarter. -/
def IsAligned (g : Granularity) (time : Int) : Prop :=
  match g with
  | .hour => time % 3600 = 0
  | .date => time = midnight (dayOf time)
  | .week => time = midnight (dayOf time) ∧ weekday (dayOf time) = 0
  | .month => time = midnight (dayOf time) ∧ (Date.ofDay (dayOf time)).day = 1
  | .quarter =>
      time = midnight (dayOf time) ∧ (Date.ofDay (dayOf time)).day = 1 ∧
        (Date.ofDay (dayOf time)).month ∈ [1, 4, 7, 10]

theorem isAligned_startOf (g : Granularity) (number : Int) : g.IsAligned (g.startOf number) := by
  cases g with
  | hour =>
      simp only [IsAligned, startOf]
      omega
  | date => simp [IsAligned, startOf]
  | week =>
      simp only [IsAligned, startOf, Calendar.dayOf_midnight, weekday, true_and]
      omega
  | month => simp [IsAligned, startOf, Date.ofDay_monthStart]
  | quarter =>
      have hmonth : number * 3 % 12 = 0 ∨ number * 3 % 12 = 3 ∨ number * 3 % 12 = 6 ∨
          number * 3 % 12 = 9 := by omega
      rcases hmonth with h | h | h | h <;> simp [IsAligned, startOf, Date.ofDay_monthStart, h]

end Granularity

end FederatedMetrics
