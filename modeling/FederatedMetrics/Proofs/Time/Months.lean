import FederatedMetrics.Time.Calendar
import Mathlib.Data.Int.ConditionallyCompleteOrder
import Mathlib.Tactic.IntervalCases

/-!
# Months

Months are numbered from January of the year zero. Each month is as long as the Gregorian rule says,
and every day lies in exactly one month, on the day that its date tells.
-/

namespace FederatedMetrics

namespace Date

/-! ## Years of a cycle -/

/-- The days of a cycle before a year, where years begin in March. -/
def daysBefore (year : Int) : Int := 365 * year + year / 4 - year / 100

/-- The year of a day in a cycle of 400 years. -/
def yearOfCycle (day : Int) : Int := (day - day / 1460 + day / 36524 - day / 146096) / 365

/-- The first and the last day of every year of a cycle. -/
theorem yearOfCycle_ends : ∀ year < 400, yearOfCycle (daysBefore (year : Nat)) = year ∧
    yearOfCycle (daysBefore (year + 1 : Nat) - 1) = year := by
  decide +kernel

theorem yearOfCycle_le_succ (day : Int) : yearOfCycle day ≤ yearOfCycle (day + 1) := by
  apply Int.ediv_le_ediv (by decide)
  have hleap : (day + 1) / 1460 ≤ day / 1460 + 1 := by omega
  have hcentury : day / 36524 ≤ (day + 1) / 36524 := by omega
  -- A cycle ends with a century.
  have hcycle : (day + 1) / 146096 ≤ day / 146096 ∨
      (day + 1) / 146096 ≤ day / 146096 + 1 ∧ day / 36524 + 1 ≤ (day + 1) / 36524 := by omega
  generalize (day + 1) / 1460 = a at *
  omega

theorem yearOfCycle_mono : Monotone yearOfCycle :=
  monotone_int_of_le_succ yearOfCycle_le_succ

/-- A day lies between the first day of its year and the first day of the next one. -/
theorem yearOfCycle_spec {day : Int} (hlow : 0 ≤ day) (hhigh : day < 146097) :
    0 ≤ yearOfCycle day ∧ yearOfCycle day < 400 ∧ daysBefore (yearOfCycle day) ≤ day ∧
      (day < daysBefore (yearOfCycle day + 1) ∨ yearOfCycle day = 399) := by
  have hnonneg : 0 ≤ yearOfCycle day := yearOfCycle_mono hlow
  have hle : yearOfCycle day ≤ 399 := yearOfCycle_mono (show day ≤ 146096 by omega)
  obtain ⟨year, hyear⟩ := Int.eq_ofNat_of_zero_le hnonneg
  refine ⟨hnonneg, by omega, ?_, ?_⟩
  · -- A day before its year would belong to the year before.
    by_contra hbefore
    rw [hyear] at hbefore hle
    obtain ⟨earlier, rfl⟩ : ∃ earlier, year = earlier + 1 := by
      cases year with
      | zero => simp [daysBefore] at hbefore; omega
      | succ earlier => exact ⟨earlier, rfl⟩
    have hmono := yearOfCycle_mono (show day ≤ daysBefore (earlier + 1 : Nat) - 1 by omega)
    rw [(yearOfCycle_ends earlier (by omega)).2, hyear] at hmono
    omega
  · by_contra hbehind
    rw [not_or, not_lt, hyear] at hbehind
    have hmono := yearOfCycle_mono hbehind.1
    rw [show ((year : Int) + 1) = (year + 1 : Nat) from rfl,
      (yearOfCycle_ends (year + 1) (by omega)).1, hyear] at hmono
    omega

/-- The first of March of a year. -/
def yearStart (year : Int) : Int := 365 * year + year / 4 - year / 100 + year / 400 - 719468

theorem yearStart_add_cycles {year : Int} (cycle : Int) (hlow : 0 ≤ year) (hhigh : year < 400) :
    yearStart (year + cycle * 400) = cycle * 146097 + daysBefore year - 719468 := by
  unfold yearStart daysBefore
  omega

/-- The days of a year before a month, both counted from March. -/
def daysBeforeMonth (month : Int) : Int := (153 * month + 2) / 5

/-- A day lies in the month of its date, at the place that its date tells. -/
theorem exists_ofDay_eq (n : Int) :
    ∃ year month offset : Int, 0 ≤ month ∧ month < 12 ∧ 0 ≤ offset ∧
      ofDay n = ⟨if month < 10 then year else year + 1,
        if month < 10 then month + 3 else month - 9, offset + 1⟩ ∧
      n = yearStart year + daysBeforeMonth month + offset ∧
      daysBeforeMonth month + offset < daysBeforeMonth (month + 1) ∧ n < yearStart (year + 1) := by
  obtain ⟨cycle, hcycle⟩ : ∃ cycle, (n + 719468) / 146097 = cycle := ⟨_, rfl⟩
  obtain ⟨day, hday⟩ : ∃ day, (n + 719468) % 146097 = day := ⟨_, rfl⟩
  obtain ⟨year, hyear⟩ : ∃ year, yearOfCycle day = year := ⟨_, rfl⟩
  obtain ⟨month, hmonth⟩ : ∃ month, (5 * (day - daysBefore year) + 2) / 153 = month := ⟨_, rfl⟩
  have hdate : ofDay n =
      ⟨if (if month < 10 then month + 3 else month - 9) ≤ 2 then year + cycle * 400 + 1
        else year + cycle * 400,
        if month < 10 then month + 3 else month - 9,
        day - daysBefore year - daysBeforeMonth month + 1⟩ := by
    subst hcycle hday hyear hmonth
    rfl
  obtain ⟨hlow, hhigh, hge, hlt⟩ :=
    yearOfCycle_spec (show 0 ≤ day by omega) (show day < 146097 by omega)
  rw [hyear] at hlow hhigh hge hlt
  have hstart := yearStart_add_cycles cycle hlow hhigh
  have hnext : n < yearStart (year + cycle * 400 + 1) := by
    -- The year after the last one of a cycle belongs to the next cycle.
    by_cases hend : year = 399
    · unfold yearStart
      omega
    · have hbefore := hlt.resolve_right hend
      rw [show year + cycle * 400 + 1 = year + 1 + cycle * 400 by omega,
        yearStart_add_cycles cycle (by omega) (by omega)]
      omega
  have hshort : day - daysBefore year < 366 := by
    unfold daysBefore at *
    omega
  refine ⟨year + cycle * 400, month, day - daysBefore year - daysBeforeMonth month, ?_, ?_, ?_, ?_, ?_,
    ?_, hnext⟩
  · omega
  · omega
  · unfold daysBeforeMonth
    omega
  · rw [hdate]
    by_cases h : month < 10
    · have hspring : ¬ month + 3 ≤ 2 := by omega
      simp only [if_pos h, if_neg hspring]
    · have hwinter : month - 9 ≤ 2 := by omega
      simp only [if_neg h, if_pos hwinter]
  · omega
  · unfold daysBeforeMonth
    omega

/-! ## Months -/

/-- The number of the month of a day. -/
def monthOf (day : Int) : Int := (ofDay day).year * 12 + ((ofDay day).month - 1)

/-- The first day of a month. -/
def monthStart (month : Int) : Int := (Date.mk (month / 12) (month % 12 + 1) 1).toDay

theorem monthStart_eq (month : Int) :
    monthStart month = yearStart ((month - 2) / 12) + daysBeforeMonth ((month - 2) % 12) := by
  unfold monthStart toDay yearStart daysBeforeMonth
  rw [show (month - 2) % 12 = (month % 12 + 1 + 9) % 12 by omega]
  by_cases h : month % 12 + 1 ≤ 2
  · rw [show (month - 2) / 12 = month / 12 - 1 by omega]
    simp only [if_pos h]
    omega
  · rw [show (month - 2) / 12 = month / 12 by omega]
    simp only [if_neg h]
    omega

theorem isLeap_iff {year : Int} :
    isLeap year ↔ year % 4 = 0 ∧ (year % 100 ≠ 0 ∨ year % 400 = 0) := by
  simp [isLeap]

/-- February ends with the year that begins in March. -/
theorem yearStart_succ (year : Int) :
    yearStart (year + 1) = yearStart year + daysBeforeMonth 11 + monthLength (year + 1) 2 := by
  rw [monthLength, if_pos rfl]
  by_cases h : isLeap (year + 1)
  · rw [if_pos h]
    rw [isLeap_iff] at h
    unfold yearStart daysBeforeMonth
    omega
  · rw [if_neg h]
    rw [isLeap_iff] at h
    unfold yearStart daysBeforeMonth
    omega

theorem daysBeforeMonth_succ (year : Int) {month : Int} (hlow : 0 ≤ month) (hhigh : month < 11) :
    daysBeforeMonth (month + 1) =
      daysBeforeMonth month + monthLength year ((month + 2) % 12 + 1) := by
  interval_cases month <;> rfl

/-- Every month is as long as the Gregorian rule says. -/
theorem monthStart_succ (month : Int) :
    monthStart (month + 1) = monthStart month + monthLength (month / 12) (month % 12 + 1) := by
  obtain ⟨year, hyear⟩ : ∃ year, (month - 2) / 12 = year := ⟨_, rfl⟩
  rw [monthStart_eq, monthStart_eq]
  by_cases hend : (month - 2) % 12 = 11
  · rw [show (month + 1 - 2) / 12 = year + 1 by omega, show (month + 1 - 2) % 12 = 0 by omega,
      show month / 12 = year + 1 by omega, show month % 12 + 1 = 2 by omega, hend, hyear,
      yearStart_succ]
    simp [daysBeforeMonth]
  · rw [show (month + 1 - 2) / 12 = year by omega,
      show (month + 1 - 2) % 12 = (month - 2) % 12 + 1 by omega, hyear,
      daysBeforeMonth_succ (month / 12) (by omega) (by omega),
      show ((month - 2) % 12 + 2) % 12 = month % 12 by omega]
    omega

theorem monthLength_ge (year month : Int) : 28 ≤ monthLength year month := by
  unfold monthLength
  split
  · split <;> decide
  · split <;> decide

theorem monthLength_le (year month : Int) : monthLength year month ≤ 31 := by
  unfold monthLength
  split
  · split <;> decide
  · split <;> decide

theorem monthStart_strictMono : StrictMono monthStart := by
  refine strictMono_int_of_lt_succ fun month => ?_
  have := monthStart_succ month
  have := monthLength_ge (month / 12) (month % 12 + 1)
  omega

/-- The date of a day tells its month and its place there. -/
theorem ofDay_spec (day : Int) :
    (1 ≤ (ofDay day).month ∧ (ofDay day).month ≤ 12) ∧
      (1 ≤ (ofDay day).day ∧ monthStart (monthOf day) + ((ofDay day).day - 1) = day) ∧
      day < monthStart (monthOf day + 1) := by
  obtain ⟨year, month, offset, hlow, hhigh, hoffset, hdate, hday, hinside, hnext⟩ :=
    exists_ofDay_eq day
  have hmonth : monthOf day = year * 12 + month + 2 := by
    rw [monthOf, hdate]
    by_cases h : month < 10
    · simp only [if_pos h]
      omega
    · simp only [if_neg h]
      omega
  have hstart : monthStart (monthOf day) = yearStart year + daysBeforeMonth month := by
    rw [monthStart_eq, hmonth, show (year * 12 + month + 2 - 2) / 12 = year by omega,
      show (year * 12 + month + 2 - 2) % 12 = month by omega]
  have hlater : day < monthStart (monthOf day + 1) := by
    rw [monthStart_eq, hmonth]
    by_cases hend : month = 11
    · rw [show (year * 12 + month + 2 + 1 - 2) / 12 = year + 1 by omega,
        show (year * 12 + month + 2 + 1 - 2) % 12 = 0 by omega]
      simpa [daysBeforeMonth] using hnext
    · rw [show (year * 12 + month + 2 + 1 - 2) / 12 = year by omega,
        show (year * 12 + month + 2 + 1 - 2) % 12 = month + 1 by omega]
      omega
  refine ⟨?_, ?_, hlater⟩
  · rw [hdate]
    by_cases h : month < 10
    · simp only [if_pos h]
      omega
    · simp only [if_neg h]
      omega
  · rw [hstart, hdate]
    constructor
    · show 1 ≤ offset + 1
      omega
    · show yearStart year + daysBeforeMonth month + (offset + 1 - 1) = day
      omega

theorem ofDay_day_le (day : Int) : (ofDay day).day ≤ 31 := by
  obtain ⟨-, ⟨-, hday⟩, hnext⟩ := ofDay_spec day
  have hlength := monthLength_le (monthOf day / 12) (monthOf day % 12 + 1)
  rw [monthStart_succ] at hnext
  omega

theorem toDay_eq (date : Date) : date.toDay = date.startOfMonth.toDay + (date.day - 1) := by
  simp only [toDay, startOfMonth]
  omega

/-- The first day of a month of a date. -/
theorem monthStart_of_date {year month : Int} (hlow : 1 ≤ month) (hhigh : month ≤ 12) :
    monthStart (year * 12 + (month - 1)) = (Date.mk year month 1).toDay := by
  rw [monthStart, show (year * 12 + (month - 1)) / 12 = year by omega,
    show (year * 12 + (month - 1)) % 12 + 1 = month by omega]

theorem toDay_startOfMonth (day : Int) :
    (ofDay day).startOfMonth.toDay = monthStart (monthOf day) :=
  (monthStart_of_date (ofDay_spec day).1.1 (ofDay_spec day).1.2).symm

theorem toDay_startOfQuarter (day : Int) :
    (ofDay day).startOfQuarter.toDay = monthStart (monthOf day / 3 * 3) := by
  obtain ⟨⟨hlow, hhigh⟩, -⟩ := ofDay_spec day
  have hquarter : monthOf day / 3 * 3 =
      (ofDay day).year * 12 + (((ofDay day).month - 1) / 3 * 3 + 1 - 1) := by
    unfold monthOf
    omega
  rw [hquarter, monthStart_of_date (by omega) (by omega)]
  rfl

/-- The date of a day stands for that day. -/
@[simp] theorem toDay_ofDay (day : Int) : (ofDay day).toDay = day := by
  rw [toDay_eq, toDay_startOfMonth, (ofDay_spec day).2.1.2]

/-- The months up to that of a day are those that start up to that day. -/
theorem monthStart_le_iff {month day : Int} : monthStart month ≤ day ↔ month ≤ monthOf day := by
  obtain ⟨-, ⟨hplace, hday⟩, hnext⟩ := ofDay_spec day
  constructor
  · intro h
    have hlt := monthStart_strictMono.lt_iff_lt.mp (h.trans_lt hnext)
    omega
  · intro h
    have hle := monthStart_strictMono.monotone h
    omega

@[simp] theorem monthOf_monthStart (month : Int) : monthOf (monthStart month) = month := by
  refine le_antisymm ?_ (monthStart_le_iff.mp le_rfl)
  exact monthStart_strictMono.le_iff_le.mp (monthStart_le_iff.mpr le_rfl)

theorem ofDay_monthStart (month : Int) :
    ofDay (monthStart month) = ⟨month / 12, month % 12 + 1, 1⟩ := by
  obtain ⟨⟨hlow, hhigh⟩, ⟨-, hday⟩, -⟩ := ofDay_spec (monthStart month)
  have hmonth := monthOf_monthStart month
  rw [hmonth] at hday
  rw [monthOf] at hmonth
  cases hdate : ofDay (monthStart month) with
  | mk year civilMonth place =>
    simp only [hdate] at hlow hhigh hday hmonth
    rw [mk.injEq]
    omega

/-- Months are added to the first day of a month without a change of the day. -/
theorem toDay_addMonths_monthStart (month count : Int) :
    ((ofDay (monthStart month)).addMonths count).toDay = monthStart (month + count) := by
  have hlength := monthLength_ge ((month + count) / 12) ((month + count) % 12 + 1)
  rw [ofDay_monthStart, addMonths]
  simp only
  rw [show month / 12 * 12 + (month % 12 + 1 - 1) + count = month + count by omega,
    min_eq_left (by omega), monthStart]

end Date

end FederatedMetrics
