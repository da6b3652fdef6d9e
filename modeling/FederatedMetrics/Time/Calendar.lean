/-!
# The civil calendar

Days are counted from the first of January 1970, and dates follow the Gregorian rule in both
directions. Times are seconds; only those from `firstSecond` to `lastSecond` belong to the calendar.
-/

namespace FederatedMetrics

/-- A day of the Gregorian calendar. -/
structure Date where
  year : Int
  month : Int
  day : Int
deriving DecidableEq, Repr

namespace Calendar

/-- The first second of the year -262143. -/
def firstSecond : Int := -8334601228800

/-- The last second of the year 262142. -/
def lastSecond : Int := 8210266876799

/-- Whether a second belongs to the calendar. -/
def holds (second : Int) : Bool := firstSecond ≤ second && second ≤ lastSecond

def secondsPerDay : Int := 86400

def dayOf (second : Int) : Int := second / secondsPerDay

def midnight (day : Int) : Int := day * secondsPerDay

/-- The days since Sunday. -/
def weekday (day : Int) : Int := (day + 4) % 7

end Calendar

namespace Date

/-- The number of days from the first of January 1970. Years are counted from the first of March and
grouped by 400. -/
def toDay (date : Date) : Int :=
  let year := if date.month ≤ 2 then date.year - 1 else date.year
  let cycle := year / 400
  let yearOfCycle := year % 400
  let month := (date.month + 9) % 12
  let dayOfYear := (153 * month + 2) / 5 + date.day - 1
  let dayOfCycle := yearOfCycle * 365 + yearOfCycle / 4 - yearOfCycle / 100 + dayOfYear
  cycle * 146097 + dayOfCycle - 719468

/-- The date of a number of days. -/
def ofDay (day : Int) : Date :=
  let shifted := day + 719468
  let cycle := shifted / 146097
  let dayOfCycle := shifted % 146097
  let yearOfCycle :=
    (dayOfCycle - dayOfCycle / 1460 + dayOfCycle / 36524 - dayOfCycle / 146096) / 365
  let dayOfYear := dayOfCycle - (365 * yearOfCycle + yearOfCycle / 4 - yearOfCycle / 100)
  let month := (5 * dayOfYear + 2) / 153
  let day := dayOfYear - (153 * month + 2) / 5 + 1
  let civilMonth := if month < 10 then month + 3 else month - 9
  let year := yearOfCycle + cycle * 400
  ⟨if civilMonth ≤ 2 then year + 1 else year, civilMonth, day⟩

def isLeap (year : Int) : Bool := year % 4 = 0 && (year % 100 ≠ 0 || year % 400 = 0)

def monthLength (year month : Int) : Int :=
  if month = 2 then (if isLeap year then 29 else 28)
  else if month = 4 ∨ month = 6 ∨ month = 9 ∨ month = 11 then 30
  else 31

def isValid (date : Date) : Bool :=
  1 ≤ date.month && date.month ≤ 12 && 1 ≤ date.day
    && date.day ≤ monthLength date.year date.month

/-- The date a number of months later; a day that the month lacks becomes its last. -/
def addMonths (date : Date) (count : Int) : Date :=
  let months := date.year * 12 + (date.month - 1) + count
  let year := months / 12
  let month := months % 12 + 1
  ⟨year, month, min date.day (monthLength year month)⟩

/-- The first day of the month. -/
def startOfMonth (date : Date) : Date := { date with day := 1 }

/-- The first day of the quarter. -/
def startOfQuarter (date : Date) : Date :=
  { date with month := (date.month - 1) / 3 * 3 + 1, day := 1 }

end Date

/-- A number with at least a given count of digits. -/
def padded (width : Nat) (n : Nat) : String :=
  let digits := toString n
  String.ofList (List.replicate (width - digits.length) '0') ++ digits

/-- Four digits for the years 0 to 9999, and otherwise a sign and at least four digits. -/
def yearText (year : Int) : String :=
  if 0 ≤ year ∧ year ≤ 9999 then padded 4 year.toNat
  else (if year < 0 then "-" else "+") ++ padded 4 year.natAbs

/-- A second of a clock that shows no zone, as date and time of day. -/
def clockText (second : Int) : String :=
  let date := Date.ofDay (Calendar.dayOf second)
  let time := (second % Calendar.secondsPerDay).toNat
  yearText date.year ++ "-" ++ padded 2 date.month.toNat ++ "-" ++ padded 2 date.day.toNat ++ "T"
    ++ padded 2 (time / 3600) ++ ":" ++ padded 2 (time / 60 % 60) ++ ":" ++ padded 2 (time % 60)

example : (Date.mk (-262143) 1 1).toDay * 86400 = Calendar.firstSecond := by decide

example : ((Date.mk 262142 12 31).toDay + 1) * 86400 = Calendar.lastSecond + 1 := by decide

example : clockText 1674000000 = "2023-01-18T00:00:00" := by decide +kernel

end FederatedMetrics
