import FederatedMetrics.Time.Zone

/-!
# Time buckets

A bucket is an hour, a day, a week from Sunday, a month or a quarter of local time. The buckets of a
window are found by stepping from the bucket of its first instant to the next one, until a bucket
starts after the window or the calendar ends. A step by hours or weeks may run out of the calendar;
then there is no answer.
-/

namespace FederatedMetrics

inductive Granularity where
  | hour
  | date
  | week
  | month
  | quarter
deriving DecidableEq, Repr

namespace Granularity

def name : Granularity → String
  | .hour => "hour"
  | .date => "date"
  | .week => "week"
  | .month => "month"
  | .quarter => "quarter"

def names : List (String × Granularity) :=
  [("hour", .hour), ("date", .date), ("week", .week), ("month", .month), ("quarter", .quarter)]

def ofName? (name : String) : Option Granularity := names.lookup name

/-- The refusal of a name that is no granularity. -/
def unknownText (name : String) : String := "unknown group_by_timestamp: " ++ name

/-- The local time at which the bucket of a local time starts. -/
def floor (g : Granularity) (time : Int) : Int :=
  let day := Calendar.dayOf time
  match g with
  | .hour => time / 3600 * 3600
  | .date => Calendar.midnight day
  | .week => Calendar.midnight (day - Calendar.weekday day)
  | .month => Calendar.midnight (Date.ofDay day).startOfMonth.toDay
  | .quarter => Calendar.midnight (Date.ofDay day).startOfQuarter.toDay

/-- The instant at which the bucket of an instant starts, unless the calendar does not reach back so
far. -/
def start? (g : Granularity) (zone : Zone) (instant : Int) : Option Int :=
  let time := zone.clock instant
  if Calendar.holds time && Calendar.holds (g.floor time) then some (zone.localize (g.floor time))
  else none

/-- What follows a bucket: another one, nothing, or a step beyond the calendar. -/
inductive Next where
  | bucket (start : Int)
  | nothing
  | beyond
deriving DecidableEq, Repr

/-- A bucket counts as the next one only if it starts later. -/
def Next.after (previous start : Int) : Next :=
  if previous < start then .bucket start else .nothing

/-- The bucket that starts on a day, where the calendar may end before. -/
def Next.onDay (zone : Zone) (previous day : Int) (otherwise : Next) : Next :=
  if Calendar.midnight day ≤ Calendar.lastSecond then
    .after previous (zone.localize (Calendar.midnight day))
  else otherwise

/-- The bucket after the one that starts at an instant. -/
def next (g : Granularity) (zone : Zone) (start : Int) : Next :=
  let time := zone.clock start
  let day := Calendar.dayOf time
  if !Calendar.holds time then .beyond
  else
    match g with
    | .hour =>
        if Calendar.holds (start + 3600) then
          match start? .hour zone (start + 3600) with
          | some later => .after start later
          | none => .beyond
        else .beyond
    | .date => .onDay zone start (day + 1) .nothing
    | .week => .onDay zone start (day + 7) .beyond
    | .month => .onDay zone start ((Date.ofDay day).addMonths 1).toDay .nothing
    | .quarter => .onDay zone start ((Date.ofDay day).addMonths 3).toDay .nothing

/-- The starts of the buckets from one on while they are not after the last instant, put before
those already found, in reverse. -/
def walk (g : Granularity) (zone : Zone) (last : Int) : Nat → Int → List Int → Option (List Int)
  | 0, _, found => some found.reverse
  | steps + 1, start, found =>
      if start ≤ last then
        match g.next zone start with
        | .bucket later => walk g zone last steps later (start :: found)
        | .nothing => some (start :: found).reverse
        | .beyond => none
      else some found.reverse

/-- The starts of the buckets that overlap a window. Every step is at least one second long, which
bounds their number. A window that reaches out of the calendar has no buckets. -/
def starts? (g : Granularity) (zone : Zone) (first last : Int) : Option (List Int) :=
  if Calendar.holds first && Calendar.holds last then
    match g.start? zone first with
    | some start => g.walk zone last ((last - start).toNat + 1) start []
    | none => none
  else some []

/-- The labels of the buckets that overlap a window, in order of time. -/
def labels? (g : Granularity) (zone : Zone) (first last : Int) : Option (List String) :=
  (g.starts? zone first last).map fun starts => starts.map zone.stamp

/-- The label of the bucket of an instant. The inner answer is missing for an instant out of the
calendar, and the outer one when the bucket starts before the calendar. -/
def labelOf? (g : Granularity) (zone : Zone) (instant : Int) : Option (Option String) :=
  if Calendar.holds instant then (g.start? zone instant).map fun start => some (zone.stamp start)
  else some none

end Granularity

end FederatedMetrics
