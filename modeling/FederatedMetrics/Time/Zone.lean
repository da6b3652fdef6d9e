import FederatedMetrics.Time.Calendar

/-!
# Time zones

A zone gives the distance of local clocks from universal time, which changes at known instants.
A local time may exist once, twice or not at all: the earlier of two instants is taken, and a local
time that does not exist is read as universal time.
-/

namespace FederatedMetrics

/-- A zone with its offset in seconds east of universal time, before and after each change. The
changes are instants in ascending order with the offset that holds from then on. -/
structure Zone where
  name : String
  base : Int
  changes : List (Int × Int)
deriving DecidableEq, Repr

namespace Zone

/-- A zone that never changes its offset. -/
def fixed (name : String) (offset : Int) : Zone := ⟨name, offset, []⟩

/-- The zone without a distance from universal time. -/
def utc : Zone := fixed "UTC" 0

/-- The offset that holds at an instant. -/
def offsetAt (zone : Zone) (instant : Int) : Int :=
  zone.changes.foldl (fun offset change => if change.1 ≤ instant then change.2 else offset) zone.base

/-- What local clocks show at an instant. -/
def clock (zone : Zone) (instant : Int) : Int := instant + zone.offsetAt instant

def offsets (zone : Zone) : List Int := zone.base :: zone.changes.map (·.2)

/-- The instants of the calendar at which local clocks show a time. -/
def instantsOf (zone : Zone) (time : Int) : List Int :=
  (zone.offsets.map fun offset => time - offset).filter fun instant =>
    zone.clock instant = time && Calendar.holds instant

/-- The earlier of two instants, where one may be missing. -/
def earlier : Option Int → Int → Option Int
  | none, instant => some instant
  | some other, instant => some (min other instant)

/-- The first instant at which local clocks show a time. -/
def earliest? (zone : Zone) (time : Int) : Option Int := (zone.instantsOf time).foldl earlier none

/-- The instant of a local time. -/
def localize (zone : Zone) (time : Int) : Int := (zone.earliest? time).getD time

/-- Hours and minutes with a sign, rounded to the nearest minute. -/
def offsetText (offset : Int) : String :=
  let minutes := (offset.natAbs + 30) / 60
  (if offset < 0 then "-" else "+") ++ padded 2 (minutes / 60) ++ ":" ++ padded 2 (minutes % 60)

/-- An instant as local date and time with the offset. -/
def stamp (zone : Zone) (instant : Int) : String :=
  clockText (zone.clock instant) ++ offsetText (zone.offsetAt instant)

@[simp] theorem offsetAt_utc (instant : Int) : utc.offsetAt instant = 0 := rfl

@[simp] theorem clock_utc (instant : Int) : utc.clock instant = instant := by simp [clock]

end Zone

/-- A database of time zones. Which names it knows and when their offsets change is not decided
here. -/
abbrev Zones := String → Option Zone

/-- The zone of a name; the empty name is universal time. -/
def Zones.get? (zones : Zones) (name : String) : Option Zone :=
  if name = "" then some .utc else zones name

end FederatedMetrics
