import FederatedMetrics.Time.Calendar
import FederatedMetrics.Text.Blank
import FederatedMetrics.Decimal.Reading

/-!
# Timestamps in text

A timestamp is written as date, time and zone of universal time. The reader also takes other
offsets, a blank in place of the letter between date and time, short numbers and blanks around
them.
-/

namespace FederatedMetrics

/-- A second of universal time with its nanoseconds; a leap second has more than `10 ^ 9` of
them. -/
structure Timestamp where
  second : Int
  nano : Nat
deriving DecidableEq, Repr

namespace Timestamp

/-- The epoch. -/
def zero : Timestamp := ⟨0, 0⟩

/-- A fraction in groups of three digits, as few as it needs. -/
def fractionText (nano : Nat) : String :=
  if nano = 0 then ""
  else if nano % 1000000 = 0 then "." ++ padded 3 (nano / 1000000)
  else if nano % 1000 = 0 then "." ++ padded 6 (nano / 1000)
  else "." ++ padded 9 nano

def text (t : Timestamp) : String :=
  if t.nano < 1000000000 then clockText t.second ++ fractionText t.nano ++ "Z"
  else
    String.ofList ((clockText t.second).toList.dropLast.dropLast) ++ "60"
      ++ fractionText (t.nano - 1000000000) ++ "Z"

def skipBlank (cs : List Char) : List Char := cs.dropWhile Text.isBlank

/-- A number of one to `width` digits after blanks. -/
def number? (width : Nat) (cs : List Char) : Option (Nat × List Char) :=
  let rest := skipBlank cs
  let run := (rest.takeWhile Decimal.isDigit).take width
  if run.isEmpty then none else some (Decimal.natOfDigits run, rest.drop run.length)

/-- A year, which has up to four digits unless it has a sign. -/
def year? (cs : List Char) : Option (Int × List Char) :=
  match skipBlank cs with
  | '-' :: rest => (signedRun rest).map fun (n, rest) => (-(n : Int), rest)
  | '+' :: rest => (signedRun rest).map fun (n, rest) => ((n : Int), rest)
  | rest => (number? 4 rest).map fun (n, rest) => ((n : Int), rest)
where
  signedRun (cs : List Char) : Option (Nat × List Char) :=
    let run := cs.takeWhile Decimal.isDigit
    if run.isEmpty then none else some (Decimal.natOfDigits run, cs.drop run.length)

/-- A given character after blanks. -/
def mark? (mark : Char) (cs : List Char) : Option (List Char) :=
  match skipBlank cs with
  | c :: rest => if c = mark then some rest else none
  | [] => none

/-- The nanoseconds after a point, if there is one; digits after the ninth do not count. -/
def fraction? (cs : List Char) : Option (Nat × List Char) :=
  match cs with
  | '.' :: rest =>
      let run := rest.takeWhile Decimal.isDigit
      if run.isEmpty then none
      else
        let kept := run.take 9
        some (Decimal.natOfDigits kept * Nat.pow 10 (9 - kept.length), rest.drop run.length)
  | _ => some (0, cs)

/-- Two digits. -/
def pair? : List Char → Option (Nat × List Char)
  | a :: b :: rest =>
      if Decimal.isDigit a && Decimal.isDigit b then some (Decimal.natOfDigits [a, b], rest)
      else none
  | _ => none

/-- Hours and minutes of an offset, with colons or blanks between them. -/
def hoursAndMinutes? (cs : List Char) : Option (Int × List Char) := do
  let (hours, rest) ← pair? cs
  let (minutes, rest) ← pair? (rest.dropWhile fun c => c = ':' || Text.isBlank c)
  if minutes < 60 && hours < 24 then return ((hours * 3600 + minutes * 60 : Nat), rest) else none

/-- An offset in seconds, or one of the names of universal time. -/
def offset? (cs : List Char) : Option (Int × List Char) :=
  if (cs.take 3).map Char.toLower = ['u', 't', 'c'] then some (0, cs.drop 3)
  else
    match cs with
    | c :: rest =>
        if c = 'Z' || c = 'z' then some (0, rest)
        else if c = '+' then hoursAndMinutes? rest
        else if c = '-' || c = Char.ofNat 0x2212 then
          (hoursAndMinutes? rest).map fun (n, rest) => (-n, rest)
        else none
    | [] => none

def ofChars? (cs : List Char) : Option Timestamp := do
  let (year, rest) ← year? cs
  let rest ← mark? '-' rest
  let (month, rest) ← number? 2 rest
  let rest ← mark? '-' rest
  let (day, rest) ← number? 2 rest
  let rest ←
    match rest with
    | c :: rest => if c = 't' || c = 'T' || c = ' ' then some rest else none
    | [] => none
  let (hour, rest) ← number? 2 rest
  let rest ← mark? ':' rest
  let (minute, rest) ← number? 2 rest
  let rest ← mark? ':' rest
  let (second, rest) ← number? 2 rest
  let (nano, rest) ← fraction? rest
  let (offset, rest) ← offset? (skipBlank rest)
  let date : Date := ⟨year, month, day⟩
  if !(skipBlank rest).isEmpty || !date.isValid || 24 ≤ hour || 60 ≤ minute || 60 < second then none
  else
    let leap := second = 60
    let clock := (hour * 3600 + minute * 60 + (if leap then 59 else second) : Nat)
    let time := Calendar.midnight date.toDay + clock
    let instant := time - offset
    if Calendar.holds time && Calendar.holds instant then
      return ⟨instant, if leap then nano + 1000000000 else nano⟩
    else none

def ofText? (s : String) : Option Timestamp := ofChars? s.toList

example : (ofText? "2023-01-18T05:30:00+05:30").map text = some "2023-01-18T00:00:00Z" := by
  decide +kernel

end Timestamp

end FederatedMetrics
