import PackageGraph.Number.Format
/-!
# Calendar dates and times

Dates and times of day as they stand in project files, with an optional offset from universal time.
-/
namespace PackageGraph

/-- A day of the Gregorian calendar. -/
structure Date where
  year : Nat
  month : Nat
  day : Nat
  deriving DecidableEq, Inhabited

namespace Date

/-- Whether the year has a leap day. -/
def isLeap (year : Nat) : Bool := year % 4 == 0 && (year % 100 != 0 || year % 400 == 0)

/-- The number of days of a month. -/
def daysIn (year month : Nat) : Nat :=
  if month = 2 then (if isLeap year then 29 else 28)
  else if month = 4 ∨ month = 6 ∨ month = 9 ∨ month = 11 then 30
  else 31

/-- Whether the day exists; years run from 1 to 9999. -/
def isValid (d : Date) : Bool :=
  1 ≤ d.year && d.year ≤ 9999 && 1 ≤ d.month && d.month ≤ 12 && 1 ≤ d.day &&
    d.day ≤ daysIn d.year d.month

/-- The number of days up to this one, the first day of the first year included. -/
def ordinal (d : Date) : Nat :=
  let before := d.year - 1
  let months := (List.range (d.month - 1)).foldl (fun days m => days + daysIn d.year (m + 1)) 0
  before * 365 + before / 4 - before / 100 + before / 400 + months + d.day

/-- `year-month-day`. -/
def text (d : Date) : String := padded 4 d.year ++ "-" ++ padded 2 d.month ++ "-" ++ padded 2 d.day

end Date

/-- A date and a time of day; the offset from universal time is in minutes. -/
structure Timestamp where
  date : Date
  hour : Nat
  minute : Nat
  second : Nat
  micros : Nat
  offset : Option Int
  deriving DecidableEq, Inhabited

namespace Timestamp

/-- Whether the day exists and the time lies within it. -/
def isValid (t : Timestamp) : Bool :=
  t.date.isValid && t.hour < 24 && t.minute < 60 && t.second < 60 && t.micros < 1000000

/-- The number of millionths of a second up to this time on the clock that it was read from. -/
def clock (t : Timestamp) : Int :=
  (((t.date.ordinal * 24 + t.hour) * 60 + t.minute) * 60 + t.second) * 1000000 + t.micros

/-- Whether two times denote the same instant. Times without offset are comparable with each other alone. -/
def isSameInstant (t u : Timestamp) : Bool :=
  match t.offset, u.offset with
  | none, none => t.clock == u.clock
  | some m, some n => t.clock - m * 60000000 == u.clock - n * 60000000
  | _, _ => false

/-- `±hh:mm`. -/
def offsetText (minutes : Int) : String :=
  let n := minutes.natAbs
  (if minutes < 0 then "-" else "+") ++ padded 2 (n / 60) ++ ":" ++ padded 2 (n % 60)

/-- Date and time with `separator` between them; a fraction only when there is one. -/
def textWith (separator : String) (t : Timestamp) : String :=
  t.date.text ++ separator ++ padded 2 t.hour ++ ":" ++ padded 2 t.minute ++ ":" ++ padded 2 t.second ++
    (if t.micros = 0 then "" else "." ++ padded 6 t.micros) ++
    match t.offset with
    | none => ""
    | some minutes => offsetText minutes

/-- The form with a `T` between date and time. -/
def isoText (t : Timestamp) : String := t.textWith "T"

/-- The form with a blank between date and time. -/
def text (t : Timestamp) : String := t.textWith " "

end Timestamp
end PackageGraph
