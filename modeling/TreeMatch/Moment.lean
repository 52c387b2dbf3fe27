/-!
# Points in time

Dates of the Gregorian calendar, perhaps with a time of day, which may have an offset from universal
time. `Moment.check` says whether there is such a point in time. Moments of three kinds are compared
by three scales (`Moment.form`): dates by the day, times without an offset by their microseconds,
and times with an offset by those of universal time.
-/

namespace TreeMatch

/-- The time of day. -/
structure TimeOfDay where
  /-- The hour. -/
  hour : Nat
  /-- The minute. -/
  minute : Nat
  /-- The second. -/
  second : Nat
  /-- The microsecond. -/
  micro : Nat
  /-- The offset from universal time in minutes, if one is given. -/
  offset : Option Int
deriving DecidableEq, Repr

/-- A date, perhaps with a time of day. -/
structure Moment where
  /-- The year. -/
  year : Nat
  /-- The month. -/
  month : Nat
  /-- The day of the month. -/
  day : Nat
  /-- The time of day. -/
  time : Option TimeOfDay
deriving DecidableEq, Repr

/-- Why there is no such point in time. -/
inductive MomentFault where
  /-- There is no year 0. -/
  | year
  /-- The month is not in 1, …, 12. -/
  | month
  /-- The month does not have this day. -/
  | day
  /-- The hour is not in 0, …, 23. -/
  | hour
  /-- The minute is not in 0, …, 59. -/
  | minute
  /-- The second is not in 0, …, 59. -/
  | second
  /-- The offset from universal time, in minutes, is a day or more. -/
  | offset (minutes : Int)
deriving DecidableEq, Repr

/-- A span of minutes as days and seconds, the seconds never negative; what is zero is left out. -/
def spanText (minutes : Int) : String :=
  let parts := [("days=", minutes / 1440), ("seconds=", minutes % 1440 * 60)].filter (·.2 ≠ 0)
  "datetime.timedelta(" ++
    (if parts.isEmpty then "0" else ", ".intercalate (parts.map fun p => p.1 ++ toString p.2)) ++
    ")"

/-- What is said about a point in time that does not exist. -/
def MomentFault.message : MomentFault → String
  | .year => "year 0 is out of range"
  | .month => "month must be in 1..12"
  | .day => "day is out of range for month"
  | .hour => "hour must be in 0..23"
  | .minute => "minute must be in 0..59"
  | .second => "second must be in 0..59"
  | .offset minutes =>
    "offset must be a timedelta strictly between -timedelta(hours=24) and timedelta(hours=24), not "
      ++ spanText minutes ++ "."

namespace Moment

/-- Whether a year has a 29th of February. -/
def isLeap (year : Nat) : Bool := year % 4 = 0 && (year % 100 ≠ 0 || year % 400 = 0)

/-- The number of days of a month. -/
def daysIn (year month : Nat) : Nat :=
  match month with
  | 2 => if isLeap year then 29 else 28
  | 4 | 6 | 9 | 11 => 30
  | _ => 31

/-- What keeps a moment from being a point in time. -/
def check (m : Moment) : Except MomentFault Unit := do
  if let some offset := m.time.bind (·.offset) then
    if 1440 ≤ offset.natAbs then throw (.offset offset)
  if m.year = 0 then throw .year
  if m.month = 0 ∨ 12 < m.month then throw .month
  if m.day = 0 ∨ daysIn m.year m.month < m.day then throw .day
  if let some time := m.time then
    if 23 < time.hour then throw .hour
    if 59 < time.minute then throw .minute
    if 59 < time.second then throw .second

/-! ### Comparing -/

/-- What a moment is compared by. -/
inductive Form where
  /-- A day, by its number. -/
  | day (n : Nat)
  /-- A time without an offset, in microseconds. -/
  | plain (micros : Int)
  /-- A time with an offset, in microseconds of universal time. -/
  | universal (micros : Int)
deriving DecidableEq

/-- The number of the day, the first day of the year 1 being 1. -/
def dayNumber (m : Moment) : Nat :=
  let past := m.year - 1
  let months := (List.range (m.month - 1)).map fun k => daysIn m.year (k + 1)
  365 * past + past / 4 - past / 100 + past / 400 + months.foldl (· + ·) 0 + m.day

/-- The microseconds of a time of day since midnight. -/
def microsOfDay (t : TimeOfDay) : Int :=
  ((t.hour * 60 + t.minute) * 60 + t.second) * 1000000 + t.micro

/-- What the moment is compared by. -/
def form (m : Moment) : Form :=
  match m.time with
  | none => .day m.dayNumber
  | some t =>
    let micros := m.dayNumber * 86400000000 + microsOfDay t
    match t.offset with
    | none => .plain micros
    | some minutes => .universal (micros - minutes * 60000000)

/-! ### Writing -/

/-- A number filled up with zeros to a width. -/
def padded (width n : Nat) : String :=
  let digits := Nat.toDigits 10 n
  String.ofList (List.replicate (width - digits.length) '0' ++ digits)

/-- The time of day in its usual form; microseconds are left out if there are none. -/
def timeText (t : TimeOfDay) : String :=
  let offset := match t.offset with
    | none => ""
    | some m => (if m < 0 then "-" else "+") ++ padded 2 (m.natAbs / 60) ++ ":" ++
        padded 2 (m.natAbs % 60)
  padded 2 t.hour ++ ":" ++ padded 2 t.minute ++ ":" ++ padded 2 t.second ++
    (if t.micro = 0 then "" else "." ++ padded 6 t.micro) ++ offset

/-- The moment in its usual form. -/
def text (m : Moment) : String :=
  padded 4 m.year ++ "-" ++ padded 2 m.month ++ "-" ++ padded 2 m.day ++
    m.time.elim "" fun t => " " ++ timeText t

/-- The name of the type of a moment. -/
def typeName (m : Moment) : String := if m.time.isSome then "datetime" else "date"

/-- The offset from universal time as text. -/
def offsetText (minutes : Int) : String :=
  if minutes = 0 then "datetime.timezone.utc" else "datetime.timezone(" ++ spanText minutes ++ ")"

/-- The moment as text with its parts by number. Seconds and microseconds are left out if nothing
but zeros would follow. -/
def written (m : Moment) : String :=
  let time := m.time.elim [] fun t =>
    [t.hour, t.minute] ++
      (if t.micro ≠ 0 then [t.second, t.micro] else if t.second ≠ 0 then [t.second] else [])
  let zone := ((m.time.bind (·.offset)).map fun o => "tzinfo=" ++ offsetText o).toList
  "datetime." ++ m.typeName ++ "(" ++
    ", ".intercalate (([m.year, m.month, m.day] ++ time).map toString ++ zone) ++ ")"

end Moment

example : (Moment.mk 2000 2 29 none).check.isOk ∧ ¬ (Moment.mk 1900 2 29 none).check.isOk := by
  decide +kernel

example : (Moment.mk 2001 3 1 none).dayNumber = (Moment.mk 2001 2 28 none).dayNumber + 1 := by
  decide +kernel

example :
    (Moment.mk 2001 1 1 (some ⟨1, 30, 0, 0, some 90⟩)).form =
      (Moment.mk 2001 1 1 (some ⟨0, 0, 0, 0, some 0⟩)).form := by
  decide +kernel

end TreeMatch
