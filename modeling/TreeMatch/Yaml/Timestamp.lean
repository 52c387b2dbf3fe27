import TreeMatch.Moment
import TreeMatch.Yaml.Cursor

/-!
# Timestamps

Dates, and dates with a time of day, as plain scalars write them. `Timestamp.parse?` reads the form,
whether there is such a point in time or not.
-/

namespace TreeMatch.Yaml

namespace Timestamp

/-- A number of at least `least` and at most `most` digits at the beginning of a text. -/
def number? (least most : Nat) (cs : List Char) : Option (Nat × List Char) :=
  let digits := (cs.take most).takeWhile Char.isDigit
  if digits.length < least then none else some (digitsValue digits, cs.drop digits.length)

/-- The text after a given character. -/
def after? (c : Char) : List Char → Option (List Char)
  | x :: rest => if x = c then some rest else none
  | [] => none

/-- The offset at the end of a time: nothing, `Z`, or a sign with hours and perhaps minutes. -/
def offset? (cs : List Char) : Option (Option Int) :=
  if cs.isEmpty then some none else
  match cs.dropWhile (fun c => c == ' ' || c == '\t') with
  | ['Z'] => some (some 0)
  | sign :: rest =>
    if sign == '+' || sign == '-' then do
      let (hours, rest) ← number? 1 2 rest
      let minutes ←
        match rest with
        | [] => some 0
        | _ => do
          let (minutes, rest) ← number? 2 2 (← after? ':' rest)
          if rest.isEmpty then some minutes else none
      let total : Int := hours * 60 + minutes
      some (some (if sign == '-' then -total else total))
    else none
  | [] => none

/-- The microseconds that the digits of a fraction of a second write; from the seventh on they do
not count. -/
def micros (digits : List Char) : Nat :=
  digitsValue (digits.take 6 ++ List.replicate (6 - digits.length) '0')

/-- The time of day after a date: a `T` or blanks, hours, minutes and seconds, perhaps a fraction
and an offset. -/
def time? (cs : List Char) : Option TimeOfDay := do
  let body ←
    match cs with
    | c :: rest =>
      if c == 'T' || c == 't' then some rest
      else if c == ' ' || c == '\t' then some (rest.dropWhile (fun c => c == ' ' || c == '\t'))
      else none
    | [] => none
  let (hour, rest) ← number? 1 2 body
  let (minute, rest) ← number? 2 2 (← after? ':' rest)
  let (second, rest) ← number? 2 2 (← after? ':' rest)
  let (micro, rest) := match rest with
    | '.' :: rest => (micros (rest.takeWhile Char.isDigit), rest.dropWhile Char.isDigit)
    | _ => (0, rest)
  let offset ← offset? rest
  some { hour, minute, second, micro, offset }

/-- Reads a timestamp. Month and day have one digit or two. -/
def parse? (cs : List Char) : Option Moment := do
  let (year, rest) ← number? 4 4 cs
  let (month, rest) ← number? 1 2 (← after? '-' rest)
  let (day, rest) ← number? 1 2 (← after? '-' rest)
  if rest.isEmpty then some { year, month, day, time := none }
  else
    let time ← time? rest
    some { year, month, day, time := some time }

/-- Whether a plain scalar is a timestamp: a date alone has two digits for month and day. -/
def isTimestamp (cs : List Char) : Bool :=
  (parse? cs).any fun t => t.time.isSome || cs.length == 10

end Timestamp

example : Timestamp.isTimestamp "2001-12-14t21:59:43.10-05:00".toList := by decide +kernel

example : ¬ Timestamp.isTimestamp "2001-1-2".toList := by decide +kernel

end TreeMatch.Yaml
