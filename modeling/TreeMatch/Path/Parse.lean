import TreeMatch.Numeric.Decimal
import TreeMatch.Path.Basic

/-!
# Paths read from text

`Path.parse` splits a text at its dots and reads every segment as one step. A segment of digits in
brackets is an index; digits of every script count, and a line feed may follow the closing bracket.
Any other segment in brackets and any empty segment is refused, every other one is the name of a
key. The leftmost fault decides the answer. The empty text is the root.
-/

namespace TreeMatch

/-- Why a text is no path. -/
inductive PathFault where
  /-- An index has more digits than `digitLimit`. -/
  | tooManyDigits (count : Nat)
  /-- A segment in brackets is no index. -/
  | malformedIndex (segment : String)
  /-- A segment is empty. -/
  | emptySegment
deriving DecidableEq, Repr

namespace Path

/-- The digits of a segment that has the shape of an index. -/
def indexDigits? : List Char → Option (List Char)
  | '[' :: rest =>
    let digits := rest.takeWhile isDecimalDigit
    if digits.isEmpty then none
    else if rest.dropWhile isDecimalDigit = [']'] ∨ rest.dropWhile isDecimalDigit = [']', '\n'] then
      some digits
    else none
  | _ => none

/-- Whether a segment stands in brackets. -/
def isBracketed (segment : List Char) : Bool :=
  segment.head? == some '[' && segment.getLast? == some ']'

/-- Reads one segment. -/
def readSegment (segment : List Char) : Except PathFault Step :=
  match indexDigits? segment with
  | some digits =>
    if digitLimit < digits.length then .error (.tooManyDigits digits.length)
    else .ok (.index (digitsValue digits))
  | none =>
    if isBracketed segment then .error (.malformedIndex (String.ofList segment))
    else if segment.isEmpty then .error .emptySegment
    else .ok (.key (String.ofList segment))

/-- Reads segments from left to right up to the first fault. -/
def readSegments : List (List Char) → Except PathFault Path
  | [] => .ok []
  | segment :: rest => do
    let step ← readSegment segment
    let steps ← readSegments rest
    pure (step :: steps)

/-- Reads a path of the form `key.[0].other_key.[1]`. -/
def parse (text : String) : Except PathFault Path :=
  if text.isEmpty then .ok root else readSegments (text.toList.splitOn '.')

end Path

end TreeMatch
