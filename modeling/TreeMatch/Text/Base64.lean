/-!
# Base64

Bytes written with 64 characters, four of them for three bytes. The reader passes over every
character that is no digit, stops where padding completes a group, and fails if a group remains
incomplete.
-/

namespace TreeMatch.Base64

/-- The value of a digit. -/
def digit? (c : Char) : Option Nat :=
  if 'A' ≤ c ∧ c ≤ 'Z' then some (c.toNat - 65)
  else if 'a' ≤ c ∧ c ≤ 'z' then some (c.toNat - 97 + 26)
  else if '0' ≤ c ∧ c ≤ '9' then some (c.toNat - 48 + 52)
  else if c = '+' then some 62
  else if c = '/' then some 63
  else none

/-- The byte that a digit completes, given the digit before it and its place in the group. -/
def completed (place before value : Nat) : List UInt8 :=
  match place with
  | 1 => [UInt8.ofNat (before * 4 + value / 16)]
  | 2 => [UInt8.ofNat (before % 16 * 16 + value / 4)]
  | 3 => [UInt8.ofNat (before % 4 * 64 + value)]
  | _ => []

/-- Decodes from the given place of a group on, after the digit `before` and `pads` padding
characters. -/
def decodeFrom (place before pads : Nat) : List Char → Option (List UInt8)
  | [] => if place = 0 then some [] else none
  | c :: rest =>
    if c = '=' then
      if 2 ≤ place ∧ 4 ≤ place + pads + 1 then some []
      else decodeFrom place before (if 2 ≤ place then pads + 1 else pads) rest
    else
      match digit? c with
      | none => decodeFrom place before pads rest
      | some value =>
        (decodeFrom ((place + 1) % 4) value 0 rest).map (completed place before value ++ ·)

/-- Decodes a text. -/
def decode? (cs : List Char) : Option (List UInt8) := decodeFrom 0 0 0 cs

example : decode? "aGk=".toList = some [0x68, 0x69] := by decide +kernel

example : decode? "aGk".toList = none := by decide +kernel

end TreeMatch.Base64
