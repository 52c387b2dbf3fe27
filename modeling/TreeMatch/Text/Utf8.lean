/-!
# UTF-8

`Utf8.decode` reads bytes as text, or says where and why they are none. A lead byte fixes how many
bytes follow it and which second bytes are allowed, so that overlong forms, surrogates and code
points beyond the last one are refused at the second byte. The faulty span ends before the first
byte that does not fit; at the end of the input it is everything from the lead byte on.
-/

namespace TreeMatch

/-- Why bytes are no UTF-8. -/
inductive Utf8Reason where
  /-- A byte cannot begin a character. -/
  | invalidStart
  /-- A byte cannot go on with a character. -/
  | invalidContinuation
  /-- The input ends within a character. -/
  | unexpectedEnd
deriving DecidableEq, Repr

/-- The faulty bytes, and what is wrong with them. -/
structure Utf8Fault where
  /-- The position of the first faulty byte. -/
  position : Nat
  /-- The faulty bytes. -/
  bytes : List UInt8
  /-- What is wrong. -/
  reason : Utf8Reason
deriving DecidableEq, Repr

namespace Utf8

/-- What follows a lead byte. -/
structure Lead where
  /-- The bits of the code point in the lead byte. -/
  bits : Nat
  /-- The number of bytes to follow. -/
  count : Nat
  /-- The least second byte. -/
  least : UInt8
  /-- The greatest second byte. -/
  greatest : UInt8

/-- The meaning of a byte as the first of a character. -/
def lead? (b : UInt8) : Option Lead :=
  if b < 0x80 then some ⟨b.toNat, 0, 0x80, 0xBF⟩
  else if 0xC2 ≤ b ∧ b ≤ 0xDF then some ⟨b.toNat - 0xC0, 1, 0x80, 0xBF⟩
  else if 0xE0 ≤ b ∧ b ≤ 0xEF then
    some ⟨b.toNat - 0xE0, 2, if b = 0xE0 then 0xA0 else 0x80, if b = 0xED then 0x9F else 0xBF⟩
  else if 0xF0 ≤ b ∧ b ≤ 0xF4 then
    some ⟨b.toNat - 0xF0, 3, if b = 0xF0 then 0x90 else 0x80, if b = 0xF4 then 0x8F else 0xBF⟩
  else none

/-- Takes up to `count` bytes that go on with a character, the first of them between `least` and
`greatest`. -/
def continuation (least greatest : UInt8) : Nat → List UInt8 → List UInt8
  | count + 1, b :: bs =>
    if least ≤ b ∧ b ≤ greatest then b :: continuation 0x80 0xBF count bs else []
  | _, _ => []

/-- The first character of a byte string, with the number of bytes after the first one that it
takes; otherwise the faulty bytes. -/
def first (b : UInt8) (bs : List UInt8) : Except (List UInt8 × Utf8Reason) (Char × Nat) :=
  match lead? b with
  | none => .error ([b], .invalidStart)
  | some l =>
    let taken := continuation l.least l.greatest l.count bs
    if taken.length = l.count then
      .ok (Char.ofNat (taken.foldl (fun n c => 64 * n + (c.toNat - 0x80)) l.bits), l.count)
    else if taken.length = bs.length then .error (b :: taken, .unexpectedEnd)
    else .error (b :: taken, .invalidContinuation)

/-- Decodes bytes, the first of which stands at `position`. -/
def decodeFrom (position : Nat) (input : List UInt8) : Except Utf8Fault (List Char) :=
  match input with
  | [] => .ok []
  | b :: bs =>
    match first b bs with
    | .error (bytes, reason) => .error ⟨position, bytes, reason⟩
    | .ok (c, n) => (decodeFrom (position + n + 1) (bs.drop n)).map (c :: ·)
termination_by input.length
decreasing_by simp only [List.length_drop, List.length_cons]; omega

/-- Decodes bytes. -/
def decode (input : List UInt8) : Except Utf8Fault (List Char) := decodeFrom 0 input

end Utf8

/-- A text with each line break, `\r\n` or `\r` alone included, as a line feed. -/
def universalNewlines : List Char → List Char
  | '\r' :: '\n' :: cs => '\n' :: universalNewlines cs
  | '\r' :: cs => '\n' :: universalNewlines cs
  | c :: cs => c :: universalNewlines cs
  | [] => []

example : (Utf8.decode [0xC3, 0xA9]).toOption = some ['é'] := by decide +kernel

example : (Utf8.decode [0xED, 0xA0, 0x80]).toOption = none := by decide +kernel

end TreeMatch
