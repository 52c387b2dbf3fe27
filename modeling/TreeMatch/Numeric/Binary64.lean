/-!
# Binary64 numbers, exactly

The numbers of the IEEE 754 format binary64 as signs, mantissas and exponents, so that comparing and
rounding are statements about integers. `Binary64.ofRatio` rounds an exact quotient to the nearest
number of the format, a tie to the even mantissa; every reader and every operation goes through it.
`Binary64.number?` is the exact value, in which an integer and a binary64 number can be compared
without rounding either.
-/

namespace TreeMatch

/-- A binary64 number. A finite one is `± mantissa · 2 ^ exponent` in its canonical form: the
mantissa is below `2 ^ 53`, and either it reaches `2 ^ 52` or the exponent is the least one,
`-1074`. -/
inductive Binary64 where
  /-- Not a number. -/
  | nan
  /-- An infinity. -/
  | infinite (negative : Bool)
  /-- A finite number, zeros of both signs among them. -/
  | finite (negative : Bool) (mantissa : Nat) (exponent : Int)
deriving DecidableEq, Repr, Inhabited

/-- The exact value of a number that is not NaN. -/
inductive Number where
  /-- An infinity. -/
  | infinite (negative : Bool)
  /-- A value `n / 2 ^ k`. -/
  | finite (value : Dyadic)
deriving DecidableEq

/-- The exact value of an integer. -/
def Number.ofInt (n : Int) : Number := .finite (Dyadic.ofInt n)

/-- Whether a value is above zero. -/
def Number.isPositive : Number → Bool
  | .infinite negative => !negative
  | .finite .zero => false
  | .finite (.ofOdd n _ _) => 0 < n

/-- The quotient `a / b` rounded to an integer, a tie to the even one. -/
def roundedQuotient (a b : Nat) : Nat :=
  let q := a / b
  let r := a % b
  if 2 * r < b ∨ (2 * r = b ∧ q % 2 = 0) then q else q + 1

/-- The greatest `e` with `2 ^ e ≤ a / b`, for positive `a` and `b`. -/
def floorLog2 (a b : Nat) : Int :=
  let l : Int := (a.log2 : Int) - b.log2
  if b * Nat.pow 2 l.toNat ≤ a * Nat.pow 2 (-l).toNat then l else l - 1

namespace Binary64

/-- The least exponent of the format. -/
def leastExponent : Int := -1074

/-- The greatest exponent of the format. -/
def greatestExponent : Int := 971

/-- The zero of a sign. -/
def zero (negative : Bool) : Binary64 := .finite negative 0 leastExponent

/-- Rounds `± a / b` to the nearest number, a tie to the even mantissa. A quotient beyond the
greatest finite number becomes infinite. -/
def ofRatio (negative : Bool) (a b : Nat) : Binary64 :=
  if a = 0 then zero negative else
  let e := max (floorLog2 a b - 52) leastExponent
  let m := roundedQuotient (a * Nat.pow 2 (-e).toNat) (b * Nat.pow 2 e.toNat)
  let (m, e) := if m = Nat.pow 2 53 then (Nat.pow 2 52, e + 1) else (m, e)
  if greatestExponent < e then .infinite negative else .finite negative m e

/-- Rounds `± digits · 10 ^ exponent`. Exponents that are far out of range are settled by the number
of digits alone. -/
def ofDecimal (negative : Bool) (digits : Nat) (exponent : Int) : Binary64 :=
  if digits = 0 then zero negative else
  let magnitude := exponent + (Nat.toDigits 10 digits).length
  if 310 < magnitude then .infinite negative
  else if magnitude < -330 then zero negative
  else ofRatio negative (digits * Nat.pow 10 exponent.toNat) (Nat.pow 10 (-exponent).toNat)

/-- The nearest number to an integer. -/
def ofInt (n : Int) : Binary64 := ofRatio (n < 0) n.natAbs 1

/-- Whether the sign is minus. NaN counts as unsigned. -/
def isNegative : Binary64 → Bool
  | .nan => false
  | .infinite negative => negative
  | .finite negative _ _ => negative

/-- The mantissa with its sign. -/
def signed (negative : Bool) (mantissa : Nat) : Int :=
  if negative then -(mantissa : Int) else mantissa

/-- The exact value; NaN has none. -/
def number? : Binary64 → Option Number
  | .nan => none
  | .infinite negative => some (.infinite negative)
  | .finite negative m e => some (.finite (Dyadic.ofIntWithPrec (signed negative m) (-e)))

/-- The number with the other sign. -/
def neg : Binary64 → Binary64
  | .nan => .nan
  | .infinite negative => .infinite !negative
  | .finite negative m e => .finite (!negative) m e

/-- The product, rounded. -/
def mul : Binary64 → Binary64 → Binary64
  | .nan, _ | _, .nan => .nan
  | .finite s m e, .finite t n f =>
    let x := e + f
    ofRatio (s != t) (m * n * Nat.pow 2 x.toNat) (Nat.pow 2 (-x).toNat)
  | .infinite s, .finite t m _ | .finite t m _, .infinite s =>
    if m = 0 then .nan else .infinite (s != t)
  | .infinite s, .infinite t => .infinite (s != t)

/-- The sum, rounded. A sum of zero is minus zero only if both terms are. -/
def add : Binary64 → Binary64 → Binary64
  | .nan, _ | _, .nan => .nan
  | .infinite s, .infinite t => if s = t then .infinite s else .nan
  | .infinite s, _ | _, .infinite s => .infinite s
  | .finite s m e, .finite t n f =>
    let x := min e f
    let total := signed s m * Nat.pow 2 (e - x).toNat + signed t n * Nat.pow 2 (f - x).toNat
    let negative := if total = 0 then s && t else decide (total < 0)
    ofRatio negative (total.natAbs * Nat.pow 2 x.toNat) (Nat.pow 2 (-x).toNat)

/-- The integer that remains when the digits after the point are cut off; NaN and the infinities
have none. -/
def truncate? : Binary64 → Option Int
  | .finite negative m e => some (signed negative (m * Nat.pow 2 e.toNat / Nat.pow 2 (-e).toNat))
  | _ => none

end Binary64

example : Binary64.ofDecimal false 1 0 = .finite false (2 ^ 52) (-52) := by decide +kernel

example : Binary64.ofDecimal false 5 (-324) = .finite false 1 (-1074) := by decide +kernel

example : Binary64.ofDecimal true 1 400 = .infinite true := by decide +kernel

end TreeMatch
