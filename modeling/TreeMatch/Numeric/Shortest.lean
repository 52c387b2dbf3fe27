import TreeMatch.Numeric.Binary64

/-!
# The fewest digits that read back

`shortest m e` finds the decimal with the fewest significant digits among those that round to the
binary64 number `m · 2 ^ e`, and of these the nearest one. The search is over the grids of `1, 2, …,
17` digits; on each grid only the two neighbours of the number are candidates, because a grid that
has a point in the rounding interval has one of the two neighbours in it. `DecimalLayout` lays
digits and decimal point out as text.
-/

namespace TreeMatch

/-- The positive decimal `0.d₁d₂… · 10 ^ point` for the digits `d₁d₂…` of `digits`. -/
structure Decimal where
  /-- The significant digits. -/
  digits : List Char
  /-- Where the decimal point stands, counted from before the first digit. -/
  point : Int
deriving Repr, DecidableEq

/-- The power `10 ^ k`, as a numerator and a denominator. -/
def tenPower (k : Int) : Nat × Nat := (Nat.pow 10 k.toNat, Nat.pow 10 (-k).toNat)

/-- The greatest `k` with `10 ^ k ≤ a / b`, for positive `a` and `b`: an estimate from the binary
logarithm and the neighbours that the estimate may miss it by. -/
def floorLog10 (a b : Nat) : Int :=
  let guess := floorLog2 a b * 30103 / 100000
  let reaches (k : Int) : Bool :=
    let (n, d) := tenPower k
    n * b ≤ a * d
  if reaches (guess + 1) then guess + 1 else if reaches guess then guess else guess - 1

/-- The rounding interval of a positive number, in quarters of its last place. -/
structure RoundingInterval where
  /-- The number itself is `value / scale`. -/
  value : Nat
  /-- The lower end is `low / scale`. -/
  low : Nat
  /-- The upper end is `high / scale`. -/
  high : Nat
  /-- The common denominator. -/
  scale : Nat
  /-- Whether the ends belong to the interval: ties go to an even mantissa. -/
  closed : Bool

/-- The interval of the number `m · 2 ^ e`. Below a power of two the neighbour is only half as
far. -/
def RoundingInterval.of (m : Nat) (e : Int) : RoundingInterval :=
  let unit := Nat.pow 2 e.toNat
  let below := if m = Nat.pow 2 52 ∧ Binary64.leastExponent < e then 1 else 2
  { value := 4 * m * unit, low := (4 * m - below) * unit, high := (4 * m + 2) * unit
    scale := 4 * Nat.pow 2 (-e).toNat, closed := m % 2 = 0 }

/-- Whether the quotient `a / b` lies in the interval. -/
def RoundingInterval.contains (i : RoundingInterval) (a b : Nat) : Bool :=
  if i.closed then i.low * b ≤ a * i.scale && a * i.scale ≤ i.high * b
  else i.low * b < a * i.scale && a * i.scale < i.high * b

/-- The nearer of the two neighbours on the grid of the multiples of `10 ^ k` that lies in the
interval; of two equally near ones the even one. -/
def RoundingInterval.gridPoint? (i : RoundingInterval) (k : Int) : Option Nat :=
  let (n, d) := tenPower k
  let c := i.value * d / (i.scale * n)
  let inside (c : Nat) : Bool := i.contains (c * n) d
  let nearest := roundedQuotient (i.value * d) (i.scale * n)
  if inside nearest then some nearest
  else if inside c then some c
  else if inside (c + 1) then some (c + 1)
  else none

/-- The digits of a number without trailing zeros. -/
def significantDigits (n : Nat) : List Char :=
  ((Nat.toDigits 10 n).reverse.dropWhile (· == '0')).reverse

/-- The shortest decimal that rounds to the positive number `m · 2 ^ e`, the nearest of them. -/
def shortest (m : Nat) (e : Int) : Decimal :=
  let i := RoundingInterval.of m e
  let k := floorLog10 i.value i.scale
  let onGrid (places : Nat) : Option Decimal :=
    (i.gridPoint? (k - places)).map fun c =>
      ⟨significantDigits c, k - places + (Nat.toDigits 10 c).length⟩
  ((List.range 17).findSome? onGrid).getD ⟨['0'], 1⟩

/-- How decimals are written: the range of points that is written positionally, and the form of an
exponent. -/
structure DecimalLayout where
  /-- The least point that is written positionally. -/
  leastPoint : Int
  /-- The greatest point that is written positionally. -/
  greatestPoint : Int
  /-- Whether a whole number written positionally ends in `.0`. -/
  keepsPoint : Bool
  /-- The letter before an exponent, which has a sign and at least two digits. -/
  exponentMark : Char

/-- An exponent with its sign and at least two digits. -/
def exponentText (e : Int) : List Char :=
  let digits := Nat.toDigits 10 e.natAbs
  (if e < 0 then '-' else '+') :: (if digits.length < 2 then '0' :: digits else digits)

/-- Digits and point as text. -/
def DecimalLayout.write (l : DecimalLayout) (x : Decimal) : List Char :=
  if l.leastPoint ≤ x.point ∧ x.point ≤ l.greatestPoint then
    if x.point ≤ 0 then '0' :: '.' :: (List.replicate (-x.point).toNat '0' ++ x.digits)
    else
      let n := x.point.toNat
      let whole := x.digits.take n ++ List.replicate (n - x.digits.length) '0'
      match x.digits.drop n with
      | [] => if l.keepsPoint then whole ++ ['.', '0'] else whole
      | fraction => whole ++ '.' :: fraction
  else
    (match x.digits with
      | d :: e :: rest => d :: '.' :: e :: rest
      | digits => digits) ++ l.exponentMark :: exponentText (x.point - 1)

/-- Floating point values are written positionally from `0.0001` up to below `10 ^ 16`, whole ones
with `.0`, and with a signed exponent of two digits or more outside. -/
def floatLayout : DecimalLayout := ⟨-3, 16, true, 'e'⟩

/-- The text of a binary64 number: the fewest digits that read back. -/
def Binary64.text : Binary64 → String
  | .nan => "nan"
  | .infinite negative => if negative then "-inf" else "inf"
  | .finite negative m e =>
    let unsigned :=
      if m = 0 then ['0', '.', '0'] else floatLayout.write (shortest m e)
    String.ofList (if negative then '-' :: unsigned else unsigned)

example : (Binary64.ofDecimal false 1 16).text = "1e+16" := by decide +kernel

example : (Binary64.ofDecimal false 123 (-6)).text = "0.000123" := by decide +kernel

example : (Binary64.ofDecimal true 5 (-324)).text = "-5e-324" := by decide +kernel

example : (Binary64.ofDecimal false 1 15).text = "1000000000000000.0" := by decide +kernel

end TreeMatch
