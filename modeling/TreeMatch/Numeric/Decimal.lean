import TreeMatch.Numeric.Binary64
import TreeMatch.Text.DecimalDigit
import TreeMatch.Text.Quoted

/-!
# Numbers read from text

Readers for whole numbers and for binary64 numbers in decimal notation. Digits of every script
count, a single underscore may stand between two digits, and blanks around the number are dropped. A
whole number of more than `digitLimit` digits is refused, leading zeros included, and so is a text
that only begins with one.
-/

namespace TreeMatch

/-- The greatest number of decimal digits that a whole number may be written with. -/
def digitLimit : Nat := 4300

/-- Why a text is no number. -/
inductive NumberFault where
  /-- A whole number has more digits than `digitLimit`. -/
  | tooManyDigits (count : Nat)
  /-- The text is no whole number of the base. -/
  | notInteger (base : Nat) (text : String)
  /-- The text is no number. -/
  | notNumber (text : String)
  /-- A whole number is beyond the range of binary64. -/
  | beyondRange
deriving DecidableEq, Repr

/-- How much of a text in quotes is shown when it is no whole number. -/
def shownLength : Nat := 200

/-- What is said about a text that is no number. -/
def NumberFault.message : NumberFault → String
  | .tooManyDigits count =>
    "Exceeds the limit (" ++ toString digitLimit ++
      " digits) for integer string conversion: value has " ++ toString count ++
      " digits; use sys.set_int_max_str_digits() to increase the limit"
  | .notInteger base text =>
    "invalid literal for int() with base " ++ toString base ++ ": " ++
      String.ofList ((quoted text).toList.take shownLength)
  | .notNumber text => "could not convert string to float: " ++ quoted text
  | .beyondRange => "int too large to convert to float"

/-- Whether a character is a blank of any script. -/
def isBlank (c : Char) : Bool :=
  let n := c.toNat
  (0x09 ≤ n && n ≤ 0x0D) || (0x1C ≤ n && n ≤ 0x20) || n == 0x85 || n == 0xA0 || n == 0x1680 ||
    (0x2000 ≤ n && n ≤ 0x200A) || n == 0x2028 || n == 0x2029 || n == 0x202F || n == 0x205F ||
    n == 0x3000

/-- Whether a character is a separator control: one of the blanks that may not stand around a
number. -/
def isSeparatorControl (c : Char) : Bool := 0x1C ≤ c.toNat && c.toNat ≤ 0x1F

/-- A text without the blanks around it. -/
def trimBlanks (cs : List Char) : List Char :=
  let isDropped (c : Char) : Bool := isBlank c && !isSeparatorControl c
  ((cs.dropWhile isDropped).reverse.dropWhile isDropped).reverse

/-- Splits off a leading sign; the flag says that it is minus. -/
def splitSign : List Char → Bool × List Char
  | '-' :: cs => (true, cs)
  | '+' :: cs => (false, cs)
  | cs => (false, cs)

/-- The value of a digit in bases up to 36; letters of either case count from ten on. -/
def baseDigit? (base : Nat) (c : Char) : Option Nat :=
  let value :=
    match decimalDigit? c with
    | some d => some d
    | none =>
      if 'a' ≤ c ∧ c ≤ 'z' then some (c.toNat - 'a'.toNat + 10)
      else if 'A' ≤ c ∧ c ≤ 'Z' then some (c.toNat - 'A'.toNat + 10)
      else none
  value.filter (· < base)

/-- The values of a non-empty run of digits in which single underscores may stand between two
digits. -/
def groupedDigits? (base : Nat) : List Char → Option (List Nat)
  | [] => none
  | [c] => (baseDigit? base c).map ([·])
  | c :: '_' :: rest => do
    let d ← baseDigit? base c
    let ds ← groupedDigits? base rest
    pure (d :: ds)
  | c :: rest => do
    let d ← baseDigit? base c
    let ds ← groupedDigits? base rest
    pure (d :: ds)

/-- The number that digits of a base write, most significant digit first. -/
def ofDigits (base : Nat) (ds : List Nat) : Nat := ds.foldl (fun n d => base * n + d) 0

/-- Whether a base is a power of two; such bases have no digit limit. -/
def isBinaryBase (base : Nat) : Bool := [2, 4, 8, 16, 32].contains base

/-- The letter that may stand after a zero in front of the digits of a base. -/
def baseLetter? : Nat → Option Char
  | 2 => some 'b'
  | 8 => some 'o'
  | 16 => some 'x'
  | _ => none

/-- The digits without the zero and the letter that name the base, if they stand there. -/
def dropBaseMark (base : Nat) : List Char → List Char
  | '0' :: c :: rest => if baseLetter? base = some c.toLower then rest else '0' :: c :: rest
  | cs => cs

/-- The digits that a text begins with. -/
def leadingDigits? (base : Nat) (cs : List Char) : Option (List Nat) :=
  groupedDigits? base (cs.takeWhile fun c => (baseDigit? base c).isSome || c == '_')

/-- Whether digits of a base are more than are allowed. -/
def hasTooManyDigits (base : Nat) (digits : List Nat) : Bool :=
  digitLimit < digits.length && !isBinaryBase base

/-- Reads a whole number of a base: blanks around it, a sign, and digits. -/
def readInteger (base : Nat) (text : String) : Except NumberFault Int :=
  let (negative, body) := splitSign (trimBlanks text.toList)
  let body := dropBaseMark base body
  let leading := (leadingDigits? base body).getD []
  if hasTooManyDigits base leading then .error (.tooManyDigits leading.length)
  else
    match groupedDigits? base body with
    | none => .error (.notInteger base text)
    | some ds => .ok (if negative then -(ofDigits base ds : Int) else ofDigits base ds)

/-- A decimal text split into the digits before the point, those after it, and the exponent. -/
structure DecimalParts where
  /-- The digits before the point. -/
  whole : List Nat
  /-- The digits after the point. -/
  fraction : List Nat
  /-- The exponent with its sign. -/
  exponent : Int

/-- The number that the parts write. -/
def DecimalParts.toBinary64 (negative : Bool) (p : DecimalParts) : Binary64 :=
  Binary64.ofDecimal negative (ofDigits 10 (p.whole ++ p.fraction)) (p.exponent - p.fraction.length)

/-- A possibly empty run of grouped digits. -/
def optionalDigits? (cs : List Char) : Option (List Nat) :=
  if cs.isEmpty then some [] else groupedDigits? 10 cs

/-- Splits a decimal text into its parts. At least one digit stands before the exponent. -/
def decimalParts? (cs : List Char) : Option DecimalParts := do
  let isMark (c : Char) : Bool := c == 'e' || c == 'E'
  let exponent ← match cs.dropWhile (!isMark ·) with
    | [] => pure 0
    | _ :: tail =>
      let (negative, digits) := splitSign tail
      let ds ← groupedDigits? 10 digits
      pure (if negative then -(ofDigits 10 ds : Int) else (ofDigits 10 ds : Int))
  let body := cs.takeWhile (!isMark ·)
  let whole ← optionalDigits? (body.takeWhile (· != '.'))
  let fraction ← optionalDigits? ((body.dropWhile (· != '.')).drop 1)
  if whole.isEmpty && fraction.isEmpty then none
  else pure { whole, fraction, exponent }

/-- Reads a binary64 number: blanks around it, a sign, and a decimal, `inf`, `infinity` or `nan` in
either case. -/
def readBinary64 (text : String) : Except NumberFault Binary64 :=
  let (negative, body) := splitSign (trimBlanks text.toList)
  match String.ofList (body.map Char.toLower) with
  | "inf" | "infinity" => .ok (.infinite negative)
  | "nan" => .ok .nan
  | _ =>
    match decimalParts? body with
    | some p => .ok (p.toBinary64 negative)
    | none => .error (.notNumber text)

end TreeMatch
