import TreeMatch.Text.Hex
import TreeMatch.Yaml.Timestamp

/-!
# Tags of scalars

A node without a tag of its own gets one: a collection that of its kind, a scalar in quotes that of
a text, and a plain scalar the tag whose written form it has. Numbers have decimal, binary, octal,
hexadecimal and base 60 forms with underscores among the digits; a floating point number needs a
point, and a sign in its exponent.
-/

namespace TreeMatch.Yaml

/-- A tag of the core vocabulary. -/
def coreTag (name : String) : String := "tag:yaml.org,2002:" ++ name

namespace Scalar

/-- Whether a character is a digit or an underscore. -/
def isDigitOrLow (c : Char) : Bool := c.isDigit || c == '_'

/-- Whether a text is a non-empty run of a class. -/
def isRunOf (p : Char → Bool) (cs : List Char) : Bool := !cs.isEmpty && cs.all p

/-- Whether a text is digits and underscores after a first digit of a class. -/
def isDigitsFrom (p : Char → Bool) : List Char → Bool
  | c :: rest => p c && rest.all isDigitOrLow
  | [] => false

/-- A text without its sign. -/
def unsigned : List Char → List Char
  | '-' :: rest | '+' :: rest => rest
  | cs => cs

/-- Whether a text is one place of a number of base 60. -/
def isBase60Place : List Char → Bool
  | [d] => d.isDigit
  | [t, d] => '0' ≤ t && t ≤ '5' && d.isDigit
  | _ => false

/-- Whether a text is several places of base 60, the first of which begins with a digit of a class.
-/
def isBase60 (p : Char → Bool) (cs : List Char) : Bool :=
  match cs.splitOn ':' with
  | head :: place :: places => isDigitsFrom p head && (place :: places).all isBase60Place
  | _ => false

/-- Whether a digit is not zero. -/
def isNonZero (c : Char) : Bool := '1' ≤ c && c ≤ '9'

/-- Whether a plain scalar is a whole number. -/
def isInteger (cs : List Char) : Bool :=
  let body := unsigned cs
  (match body with
    | '0' :: 'b' :: rest => isRunOf (fun c => c == '0' || c == '1' || c == '_') rest
    | '0' :: 'x' :: rest => isRunOf (fun c => (hexDigit? c).isSome || c == '_') rest
    | '0' :: [] => true
    | '0' :: rest => rest.all fun c => ('0' ≤ c && c ≤ '7') || c == '_'
    | _ => isDigitsFrom isNonZero body) || isBase60 isNonZero body

/-- Whether a text is an exponent with a sign, or empty. -/
def isSignedExponent : List Char → Bool
  | [] => true
  | e :: s :: rest => (e == 'e' || e == 'E') && (s == '-' || s == '+') && isRunOf Char.isDigit rest
  | _ => false

/-- Whether a text is digits and underscores with perhaps an exponent after them. -/
def isFractionTail (cs : List Char) : Bool := isSignedExponent (cs.dropWhile isDigitOrLow)

/-- Whether a plain scalar is a floating point number. -/
def isFloat (cs : List Char) : Bool :=
  let body := unsigned cs
  let whole := body.takeWhile (· != '.')
  match body.dropWhile (· != '.') with
  | [] => false
  | _ :: tail =>
    (isDigitsFrom Char.isDigit whole && isFractionTail tail) ||
      (isBase60 Char.isDigit whole && tail.all isDigitOrLow) ||
      (whole.isEmpty && ["inf", "Inf", "INF"].contains (String.ofList tail)) ||
      (cs.head? == some '.' &&
        ((tail.head?.any Char.isDigit && isFractionTail tail) ||
          ["nan", "NaN", "NAN"].contains (String.ofList tail)))

/-- The words for truth values. -/
def truthWords : List String :=
  ["yes", "Yes", "YES", "no", "No", "NO", "true", "True", "TRUE", "false", "False", "FALSE", "on",
    "On", "ON", "off", "Off", "OFF"]

/-- The words for the absent value. -/
def nullWords : List String := ["", "~", "null", "Null", "NULL"]

/-- A text without a line feed at its end. -/
def withoutFinalBreak (cs : List Char) : List Char :=
  if cs.getLast? == some '\n' then cs.dropLast else cs

/-- The tag of a plain scalar. A line feed at its end does not count. -/
def plainTag (text : String) : String :=
  let all := text.toList
  let cs := withoutFinalBreak all
  let word := String.ofList cs
  if all.head? == some '\n' then coreTag "str"
  else if truthWords.contains word then coreTag "bool"
  else if isFloat cs then coreTag "float"
  else if isInteger cs then coreTag "int"
  else if word == "<<" then coreTag "merge"
  else if nullWords.contains word then coreTag "null"
  else if Timestamp.isTimestamp cs then coreTag "timestamp"
  else if word == "=" then coreTag "value"
  else if word == "!" || word == "&" || word == "*" then coreTag "yaml"
  else coreTag "str"

end Scalar

end TreeMatch.Yaml
