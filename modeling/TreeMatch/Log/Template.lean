import TreeMatch.Numeric.Shortest
import TreeMatch.Text.DecimalDigit
import TreeMatch.Tree.Written

/-!
# Message templates

A template is a text with conversions `%…` that arguments fill in. A conversion may name an entry of
a map in parentheses; then come flags, a width, a precision, and the letter that says how the
argument is written. Two percent signs in a row stand for one. Without names every conversion takes
the next argument, and in the end none may be left.
-/

namespace TreeMatch

/-- Why a template cannot be filled in. -/
inductive TemplateFault where
  /-- The template ends within a conversion. -/
  | incomplete
  /-- The template ends within a name. -/
  | incompleteName
  /-- There are fewer arguments than conversions. -/
  | tooFewArguments
  /-- There are more arguments than conversions. -/
  | tooManyArguments
  /-- A conversion has a name, but the arguments have none. -/
  | needsMap
  /-- There is no argument of this name. -/
  | missingName (name : String)
  /-- A width or precision is taken from an argument that is no whole number. -/
  | starNeedsInteger
  /-- A width is too large. -/
  | widthTooLarge
  /-- A precision is too large. -/
  | precisionTooLarge
  /-- A width that is taken from an argument is too large. -/
  | widthArgumentTooLarge
  /-- A precision that is taken from an argument is too large. -/
  | precisionArgumentTooLarge
  /-- There is no conversion of this letter. -/
  | unknownConversion (letter : Char) (position : Nat)
  /-- A conversion to decimal digits has an argument of a type that is no number. -/
  | needsNumber (letter : Char) (typeName : String)
  /-- A conversion to octal or hexadecimal digits has an argument of a type that is no whole number.
  -/
  | needsInteger (letter : Char) (typeName : String)
  /-- A conversion to a floating point number has an argument of a type that is no number. -/
  | needsReal (typeName : String)
  /-- NaN is converted to a whole number. -/
  | nanToInteger
  /-- An infinity is converted to a whole number. -/
  | infinityToInteger
  /-- A whole number is too large for a floating point number. -/
  | beyondFloat
  /-- A number is no code point. -/
  | noCodePoint
  /-- An argument stands for no character. -/
  | noCharacter
deriving DecidableEq, Repr

/-- What is said about a fault. -/
def TemplateFault.message : TemplateFault → String
  | .incomplete => "incomplete format"
  | .incompleteName => "incomplete format key"
  | .tooFewArguments => "not enough arguments for format string"
  | .tooManyArguments => "not all arguments converted during string formatting"
  | .needsMap => "format requires a mapping"
  | .missingName name => quoted name
  | .starNeedsInteger => "* wants int"
  | .widthTooLarge => "width too big"
  | .precisionTooLarge => "precision too big"
  | .widthArgumentTooLarge => "Python int too large to convert to C ssize_t"
  | .precisionArgumentTooLarge => "Python int too large to convert to C int"
  | .unknownConversion letter position =>
    let shown := if 31 ≤ letter.toNat ∧ letter.toNat ≤ 126 then letter else '?'
    "unsupported format character '" ++ String.singleton shown ++ "' (0x" ++
      String.ofList (Nat.toDigits 16 letter.toNat) ++ ") at index " ++ toString position
  | .needsNumber letter typeName =>
    "%" ++ String.singleton letter ++ " format: a real number is required, not " ++ typeName
  | .needsInteger letter typeName =>
    "%" ++ String.singleton letter ++ " format: an integer is required, not " ++ typeName
  | .needsReal typeName => "must be real number, not " ++ typeName
  | .nanToInteger => "cannot convert float NaN to integer"
  | .infinityToInteger => "cannot convert float infinity to integer"
  | .beyondFloat => "int too large to convert to float"
  | .noCodePoint => "%c arg not in range(0x110000)"
  | .noCharacter => "%c requires int or char"

/-- How a conversion lays out its argument. -/
structure Conversion where
  /-- The text stands at the left of its field. -/
  leftAligned : Bool
  /-- A number that is not negative has a plus sign. -/
  signed : Bool
  /-- A number that is not negative has a blank for its sign. -/
  spaced : Bool
  /-- Digits carry the mark of their base, floating point numbers their point. -/
  alternate : Bool
  /-- Numbers are filled up with zeros. -/
  zeroFilled : Bool
  /-- The least width. -/
  width : Nat
  /-- The precision. -/
  precision : Option Nat

namespace Conversion

/-- The layout without flags. -/
def plain : Conversion := ⟨false, false, false, false, false, 0, none⟩

/-- A text filled up with blanks to the width. -/
def pad (c : Conversion) (cs : List Char) : List Char :=
  let blanks := List.replicate (c.width - cs.length) ' '
  if c.leftAligned then cs ++ blanks else blanks ++ cs

/-- A number of a sign, the mark of its base and its digits, filled up to the width. -/
def layoutNumber (c : Conversion) (negative : Bool) (mark digits : List Char) : List Char :=
  let sign := if negative then ['-'] else if c.signed then ['+'] else if c.spaced then [' '] else []
  if c.zeroFilled && !c.leftAligned then
    let zeros := c.width - (sign.length + mark.length + digits.length)
    sign ++ mark ++ List.replicate zeros '0' ++ digits
  else c.pad (sign ++ mark ++ digits)

/-- A text cut to the precision. -/
def layoutText (c : Conversion) (s : String) : List Char :=
  c.pad (match c.precision with
    | some n => s.toList.take n
    | none => s.toList)

/-- The base and the mark of a conversion to digits. -/
def baseOf : Char → Nat × List Char
  | 'o' => (8, ['0', 'o'])
  | 'x' => (16, ['0', 'x'])
  | 'X' => (16, ['0', 'X'])
  | _ => (10, [])

/-- A whole number in digits, at least as many as the precision. -/
def layoutInteger (c : Conversion) (letter : Char) (n : Int) : List Char :=
  let (base, mark) := baseOf letter
  let digits := Nat.toDigits base n.natAbs
  let digits := if letter == 'X' then digits.map Char.toUpper else digits
  let zeros := List.replicate (c.precision.getD 0 - digits.length) '0'
  c.layoutNumber (n < 0) (if c.alternate then mark else []) (zeros ++ digits)

/-- Digits with a point before the last `places` of them. -/
def withPoint (places : Nat) (showPoint : Bool) (n : Nat) : List Char :=
  let digits := Nat.toDigits 10 n
  let digits := List.replicate (places + 1 - digits.length) '0' ++ digits
  let whole := digits.take (digits.length - places)
  let fraction := digits.drop (digits.length - places)
  if fraction.isEmpty && !showPoint then whole else whole ++ '.' :: fraction

/-- The digits of `a / b` with one before the point and `places` after it, and the power of ten that
they are to be multiplied by. -/
def scientific (places a b : Nat) : Nat × Int :=
  if a = 0 then (0, 0) else
  let k := floorLog10 a b
  let (n, d) := tenPower (k - places)
  let c := roundedQuotient (a * d) (b * n)
  if c = Nat.pow 10 (places + 1) then (Nat.pow 10 places, k + 1) else (c, k)

/-- `a / b` with a fixed number of places after the point. -/
def fixedText (c : Conversion) (places a b : Nat) : List Char :=
  withPoint places c.alternate (roundedQuotient (a * Nat.pow 10 places) b)

/-- `a / b` with an exponent. -/
def scientificText (c : Conversion) (places a b : Nat) : List Char :=
  let (digits, k) := scientific places a b
  withPoint places c.alternate digits ++ 'e' :: exponentText k

/-- `a / b` with a number of significant digits: with an exponent where the power of ten is small or
reaches that number, without zeros at the end unless the point is always shown. -/
def generalText (c : Conversion) (significant a b : Nat) : List Char :=
  let significant := max significant 1
  let (digits, k) := scientific (significant - 1) a b
  if k < -4 ∨ (significant : Int) ≤ k then
    if c.alternate then withPoint (significant - 1) true digits ++ 'e' :: exponentText k
    else DecimalLayout.write ⟨1, 0, false, 'e'⟩ ⟨shown digits, k + 1⟩
  else if c.alternate then
    withPoint (significant - 1 - k).toNat true digits
  else DecimalLayout.write ⟨k + 1, k + 1, false, 'e'⟩ ⟨shown digits, k + 1⟩
where
  /-- The digits without zeros at the end; zero keeps one. -/
  shown (n : Nat) : List Char := if n = 0 then ['0'] else significantDigits n

/-- A floating point number by one of the letters `e`, `f`, `g`, or their capitals. -/
def layoutFloat (c : Conversion) (letter : Char) (x : Binary64) : List Char :=
  let places := c.precision.getD 6
  let unsigned := match x with
    | .nan => ['n', 'a', 'n']
    | .infinite _ => ['i', 'n', 'f']
    | .finite _ m e =>
      let a := m * Nat.pow 2 e.toNat
      let b := Nat.pow 2 (-e).toNat
      match letter.toLower with
      | 'e' => c.scientificText places a b
      | 'f' => c.fixedText places a b
      | _ => c.generalText places a b
  c.layoutNumber x.isNegative [] (if letter.isUpper then unsigned.map Char.toUpper else unsigned)

end Conversion

namespace Template

/-- What is left of a template and of its arguments. -/
structure Filling where
  /-- The rest of the template. -/
  rest : List Char
  /-- The arguments that were not taken yet. -/
  pending : List Value
  /-- The map that names refer to, if there is one. -/
  named : Option (List (Key × Value))

/-- Work on a template, which may fail. -/
abbrev Fill := StateT Filling (Except TemplateFault)

/-- Takes the next character; the template must not end here. -/
def take : Fill Char := do
  match (← get).rest with
  | [] => throw .incomplete
  | c :: rest =>
    modify ({ · with rest })
    return c

/-- The next character, if there is one. -/
def peek? : Fill (Option Char) := return (← get).rest.head?

/-- Takes the next argument. -/
def argument : Fill Value := do
  match (← get).pending with
  | [] => throw .tooFewArguments
  | v :: pending =>
    modify ({ · with pending })
    return v

/-- The whole number that an argument is, truth values included. -/
def integer? : Value → Option Int
  | .scalar (.int n) => some n
  | .scalar (.bool b) => some (if b then 1 else 0)
  | _ => none

/-- The name in parentheses, up to the one that closes it, and what follows. -/
def nameText? : Nat → List Char → Option (List Char × List Char)
  | _, [] => none
  | depth, c :: rest =>
    if c = ')' ∧ depth = 0 then some ([], rest)
    else
      let depth := if c = '(' then depth + 1 else if c = ')' then depth - 1 else depth
      (nameText? depth rest).map fun p => (c :: p.1, p.2)

/-- Takes a name in parentheses, if one stands here; its value becomes the only argument left. -/
def name : Fill Unit := do
  let s ← get
  match s.rest with
  | '(' :: rest =>
    match s.named with
    | none => throw .needsMap
    | some entries =>
      match nameText? 0 rest with
      | none => throw .incompleteName
      | some (name, rest) =>
        let name := String.ofList name
        match Assoc.get? Key.same (.scalar (.str name)) entries with
        | none => throw (.missingName name)
        | some v => set { s with rest, pending := [v] }
  | _ => return

/-- Takes flags. -/
def flags : Nat → Conversion → Fill Conversion
  | 0, c => return c
  | fuel + 1, c => do
    let more (c : Conversion) : Fill Conversion := do
      discard take
      flags fuel c
    match ← peek? with
    | some '-' => more { c with leftAligned := true }
    | some '+' => more { c with signed := true }
    | some ' ' => more { c with spaced := true }
    | some '#' => more { c with alternate := true }
    | some '0' => more { c with zeroFilled := true }
    | _ => return c

/-- Takes the digits of a number, if any. -/
def digits : Fill (Option Nat) := do
  let s ← get
  let run := s.rest.takeWhile Char.isDigit
  if run.isEmpty then return none
  set { s with rest := s.rest.drop run.length }
  return some (digitsValue run)

/-- Takes a number from the template, or for a star from the arguments. The number is at most
`greatest`; for each of the two ways to exceed that there is a fault. -/
def number (greatest : Nat) (written taken : TemplateFault) : Fill (Option Int) := do
  match ← peek? with
  | some '*' =>
    discard take
    match integer? (← argument) with
    | some n => if greatest < n ∨ n < -(greatest + 1 : Int) then throw taken else return some n
    | none => throw .starNeedsInteger
  | _ =>
    match ← digits with
    | some n => if greatest < n then throw written else return some (Int.ofNat n)
    | none => return none

/-- Takes a width; a negative one puts the text to the left. -/
def width (c : Conversion) : Fill Conversion := do
  match ← number (Nat.pow 2 63 - 1) .widthTooLarge .widthArgumentTooLarge with
  | none => return c
  | some n => return { c with width := n.natAbs, leftAligned := c.leftAligned || n < 0 }

/-- Takes a precision after a point; a negative or missing one is zero. -/
def precision (c : Conversion) : Fill Conversion := do
  match ← peek? with
  | some '.' =>
    discard take
    let n ← number (Nat.pow 2 31 - 1) .precisionTooLarge .precisionArgumentTooLarge
    return { c with precision := some (n.getD 0).toNat }
  | _ => return c

/-- Passes a letter for the size of a number, which has no meaning. -/
def sizeLetter : Fill Unit := do
  match ← peek? with
  | some 'h' | some 'l' | some 'L' => discard take
  | _ => return

/-- The whole number that an argument converts to by a letter. -/
def asInteger (letter : Char) (v : Value) : Except TemplateFault Int :=
  match integer? v with
  | some n => .ok n
  | none =>
    if letter == 'o' || letter == 'x' || letter == 'X' then
      .error (.needsInteger letter v.typeName)
    else
      match v with
      | .scalar (.float .nan) => .error .nanToInteger
      | .scalar (.float x) =>
        match x.truncate? with
        | some n => .ok n
        | none => .error .infinityToInteger
      | _ => .error (.needsNumber letter v.typeName)

/-- The floating point number that an argument converts to. -/
def asFloat (v : Value) : Except TemplateFault Binary64 :=
  match v with
  | .scalar (.float x) => .ok x
  | _ =>
    match integer? v with
    | some n =>
      match Binary64.ofInt n with
      | .infinite _ => .error .beyondFloat
      | x => .ok x
    | none => .error (.needsReal v.typeName)

/-- The character that an argument stands for. -/
def asCharacter (v : Value) : Except TemplateFault Char :=
  match v with
  | .scalar (.str s) =>
    match s.toList with
    | [c] => .ok c
    | _ => .error .noCharacter
  | _ =>
    match integer? v with
    | some n => if 0 ≤ n ∧ n < 0x110000 then .ok (Char.ofNat n.toNat) else .error .noCodePoint
    | none => .error .noCharacter

/-- Writes the next argument as a letter says. -/
def convert (c : Conversion) (letter : Char) (position : Nat) : Fill (List Char) := do
  match letter with
  | 's' => return c.layoutText (← argument).text
  | 'r' => return c.layoutText (← argument).written
  | 'a' => return c.layoutText (asciiOnly (← argument).written)
  | 'd' | 'i' | 'u' | 'o' | 'x' | 'X' =>
    return c.layoutInteger letter (← (asInteger letter (← argument) : Except TemplateFault Int))
  | 'e' | 'E' | 'f' | 'F' | 'g' | 'G' =>
    return c.layoutFloat letter (← (asFloat (← argument) : Except TemplateFault Binary64))
  | 'c' => return c.pad [← (asCharacter (← argument) : Except TemplateFault Char)]
  | _ =>
    discard argument
    throw (.unknownConversion letter position)

/-- Fills in a template of `total` characters from here on. Every step takes a character. -/
def fillFrom (total : Nat) : Nat → Fill (List Char)
  | 0 => return []
  | fuel + 1 => do
    match (← get).rest with
    | [] => return []
    | '%' :: '%' :: rest =>
      modify ({ · with rest })
      return '%' :: (← fillFrom total fuel)
    | '%' :: rest =>
      modify ({ · with rest })
      name
      let c ← flags rest.length .plain
      let c ← precision (← width c)
      sizeLetter
      let letter ← take
      let text ← convert c letter (total - (← get).rest.length - 1)
      return text ++ (← fillFrom total fuel)
    | c :: rest =>
      modify ({ · with rest })
      return c :: (← fillFrom total fuel)

/-- Fills in a template. One argument that is a map with entries serves names, and may also be taken
as it is. -/
def fill (template : String) (arguments : List Value) : Except TemplateFault String := do
  let cs := template.toList
  let named := match arguments with
    | [.map (e :: es)] => some (e :: es)
    | _ => none
  let (text, s) ← (fillFrom cs.length (cs.length + 1)).run ⟨cs, arguments, named⟩
  if named.isNone && !s.pending.isEmpty then throw .tooManyArguments
  return String.ofList text

end Template

end TreeMatch
