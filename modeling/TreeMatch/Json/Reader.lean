import TreeMatch.Numeric.Decimal
import TreeMatch.Text.Hex
import TreeMatch.Tree.Endless

/-!
# Reading JSON

`Json.read` reads a text as one JSON value. Beyond the standard, `NaN`, `Infinity` and `-Infinity`
are numbers. Objects are maps with text keys, a repeated key keeping its place and taking the last
value. A fault is given by what was wrong and by how much of the text was left there, so that its
line and column can be told from the whole text.

An array or object is read one level deeper than it stands, and there is only so much room for
levels within one another. Besides, the readers of nested values count down a fuel; every second
step consumes a character, so that twice the length of the text is enough.

An escape of half a surrogate pair stands for the replacement character here. Texts with halves that
are not joined are outside the model.
-/

namespace TreeMatch.Json

/-- What is wrong at some place of a text. -/
inductive Reason where
  /-- No value begins here. -/
  | expectedValue
  /-- No key begins here. -/
  | expectedName
  /-- No colon follows a key. -/
  | expectedColon
  /-- Neither a comma nor the end of the container follows a value. -/
  | expectedComma
  /-- A text that begins here does not end. -/
  | unterminatedText
  /-- A control character stands in a text. -/
  | controlCharacter
  /-- A backslash begins no escape. -/
  | invalidEscape
  /-- The four digits of an escape are missing. -/
  | invalidCodePoint
  /-- Something follows the value. -/
  | extraData
  /-- The text begins with a byte order mark. -/
  | byteOrderMark
deriving DecidableEq, Repr

/-- What may hold other values. -/
inductive Container where
  /-- An array. -/
  | array
  /-- An object. -/
  | object
deriving DecidableEq, Repr

/-- Why a text is not read. -/
inductive Fault where
  /-- It is no JSON: something is wrong where `remaining` characters are left. -/
  | malformed (reason : Reason) (remaining : Nat)
  /-- A whole number has more digits than are read. -/
  | tooManyDigits (count : Nat)
  /-- There is no room for a container within the others. -/
  | tooDeep (container : Container)
deriving DecidableEq, Repr

/-- A fault at the beginning of what is left of the text. -/
def fail {α : Type} (reason : Reason) (rest : List Char) : Except Fault α :=
  .error (.malformed reason rest.length)

/-- The room that is left within a container. -/
def deeper (container : Container) : Nat → Except Fault Nat
  | 0 => .error (.tooDeep container)
  | room + 1 => .ok room

/-- Whether a character may stand between tokens. -/
def isSpace (c : Char) : Bool := c == ' ' || c == '\t' || c == '\n' || c == '\r'

/-- The text without leading spaces. -/
def skipSpaces (cs : List Char) : List Char := cs.dropWhile isSpace

/-- Whether a number is the first half of a surrogate pair. -/
def isHighSurrogate (n : Nat) : Bool := 0xD800 ≤ n && n ≤ 0xDBFF

/-- Whether a number is the second half of a surrogate pair. -/
def isLowSurrogate (n : Nat) : Bool := 0xDC00 ≤ n && n ≤ 0xDFFF

/-- The code point of a surrogate pair. -/
def joinSurrogates (high low : Nat) : Nat := 0x10000 + (high - 0xD800) * 0x400 + (low - 0xDC00)

/-- The character of a code point; half a surrogate pair has the replacement character. -/
def scalarChar (n : Nat) : Char :=
  if isHighSurrogate n || isLowSurrogate n then '\uFFFD' else Char.ofNat n

/-- The code point of the four digits after `\u`, which have to be followed by something. The digits
are faulty where `\u` stands, one character before the rest. -/
def fourDigits (rest : List Char) : Except Fault (Nat × List Char) :=
  match rest with
  | a :: b :: c :: d :: e :: tail =>
    match hexValue? [a, b, c, d] with
    | some n => .ok (n, e :: tail)
    | none => .error (.malformed .invalidCodePoint (rest.length + 1))
  | _ => .error (.malformed .invalidCodePoint (rest.length + 1))

/-- The character of an escape of one letter. -/
def shortEscape? : Char → Option Char
  | '"' => some '"'
  | '\\' => some '\\'
  | '/' => some '/'
  | 'b' => some '\x08'
  | 'f' => some '\x0c'
  | 'n' => some '\n'
  | 'r' => some '\r'
  | 't' => some '\t'
  | _ => none

/-- The character of an escape whose four digits begin `rest`; a high surrogate is joined with a low
one in an escape right after it. -/
def codePoint (rest : List Char) : Except Fault (Char × List Char) := do
  let (n, tail) ← fourDigits rest
  match isHighSurrogate n, tail with
  | true, '\\' :: 'u' :: more =>
    if 5 ≤ more.length then
      let (low, tail') ← fourDigits more
      if isLowSurrogate low then pure (Char.ofNat (joinSurrogates n low), tail')
      else pure (scalarChar n, tail)
    else pure (scalarChar n, tail)
  | _, _ => pure (scalarChar n, tail)

/-- The rest of a text after its opening quote, which stands where `opening` characters are left. -/
def readText (opening : Nat) : Nat → List Char → Except Fault (List Char × List Char)
  | 0, _ => .error (.malformed .unterminatedText opening)
  | fuel + 1, cs =>
    match cs with
    | [] => .error (.malformed .unterminatedText opening)
    | '"' :: rest => .ok ([], rest)
    | '\\' :: rest =>
      match rest with
      | [] => .error (.malformed .unterminatedText opening)
      | 'u' :: digits => do
        let (c, tail) ← codePoint digits
        let (text, tail) ← readText opening fuel tail
        pure (c :: text, tail)
      | c :: tail =>
        match shortEscape? c with
        | some c => do
          let (text, tail) ← readText opening fuel tail
          pure (c :: text, tail)
        | none => fail .invalidEscape ('\\' :: rest)
    | c :: rest =>
      if c.toNat < 0x20 then fail .controlCharacter cs
      else do
        let (text, tail) ← readText opening fuel rest
        pure (c :: text, tail)

/-- Splits off the digits that a text begins with. -/
def spanDigits (cs : List Char) : List Char × List Char :=
  (cs.takeWhile Char.isDigit, cs.dropWhile Char.isDigit)

/-- The digits before the point of a number: a zero alone, or digits without a leading zero. -/
def wholeDigits : List Char → List Char × List Char
  | '0' :: rest => (['0'], rest)
  | cs => spanDigits cs

/-- The part of a number after the point, if a point with digits follows. -/
def fractionDigits : List Char → Option (List Char) × List Char
  | '.' :: rest => if (spanDigits rest).1.isEmpty then (none, '.' :: rest)
      else (some (spanDigits rest).1, (spanDigits rest).2)
  | cs => (none, cs)

/-- The exponent of a number, if a mark with digits follows. -/
def exponentDigits : List Char → Option (Bool × List Char) × List Char
  | [] => (none, [])
  | e :: rest =>
    if e == 'e' || e == 'E' then
      let (negative, tail) := splitSign rest
      if (spanDigits tail).1.isEmpty then (none, e :: rest)
      else (some (negative, (spanDigits tail).1), (spanDigits tail).2)
    else (none, e :: rest)

/-- A number: whole unless a fraction or an exponent follows. -/
def readNumber (cs : List Char) : Except Fault (PlainTree × List Char) :=
  let (negative, body) := match cs with
    | '-' :: rest => (true, rest)
    | _ => (false, cs)
  let (whole, rest) := wholeDigits body
  if whole.isEmpty then fail .expectedValue cs else
  let (fraction, rest) := fractionDigits rest
  let (exponent, rest) := exponentDigits rest
  match fraction, exponent with
  | none, none =>
    if digitLimit < whole.length then .error (.tooManyDigits whole.length)
    else
      let n : Int := digitsValue whole
      .ok (.int (if negative then -n else n), rest)
  | _, _ =>
    let places := fraction.getD []
    let power : Int := match exponent with
      | some (true, digits) => -(digitsValue digits : Int)
      | some (false, digits) => digitsValue digits
      | none => 0
    let x := Binary64.ofDecimal negative (digitsValue (whole ++ places)) (power - places.length)
    .ok (.scalar (.float x), rest)

/-- The values that are single words. -/
def words : List (String × Scalar) :=
  [("null", .null), ("true", .bool true), ("false", .bool false), ("NaN", .float .nan),
    ("Infinity", .float (.infinite false)), ("-Infinity", .float (.infinite true))]

/-- A word that the text begins with. -/
def readWord? (cs : List Char) : Option (Scalar × List Char) :=
  (words.find? fun w => w.1.toList.isPrefixOf cs).map fun w => (w.2, cs.drop w.1.length)

mutual

/-- A value at the beginning of the text. -/
def readValue : Nat → Nat → List Char → Except Fault (PlainTree × List Char)
  | _, 0, cs => fail .expectedValue cs
  | room, fuel + 1, cs =>
    match cs with
    | '"' :: rest => do
      let (text, tail) ← readText cs.length cs.length rest
      pure (.str (String.ofList text), tail)
    | '[' :: rest => do
      let room ← deeper .array room
      match skipSpaces rest with
      | ']' :: tail => pure (.list [], tail)
      | tail =>
        let (items, tail) ← readItems room fuel tail
        pure (.list items, tail)
    | '{' :: rest => do
      let room ← deeper .object room
      match skipSpaces rest with
      | '}' :: tail => pure (.map [], tail)
      | tail =>
        let (entries, tail) ← readEntries room fuel tail
        pure (.ofPairs entries, tail)
    | _ =>
      match readWord? cs with
      | some (s, tail) => pure (.scalar s, tail)
      | none => readNumber cs

/-- The elements of an array up to its end. -/
def readItems : Nat → Nat → List Char → Except Fault (List PlainTree × List Char)
  | _, 0, cs => fail .expectedValue cs
  | room, fuel + 1, cs => do
    let (item, rest) ← readValue room fuel cs
    match skipSpaces rest with
    | ']' :: tail => pure ([item], tail)
    | ',' :: tail =>
      let (items, tail) ← readItems room fuel (skipSpaces tail)
      pure (item :: items, tail)
    | tail => fail .expectedComma tail

/-- The entries of an object up to its end. -/
def readEntries : Nat → Nat → List Char → Except Fault (List (Key × PlainTree) × List Char)
  | _, 0, cs => fail .expectedName cs
  | room, fuel + 1, cs =>
    match cs with
    | '"' :: rest => do
      let (name, tail) ← readText cs.length cs.length rest
      match skipSpaces tail with
      | ':' :: tail =>
        let (value, tail) ← readValue room fuel (skipSpaces tail)
        let entry : Key × PlainTree := (.scalar (.str (String.ofList name)), value)
        match skipSpaces tail with
        | '}' :: tail => pure ([entry], tail)
        | ',' :: tail =>
          let (entries, tail) ← readEntries room fuel (skipSpaces tail)
          pure (entry :: entries, tail)
        | tail => fail .expectedComma tail
      | tail => fail .expectedColon tail
    | _ => fail .expectedName cs

end

/-- Reads a text as one value, with room for some containers within one another. -/
def read (room : Nat) (cs : List Char) : Except Fault PlainTree :=
  match cs with
  | '\uFEFF' :: _ => fail .byteOrderMark cs
  | _ => do
    let (value, rest) ← readValue room (2 * cs.length + 2) (skipSpaces cs)
    match skipSpaces rest with
    | [] => pure value
    | tail => fail .extraData tail

/-- What is said of a container that there is no room for. -/
def Container.depthMessage : Container → String
  | .array => endlessMessage ++ " while decoding a JSON array from a unicode string"
  | .object => endlessMessage ++ " while decoding a JSON object from a unicode string"

/-- What is said about a fault. -/
def Reason.text : Reason → String
  | .expectedValue => "Expecting value"
  | .expectedName => "Expecting property name enclosed in double quotes"
  | .expectedColon => "Expecting ':' delimiter"
  | .expectedComma => "Expecting ',' delimiter"
  | .unterminatedText => "Unterminated string starting at"
  | .controlCharacter => "Invalid control character at"
  | .invalidEscape => "Invalid \\escape"
  | .invalidCodePoint => "Invalid \\uXXXX escape"
  | .extraData => "Extra data"
  | .byteOrderMark => "Unexpected UTF-8 BOM (decode using utf-8-sig)"

/-- Where a position of a text is: line, column and offset. Lines and columns count from one. -/
def placeText (cs : List Char) (position : Nat) : String :=
  let before := cs.take position
  let column := (before.reverse.takeWhile (· != '\n')).length + 1
  ": line " ++ toString (before.count '\n' + 1) ++ " column " ++ toString column ++ " (char " ++
    toString position ++ ")"

/-- The message about a fault in a text. -/
def Reason.message (reason : Reason) (cs : List Char) (remaining : Nat) : String :=
  reason.text ++ placeText cs (cs.length - remaining)

end TreeMatch.Json
