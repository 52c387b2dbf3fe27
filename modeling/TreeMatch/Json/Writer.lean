import TreeMatch.Tree.Written

/-!
# Writing JSON

Values as JSON on one line, in ASCII alone: any other character is escaped by its code units in
UTF-16. Tuples become arrays. What JSON has no form for becomes the text that stands for it. A map
key becomes the text of its scalar; a key of another kind has none, and such a map is not written.
-/

namespace TreeMatch.Json

/-- A map has a key of a type that JSON has no text for. -/
structure KeyFault where
  /-- The name of the type. -/
  typeName : String
deriving DecidableEq, Repr

/-- The message about such a key. -/
def KeyFault.message (f : KeyFault) : String :=
  "keys must be str, int, float, bool or None, not " ++ f.typeName

/-- One code unit, escaped. -/
def unitEscape (n : Nat) : List Char := '\\' :: 'u' :: hexText 4 n

/-- A character by its code units: one, or a surrogate pair beyond the basic plane. -/
def unitEscapes (c : Char) : List Char :=
  let n := c.toNat
  if n < 0x10000 then unitEscape n
  else
    let offset := n - 0x10000
    unitEscape (0xD800 + offset / 0x400) ++ unitEscape (0xDC00 + offset % 0x400)

/-- One character within a text. -/
def textChar (c : Char) : List Char :=
  if c = '"' ∨ c = '\\' then ['\\', c]
  else if c = '\n' then ['\\', 'n']
  else if c = '\r' then ['\\', 'r']
  else if c = '\t' then ['\\', 't']
  else if c = '\x08' then ['\\', 'b']
  else if c = '\x0c' then ['\\', 'f']
  else if ' ' ≤ c ∧ c ≤ '~' then [c]
  else unitEscapes c

/-- A text in double quotes. -/
def textLiteral (s : String) : String :=
  String.ofList ('"' :: s.toList.flatMap textChar ++ ['"'])

/-- A floating point number; the ones that are not finite have names. -/
def floatLiteral : Binary64 → String
  | .nan => "NaN"
  | .infinite negative => if negative then "-Infinity" else "Infinity"
  | x => x.text

/-- A truth value. -/
def boolLiteral (b : Bool) : String := if b then "true" else "false"

/-- A scalar. -/
def scalarLiteral : Scalar → String
  | .null => "null"
  | .bool b => boolLiteral b
  | .int n => toString n
  | .float x => floatLiteral x
  | .str s => textLiteral s
  | .bytes bs => textLiteral (quotedBytes bs)
  | .moment m => textLiteral m.text

/-- The text that a key becomes. -/
def keyText : Key → Except KeyFault String
  | .scalar (.str s) => .ok s
  | .scalar (.bytes _) => .error ⟨"bytes"⟩
  | .scalar (.moment m) => .error ⟨m.typeName⟩
  | .scalar s => .ok (scalarLiteral s)
  | .tuple _ => .error ⟨"tuple"⟩

mutual

/-- A value as JSON, or the first key that it cannot have. -/
def write : Value → Except KeyFault String
  | .scalar s => .ok (scalarLiteral s)
  | .set ms => .ok (textLiteral (setText ms))
  | .list xs | .tuple xs => (writeItems xs).map fun items => "[" ++ ", ".intercalate items ++ "]"
  | .map es =>
    (writeEntries es).map fun entries => "\x7b" ++ ", ".intercalate entries ++ "\x7d"
  | .check l => .ok (textLiteral l.written)
termination_by structural t => t

/-- The elements of an array. -/
def writeItems : List Value → Except KeyFault (List String)
  | [] => .ok []
  | x :: xs => do return (← write x) :: (← writeItems xs)
termination_by structural ts => ts

/-- The entries of an object. -/
def writeEntries : List (Key × Value) → Except KeyFault (List String)
  | [] => .ok []
  | (k, x) :: es => do
    let name ← keyText k
    let entry := textLiteral name ++ ": " ++ (← write x)
    return entry :: (← writeEntries es)
termination_by structural es => es

end

example : textLiteral "é\x7f\"😀" = "\"\\u00e9\\u007f\\\"\\ud83d\\ude00\"" := by decide +kernel

end TreeMatch.Json
