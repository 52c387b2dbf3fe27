import TreeMatch.Text.Printable

/-!
# Quoted text

Texts and byte strings in quotes, as reports and messages show them. Single quotes are used unless
the content has a single quote and no double quote. The quote in use, the backslash and the three
common control characters are written with a backslash; other unprintable characters by their code
point in two, four or eight hexadecimal digits, whichever is the first to fit.
-/

namespace TreeMatch

/-- A number in hexadecimal, filled up with zeros to a width. -/
def hexText (width n : Nat) : List Char :=
  let digits := Nat.toDigits 16 n
  List.replicate (width - digits.length) '0' ++ digits

/-- The numeric escape of a code point. -/
def codePointEscape (n : Nat) : List Char :=
  if n < 0x100 then '\\' :: 'x' :: hexText 2 n
  else if n < 0x10000 then '\\' :: 'u' :: hexText 4 n
  else '\\' :: 'U' :: hexText 8 n

/-- The quote for a content, by whether it has single and double quotes. -/
def chooseQuote (hasSingle hasDouble : Bool) : Char :=
  if hasSingle && !hasDouble then '"' else '\''

/-- One character between quotes. -/
def quotedChar (quote c : Char) : List Char :=
  if c = quote ∨ c = '\\' then ['\\', c]
  else if c = '\n' then ['\\', 'n']
  else if c = '\r' then ['\\', 'r']
  else if c = '\t' then ['\\', 't']
  else if isPrintable c then [c]
  else codePointEscape c.toNat

/-- A text in quotes. -/
def quoted (s : String) : String :=
  let cs := s.toList
  let quote := chooseQuote (cs.contains '\'') (cs.contains '"')
  String.ofList (quote :: cs.flatMap (quotedChar quote) ++ [quote])

/-- One byte between quotes: bytes above the ASCII range are escaped. -/
def quotedByte (quote : Char) (b : UInt8) : List Char :=
  if b < 0x7F then quotedChar quote (Char.ofNat b.toNat) else codePointEscape b.toNat

/-- A byte string in quotes, with its mark `b`. -/
def quotedBytes (bs : List UInt8) : String :=
  let quote := chooseQuote (bs.contains 0x27) (bs.contains 0x22)
  String.ofList ('b' :: quote :: bs.flatMap (quotedByte quote) ++ [quote])

/-- A text in which every character beyond ASCII is replaced by its escape. -/
def asciiOnly (s : String) : String :=
  String.ofList (s.toList.flatMap fun c => if c.toNat < 0x80 then [c] else codePointEscape c.toNat)

example : quoted "it's" = "\"it's\"" ∧ quoted "a\"b'c" = "'a\"b\\'c'" := by decide +kernel

example : quoted "tab\tbell\x07é\u00ad" = "'tab\\tbell\\x07é\\xad'" := by decide +kernel

example : quotedBytes [0x61, 0xff, 0x27] = "b\"a\\xff'\"" := by decide +kernel

end TreeMatch
