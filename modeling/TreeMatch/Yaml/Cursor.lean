import TreeMatch.Yaml.Fault

/-!
# Reading along a text

A cursor is what is left of the text, with the line and column it stands at. The end of the text
looks like the character NUL, which no document contains. The scanners of this folder run over a
cursor and may fail.
-/

namespace TreeMatch.Yaml

/-- A place in a text. -/
structure Cursor where
  /-- What is left of the text. -/
  rest : List Char
  /-- The number of characters that are left. -/
  left : Nat
  /-- The number of characters passed. -/
  index : Nat
  /-- The number of line breaks passed. -/
  line : Nat
  /-- The number of characters passed on this line. -/
  column : Nat

/-- What stands in for the character after the last one. -/
def endMark : Char := '\x00'

/-- Whether a character ends a line. -/
def isBreak (c : Char) : Bool :=
  c == '\n' || c == '\r' || c == '\u0085' || c == '\u2028' || c == '\u2029'

/-- Whether a character ends a line, or the text. -/
def isBreakOrEnd (c : Char) : Bool := c == endMark || isBreak c

/-- Whether a character is a space or ends a line or the text. -/
def isSpaceOrEnd (c : Char) : Bool := c == ' ' || isBreakOrEnd c

/-- Whether a character separates tokens: a space, a tab, or the end of a line or the text. -/
def isBlankOrEnd (c : Char) : Bool := c == '\t' || isSpaceOrEnd c

/-- Whether a character is one of a few. -/
def isOneOf (set : String) (c : Char) : Bool := set.toList.contains c

/-- Whether a character may stand in a name: an ASCII letter or digit, a hyphen or an underscore. -/
def isNameChar (c : Char) : Bool :=
  c.isDigit || ('a' ≤ c && c ≤ 'z') || ('A' ≤ c && c ≤ 'Z') || c == '-' || c == '_'

/-- Whether a character may stand in a document at all. -/
def isDocumentChar (c : Char) : Bool :=
  let n := c.toNat
  n == 0x09 || n == 0x0A || n == 0x0D || (0x20 ≤ n && n ≤ 0x7E) || n == 0x85 ||
    (0xA0 ≤ n && n ≤ 0xD7FF) || (0xE000 ≤ n && n ≤ 0xFFFD) || (0x10000 ≤ n && n ≤ 0x10FFFF)

namespace Cursor

/-- The beginning of a text. -/
def start (cs : List Char) : Cursor := ⟨cs, cs.length, 0, 0, 0⟩

/-- The character `k` places ahead. -/
def peek (c : Cursor) (k : Nat) : Char := c.rest.getD k endMark

/-- Passes one character. A carriage return before a line feed leaves the line to it, and a byte
order mark takes no column. -/
def next (c : Cursor) : Cursor :=
  match c.rest with
  | [] => c
  | x :: rest =>
    if isBreak x && !(x == '\r' && rest.head? == some '\n') then
      ⟨rest, c.left - 1, c.index + 1, c.line + 1, 0⟩
    else if x == '\uFEFF' then ⟨rest, c.left - 1, c.index + 1, c.line, c.column⟩
    else ⟨rest, c.left - 1, c.index + 1, c.line, c.column + 1⟩

/-- Passes `n` characters. -/
def skip (c : Cursor) : Nat → Cursor
  | 0 => c
  | n + 1 => c.next.skip n

/-- Whether three marks that separate documents stand here, followed by a blank. -/
def atSeparator (c : Cursor) : Bool :=
  (c.rest.take 3 == ['-', '-', '-'] || c.rest.take 3 == ['.', '.', '.']) && isBlankOrEnd (c.peek 3)

end Cursor

/-- Work on a cursor that may fail. -/
abbrev Scan := StateT Cursor (Except Fault)

namespace Scan

/-- The text is no document. -/
def fail {α : Type} : Scan α := throw .malformed

/-- The character `k` places ahead. -/
def peek (k : Nat) : Scan Char := return (← get).peek k

/-- Passes `n` characters. -/
def skip (n : Nat) : Scan Unit := modify (·.skip n)

/-- Passes the longest run of characters of a class and gives it back. -/
def takeWhile (p : Char → Bool) : Scan (List Char) := do
  let run := (← get).rest.takeWhile p
  skip run.length
  return run

/-- Passes spaces. -/
def skipSpaces : Scan Unit := discard (takeWhile (· == ' '))

/-- Fails unless the next character is of a class. -/
def expect (p : Char → Bool) : Scan Unit := do
  if !p (← peek 0) then fail

/-- Passes a line break, if one stands here, and gives it back as it counts in a scalar: the usual
ones as a line feed, the Unicode separators as themselves. -/
def lineBreak : Scan (List Char) := do
  let c ← peek 0
  if c == '\r' && (← peek 1) == '\n' then
    skip 2
    return ['\n']
  else if c == '\n' || c == '\r' || c == '\u0085' then
    skip 1
    return ['\n']
  else if isBreak c then
    skip 1
    return [c]
  else return []

/-- Passes the spaces and the comment at the end of a line, and the line break. -/
def restOfLine : Scan Unit := do
  skipSpaces
  if (← peek 0) == '#' then discard (takeWhile (!isBreakOrEnd ·))
  expect isBreakOrEnd
  discard lineBreak

end Scan

end TreeMatch.Yaml
