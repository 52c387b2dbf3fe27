import TreeMatch.Yaml.Cursor

/-!
# Block scalars

A literal scalar keeps its line breaks; in a folded one a break between two lines that begin with
neither space nor tab becomes a space. The indentation is that of the first line with content, or
given by a digit. A sign says what becomes of the breaks at the end: by default the first one is
kept, a minus drops it, a plus keeps all of them.
-/

namespace TreeMatch.Yaml.Scan

/-- What becomes of the line breaks at the end of a block scalar. -/
inductive Chomping where
  /-- The first one is kept. -/
  | clip
  /-- None is kept. -/
  | strip
  /-- All of them are kept. -/
  | keep
deriving DecidableEq

/-- The sign of a block scalar, if one stands here. -/
def chompingSign : Scan (Option Chomping) := do
  match ← peek 0 with
  | '+' =>
    skip 1
    return some .keep
  | '-' =>
    skip 1
    return some .strip
  | _ => return none

/-- The digit of a block scalar, if one stands here. Zero is refused. -/
def indentDigit : Scan (Option Nat) := do
  let c ← peek 0
  if !c.isDigit then return none
  if c == '0' then fail
  skip 1
  return some (c.toNat - '0'.toNat)

/-- The sign and the digit of a block scalar, in either order. -/
def blockHeader : Scan (Chomping × Option Nat) := do
  match ← chompingSign with
  | some chomping => return (chomping, ← indentDigit)
  | none =>
    let digit ← indentDigit
    if digit.isNone then return (.clip, none)
    return ((← chompingSign).getD .clip, digit)

/-- Empty lines at the beginning: their breaks, and the greatest column reached. -/
def leadingLines (greatest : Nat) : Nat → Scan (List Char × Nat)
  | 0 => return ([], greatest)
  | fuel + 1 => do
    if (← peek 0) == ' ' then
      skip 1
      leadingLines (max greatest (← get).column) fuel
    else
      let found ← lineBreak
      if found.isEmpty then return ([], greatest)
      let (more, greatest) ← leadingLines greatest fuel
      return (found ++ more, greatest)

/-- Passes spaces up to a column. -/
def indentTo (indent : Nat) : Nat → Scan Unit
  | 0 => return
  | fuel + 1 => do
    if (← get).column < indent && (← peek 0) == ' ' then
      skip 1
      indentTo indent fuel

/-- The breaks of empty lines; the scanner ends at the column of the indentation, if the next line
reaches it. -/
def blockBreaks (indent : Nat) : Nat → Scan (List Char)
  | 0 => return []
  | fuel + 1 => do
    indentTo indent (indent + 1)
    let found ← lineBreak
    if found.isEmpty then return []
    return found ++ (← blockBreaks indent fuel)

/-- Whether a line with content begins here. -/
def atContent (indent : Nat) : Scan Bool := do
  return (← get).column == indent && (← peek 0) != endMark

/-- The lines of a block scalar. `breaks` are those of the empty lines before. Gives back the text,
the break after the last line, and the breaks of the empty lines after it. -/
def blockLines (folded : Bool) (indent : Nat) (breaks : List Char) :
    Nat → Scan (List Char × List Char × List Char)
  | 0 => return ([], [], breaks)
  | fuel + 1 => do
    if !(← atContent indent) then return ([], [], breaks)
    let isBlank (c : Char) : Bool := c == ' ' || c == '\t'
    let leadingBlank := isBlank (← peek 0)
    let content ← takeWhile (!isBreakOrEnd ·)
    let found ← lineBreak
    let after ← blockBreaks indent fuel
    if !(← atContent indent) then return (breaks ++ content, found, after)
    let joint :=
      if folded && found == ['\n'] && !leadingBlank && !isBlank (← peek 0) then
        if after.isEmpty then [' '] else []
      else found
    let (more, found, after) ← blockLines folded indent after fuel
    return (breaks ++ content ++ joint ++ more, found, after)

/-- A block scalar below a node of the given indentation. -/
def blockText (parentIndent : Int) : Scan String := do
  let folded := (← peek 0) == '>'
  skip 1
  let (chomping, digit) ← blockHeader
  expect isSpaceOrEnd
  restOfLine
  let least := (max (parentIndent + 1) 1).toNat
  let fuel := (← get).left + 1
  let (indent, breaks) ←
    match digit with
    | none => do
      let (breaks, greatest) ← leadingLines 0 fuel
      pure (max least greatest, breaks)
    | some n => do
      let indent := least + n - 1
      pure (indent, ← blockBreaks indent fuel)
  let (content, found, after) ← blockLines folded indent breaks fuel
  let tail := match chomping with
    | .strip => []
    | .clip => found
    | .keep => found ++ after
  return String.ofList (content ++ tail)

end TreeMatch.Yaml.Scan
