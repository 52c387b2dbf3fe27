import TreeMatch.Text.Hex
import TreeMatch.Text.Utf8
import TreeMatch.Yaml.Cursor
import TreeMatch.Yaml.Token

/-!
# Anchors, tags and directives

The scanners of what stands before a node or before a document. Names are ASCII; a tag may hold any
character of a resource identifier, others as percent escapes of their UTF-8 bytes.
-/

namespace TreeMatch.Yaml.Scan

/-- The name after the mark of an anchor or an alias. -/
def anchorName : Scan String := do
  skip 1
  let name ← takeWhile isNameChar
  if name.isEmpty then fail
  expect fun c => isBlankOrEnd c || isOneOf "?:,]\x7d%@\x60" c
  return String.ofList name

/-- Whether a character may stand in a resource identifier. -/
def isUriChar (c : Char) : Bool := isNameChar c || isOneOf ";/?:@&=+$,_.!~*'()[]%" c

/-- The bytes of consecutive percent escapes, and what follows them. -/
def escapedBytes : List Char → Except Fault (List UInt8 × List Char)
  | '%' :: a :: b :: rest =>
    match hexValue? [a, b] with
    | none => .error .malformed
    | some n => do
      let (bytes, rest) ← escapedBytes rest
      pure (UInt8.ofNat n :: bytes, rest)
  | '%' :: _ => .error .malformed
  | rest => .ok ([], rest)

/-- The text of a resource identifier with its escapes resolved; each run of escapes is UTF-8. -/
def unescapeUri : Nat → List Char → Except Fault (List Char)
  | 0, _ => .ok []
  | fuel + 1, cs =>
    match cs with
    | [] => .ok []
    | '%' :: _ => do
      let (bytes, rest) ← escapedBytes cs
      match Utf8.decode bytes with
      | .error _ => .error .malformed
      | .ok decoded => return decoded ++ (← unescapeUri fuel rest)
    | c :: rest => return c :: (← unescapeUri fuel rest)

/-- A resource identifier. -/
def uri : Scan String := do
  let run ← takeWhile isUriChar
  if run.isEmpty then fail
  return String.ofList (← (unescapeUri (run.length + 1) run : Except Fault (List Char)))

/-- A tag handle: an exclamation mark, or a name between two of them. -/
def tagHandle : Scan String := do
  if (← peek 0) != '!' then fail
  if (← peek 1) == ' ' then
    skip 1
    return "!"
  skip 1
  let name ← takeWhile isNameChar
  if (← peek 0) != '!' then fail
  skip 1
  return String.ofList ('!' :: name ++ ['!'])

/-- Whether another exclamation mark stands before the next space or break, the first one, at which
the text begins, apart. -/
def hasNamedHandle (rest : List Char) : Bool :=
  ((rest.drop 1).takeWhile (!isSpaceOrEnd ·)).contains '!'

/-- A tag. -/
def tag : Scan TagText := do
  let next ← peek 1
  let result : TagText ←
    if next == '<' then
      skip 2
      let suffix ← uri
      if (← peek 0) != '>' then fail
      skip 1
      pure ⟨none, suffix⟩
    else if isBlankOrEnd next then
      skip 1
      pure ⟨none, "!"⟩
    else if hasNamedHandle (← get).rest then
      let handle ← tagHandle
      pure ⟨some handle, ← uri⟩
    else
      skip 1
      pure ⟨some "!", ← uri⟩
  expect isSpaceOrEnd
  return result

/-- A number in a version. -/
def versionNumber : Scan Nat := do
  let digits ← takeWhile Char.isDigit
  if digits.isEmpty then fail
  if digitLimit < digits.length then throw (.number (.tooManyDigits digits.length))
  return digitsValue digits

/-- The version of a directive. -/
def version : Scan Directive := do
  skipSpaces
  let major ← versionNumber
  if (← peek 0) != '.' then fail
  skip 1
  let minor ← versionNumber
  expect isSpaceOrEnd
  return .version major minor

/-- The handle and the text it stands for of a directive. -/
def tagShorthand : Scan Directive := do
  skipSpaces
  let handle ← tagHandle
  expect (· == ' ')
  skipSpaces
  let stem ← uri
  expect isSpaceOrEnd
  return .tag handle stem

/-- A directive with the rest of its line. -/
def directive : Scan Directive := do
  skip 1
  let name ← takeWhile isNameChar
  if name.isEmpty then fail
  expect isSpaceOrEnd
  let result ←
    match String.ofList name with
    | "YAML" => version
    | "TAG" => tagShorthand
    | _ => do
      discard (takeWhile (!isBreakOrEnd ·))
      pure .other
  restOfLine
  return result

end TreeMatch.Yaml.Scan
