import TreeMatch.Text.Hex
import TreeMatch.Yaml.Cursor

/-!
# Scalars in quotes

Between single quotes only the quote itself is special, written twice. Between double quotes a
backslash begins an escape. In both, the blanks around a line break are dropped, one break becomes a
space and further ones remain.

An escape of half a surrogate pair stands for the replacement character here. Texts with such
escapes are outside the model.
-/

namespace TreeMatch.Yaml.Scan

/-- The character of an escape of one letter. -/
def shortEscape? : Char → Option Char
  | '0' => some '\x00'
  | 'a' => some '\x07'
  | 'b' => some '\x08'
  | 't' => some '\t'
  | '\t' => some '\t'
  | 'n' => some '\n'
  | 'v' => some '\x0b'
  | 'f' => some '\x0c'
  | 'r' => some '\r'
  | 'e' => some '\x1b'
  | ' ' => some ' '
  | '"' => some '"'
  | '\\' => some '\\'
  | '/' => some '/'
  | 'N' => some '\u0085'
  | '_' => some '\u00a0'
  | 'L' => some '\u2028'
  | 'P' => some '\u2029'
  | _ => none

/-- The number of digits of an escape by code point. -/
def escapeWidth? : Char → Option Nat
  | 'x' => some 2
  | 'u' => some 4
  | 'U' => some 8
  | _ => none

/-- The character of a code point; half a surrogate pair has the replacement character. -/
def codePointChar (n : Nat) : Except Fault Char :=
  if 0x110000 ≤ n then .error (.noCodePoint n)
  else if 0xD800 ≤ n ∧ n ≤ 0xDFFF then .ok '\uFFFD'
  else .ok (Char.ofNat n)

/-- The line breaks at the beginning of lines, with the blanks before them dropped. A line that
separates documents must not stand within quotes. -/
def foldedBreaks : Nat → Scan (List Char)
  | 0 => return []
  | fuel + 1 => do
    if (← get).atSeparator then fail
    discard (takeWhile fun c => c == ' ' || c == '\t')
    let found ← lineBreak
    if found.isEmpty then return []
    return found ++ (← foldedBreaks fuel)

/-- The blanks and line breaks between two words. -/
def flowSpaces (fuel : Nat) : Scan (List Char) := do
  let blanks ← takeWhile fun c => c == ' ' || c == '\t'
  if (← peek 0) == endMark then fail
  let found ← lineBreak
  if found.isEmpty then return blanks
  let more ← foldedBreaks fuel
  if found != ['\n'] then return found ++ more
  return if more.isEmpty then [' '] else more

/-- One escape after the backslash. -/
def escape (fuel : Nat) : Scan (List Char) := do
  skip 1
  let c ← peek 0
  match shortEscape? c, escapeWidth? c with
  | some x, _ =>
    skip 1
    return [x]
  | none, some width =>
    skip 1
    let digits := (← get).rest.take width
    match hexValue? digits with
    | some n =>
      if digits.length < width then fail
      let x ← (codePointChar n : Except Fault Char)
      skip width
      return [x]
    | none => fail
  | none, none =>
    if isBreak c then
      discard lineBreak
      foldedBreaks fuel
    else fail

/-- A run without blanks and breaks, up to the closing quote or the next blank. -/
def flowWord (double : Bool) : Nat → Scan (List Char)
  | 0 => return []
  | fuel + 1 => do
    let run ← takeWhile fun c => !(isBlankOrEnd c || isOneOf "'\"\\" c)
    let c ← peek 0
    if !double && c == '\'' && (← peek 1) == '\'' then
      skip 2
      return run ++ '\'' :: (← flowWord double fuel)
    else if (double && c == '\'') || (!double && isOneOf "\"\\" c) then
      skip 1
      return run ++ c :: (← flowWord double fuel)
    else if double && c == '\\' then
      let escaped ← escape fuel
      return run ++ escaped ++ (← flowWord double fuel)
    else return run

/-- Words and what is between them, up to the closing quote. -/
def flowWords (quote : Char) : Nat → Scan (List Char)
  | 0 => fail
  | fuel + 1 => do
    let word ← flowWord (quote == '"') fuel
    if (← peek 0) == quote then
      skip 1
      return word
    let spaces ← flowSpaces fuel
    return word ++ spaces ++ (← flowWords quote fuel)

/-- A scalar in quotes. -/
def flowText : Scan String := do
  let quote ← peek 0
  skip 1
  let cs ← flowWords quote ((← get).left + 1)
  return String.ofList cs

end TreeMatch.Yaml.Scan
