import TreeMatch.Assoc
import TreeMatch.Numeric.Decimal
import TreeMatch.Text.Utf8

/-!
# Environment files

A file of assignments `NAME=value`, one a line, with comments and an optional `export`. A value
stands in single quotes or in double quotes, which may span lines and have escapes, or without
quotes up to the end of the line or a comment. A name without an assignment has no value. A line
that does not fit is skipped, and `EnvFile.faultyLines` tells where. Values may refer to variables
as `${NAME}` or `${NAME:-default}`; those defined earlier in the file hide those of the environment.
-/

namespace TreeMatch.EnvFile

/-- Whether a character ends a line. -/
def isLineEnd (c : Char) : Bool := c == '\n' || c == '\r'

/-- Whether a character is a blank within a line. -/
def isInlineBlank (c : Char) : Bool := isBlank c && !isLineEnd c

/-- The text after the rest of the line and its end. -/
def skipLine (cs : List Char) : List Char :=
  match cs.dropWhile (!isLineEnd ·) with
  | [] => []
  | _ :: rest => rest

/-- The content of a text in quotes, whose opening quote is passed, and what follows the closing
one. A character after a backslash belongs to the content. -/
def quotedText? (quote : Char) : List Char → Option (List Char × List Char)
  | [] => none
  | '\\' :: c :: rest => (quotedText? quote rest).map fun p => ('\\' :: c :: p.1, p.2)
  | c :: rest =>
    if c = quote then some ([], rest) else (quotedText? quote rest).map fun p => (c :: p.1, p.2)

/-- The character of an escape between double quotes. -/
def doubleEscape? : Char → Option Char
  | '\\' => some '\\'
  | '\'' => some '\''
  | '"' => some '"'
  | 'a' => some '\x07'
  | 'b' => some '\x08'
  | 'f' => some '\x0c'
  | 'n' => some '\n'
  | 'r' => some '\r'
  | 't' => some '\t'
  | 'v' => some '\x0b'
  | _ => none

/-- The character of an escape between single quotes. -/
def singleEscape? : Char → Option Char
  | '\\' => some '\\'
  | '\'' => some '\''
  | _ => none

/-- A text with its escapes resolved; a backslash that begins none stands for itself. -/
def unescape (escape? : Char → Option Char) : List Char → List Char
  | '\\' :: c :: rest =>
    match escape? c with
    | some x => x :: unescape escape? rest
    | none => '\\' :: unescape escape? (c :: rest)
  | c :: rest => c :: unescape escape? rest
  | [] => []
termination_by cs => cs.length

/-- A value without quotes: it ends before blanks with a hash sign after them, and blanks at its end
do not count. -/
def unquotedValue : List Char → List Char
  | [] => []
  | c :: rest =>
    if isBlank c then
      match rest.dropWhile isBlank with
      | [] => []
      | '#' :: _ => []
      | _ => c :: unquotedValue rest
    else c :: unquotedValue rest

/-- The value of an assignment, from the text after its equal sign, and what follows the value. A
hash sign after blanks begins a comment even where no value stands before it. -/
def value? (cs : List Char) : Option (List Char × List Char) :=
  match cs.dropWhile isInlineBlank with
  | '\'' :: rest => (quotedText? '\'' rest).map fun p => (unescape singleEscape? p.1, p.2)
  | '"' :: rest => (quotedText? '"' rest).map fun p => (unescape doubleEscape? p.1, p.2)
  | _ =>
    let line := cs.takeWhile (!isLineEnd ·)
    some ((unquotedValue line).dropWhile isBlank, cs.drop line.length)

/-- The text without a leading `export` that blanks follow. -/
def skipExport (cs : List Char) : List Char :=
  let rest := cs.drop 6
  if cs.take 6 == "export".toList && rest.head?.any isInlineBlank then rest.dropWhile isInlineBlank
  else cs

/-- The name that begins here, if the line is no comment, and what follows it. -/
def name? (cs : List Char) : Option (Option (List Char) × List Char) :=
  match cs with
  | '#' :: _ => some (none, cs)
  | '\'' :: rest =>
    let name := rest.takeWhile (· != '\'')
    match rest.dropWhile (· != '\'') with
    | _ :: tail => if name.isEmpty then none else some (some name, tail)
    | [] => none
  | _ =>
    let isNameChar (c : Char) : Bool := !(c == '=' || c == '#' || isBlank c)
    let name := cs.takeWhile isNameChar
    if name.isEmpty then none else some (some name, cs.dropWhile isNameChar)

/-- What follows a comment, if one stands here, and the end of the line; none if something else is
in the way. -/
def lineEnd? (cs : List Char) : Option (List Char) :=
  let rest := cs.dropWhile isInlineBlank
  let rest := if rest.head? == some '#' then rest.dropWhile (!isLineEnd ·) else rest
  match rest with
  | [] => some []
  | '\r' :: '\n' :: tail => some tail
  | c :: tail => if isLineEnd c then some tail else none

/-- One assignment: the name and its value, or what is left of the text where the line stops
fitting. -/
def binding (cs : List Char) :
    Except (List Char) (Option (List Char) × Option (List Char) × List Char) :=
  let cs := skipExport cs
  match name? cs with
  | none => .error cs
  | some (name, rest) =>
    let rest := rest.dropWhile isInlineBlank
    let assigned : Except (List Char) (Option (List Char) × List Char) :=
      match rest with
      | '=' :: tail =>
        match value? tail with
        | some (value, after) => .ok (some value, after)
        | none => .error tail
      | _ => .ok (none, rest)
    match assigned with
    | .error rest => .error rest
    | .ok (value, rest) =>
      match lineEnd? rest with
      | some rest => .ok (name, value, rest)
      | none => .error rest

/-- What a part of a file says. -/
inductive Statement where
  /-- A name, with its value if it has one. -/
  | assignment (name : String) (value : Option String)
  /-- Nothing that can be read; the part begins on the line of this number. -/
  | unreadable (line : Nat)
deriving DecidableEq, Repr

/-- The statements of a text that begins on a line, in order. A statement begins right after the one
before it, blank lines included. Every step passes a character at least. -/
def statementsFrom (line : Nat) : Nat → List Char → List Statement
  | 0, _ => []
  | fuel + 1, cs =>
    let next (rest : List Char) : Nat := line + (cs.count '\n' - rest.count '\n')
    match cs.dropWhile isBlank with
    | [] => []
    | body =>
      match binding body with
      | .error rest =>
        let rest := skipLine rest
        .unreadable line :: statementsFrom (next rest) fuel rest
      | .ok (some name, value, rest) =>
        .assignment (String.ofList name) (value.map String.ofList) ::
          statementsFrom (next rest) fuel rest
      | .ok (none, _, rest) => statementsFrom (next rest) fuel rest

/-- The statements of a file. A byte order mark at its beginning does not count. -/
def statements (text : String) : List Statement :=
  let cs := universalNewlines text.toList
  let cs := if cs.head? = some '\uFEFF' then cs.drop 1 else cs
  statementsFrom 1 (cs.length + 1) cs

/-- The reference to a variable that begins here after `${`: its name, the default if there is one,
and what follows. -/
def reference? (cs : List Char) : Option (List Char × List Char × List Char) :=
  let name := cs.takeWhile fun c => c != '\x7d' && c != ':'
  match cs.drop name.length with
  | '\x7d' :: rest => some (name, [], rest)
  | ':' :: '-' :: tail =>
    match tail.dropWhile (· != '\x7d') with
    | _ :: rest => some (name, tail.takeWhile (· != '\x7d'), rest)
    | [] => none
  | _ => none

/-- A value with its references replaced; `lookup` gives the value of a variable, if it is defined,
and `none` within for a name without a value. -/
def expand (lookup : String → Option (Option String)) : Nat → List Char → List Char
  | 0, cs => cs
  | _, [] => []
  | fuel + 1, c :: rest =>
    match c, rest with
    | '$', '\x7b' :: tail =>
      match reference? tail with
      | some (name, fallback, after) =>
        let text := match lookup (String.ofList name) with
          | some (some s) => s.toList
          | some none => []
          | none => fallback
        text ++ expand lookup fuel after
      | none => c :: expand lookup fuel rest
    | _, _ => c :: expand lookup fuel rest

/-- Assignments with the references in their values replaced, in the order in which the names come
up first. -/
def resolve (environment : List (String × String)) (assignments : List (String × Option String)) :
    List (String × Option String) :=
  assignments.foldl (fun known a =>
    let lookup (name : String) : Option (Option String) :=
      (known.lookup name).or ((environment.lookup name).map some)
    let value := a.2.map fun v =>
      String.ofList (expand lookup (v.length + 1) v.toList)
    Assoc.set (· == ·) a.1 value known) []

/-- The variables that a file defines, in an environment. -/
def read (environment : List (String × String)) (text : String) : List (String × Option String) :=
  resolve environment <| (statements text).filterMap fun
    | .assignment name value => some (name, value)
    | .unreadable _ => none

/-- The lines on which the parts of a file begin that cannot be read. -/
def faultyLines (text : String) : List Nat :=
  (statements text).filterMap fun
    | .assignment .. => none
    | .unreadable line => some line

end TreeMatch.EnvFile
