import TreeMatch.Text.CaseMap

/-!
# Locations of files

The path of a file, with repeated separators and single dots left out. Steps up are kept, as what
they lead to depends on the directory before them. The suffix of the last name says what kind of
document a file holds.
-/

namespace TreeMatch

/-- The path of a file. -/
structure Location where
  /-- The separators that an absolute path begins with; empty for a relative one. -/
  root : String
  /-- The names along the path. -/
  names : List String
deriving DecidableEq, Repr

namespace Location

/-- Reads a path. Exactly two separators at the beginning are told from one; more than two are one.
-/
def ofText (text : String) : Location where
  root :=
    match text.toList.takeWhile (· == '/') with
    | [] => ""
    | ['/', '/'] => "//"
    | _ => "/"
  names := ((text.toList.splitOn '/').filter fun n => !n.isEmpty && n != ['.']).map String.ofList

/-- The path as text; the path without names is a single dot. -/
def text (l : Location) : String :=
  if l.root.isEmpty && l.names.isEmpty then "." else l.root ++ "/".intercalate l.names

/-- The last name. -/
def name (l : Location) : String := l.names.getLast?.getD ""

/-- The suffix of a name: from its last dot on, unless the name begins or ends with that dot. -/
def suffixOf (name : List Char) : List Char :=
  let tail := name.reverse.takeWhile (· != '.')
  if tail.isEmpty || name.length ≤ tail.length + 1 then [] else '.' :: tail.reverse

/-- The suffix of the last name, in lower case. -/
def suffix (l : Location) : String := Text.lower (String.ofList (suffixOf l.name.toList))

end Location

example : (Location.ofText "./a//b/../doc.JSON").text = "a/b/../doc.JSON" := by decide +kernel

example : (Location.ofText "a.b/doc.JSON").suffix = ".json" := by decide +kernel

example : (Location.ofText ".json").suffix = "" := by decide +kernel

end TreeMatch
