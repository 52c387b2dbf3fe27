import TreeMatch.Numeric.Shortest
import TreeMatch.Text.Quoted
import TreeMatch.Tree.Basic

/-!
# Trees as text

How values are written in messages: texts in quotes, sequences in brackets, a tuple of one element
with a comma, maps and sets in braces, a check by its label, and a container that comes again by the
brackets or braces alone. `text` differs from `written` only for a text itself, which stands without
quotes, and for a point in time, which has its usual form; the name of a map key in a path is the
`text` of the key.
-/

namespace TreeMatch

/-- The words for truth values. -/
def boolText (b : Bool) : String := if b then "True" else "False"

/-- A mark as text. -/
def Recurrence.written : Recurrence → String
  | .list => "[...]"
  | .tuple => "(...)"
  | .map => "\x7b...\x7d"

/-- A label as text. -/
def Label.written : Label → String
  | .check name isOptional =>
    "IsDef(" ++ quoted name ++ ", optional=" ++ boolText isOptional ++ ")"
  | .again r => r.written

/-- A scalar as text, a text in quotes. -/
def Scalar.written : Scalar → String
  | .null => "None"
  | .bool b => boolText b
  | .int n => toString n
  | .float x => x.text
  | .str s => quoted s
  | .bytes bs => quotedBytes bs
  | .moment m => m.written

/-- Written items in the brackets of a tuple. -/
def tupleText : List String → String
  | [x] => "(" ++ x ++ ",)"
  | xs => "(" ++ ", ".intercalate xs ++ ")"

/-- A set as text; without members it has no braces, which would be those of a map. -/
def setText (members : List Member) : String :=
  if members.isEmpty then "set()"
  else "\x7b" ++ ", ".intercalate (members.map (·.value.written)) ++ "\x7d"

namespace Key

mutual

/-- A key as text, texts in quotes. -/
def written : Key → String
  | .scalar s => s.written
  | .tuple items => tupleText (writtenItems items)
termination_by structural k => k

/-- The items of a tuple as texts. -/
def writtenItems : List Key → List String
  | [] => []
  | k :: ks => written k :: writtenItems ks
termination_by structural ks => ks

end

/-- The name of a key in a path: a text stands for itself, any other key for its written form. -/
def text : Key → String
  | .scalar (.str s) => s
  | .scalar (.moment m) => m.text
  | k => k.written

end Key

namespace Tree

mutual

/-- A value as text, texts in quotes. -/
def written : Value → String
  | .scalar s => s.written
  | .set ms => setText ms
  | .list xs => "[" ++ ", ".intercalate (writtenItems xs) ++ "]"
  | .tuple xs => tupleText (writtenItems xs)
  | .map es => "\x7b" ++ ", ".intercalate (writtenEntries es) ++ "\x7d"
  | .check c => c.written
termination_by structural t => t

/-- The elements of a sequence as texts. -/
def writtenItems : List Value → List String
  | [] => []
  | x :: xs => written x :: writtenItems xs
termination_by structural ts => ts

/-- The entries of a map as texts. -/
def writtenEntries : List (Key × Value) → List String
  | [] => []
  | (k, x) :: es => (k.written ++ ": " ++ written x) :: writtenEntries es
termination_by structural es => es

end

/-- A value as text, a text without quotes. -/
def text : Value → String
  | .scalar (.str s) => s
  | .scalar (.moment m) => m.text
  | t => t.written

/-- The name of the type of a value. -/
def typeName {α : Type u} : Tree α → String
  | .scalar .null => "NoneType"
  | .scalar (.bool _) => "bool"
  | .scalar (.int _) => "int"
  | .scalar (.float _) => "float"
  | .scalar (.str _) => "str"
  | .scalar (.bytes _) => "bytes"
  | .scalar (.moment m) => m.typeName
  | .set _ => "set"
  | .list _ => "list"
  | .tuple _ => "tuple"
  | .map _ => "dict"
  | .check _ => "IsDef"

end Tree

end TreeMatch
