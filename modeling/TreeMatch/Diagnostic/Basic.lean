import TreeMatch.Diagnostic.Cause
import TreeMatch.Tree.Written

/-!
# Diagnostics

What goes wrong outside of checks is reported with a short message, named details and perhaps a
suggestion. Some details follow from the subject: the type that was given as a schema, the text that
is no path, the document and the cause that kept it from being read.
-/

namespace TreeMatch

/-- What a diagnostic is about. -/
inductive Subject where
  /-- Nothing in particular. -/
  | general
  /-- A schema that cannot be compiled, with the name of the type given instead. -/
  | schema (receivedType : Option String)
  /-- A text that is no path. -/
  | path (text : Option String)
  /-- A document that cannot be read or decoded, with its path and the cause. -/
  | document (path : Option String) (cause : Option Cause)
deriving DecidableEq, Repr

/-- A structured error. -/
structure Diagnostic where
  /-- What it is about. -/
  subject : Subject
  /-- The short message. -/
  message : String
  /-- Named details, in order. -/
  details : List (String × Value)
  /-- What to do about it. -/
  suggestion : Option String

namespace Subject

/-- The name of the class of errors about the subject. -/
def errorType : Subject → String
  | .general => "LookslikeError"
  | .schema _ => "SchemaCompileError"
  | .path _ => "InvalidPathError"
  | .document _ _ => "DocumentLoadError"

/-- Whether an error about the subject also counts as a bad argument. -/
def isBadArgument : Subject → Bool
  | .path _ => true
  | _ => false

/-- The text of an optional field, unless it is empty. -/
def nonempty? (field : Option String) : Option String := field.filter (!·.isEmpty)

/-- The details that follow from the subject. -/
def ownDetails : Subject → List (String × Value)
  | .general => []
  | .schema receivedType =>
    (nonempty? receivedType).toList.map fun t => ("received_type", .str t)
  | .path text => text.toList.map fun t => ("path", .str (quoted t))
  | .document source cause =>
    ((nonempty? source).toList.map fun p => ("path", .str p)) ++
      cause.toList.flatMap fun c => [("cause", .str c.text), ("cause_type", .str c.kind)]

/-- The suggestion for schemas that do not come with another one. -/
def schemaSuggestion : String :=
  "Wrap the definition in a dict, a list or an IsDef built with is_def()."

/-- The suggestion that an error about the subject makes, given one of its own. -/
def suggestion : Subject → Option String → Option String
  | .schema _, given => (nonempty? given).or (some schemaSuggestion)
  | _, given => given

end Subject

namespace Diagnostic

/-- A diagnostic with details of its own and a suggestion. The details of the subject come after the
given ones, or take the place of those with the same name; so do repeated ones among those given. -/
def make (subject : Subject) (message : String) (details : List (String × Value))
    (suggestion : Option String) : Diagnostic where
  subject
  message
  details := Assoc.ofPairs (· == ·) (details ++ subject.ownDetails)
  suggestion := subject.suggestion suggestion

/-- A diagnostic about nothing in particular. -/
def plain (message : String) : Diagnostic := make .general message [] none

/-- The whole text: the message, the details on a line each, and the suggestion. -/
def text (d : Diagnostic) : String :=
  let details :=
    if d.details.isEmpty then [] else "\nDetails:" :: d.details.map fun e =>
      "  " ++ e.1 ++ ": " ++ e.2.text
  let suggestion := (Subject.nonempty? d.suggestion).toList.map ("\nSuggestion: " ++ ·)
  "\n".intercalate (d.message :: details ++ suggestion)

end Diagnostic

end TreeMatch
