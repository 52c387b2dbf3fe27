import TreeMatch.Text.Quoted

/-!
# Causes

A failure of another component that is reported along with one's own: what kind it is, and what it
says.
-/

namespace TreeMatch

/-- A failure that led to another one. -/
structure Cause where
  /-- The name of the kind of failure. -/
  kind : String
  /-- Its message. -/
  message : String
deriving DecidableEq, Repr

namespace Cause

/-- The name of the kind of failure whose message is a missing key. -/
def missingKeyKind : String := "KeyError"

/-- What the failure says. A missing key is shown in quotes. -/
def text (c : Cause) : String :=
  if c.kind = missingKeyKind then quoted c.message else c.message

/-- The failure on one line, with its kind. -/
def line (c : Cause) : String := if c.text.isEmpty then c.kind else c.kind ++ ": " ++ c.text

end Cause

end TreeMatch
