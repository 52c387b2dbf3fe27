import TreeMatch.Outcome
import TreeMatch.Tree.Equality
import TreeMatch.Tree.Writable

/-!
# Checks

A check is a named function from a path, the value found there and whether there is one, to an
outcome. Checks are never looked into: whoever runs them resolves the path, and takes the outcome
that comes back or the fault with which the check gave up. An optional check accepts an absent value
without running at all.
-/

namespace TreeMatch

/-- Why a check gave up, or could not be run. -/
inductive CheckFault where
  /-- The check refuses to decide, with a message. -/
  | refused (message : String)
  /-- The check built a path with a negative index. -/
  | negativeIndex (index : Int)
  /-- A value or a key is not written. -/
  | unwritable (fault : WriteFault)
deriving DecidableEq, Repr

/-- The function of a check: from the path, the value there and whether it exists, to an outcome. -/
abbrev Checker := Path → Value → Bool → Except CheckFault Outcome

/-- A named check. -/
structure Check where
  /-- The name in reports. -/
  name : String
  /-- The function. -/
  checker : Checker
  /-- Whether an absent value passes unseen. -/
  isOptional : Bool

/-- A tree whose checks are to be run against a data value. -/
abbrev Schema := Tree Check

namespace Check

/-- A check that is not optional. -/
def named (name : String) (checker : Checker) : Check := ⟨name, checker, false⟩

/-- Runs the check. -/
def run (c : Check) (path : Path) (value : Value) (found : Bool) : Except CheckFault Outcome :=
  if c.isOptional && !found then .ok (.passed path) else c.checker path value found

/-- The check that accepts an absent value as well. -/
def optional (c : Check) : Check := { c with name := "Optional " ++ c.name, isOptional := true }

/-- What is left of the check in a data value. -/
def label (c : Check) : Label := .check c.name c.isOptional

/-- The failure at a path with a message in which values are written. -/
def failing (path : Path) (message : Except WriteFault String) : Except CheckFault Outcome :=
  (message.map (Outcome.failed path)).mapError .unwritable

/-- The message of a value that differs from the expected one. -/
def differenceMessage (value expected : Value) : Except WriteFault String := do
  let found ← value.write
  let wanted ← expected.write
  return "objects not equal: actual(" ++ value.typeName ++ ")=" ++ found ++ " expected(" ++
    expected.typeName ++ ")=" ++ wanted

/-- The function that compares a value with an expected one. Only if they differ, they are written.
-/
def compare (expected : Value) : Checker := fun path value found =>
  if !found then .ok (.keyMissing path)
  else if value.deepEqual expected then .ok (.passed path)
  else failing path (differenceMessage value expected)

/-- The check that the value is deeply equal to an expected one, which is written in the name of the
check. Every plain leaf of a schema stands for this check. -/
def equals (expected : Value) : Except WriteFault Check :=
  expected.write.map fun written => named ("equals " ++ written) (compare expected)

/-- The check that nothing is there. -/
def absent : Check :=
  named "key missing" fun path value found =>
    if found then
      failing path (value.write.map ("expected this key to be absent, found " ++ ·))
    else .ok (.passed path)

end Check

/-- The data value that a schema is when its checks are reduced to labels. -/
def Tree.labels (s : Schema) : Value := s.mapChecks Check.label

end TreeMatch
