import TreeMatch.Path.Basic

/-!
# Outcomes

The verdict of one check at one path, with a message for the reader.
-/

namespace TreeMatch

/-- The verdict of one check. -/
structure Outcome where
  /-- The path that was checked. -/
  path : Path
  /-- Whether the check passed. -/
  valid : Bool
  /-- What a report says about it. -/
  message : String
deriving DecidableEq, Repr

namespace Outcome

/-- The message of a check that passed and has nothing else to say. -/
def validMessage : String := "is valid"

/-- The message of a check that needs a value where there is none. -/
def keyMissingMessage : String := "expected this key to be present"

/-- The message of a strict failure. -/
def unexpectedFieldMessage : String := "unexpected field encountered during strict validation"

/-- A check that passed, with a message of its own. -/
def passedWith (path : Path) (message : String) : Outcome := ⟨path, true, message⟩

/-- A check that passed. -/
def passed (path : Path) : Outcome := passedWith path validMessage

/-- A check that failed. -/
def failed (path : Path) (message : String) : Outcome := ⟨path, false, message⟩

/-- The failure of a check that needs a value where there is none. -/
def keyMissing (path : Path) : Outcome := ⟨path, false, keyMissingMessage⟩

/-- The failure of a path that no check covers. -/
def unexpectedField (path : Path) : Outcome := ⟨path, false, unexpectedFieldMessage⟩

/-- The outcome on one line. -/
def text (o : Outcome) : String :=
  (if o.valid then "[PASS] " else "[FAIL] ") ++
    (if o.path.isEmpty then "<root>" else o.path.render) ++ ": " ++ o.message

end Outcome

end TreeMatch
