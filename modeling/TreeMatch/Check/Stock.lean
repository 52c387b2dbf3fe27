import TreeMatch.Check.Basic

/-!
# Stock checks

Small checks for everyday schemas and for trying out validators.
-/

namespace TreeMatch.Checker

/-- Passes always, with a message. -/
def accept (message : String) : Checker := fun path _ _ => .ok (.passedWith path message)

/-- Fails always, with a message. -/
def reject (message : String) : Checker := fun path _ _ => .ok (.failed path message)

/-- Passes if there is a value at all. -/
def present : Checker := fun path _ found => .ok (if found then .passed path else .keyMissing path)

/-- Passes if there is a value, and reports everything it was given. -/
def echo : Checker := fun path value found =>
  match value.write with
  | .ok written => .ok ⟨path, found, path.render ++ "|" ++ written ++ "|" ++ boolText found⟩
  | .error fault => .error (.unwritable fault)

/-- Answers with a fixed verdict for a fixed path, whichever path is checked. -/
def elsewhere (steps : Except Int Path) (valid : Bool) (message : String) : Checker := fun _ _ _ =>
  match steps with
  | .ok path => .ok ⟨path, valid, message⟩
  | .error index => .error (.negativeIndex index)

/-- Gives up, with a message. -/
def refuse (message : String) : Checker := fun _ _ _ => .error (.refused message)

/-- The exact number that a scalar stands for, if it stands for one. -/
def numberOf? : Value → Option Number
  | .scalar (.bool b) => some (.ofInt (if b then 1 else 0))
  | .scalar (.int n) => some (.ofInt n)
  | .scalar (.float x) => x.number?
  | _ => none

/-- Passes for a number above zero. -/
def positive : Checker := fun path value found =>
  if !found then .ok (.keyMissing path)
  else if (numberOf? value).any Number.isPositive then .ok (.passed path)
  else Check.failing path (value.write.map ("expected a positive number, got " ++ ·))

end TreeMatch.Checker
