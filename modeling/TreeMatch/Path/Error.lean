import TreeMatch.Diagnostic.Basic
import TreeMatch.Path.Parse

/-!
# Texts that are no path

An index with too many digits is refused as a number, with no more than a message. The other faults
are errors about the path as a whole, whichever segment they are in.
-/

namespace TreeMatch

/-- What is said about a fault in the text of a path: a bare message, or a diagnostic. -/
def PathFault.explain (text : String) : PathFault → String ⊕ Diagnostic
  | .tooManyDigits count => .inl (NumberFault.tooManyDigits count).message
  | .malformedIndex segment =>
    .inr (.make (.path (some text)) ("Invalid sequence index segment '" ++ segment ++ "'") [] none)
  | .emptySegment =>
    .inr (.make (.path (some text)) "Empty segment in path" []
      (some "Separate keys with a single '.' and do not start or end with '.'"))

/-- The message about a negative index. -/
def negativeIndexMessage (index : Int) : String :=
  "Sequence index must be non-negative, got " ++ toString index

end TreeMatch
