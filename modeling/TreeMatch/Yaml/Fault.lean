import TreeMatch.Moment
import TreeMatch.Numeric.Decimal
import TreeMatch.Text.Quoted
import TreeMatch.Tree.Endless

/-!
# Why YAML is not read

Most faults are alike: the text is no document, or a document that cannot be made into a value. The
others come from scalars whose tag promises a number, a truth value or a date that their text does
not write, and from levels within one another that there is no room for; they are told apart.
-/

namespace TreeMatch.Yaml

/-- Why a text is not read. -/
inductive Fault where
  /-- The text is no document, or no value can be made of it. -/
  | malformed
  /-- A scalar tagged as a number does not write one. -/
  | number (fault : NumberFault)
  /-- A scalar tagged as a number has no digits at all. -/
  | emptyNumber
  /-- A scalar tagged as a truth value is none of the known words. -/
  | unknownTruthValue (word : String)
  /-- A scalar tagged as a point in time is none. -/
  | notTimestamp
  /-- What is tagged as a point in time is a mapping that stands for a text. -/
  | notText
  /-- A point in time does not exist. -/
  | moment (fault : MomentFault)
  /-- An escape names a number that is no code point. -/
  | noCodePoint (n : Nat)
  /-- There is no room for a collection, a merged mapping or what stands for a text within the
  others. -/
  | tooDeep
deriving DecidableEq, Repr

/-- What there is room for where a document is read. -/
structure Room where
  /-- Collections within one another. -/
  collections : Nat
  /-- Mappings that are merged, each on the way of the one before. -/
  merges : Nat
  /-- Mappings that stand for a text, one after the other. -/
  texts : Nat

/-- What is said about a fault, unless the text is simply no document. -/
def Fault.message : Fault → String
  | .malformed => "malformed document"
  | .number fault => fault.message
  | .emptyNumber => "string index out of range"
  | .unknownTruthValue word => quoted word
  | .notTimestamp => "'NoneType' object has no attribute 'groupdict'"
  | .notText => "expected string or bytes-like object, got 'list'"
  | .moment fault => fault.message
  | .tooDeep => endlessMessage
  | .noCodePoint n =>
    if n < 0x80000000 then "chr() arg not in range(0x110000)"
    else "Python int too large to convert to C int"

end TreeMatch.Yaml
