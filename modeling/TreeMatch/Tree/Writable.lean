import TreeMatch.Numeric.Decimal
import TreeMatch.Tree.Written

/-!
# Writing what may be too long

A whole number of more than `digitLimit` decimal digits is a value like any other, but it is not
written. `Tree.write` and `Key.name` give the texts of `Tree.written` and `Key.text`, or fail at
such a number; whatever puts a value into a message or a key into a path goes through them.
`Tree.isWritable` says that a tree has no such number, and `Tree.hasWritableKeys` that no key of a
map in it has one. Only bases that are powers of two, and base 60, can name such a number in a
document.
-/

namespace TreeMatch

/-- Why something is not written. -/
inductive WriteFault where
  /-- A whole number in it has too many digits. -/
  | tooManyDigits
deriving DecidableEq, Repr

/-- What is said about a fault. -/
def WriteFault.message : WriteFault → String
  | .tooManyDigits =>
    "Exceeds the limit (" ++ toString digitLimit ++ " digits) for integer string conversion; " ++
      "use sys.set_int_max_str_digits() to increase the limit"

/-- Whether a whole number has no more than `digitLimit` digits. -/
def isWritableInteger (n : Int) : Bool := n.natAbs < Nat.pow 10 digitLimit

/-- Whether a scalar can be written. -/
def Scalar.isWritable : Scalar → Bool
  | .int n => isWritableInteger n
  | _ => true

namespace Key

mutual

/-- Whether a key can be written. -/
def isWritable : Key → Bool
  | .scalar s => s.isWritable
  | .tuple items => areWritable items
termination_by structural k => k

/-- Whether all keys can be written. -/
def areWritable : List Key → Bool
  | [] => true
  | k :: ks => isWritable k && areWritable ks
termination_by structural ks => ks

end

/-- The name of a key in a path, if the key can be written. -/
def name (k : Key) : Except WriteFault String :=
  if k.isWritable then .ok k.text else .error .tooManyDigits

end Key

namespace Tree

variable {α : Type u}

section All

variable (onKey : Key → Bool) (onScalar : Scalar → Bool)

mutual

/-- Whether all keys and all scalars of a tree have some properties. -/
def all : Tree α → Bool
  | .scalar s => onScalar s
  | .set ms => ms.all (onScalar ·.value)
  | .list xs | .tuple xs => allItems xs
  | .map es => allEntries es
  | .check _ => true
termination_by structural t => t

/-- Whether all keys and all scalars of the elements have some properties. -/
def allItems : List (Tree α) → Bool
  | [] => true
  | x :: xs => all x && allItems xs
termination_by structural ts => ts

/-- Whether all keys and all scalars of the entries have some properties. -/
def allEntries : List (Key × Tree α) → Bool
  | [] => true
  | (k, x) :: es => onKey k && all x && allEntries es
termination_by structural es => es

end

end All

/-- Whether a tree can be written. -/
def isWritable (t : Tree α) : Bool := t.all Key.isWritable Scalar.isWritable

/-- Whether all leaves of a tree have paths that can be written. -/
def hasWritableKeys (t : Tree α) : Bool := t.all Key.isWritable fun _ => true

/-- A value as text, texts in quotes, if it can be written. -/
def write (t : Value) : Except WriteFault String :=
  if t.isWritable then .ok t.written else .error .tooManyDigits

end Tree

end TreeMatch
