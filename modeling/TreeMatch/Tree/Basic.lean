import TreeMatch.Assoc
import TreeMatch.Moment
import TreeMatch.Numeric.Binary64

/-!
# Value trees

Nested values of scalars, sets of scalars, sequences and maps with ordered entries, whose leaves may
also be checks of a type `α`. Data and schemas have the same shape: a schema is a tree with checks
to run, a data value a tree whose checks are labels without content. `Tree.kind` classifies a node;
non-empty maps and sequences are branches, everything else is a leaf.

Keys are compared by value, so NaN as a key differs from itself. That one NaN may be found again by
its identity, where the very same object is asked for, is left out of keys; only sets tell the
shared NaN from others, and so do the mappings of YAML while they are made.
-/

namespace TreeMatch

/-- A value without parts. -/
inductive Scalar where
  /-- The absent value. -/
  | null
  /-- A truth value. -/
  | bool (b : Bool)
  /-- A whole number of any size. -/
  | int (n : Int)
  /-- A floating point number. -/
  | float (x : Binary64)
  /-- A text. -/
  | str (s : String)
  /-- A byte string. -/
  | bytes (bs : List UInt8)
  /-- A point in time. -/
  | moment (m : Moment)
deriving DecidableEq, Repr, Inhabited

/-- A key of a map: a scalar, or a tuple of keys. -/
inductive Key where
  /-- A scalar as a key. -/
  | scalar (s : Scalar)
  /-- A tuple as a key. -/
  | tuple (items : List Key)
deriving Repr, Inhabited

/-- A member of a set. -/
inductive Member where
  /-- A scalar, compared by its value. -/
  | scalar (s : Scalar)
  /-- The NaN that is the same in all sets. -/
  | nan
deriving DecidableEq, Repr, Inhabited

/-- A nested value with checks of type `α` among its leaves. -/
inductive Tree (α : Type u) where
  /-- A value without parts. -/
  | scalar (s : Scalar)
  /-- A set, with its members in the order in which they are written. -/
  | set (members : List Member)
  /-- A list. -/
  | list (items : List (Tree α))
  /-- A tuple: a sequence as well, told from a list only by how it prints. -/
  | tuple (items : List (Tree α))
  /-- A map with its entries in order. -/
  | map (entries : List (Key × Tree α))
  /-- A check in place of a value. -/
  | check (c : α)
deriving Inhabited

/-- The shape of a node. -/
inductive Kind where
  /-- A map with entries. -/
  | map
  /-- A map without entries. -/
  | emptyMap
  /-- A sequence with elements. -/
  | sequence
  /-- A sequence without elements. -/
  | emptySequence
  /-- A scalar or a set. -/
  | scalar
  /-- A check. -/
  | predicate
deriving DecidableEq, Repr

/-- The name of a kind. -/
def Kind.name : Kind → String
  | .map => "map"
  | .emptyMap => "empty_map"
  | .sequence => "sequence"
  | .emptySequence => "empty_sequence"
  | .scalar => "scalar"
  | .predicate => "predicate"

/-- Whether nodes of the kind are descended into. -/
def Kind.isBranch : Kind → Bool
  | .map | .sequence => true
  | _ => false

/-- Whether nodes of the kind are sequences, with elements or without. -/
def Kind.isSequence : Kind → Bool
  | .sequence | .emptySequence => true
  | _ => false

namespace Scalar

/-- What a scalar is compared by: numbers by their exact value, whatever their type. Truth values
count as the numbers 0 and 1. -/
inductive Form where
  /-- The absent value. -/
  | null
  /-- A number. -/
  | number (n : Number)
  /-- A text. -/
  | str (s : String)
  /-- A byte string. -/
  | bytes (bs : List UInt8)
  /-- A point in time. -/
  | moment (f : Moment.Form)
deriving DecidableEq

/-- The form of a scalar. NaN has none, so that it is equal to nothing. -/
def form? : Scalar → Option Form
  | .null => some .null
  | .bool b => some (.number (.ofInt (if b then 1 else 0)))
  | .int n => some (.number (.ofInt n))
  | .float x => x.number?.map .number
  | .str s => some (.str s)
  | .bytes bs => some (.bytes bs)
  | .moment m => some (.moment m.form)

/-- Whether two scalars are equal as values; `1`, `1.0` and `true` are, NaN and NaN are not. -/
def same (a b : Scalar) : Bool := a.form?.isSome && a.form? == b.form?

/-- Whether a scalar is a truth value. -/
def isBool : Scalar → Bool
  | .bool _ => true
  | _ => false

end Scalar

namespace Key

mutual

/-- Whether two keys are one key of a map: scalars by value, tuples item by item. -/
def same : Key → Key → Bool
  | .scalar a, .scalar b => a.same b
  | .tuple xs, .tuple ys => sameItems xs ys
  | _, _ => false
termination_by structural k => k

/-- Whether two lists of keys are equal item by item. -/
def sameItems : List Key → List Key → Bool
  | [], [] => true
  | x :: xs, y :: ys => same x y && sameItems xs ys
  | _, _ => false
termination_by structural ks => ks

end

/-- The text of a key that is a text. -/
def str? : Key → Option String
  | .scalar (.str s) => some s
  | _ => none

end Key

namespace Member

/-- The member as a scalar. -/
def value : Member → Scalar
  | .scalar s => s
  | .nan => .float .nan

/-- Whether two members are one member of a set. -/
def same : Member → Member → Bool
  | .scalar a, .scalar b => a.same b
  | .nan, .nan => true
  | _, _ => false

end Member

namespace Tree

variable {α : Type u} {β : Type v}

/-- The shape of a node. -/
def kind : Tree α → Kind
  | .scalar _ | .set _ => .scalar
  | .list xs | .tuple xs => if xs.isEmpty then .emptySequence else .sequence
  | .map es => if es.isEmpty then .emptyMap else .map
  | .check _ => .predicate

/-- The absent value. -/
def null : Tree α := .scalar .null

/-- A text. -/
def str (s : String) : Tree α := .scalar (.str s)

/-- A whole number. -/
def int (n : Int) : Tree α := .scalar (.int n)

/-- A truth value. -/
def bool (b : Bool) : Tree α := .scalar (.bool b)

/-- The map that is filled pair by pair. -/
def ofPairs (pairs : List (Key × Tree α)) : Tree α := .map (Assoc.ofPairs Key.same pairs)

mutual

/-- The tree with every check replaced. -/
def mapChecks (f : α → β) : Tree α → Tree β
  | .scalar s => .scalar s
  | .set ms => .set ms
  | .list xs => .list (mapItems f xs)
  | .tuple xs => .tuple (mapItems f xs)
  | .map es => .map (mapEntries f es)
  | .check c => .check (f c)
termination_by structural t => t

/-- The elements with every check replaced. -/
def mapItems (f : α → β) : List (Tree α) → List (Tree β)
  | [] => []
  | x :: xs => mapChecks f x :: mapItems f xs
termination_by structural ts => ts

/-- The entries with every check replaced. -/
def mapEntries (f : α → β) : List (Key × Tree α) → List (Key × Tree β)
  | [] => []
  | (k, x) :: es => (k, mapChecks f x) :: mapEntries f es
termination_by structural es => es

end

end Tree

/-- The mark of a container at a place within itself, where it would come again. -/
inductive Recurrence where
  /-- The container is a list. -/
  | list
  /-- The container is a tuple. -/
  | tuple
  /-- The container is a map. -/
  | map
deriving DecidableEq, Repr

/-- What stands at a leaf of a data value that is no value. -/
inductive Label where
  /-- What is left of a check: its name, and whether it accepts an absent value. -/
  | check (name : String) (isOptional : Bool)
  /-- A mark of a container that holds itself. -/
  | again (r : Recurrence)
deriving DecidableEq, Repr

/-- A data value. -/
abbrev Value := Tree Label

/-- A tree without checks. -/
abbrev PlainTree := Tree Empty

/-- The plain tree as a tree that may hold checks. -/
def Tree.ofPlain {α : Type u} (t : PlainTree) : Tree α := t.mapChecks Empty.elim

end TreeMatch
