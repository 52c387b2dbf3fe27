import TreeMatch.Tree.Basic

/-!
# Documents that hold themselves

A document may name a container from within, so that reading it all would never end. Its tree is
finite nevertheless: a mark stands where such a container would come again, and is written in place
of the rest. `Tree.finite?` tells the documents without such containers, which alone can be walked
to their last leaf.
-/

namespace TreeMatch

/-- The tree of a document, which may have marks of containers that hold themselves. -/
abbrev DocumentTree := Tree Recurrence

/-- What is said where the levels of a document do not come to an end, or not soon enough. -/
def endlessMessage : String := "maximum recursion depth exceeded"

namespace Tree

/-- The tree of a document as a data value. -/
def ofDocument (t : DocumentTree) : Value := t.mapChecks Label.again

mutual

/-- The tree of a document without its marks, if it has none. -/
def finite? : DocumentTree → Option PlainTree
  | .scalar s => some (.scalar s)
  | .set ms => some (.set ms)
  | .list xs => (finiteItems? xs).map .list
  | .tuple xs => (finiteItems? xs).map .tuple
  | .map es => (finiteEntries? es).map .map
  | .check _ => none
termination_by structural t => t

/-- The elements without marks, if they have none. -/
def finiteItems? : List DocumentTree → Option (List PlainTree)
  | [] => some []
  | x :: xs => (finite? x).bind fun y => (finiteItems? xs).map (y :: ·)
termination_by structural ts => ts

/-- The entries without marks, if they have none. -/
def finiteEntries? : List (Key × DocumentTree) → Option (List (Key × PlainTree))
  | [] => some []
  | (k, x) :: es => (finite? x).bind fun y => (finiteEntries? es).map ((k, y) :: ·)
termination_by structural es => es

end

end Tree

end TreeMatch
