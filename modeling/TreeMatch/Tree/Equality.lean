import TreeMatch.Tree.Basic

/-!
# Deep equality

`Tree.deepEqual` compares two trees by structure. Maps are equal when they have the same keys with
equal values in any order, sequences when they are equal element by element, lists and tuples alike.
Scalars are equal by value, except that a truth value never equals a number. Sets are equal when
they have the same members, among which truth values count as numbers. A check equals nothing.
-/

namespace TreeMatch

/-- Whether two scalars are equal as leaves of a tree. -/
def Scalar.equal (a b : Scalar) : Bool := a.isBool == b.isBool && a.same b

/-- Whether two sets have the same members. -/
def Member.sameAll (actual expected : List Member) : Bool :=
  actual.all (fun m => expected.any m.same) && expected.all fun m => actual.any m.same

namespace Tree

variable {α : Type u}

mutual

/-- Structural equality of the first tree and the second one, the expected tree. -/
def deepEqual : Tree α → Tree α → Bool
  | .map actual, .map expected =>
    actual.length == expected.length && entriesEqual actual expected
  | .list actual, .list expected => itemsEqual actual expected
  | .list actual, .tuple expected => itemsEqual actual expected
  | .tuple actual, .list expected => itemsEqual actual expected
  | .tuple actual, .tuple expected => itemsEqual actual expected
  | .scalar actual, .scalar expected => actual.equal expected
  | .set actual, .set expected => Member.sameAll actual expected
  | _, _ => false
termination_by structural _ expected => expected

/-- Whether two lists of trees are equal element by element. -/
def itemsEqual : List (Tree α) → List (Tree α) → Bool
  | [], [] => true
  | a :: actual, e :: expected => deepEqual a e && itemsEqual actual expected
  | _, _ => false
termination_by structural _ expected => expected

/-- Whether every expected entry has an equal one under the same key. -/
def entriesEqual (actual : List (Key × Tree α)) : List (Key × Tree α) → Bool
  | [] => true
  | (k, e) :: expected =>
    (match Assoc.get? Key.same k actual with
      | some a => deepEqual a e
      | none => false) && entriesEqual actual expected
termination_by structural expected => expected

end

end Tree

end TreeMatch
