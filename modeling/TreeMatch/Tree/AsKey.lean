import TreeMatch.Tree.Written

/-!
# Values as keys

A value can be a map key if it is a scalar, or a tuple whose elements can be keys. Maps, lists and
sets cannot, and checks are not taken for keys either.
-/

namespace TreeMatch

/-- The name of the type of a value that cannot be a key. -/
structure Unhashable where
  /-- The name of the type. -/
  typeName : String
deriving DecidableEq, Repr

/-- The message about a value that cannot be a key. -/
def Unhashable.message (u : Unhashable) : String := "unhashable type: " ++ quoted u.typeName

namespace Tree

variable {α : Type u}

mutual

/-- The value as a key, or its first part that cannot be one. -/
def asKey : Tree α → Except Unhashable Key
  | .scalar s => .ok (.scalar s)
  | .tuple xs => (itemsAsKeys xs).map Key.tuple
  | .set _ => .error ⟨"set"⟩
  | .list _ => .error ⟨"list"⟩
  | .map _ => .error ⟨"dict"⟩
  | .check _ => .error ⟨"IsDef"⟩
termination_by structural t => t

/-- The elements of a tuple as keys. -/
def itemsAsKeys : List (Tree α) → Except Unhashable (List Key)
  | [] => .ok []
  | x :: xs => do
    let k ← asKey x
    let ks ← itemsAsKeys xs
    pure (k :: ks)
termination_by structural ts => ts

end

end Tree

end TreeMatch
