import TreeMatch.Tree.Basic

/-!
# Trees with distinct keys

A map is a list of entries, and its type does not say that their keys differ from one another.
`Tree.DistinctKeys` says so of all maps of a tree, at any depth. A map that is filled pair by pair
is of this kind (`distinctKeys_ofPairs`), and so are all maps of a document that is loaded
(`Document.distinctKeys_of_load`).
-/

namespace TreeMatch.Tree

variable {α : Type u}

mutual

/-- In every map of the tree the keys differ from one another. -/
def DistinctKeys : Tree α → Prop
  | .scalar _ => True
  | .set _ => True
  | .check _ => True
  | .list xs | .tuple xs => ItemsDistinctKeys xs
  | .map es => Assoc.Distinct Key.same es ∧ EntriesDistinctKeys es
termination_by structural t => t

/-- In every map of the elements the keys differ from one another. -/
def ItemsDistinctKeys : List (Tree α) → Prop
  | [] => True
  | x :: xs => DistinctKeys x ∧ ItemsDistinctKeys xs
termination_by structural ts => ts

/-- In every map of the values the keys differ from one another. -/
def EntriesDistinctKeys : List (Key × Tree α) → Prop
  | [] => True
  | (_, x) :: es => DistinctKeys x ∧ EntriesDistinctKeys es
termination_by structural es => es

end

mutual

/-- Whether the keys differ in every map of the tree. -/
def decideDistinctKeys : (t : Tree α) → Decidable t.DistinctKeys
  | .scalar _ => .isTrue trivial
  | .set _ => .isTrue trivial
  | .check _ => .isTrue trivial
  | .list xs | .tuple xs => decideItemsDistinctKeys xs
  | .map es =>
    have := decideEntriesDistinctKeys es
    inferInstanceAs (Decidable (Assoc.Distinct Key.same es ∧ EntriesDistinctKeys es))
termination_by structural t => t

/-- Whether the keys differ in every map of the elements. -/
def decideItemsDistinctKeys : (ts : List (Tree α)) → Decidable (ItemsDistinctKeys ts)
  | [] => .isTrue trivial
  | x :: xs =>
    have := decideDistinctKeys x
    have := decideItemsDistinctKeys xs
    inferInstanceAs (Decidable (x.DistinctKeys ∧ ItemsDistinctKeys xs))
termination_by structural ts => ts

/-- Whether the keys differ in every map of the values. -/
def decideEntriesDistinctKeys : (es : List (Key × Tree α)) → Decidable (EntriesDistinctKeys es)
  | [] => .isTrue trivial
  | (_, x) :: es =>
    have := decideDistinctKeys x
    have := decideEntriesDistinctKeys es
    inferInstanceAs (Decidable (x.DistinctKeys ∧ EntriesDistinctKeys es))
termination_by structural es => es

end

instance (t : Tree α) : Decidable t.DistinctKeys := decideDistinctKeys t

/-- The elements of a sequence have distinct keys one by one. -/
theorem itemsDistinctKeys_iff {xs : List (Tree α)} :
    ItemsDistinctKeys xs ↔ ∀ x ∈ xs, x.DistinctKeys := by
  induction xs with
  | nil => simp [ItemsDistinctKeys]
  | cons x xs ih => simp [ItemsDistinctKeys, ih]

/-- The values of a map have distinct keys one by one. -/
theorem entriesDistinctKeys_iff {es : List (Key × Tree α)} :
    EntriesDistinctKeys es ↔ ∀ e ∈ es, e.2.DistinctKeys := by
  induction es with
  | nil => simp [EntriesDistinctKeys]
  | cons e es ih => simp [EntriesDistinctKeys, ih]

/-- A map that is filled pair by pair has distinct keys if the values have them. -/
theorem distinctKeys_ofPairs {pairs : List (Key × Tree α)} (h : ∀ p ∈ pairs, p.2.DistinctKeys) :
    (Tree.ofPairs pairs).DistinctKeys := by
  refine ⟨Assoc.distinct_ofPairs Key.same pairs, entriesDistinctKeys_iff.2 fun e he => ?_⟩
  obtain ⟨p, hp, hv⟩ := Assoc.mem_ofPairs he
  exact hv ▸ h p hp

end TreeMatch.Tree
