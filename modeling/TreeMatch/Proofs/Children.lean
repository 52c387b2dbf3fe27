import Mathlib.Data.List.Nodup
import TreeMatch.Tree.DistinctKeys
import TreeMatch.Tree.Lookup
import TreeMatch.Tree.Walk

/-!
# Trees by their children

Lists, tuples and maps are walked, looked up and compared by different clauses. `Tree.children`
gives all of them one form, the steps out of a node with the nodes they lead to, and a node without
children is a leaf. The leaves of a tree are then those of its children with one step more in front
(`mem_leaves_iff`), every statement about trees may be proved from the children up (`byChildren`),
and a step that is looked up leads to a child (`mem_children_of_child?`), to the only one if the
steps differ (`child?_eq_some_iff`).
-/

namespace TreeMatch

variable {α : Type u}

/-- The leaf as it is seen from a node that `path` leads down from. -/
def Leaf.below (path : Path) (l : Leaf α) : Leaf α := ⟨path ++ l.path, l.node⟩

/-- A key that is a text is its own name. -/
theorem Key.text_eq_of_str? {k : Key} {s : String} (h : k.str? = some s) : k.text = s := by
  unfold Key.str? at h
  split at h
  · exact Option.some.inj h
  · exact nomatch h

namespace Tree

/-- The children of a node, each with the step of the walk that leads to it. -/
def children : Tree α → List (Step × Tree α)
  | .list xs | .tuple xs => xs.zipIdx.map fun e => (.index e.2, e.1)
  | .map es => es.map fun e => (.key e.1.text, e.2)
  | .scalar _ | .set _ | .check _ => []

/-! ## Sizes and induction -/

/-- The children of a sequence are its elements under their indices. -/
theorem mem_children_list_iff {xs : List (Tree α)} {c : Step × Tree α} :
    c ∈ (Tree.list xs).children ↔ ∃ i, xs[i]? = some c.2 ∧ c.1 = .index i := by
  constructor
  · intro h
    obtain ⟨e, he, rfl⟩ := List.mem_map.1 h
    exact ⟨e.2, List.mem_zipIdx_iff_getElem?.1 he, rfl⟩
  · rintro ⟨i, hx, hi⟩
    exact List.mem_map.2 ⟨(c.2, i), List.mem_zipIdx_iff_getElem?.2 hx, by rw [← hi]⟩

/-- A child of a sequence is an element. -/
theorem mem_of_mem_children_list {xs : List (Tree α)} {c : Step × Tree α}
    (h : c ∈ (Tree.list xs).children) : c.2 ∈ xs := by
  obtain ⟨i, hx, -⟩ := mem_children_list_iff.1 h
  exact List.mem_of_getElem? hx

/-- Every element of a sequence is a child. -/
theorem exists_mem_children_of_mem {xs : List (Tree α)} {x : Tree α} (h : x ∈ xs) :
    ∃ s, (s, x) ∈ (Tree.list xs).children := by
  obtain ⟨i, hi⟩ := List.mem_iff_getElem?.1 h
  exact ⟨.index i, mem_children_list_iff.2 ⟨i, hi, rfl⟩⟩

/-- A child of a map is the value of an entry. -/
theorem mem_of_mem_children_map {es : List (Key × Tree α)} {c : Step × Tree α}
    (h : c ∈ (Tree.map es).children) : ∃ e ∈ es, c = (.key e.1.text, e.2) := by
  obtain ⟨e, he, rfl⟩ := List.mem_map.1 h
  exact ⟨e, he, rfl⟩

/-- The children of a tree with distinct keys have distinct keys. -/
theorem DistinctKeys.child {t : Tree α} (h : t.DistinctKeys) {c : Step × Tree α}
    (hc : c ∈ t.children) : c.2.DistinctKeys := by
  cases t with
  | list xs => exact itemsDistinctKeys_iff.1 h _ (mem_of_mem_children_list hc)
  | tuple xs => exact itemsDistinctKeys_iff.1 h _ (@mem_of_mem_children_list _ xs c hc)
  | map es =>
    obtain ⟨e, he, rfl⟩ := mem_of_mem_children_map hc
    exact entriesDistinctKeys_iff.1 h.2 e he
  | scalar _ | set _ | check _ => exact nomatch hc

/-- A child is smaller than its parent. -/
theorem sizeOf_lt_of_mem_children {t : Tree α} {c : Step × Tree α} (h : c ∈ t.children) :
    sizeOf c.2 < sizeOf t := by
  cases t with
  | list xs =>
    have hlt := List.sizeOf_lt_of_mem (mem_of_mem_children_list h)
    rw [Tree.list.sizeOf_spec]
    omega
  | tuple xs =>
    have hlt := List.sizeOf_lt_of_mem (@mem_of_mem_children_list _ xs c h)
    rw [Tree.tuple.sizeOf_spec]
    omega
  | map es =>
    obtain ⟨⟨k, x⟩, he, rfl⟩ := mem_of_mem_children_map h
    have hlt := List.sizeOf_lt_of_mem he
    rw [Prod.mk.sizeOf_spec] at hlt
    rw [Tree.map.sizeOf_spec]
    show sizeOf x < _
    omega
  | scalar _ | set _ | check _ => exact nomatch h

/-- Induction on trees from the children up. -/
@[elab_as_elim]
theorem byChildren {motive : Tree α → Prop}
    (node : ∀ t, (∀ c ∈ t.children, motive c.2) → motive t) (t : Tree α) : motive t :=
  node t fun c _ => byChildren node c.2
termination_by sizeOf t
decreasing_by exact sizeOf_lt_of_mem_children ‹_›

/-! ## Leaves -/

/-- The leaves below the elements of a sequence are those of its children. -/
theorem itemLeaves_eq (path : Path) (i : Nat) (xs : List (Tree α)) :
    itemLeaves path i xs = ((xs.zipIdx i).map fun e => (Step.index e.2, e.1)).flatMap
      fun c => c.2.leavesFrom (path.extend c.1) := by
  induction xs generalizing i with
  | nil => rfl
  | cons x xs ih =>
    rw [itemLeaves, ih, List.zipIdx_cons, List.map_cons, List.flatMap_cons]

/-- The leaves below the entries of a map are those of its children. -/
theorem entryLeaves_eq (path : Path) (es : List (Key × Tree α)) :
    entryLeaves path es =
      (Tree.map es).children.flatMap fun c => c.2.leavesFrom (path.extend c.1) := by
  induction es with
  | nil => rfl
  | cons e es ih =>
    rw [entryLeaves, ih, children, children, List.map_cons, List.flatMap_cons]

/-- A node without children is a leaf. -/
theorem leavesFrom_of_children_eq_nil {t : Tree α} (h : t.children = []) (path : Path) :
    t.leavesFrom path = [⟨path, t⟩] := by
  cases t with
  | list xs | tuple xs | map xs =>
    obtain rfl : xs = [] := by simpa [children] using h
    rfl
  | scalar _ | set _ | check _ => rfl

/-- The leaves below a node with children are those below its children. -/
theorem leavesFrom_of_children_ne_nil {t : Tree α} (h : t.children ≠ []) (path : Path) :
    t.leavesFrom path = t.children.flatMap fun c => c.2.leavesFrom (path.extend c.1) := by
  cases t with
  | list xs | tuple xs =>
    cases xs with
    | nil => exact absurd rfl h
    | cons x rest => rw [leavesFrom, itemLeaves_eq, children]
  | map es =>
    cases es with
    | nil => exact absurd rfl h
    | cons e rest => rw [leavesFrom, entryLeaves_eq]
  | scalar _ | set _ | check _ => exact absurd rfl h

/-- The leaves below a node that stands at `path` are its own leaves, seen from there. -/
theorem leavesFrom_eq_map (path : Path) (t : Tree α) :
    t.leavesFrom path = t.leaves.map (Leaf.below path) := by
  induction t using byChildren generalizing path with
  | node t ih =>
    by_cases h : t.children = []
    · rw [leaves, leavesFrom_of_children_eq_nil h, leavesFrom_of_children_eq_nil h]
      simp [Leaf.below, Path.root]
    · rw [leaves, leavesFrom_of_children_ne_nil h, leavesFrom_of_children_ne_nil h,
        List.map_flatMap]
      refine List.flatMap_congr fun c hc => ?_
      rw [ih c hc, ih c hc (Path.root.extend c.1), List.map_map]
      refine List.map_congr_left fun l _ => ?_
      simp [Leaf.below, Path.root, Path.extend]

/-- The only leaf of a node without children is the node itself. -/
theorem leaves_of_children_eq_nil {t : Tree α} (h : t.children = []) : t.leaves = [⟨[], t⟩] :=
  leavesFrom_of_children_eq_nil h _

/-- The leaves of a node with children are those of the children, one step further down. -/
theorem leaves_of_children_ne_nil {t : Tree α} (h : t.children ≠ []) :
    t.leaves = t.children.flatMap fun c => c.2.leaves.map (Leaf.below [c.1]) := by
  rw [leaves, leavesFrom_of_children_ne_nil h]
  exact List.flatMap_congr fun c _ => leavesFrom_eq_map _ _

/-- A leaf below a child is a leaf, one step further down. -/
theorem mem_leaves_of_child {t : Tree α} {c : Step × Tree α} (hc : c ∈ t.children) {l : Leaf α}
    (hl : l ∈ c.2.leaves) : ⟨c.1 :: l.path, l.node⟩ ∈ t.leaves := by
  rw [leaves_of_children_ne_nil (List.ne_nil_of_mem hc)]
  exact List.mem_flatMap.2 ⟨c, hc, List.mem_map_of_mem hl⟩

/-- A leaf is the tree itself, if it has no children, or a leaf of a child. -/
theorem mem_leaves_iff {t : Tree α} {l : Leaf α} :
    l ∈ t.leaves ↔ (t.children = [] ∧ l = ⟨[], t⟩) ∨
      ∃ c ∈ t.children, ∃ l' ∈ c.2.leaves, l = ⟨c.1 :: l'.path, l'.node⟩ := by
  by_cases h : t.children = []
  · rw [leaves_of_children_eq_nil h]
    simp [h]
  · rw [leaves_of_children_ne_nil h]
    simp only [List.mem_flatMap, List.mem_map, h, false_and, false_or]
    constructor
    · rintro ⟨c, hc, l', hl', rfl⟩
      exact ⟨c, hc, l', hl', rfl⟩
    · rintro ⟨c, hc, l', hl', rfl⟩
      exact ⟨c, hc, l', hl', rfl⟩

/-- Every tree has a leaf. -/
theorem exists_mem_leaves (t : Tree α) : ∃ l, l ∈ t.leaves := by
  induction t using byChildren with
  | node t ih =>
    by_cases h : t.children = []
    · exact ⟨_, mem_leaves_iff.2 (.inl ⟨h, rfl⟩)⟩
    · obtain ⟨c, hc⟩ := List.exists_mem_of_ne_nil _ h
      obtain ⟨l, hl⟩ := ih c hc
      exact ⟨_, mem_leaves_of_child hc hl⟩

/-- A leaf has no children. -/
theorem children_node_of_mem_leaves {t : Tree α} {l : Leaf α} (h : l ∈ t.leaves) :
    l.node.children = [] := by
  induction t using byChildren generalizing l with
  | node t ih =>
    rcases mem_leaves_iff.1 h with ⟨hn, rfl⟩ | ⟨c, hc, l', hl', rfl⟩
    · exact hn
    · show l'.node.children = []
      exact ih c hc hl'

/-! ## Lookup -/

/-- A key step leads to an entry whose key has that name. -/
theorem exists_of_entry?_eq_some {es : List (Key × Tree α)} {name : String} {x : Tree α}
    (h : entry? es name = some x) : ∃ k, (k, x) ∈ es ∧ k.text = name := by
  unfold entry? at h
  split at h
  · rename_i e he
    obtain rfl := Option.some.inj h
    have hk : e.1.str? = some name := by simpa using List.find?_some he
    exact ⟨e.1, List.mem_of_find?_eq_some he, Key.text_eq_of_str? hk⟩
  · obtain ⟨e, he, rfl⟩ := Option.map_eq_some_iff.1 h
    have hk := List.find?_some he
    simp only [Bool.and_eq_true, beq_iff_eq] at hk
    exact ⟨e.1, List.mem_of_find?_eq_some he, hk.2⟩

/-- A name that leads nowhere is not the name of a key. -/
theorem text_ne_of_entry?_eq_none {es : List (Key × Tree α)} {name : String}
    (h : entry? es name = none) {e : Key × Tree α} (he : e ∈ es) : e.1.text ≠ name := by
  unfold entry? at h
  split at h
  · exact nomatch h
  · rename_i hn
    intro ht
    -- A text of that name would have been found first, any other key second.
    have hother := List.find?_eq_none.1 (Option.map_eq_none_iff.1 h) e he
    cases hs : e.1.str? with
    | none => simp [hs, ht] at hother
    | some s =>
      have hsame : s = name := by rw [← Key.text_eq_of_str? hs, ht]
      exact List.find?_eq_none.1 hn e he (by simp [hs, hsame])

/-- A step leads to a child. -/
theorem mem_children_of_child? {t x : Tree α} {s : Step} (h : t.child? s = some x) :
    (s, x) ∈ t.children := by
  unfold child? at h
  split at h
  · obtain ⟨k, hk, rfl⟩ := exists_of_entry?_eq_some h
    exact List.mem_map.2 ⟨_, hk, rfl⟩
  · exact mem_children_list_iff.2 ⟨_, h, rfl⟩
  · exact mem_children_list_iff.2 ⟨_, h, rfl⟩
  · exact nomatch h

/-- A step that leads nowhere is not the step to a child. -/
theorem ne_of_child?_eq_none {t : Tree α} {s : Step} (h : t.child? s = none)
    {c : Step × Tree α} (hc : c ∈ t.children) : c.1 ≠ s := by
  rintro rfl
  cases t with
  | list xs | tuple xs =>
    obtain ⟨i, hx, hi⟩ := mem_children_list_iff.1 hc
    rw [hi, child?, hx] at h
    exact nomatch h
  | map es =>
    obtain ⟨e, he, rfl⟩ := mem_of_mem_children_map hc
    exact text_ne_of_entry?_eq_none h he rfl
  | scalar _ | set _ | check _ => exact nomatch hc

/-- Where the steps to the children differ, a step leads to its own child. -/
theorem child?_eq_some_iff {t : Tree α} (hd : (t.children.map (·.1)).Nodup) {s : Step}
    {x : Tree α} : t.child? s = some x ↔ (s, x) ∈ t.children := by
  refine ⟨mem_children_of_child?, fun hc => ?_⟩
  cases h : t.child? s with
  | none => exact absurd rfl (ne_of_child?_eq_none h hc)
  | some y =>
    have heq := List.inj_on_of_nodup_map hd (mem_children_of_child? h) hc rfl
    rw [(Prod.mk.inj heq).2]

/-- Paths compose: the second one starts where the first one ends. -/
theorem lookup?_append (t : Tree α) (p q : Path) :
    t.lookup? (p ++ q) = (t.lookup? p).bind (·.lookup? q) := by
  induction p generalizing t with
  | nil => rfl
  | cons s p ih =>
    rw [List.cons_append, lookup?, lookup?]
    cases t.child? s with
    | none => rfl
    | some x => exact ih x

/-- A node without children that a path leads to is a leaf at this path. -/
theorem mem_leaves_of_lookup? {t x : Tree α} {p : Path} (h : t.lookup? p = some x)
    (hx : x.children = []) : ⟨p, x⟩ ∈ t.leaves := by
  induction p generalizing t with
  | nil =>
    obtain rfl := Option.some.inj h
    exact mem_leaves_iff.2 (.inl ⟨hx, rfl⟩)
  | cons s p ih =>
    obtain ⟨y, hy, hp⟩ := Option.bind_eq_some_iff.1 h
    exact mem_leaves_of_child (mem_children_of_child? hy) (ih hp)

end Tree

end TreeMatch
