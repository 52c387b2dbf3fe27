import TreeMatch.Proofs.TextKeys
import TreeMatch.Proofs.Walking

/-!
# A tree is told from its leaves

The leaves of a tree, with their paths and in their order, say everything about it if the keys of
its maps are texts. The leaves below one child are those whose paths begin with its step
(`filter_branches_cons`), so that the children can be told from them one after the other
(`map_eq_of_branches_eq`); and children with their steps are those of one map or one list only
(`ofChildren_withLists`). What the leaves do not say is which sequences are tuples, except for those
without elements, which are leaves themselves. `Tree.withLists` is the tree with lists in place of
all other tuples, and the main statement (`walk_determines_tree`) is that two trees are reported
alike by a walk exactly if they are the same in this form.
-/

namespace TreeMatch

variable {α : Type u}

/-- Leaves that look the same from the same node are the same. -/
theorem Leaf.below_injective (path : Path) : Function.Injective (Leaf.below (α := α) path) := by
  intro l m h
  obtain ⟨hpath, hnode⟩ := Leaf.mk.inj h
  cases l
  cases m
  rw [Leaf.mk.injEq]
  exact ⟨List.append_cancel_left hpath, hnode⟩

namespace Tree

/-! ## Lists for tuples -/

mutual

/-- The tree with a list in place of every tuple that has elements. -/
def withLists : Tree α → Tree α
  | .scalar s => .scalar s
  | .set ms => .set ms
  | .list xs => .list (itemsWithLists xs)
  | .tuple [] => .tuple []
  | .tuple (x :: xs) => .list (itemsWithLists (x :: xs))
  | .map es => .map (entriesWithLists es)
  | .check c => .check c
termination_by structural t => t

/-- The elements with lists in place of tuples that have elements. -/
def itemsWithLists : List (Tree α) → List (Tree α)
  | [] => []
  | x :: xs => withLists x :: itemsWithLists xs
termination_by structural ts => ts

/-- The entries with lists in place of tuples that have elements. -/
def entriesWithLists : List (Key × Tree α) → List (Key × Tree α)
  | [] => []
  | (k, x) :: es => (k, withLists x) :: entriesWithLists es
termination_by structural es => es

end

/-- The elements are changed one by one. -/
theorem itemsWithLists_eq_map (xs : List (Tree α)) : itemsWithLists xs = xs.map withLists := by
  induction xs with
  | nil => rfl
  | cons x xs ih => rw [itemsWithLists, ih, List.map_cons]

/-- The entries are changed value by value. -/
theorem entriesWithLists_eq_map (es : List (Key × Tree α)) :
    entriesWithLists es = es.map fun e => (e.1, e.2.withLists) := by
  induction es with
  | nil => rfl
  | cons e es ih => rw [entriesWithLists, ih, List.map_cons]

/-- A node without children stays as it is. -/
theorem withLists_of_children_eq_nil {t : Tree α} (h : t.children = []) : t.withLists = t := by
  cases t with
  | list xs | tuple xs | map xs =>
    obtain rfl : xs = [] := by simpa [children] using h
    rfl
  | scalar _ | set _ | check _ => rfl

/-- The steps to the children stay. -/
theorem children_withLists (t : Tree α) :
    t.withLists.children = t.children.map fun c => (c.1, c.2.withLists) := by
  -- Lists and tuples number their elements alike, so one fact serves both.
  have hitems : ∀ xs : List (Tree α), (Tree.list (itemsWithLists xs)).children =
      (Tree.list xs).children.map fun c => (c.1, c.2.withLists) := by
    intro xs
    rw [children, children, itemsWithLists_eq_map, List.zipIdx_map, List.map_map, List.map_map]
    rfl
  cases t with
  | list xs => exact hitems xs
  | tuple xs =>
    cases xs with
    | nil => rfl
    | cons x xs => exact hitems (x :: xs)
  | map es =>
    rw [withLists, children, children, entriesWithLists_eq_map, List.map_map, List.map_map]
    rfl
  | scalar _ | set _ | check _ => rfl

/-- The leaves stay, as none of them has elements. -/
theorem leaves_withLists (t : Tree α) : t.withLists.leaves = t.leaves := by
  induction t using byChildren with
  | node t ih =>
    by_cases h : t.children = []
    · rw [withLists_of_children_eq_nil h]
    · have hchanged : t.withLists.children ≠ [] := by
        rw [children_withLists]
        exact mt List.map_eq_nil_iff.1 h
      rw [leaves_of_children_ne_nil h, leaves_of_children_ne_nil hchanged, children_withLists,
        List.flatMap_map]
      exact List.flatMap_congr fun c hc => by rw [ih c hc]

/-! ## Leaves by their first step -/

/-- The leaves of children, as they are seen from their parent. -/
def branches (cs : List (Step × Tree α)) : List (Leaf α) :=
  cs.flatMap fun c => c.2.leaves.map (Leaf.below [c.1])

/-- The leaves of a first child come first. -/
theorem branches_cons (c : Step × Tree α) (cs : List (Step × Tree α)) :
    branches (c :: cs) = c.2.leaves.map (Leaf.below [c.1]) ++ branches cs := List.flatMap_cons

/-- Every child has leaves. -/
theorem branches_eq_nil_iff {cs : List (Step × Tree α)} : branches cs = [] ↔ cs = [] := by
  constructor
  · intro h
    rw [branches, List.flatMap_eq_nil_iff] at h
    apply List.eq_nil_iff_forall_not_mem.2
    intro c hc
    obtain ⟨l, hl⟩ := exists_mem_leaves c.2
    exact List.ne_nil_of_mem (List.mem_map_of_mem hl) (h c hc)
  · rintro rfl
    rfl

/-- The path of the first leaf begins with the step to the first child. -/
theorem head?_branches_cons (c : Step × Tree α) (cs : List (Step × Tree α)) :
    (branches (c :: cs)).head?.bind (·.path.head?) = some c.1 := by
  obtain ⟨l, hl⟩ := exists_mem_leaves c.2
  obtain ⟨first, others, hleaves⟩ := List.exists_cons_of_ne_nil (List.ne_nil_of_mem hl)
  rw [branches_cons, hleaves]
  rfl

/-- The path of a leaf of a child begins with the step to the child. -/
theorem exists_of_mem_branches {cs : List (Step × Tree α)} {l : Leaf α} (h : l ∈ branches cs) :
    ∃ c ∈ cs, l.path.head? = some c.1 := by
  obtain ⟨c, hc, hl⟩ := List.mem_flatMap.1 h
  obtain ⟨m, -, rfl⟩ := List.mem_map.1 hl
  exact ⟨c, hc, rfl⟩

/-- If no other child has the step of the first one, the leaves whose paths begin with it are those
of the first child, and the other leaves are those of the other children. -/
theorem filter_branches_cons {c : Step × Tree α} {cs : List (Step × Tree α)}
    (hc : c.1 ∉ cs.map (·.1)) :
    (branches (c :: cs)).filter (·.path.head? == some c.1) = c.2.leaves.map (Leaf.below [c.1]) ∧
    (branches (c :: cs)).filter (·.path.head? != some c.1) = branches cs := by
  have hfirst : ∀ l ∈ c.2.leaves.map (Leaf.below [c.1]), l.path.head? = some c.1 :=
    List.forall_mem_map.2 fun _ _ => rfl
  have hothers : ∀ l ∈ branches cs, l.path.head? ≠ some c.1 := by
    intro l hl heq
    obtain ⟨d, hd, hstep⟩ := exists_of_mem_branches hl
    have hsame : d.1 = c.1 := Option.some.inj (hstep.symm.trans heq)
    exact hc (hsame ▸ List.mem_map_of_mem hd)
  rw [branches_cons, List.filter_append, List.filter_append]
  constructor
  · rw [List.filter_eq_self.2 (by simpa using hfirst),
      List.filter_eq_nil_iff.2 (by simpa using hothers), List.append_nil]
  · rw [List.filter_eq_nil_iff.2 (by simpa using hfirst),
      List.filter_eq_self.2 (by simpa using hothers), List.nil_append]

/-- The leaves say what the children are like, one after the other: whatever is the same of two
children with the same step and the same leaves, is the same of them all in order. -/
theorem map_eq_of_branches_eq {β : Type v} {f : Step × Tree α → β} {cs ds : List (Step × Tree α)}
    (hcs : (cs.map (·.1)).Nodup) (hds : (ds.map (·.1)).Nodup) (h : branches cs = branches ds)
    (hf : ∀ c ∈ cs, ∀ d ∈ ds, c.1 = d.1 → c.2.leaves = d.2.leaves → f c = f d) :
    cs.map f = ds.map f := by
  induction cs generalizing ds with
  | nil =>
    obtain rfl : ds = [] := branches_eq_nil_iff.1 h.symm
    rfl
  | cons c cs ih =>
    cases ds with
    | nil => exact absurd (branches_eq_nil_iff.1 h) (List.cons_ne_nil _ _)
    | cons d ds =>
      obtain ⟨hc, hcs⟩ := List.nodup_cons.1 hcs
      obtain ⟨hd, hds⟩ := List.nodup_cons.1 hds
      have hstep : c.1 = d.1 := by
        have hheads := head?_branches_cons c cs
        rw [h, head?_branches_cons] at hheads
        exact (Option.some.inj hheads).symm
      -- The leaves below the two first children are cut off alike, and so are the rest.
      obtain ⟨hfirst, hothers⟩ := filter_branches_cons hc
      obtain ⟨hfirst', hothers'⟩ := filter_branches_cons hd
      rw [h, hstep] at hfirst hothers
      have hleaves : c.2.leaves = d.2.leaves :=
        List.map_injective_iff.2 (Leaf.below_injective [d.1]) (hfirst.symm.trans hfirst')
      have hrest : branches cs = branches ds := hothers.symm.trans hothers'
      rw [List.map_cons, List.map_cons,
        hf c List.mem_cons_self d List.mem_cons_self hstep hleaves,
        ih hcs hds hrest fun c' hc' d' hd' =>
          hf c' (List.mem_cons_of_mem _ hc') d' (List.mem_cons_of_mem _ hd')]

/-! ## Nodes by their children -/

/-- The map or the list with the given children. -/
def ofChildren (cs : List (Step × Tree α)) : Tree α :=
  if cs.head?.map (·.1.kind) = some .map then
    .map (cs.map fun c => (.scalar (.str c.1.text), c.2))
  else
    .list (cs.map (·.2))

/-- A list is told from its children. -/
theorem ofChildren_list (xs : List (Tree α)) : ofChildren (Tree.list xs).children = .list xs := by
  have hitems : (Tree.list xs).children.map (·.2) = xs := by
    rw [children, List.map_map]
    exact List.zipIdx_map_fst 0 xs
  have hkind : (Tree.list xs).children.head?.map (·.1.kind) ≠ some .map := by
    cases xs <;> simp [children, Step.kind]
  rw [ofChildren, if_neg hkind, hitems]

/-- A map with entries is told from its children, if its keys are texts. -/
theorem ofChildren_map {es : List (Key × Tree α)} (hne : es ≠ [])
    (ht : ∀ e ∈ es, e.1.isText = true) : ofChildren (Tree.map es).children = .map es := by
  have hentries : (Tree.map es).children.map (fun c => (Key.scalar (.str c.1.text), c.2)) = es := by
    rw [children, List.map_map]
    refine (List.map_congr_left fun e he => ?_).trans (List.map_id es)
    obtain ⟨k, x⟩ := e
    obtain ⟨s, rfl⟩ := Key.exists_of_isText (ht (k, x) he)
    rfl
  have hkind : (Tree.map es).children.head?.map (·.1.kind) = some .map := by
    cases es with
    | nil => exact absurd rfl hne
    | cons e es => rfl
  rw [ofChildren, if_pos hkind, hentries]

/-- With lists for tuples, a node that has children is told from them, if its keys are texts. -/
theorem ofChildren_withLists {t : Tree α} (hn : t.children ≠ [])
    (ht : t.all Key.isText (fun _ => true) = true) :
    ofChildren t.withLists.children = t.withLists := by
  cases t with
  | list xs => exact ofChildren_list _
  | tuple xs =>
    cases xs with
    | nil => exact absurd rfl hn
    | cons x xs => exact ofChildren_list _
  | map es =>
    have hne : es ≠ [] := fun h => hn (by rw [h]; rfl)
    rw [withLists, entriesWithLists_eq_map]
    refine ofChildren_map (mt List.map_eq_nil_iff.1 hne) ?_
    rw [List.forall_mem_map]
    exact fun e he => (allEntries_iff.1 ht e he).1
  | scalar _ | set _ | check _ => exact absurd rfl hn

/-! ## Trees by their leaves -/

/-- The keys of the maps in the tree are texts, and those of one map differ. -/
structure KeyedByTexts (t : Tree α) : Prop where
  /-- The keys of one map differ. -/
  distinct : t.DistinctKeys
  /-- All keys are texts. -/
  texts : t.all Key.isText (fun _ => true) = true

/-- The steps to the children differ. -/
theorem KeyedByTexts.nodup_steps {t : Tree α} (h : t.KeyedByTexts) :
    (t.children.map (·.1)).Nodup :=
  (h.distinct.distinctNames h.texts fun _ => id).nodup_steps

/-- The children are keyed by texts as well. -/
theorem KeyedByTexts.child {t : Tree α} (h : t.KeyedByTexts) {c : Step × Tree α}
    (hc : c ∈ t.children) : c.2.KeyedByTexts :=
  ⟨h.distinct.child hc, all_child h.texts hc⟩

/-- A tree whose only leaf has the path of the root is this leaf. -/
theorem eq_of_leaves_eq_leaf {s t : Tree α} (hs : s.children = []) (h : s.leaves = t.leaves) :
    s = t := by
  -- A leaf below a child has a path with a step, so this one is the root itself.
  have hleaf : ⟨[], s⟩ ∈ t.leaves := by
    rw [← h, leaves_of_children_eq_nil hs]
    exact List.mem_singleton.2 rfl
  rcases mem_leaves_iff.1 hleaf with ⟨-, heq⟩ | ⟨c, -, l, -, heq⟩
  · exact (Leaf.mk.inj heq).2
  · exact nomatch (Leaf.mk.inj heq).1

/-- Trees that are keyed by texts and have the same leaves are the same with lists for tuples. -/
theorem KeyedByTexts.withLists_eq {s t : Tree α} (hs : s.KeyedByTexts) (ht : t.KeyedByTexts)
    (h : s.leaves = t.leaves) : s.withLists = t.withLists := by
  induction s using byChildren generalizing t with
  | node s ih =>
    by_cases hns : s.children = []
    · rw [eq_of_leaves_eq_leaf hns h]
    · by_cases hnt : t.children = []
      · rw [eq_of_leaves_eq_leaf hnt h.symm]
      · -- The children agree step by step, and each node is told from its own children.
        have hbranches : branches s.children = branches t.children := by
          rw [leaves_of_children_ne_nil hns, leaves_of_children_ne_nil hnt] at h
          exact h
        have hchildren : s.withLists.children = t.withLists.children := by
          rw [children_withLists, children_withLists]
          refine map_eq_of_branches_eq hs.nodup_steps ht.nodup_steps hbranches ?_
          intro c hc d hd hstep hleaves
          rw [hstep, ih c hc (hs.child hc) (ht.child hd) hleaves]
        rw [← ofChildren_withLists hns hs.texts, hchildren, ofChildren_withLists hnt ht.texts]

/-- Two trees that are keyed by texts are reported alike by a walk, leaf by leaf in order, exactly
if they are the same up to their tuples: if they are the same with lists in place of the tuples that
have elements. -/
theorem walk_determines_tree {α : Type} {s t : Tree α} (hs : s.KeyedByTexts)
    (ht : t.KeyedByTexts) (base : Path) :
    (s.walkUpTo none base).1 = (t.walkUpTo none base).1 ↔ s.withLists = t.withLists := by
  have hreached : ∀ u : Tree α, u.KeyedByTexts → (u.walkUpTo none base).1 =
      u.leaves.map (Leaf.below base) := fun u hu => by
    rw [walkUpTo_none, reachedFrom_of_hasWritableKeys (hasWritableKeys_of_texts hu.texts),
      leavesFrom_eq_map]
  rw [hreached s hs, hreached t ht]
  constructor
  · intro h
    have hleaves : s.leaves = t.leaves :=
      List.map_injective_iff.2 (Leaf.below_injective base) h
    exact hs.withLists_eq ht hleaves
  · intro h
    rw [← leaves_withLists s, h, leaves_withLists]

/-- A tree with keys that are empty, have a dot or are written as an index, and two tuples. -/
def shelvedTree : Value :=
  .map [(.scalar (.str ""), .tuple [.int 1, .map [], .tuple []]), (.scalar (.str "a.b"), .list []),
    (.scalar (.str "[0]"), .map [(.scalar (.str ""), .list [.null])])]

/-- The same tree with a list and a tuple exchanged. -/
def reshelvedTree : Value :=
  .map [(.scalar (.str ""), .list [.int 1, .map [], .tuple []]), (.scalar (.str "a.b"), .list []),
    (.scalar (.str "[0]"), .map [(.scalar (.str ""), .tuple [.null])])]

/-- The tree with a list in place of the tuple without elements. -/
def unshelvedTree : Value :=
  .map [(.scalar (.str ""), .tuple [.int 1, .map [], .list []]), (.scalar (.str "a.b"), .list []),
    (.scalar (.str "[0]"), .map [(.scalar (.str ""), .list [.null])])]

/-- A walk reports the first two trees alike, and the third one in another way. -/
theorem walk_tells_shelvedTree :
    (shelvedTree.walkUpTo none Path.root).1 = (reshelvedTree.walkUpTo none Path.root).1 ∧
    (shelvedTree.walkUpTo none Path.root).1 ≠ (unshelvedTree.walkUpTo none Path.root).1 := by
  have hshelved : shelvedTree.KeyedByTexts := ⟨by decide, by decide⟩
  have hreshelved : reshelvedTree.KeyedByTexts := ⟨by decide, by decide⟩
  have hunshelved : unshelvedTree.KeyedByTexts := ⟨by decide, by decide⟩
  have hsame : shelvedTree.withLists = reshelvedTree.withLists := rfl
  have hother : shelvedTree.withLists ≠ unshelvedTree.withLists := by
    simp [shelvedTree, unshelvedTree, withLists, entriesWithLists, itemsWithLists]
  exact ⟨(walk_determines_tree hshelved hreshelved Path.root).2 hsame,
    mt (walk_determines_tree hshelved hunshelved Path.root).1 hother⟩

end Tree

end TreeMatch
