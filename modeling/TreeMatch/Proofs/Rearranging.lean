import Mathlib.Data.Multiset.Bind
import TreeMatch.Proofs.SelfMatch
import TreeMatch.Proofs.Trailing

/-!
# Trees with the same entries in another order

One tree is a rearrangement of another one (`Tree.Rearranges`) if the two differ only in the order
of the entries of their maps, and in which of their sequences are lists and which are tuples, at any
depth. Their children are then the same one by one, up to their order and to a rearrangement again,
which is what `Multiset.Rel` says (`Rearranges.rel_children`). So are their leaves
(`Rearranges.rel_leaves`); and where the keys of each map have different names, a path leads to the
same node of both, up to a rearrangement (`Rearranges.rel_lookup?`).
-/

namespace TreeMatch

/-- Lists that are related element by element are related as multisets. -/
theorem multiset_rel_of_forall₂ {β : Type u} {γ : Type v} {R : β → γ → Prop} {xs : List β}
    {ys : List γ} (h : List.Forall₂ R xs ys) :
    Multiset.Rel R (xs : Multiset β) (ys : Multiset γ) := by
  induction h with
  | nil => exact .zero
  | cons hxy _ ih => exact .cons hxy ih

namespace Tree

variable {α : Type u} {β : Type v} {t u : Tree α}

/-- The first tree comes from the second one by putting the entries of maps in another order and
exchanging lists and tuples. -/
inductive Rearranges : Tree α → Tree α → Prop where
  /-- A scalar stays as it is. -/
  | scalar (s : Scalar) : Rearranges (.scalar s) (.scalar s)
  /-- A set stays as it is. -/
  | set (ms : List Member) : Rearranges (.set ms) (.set ms)
  /-- A check stays as it is. -/
  | check (c : α) : Rearranges (.check c) (.check c)
  /-- A sequence is rearranged element by element, and may become a list or a tuple. -/
  | sequence {t u : Tree α} {xs ys : List (Tree α)} (ht : t.items? = some xs)
      (hu : u.items? = some ys) (length : xs.length = ys.length)
      (elements : ∀ p ∈ xs.zip ys, Rearranges p.1 p.2) : Rearranges t u
  /-- A map is rearranged value by value, and its entries are put in another order. -/
  | map {es ds fs : List (Key × Tree α)} (order : es.Perm ds) (length : ds.length = fs.length)
      (keys : ∀ p ∈ ds.zip fs, p.1.1 = p.2.1) (values : ∀ p ∈ ds.zip fs, Rearranges p.1.2 p.2.2) :
      Rearranges (.map es) (.map fs)

/-- A pair from a list beside itself is made of one element. -/
theorem eq_of_mem_zip_self {γ : Type w} {xs : List γ} {p : γ × γ} (h : p ∈ xs.zip xs) :
    p.1 = p.2 :=
  List.forall₂_zip (List.forall₂_same.2 fun _ _ => rfl) h

/-- Entries in another order are a rearrangement, if each value is one of itself. -/
theorem Rearranges.map_of_perm {es fs : List (Key × Tree α)} (order : es.Perm fs)
    (hself : ∀ f ∈ fs, f.2.Rearranges f.2) : (Tree.map es).Rearranges (.map fs) := by
  have hsame : ∀ p ∈ fs.zip fs, p.1 = p.2 := fun p hp => eq_of_mem_zip_self hp
  refine .map order rfl (fun p hp => congrArg Prod.fst (hsame p hp)) fun p hp => ?_
  rw [hsame p hp]
  exact hself p.2 (List.of_mem_zip hp).2

/-- Every tree is a rearrangement of itself. -/
theorem Rearranges.refl (t : Tree α) : t.Rearranges t := by
  induction t using byChildren with
  | node t ih =>
    cases t with
    | scalar s => exact .scalar s
    | set ms => exact .set ms
    | check c => exact .check c
    | list xs | tuple xs =>
      refine .sequence rfl rfl rfl fun p hp => ?_
      obtain ⟨s, hs⟩ := exists_mem_children_of_mem (List.of_mem_zip hp).1
      have hself : p.1.Rearranges p.1 := ih _ hs
      exact eq_of_mem_zip_self hp ▸ hself
    | map es => exact .map_of_perm (.refl _) fun f hf => ih _ (List.mem_map_of_mem hf)

/-- The entries of a map in another order are a rearrangement. -/
theorem Rearranges.of_perm {es fs : List (Key × Tree α)} (h : es.Perm fs) :
    (Tree.map es).Rearranges (.map fs) :=
  .map_of_perm h fun f _ => .refl f.2

/-! ## Replacing the checks -/

/-- The elements of a sequence stay a sequence when checks are replaced. -/
theorem items?_mapChecks (f : α → β) {xs : List (Tree α)} (h : t.items? = some xs) :
    (t.mapChecks f).items? = some (xs.map (mapChecks f)) := by
  cases t with
  | list ys | tuple ys =>
    obtain rfl := Option.some.inj h
    exact congrArg some (mapItems_eq_map f ys)
  | map _ | scalar _ | set _ | check _ => exact nomatch h

/-- A rearrangement stays one when checks are replaced. -/
theorem Rearranges.mapChecks (h : t.Rearranges u) (f : α → β) :
    (t.mapChecks f).Rearranges (u.mapChecks f) := by
  induction h with
  | scalar s => exact .scalar s
  | set ms => exact .set ms
  | check c => exact .check (f c)
  | sequence ht hu length _ ih =>
    refine .sequence (items?_mapChecks f ht) (items?_mapChecks f hu) ?_ ?_
    · rw [List.length_map, List.length_map, length]
    · rw [List.zip_map, List.forall_mem_map]
      exact ih
  | map order length keys _ ih =>
    rw [Tree.mapChecks, Tree.mapChecks, mapEntries_eq_map, mapEntries_eq_map]
    refine .map (order.map _) ?_ ?_ ?_
    · rw [List.length_map, List.length_map, length]
    · rw [List.zip_map, List.forall_mem_map]
      exact keys
    · rw [List.zip_map, List.forall_mem_map]
      exact ih

/-! ## Keys and scalars -/

section All

variable {onKey : Key → Bool} {onScalar : Scalar → Bool}

/-- What holds of a sequence holds of its elements, be it a list or a tuple. -/
theorem all_of_items? {xs : List (Tree α)} (h : t.items? = some xs) :
    t.all onKey onScalar = allItems onKey onScalar xs := by
  cases t with
  | list ys | tuple ys =>
    obtain rfl := Option.some.inj h
    rfl
  | map _ | scalar _ | set _ | check _ => exact nomatch h

/-- Elements that are alike one by one are alike together. -/
theorem allItems_congr {xs ys : List (Tree α)}
    (h : List.Forall₂ (fun x y => x.all onKey onScalar = y.all onKey onScalar) xs ys) :
    allItems onKey onScalar xs = allItems onKey onScalar ys := by
  induction h with
  | nil => rfl
  | cons hxy _ ih => rw [allItems, allItems, hxy, ih]

/-- So are entries under the same keys. -/
theorem allEntries_congr {ds fs : List (Key × Tree α)}
    (h : List.Forall₂ (fun d f => d.1 = f.1 ∧ d.2.all onKey onScalar = f.2.all onKey onScalar)
      ds fs) : allEntries onKey onScalar ds = allEntries onKey onScalar fs := by
  induction h with
  | nil => rfl
  | @cons d f _ _ hdf _ ih => rw [allEntries, allEntries, hdf.1, hdf.2, ih]

/-- What holds of all keys and scalars holds of them in a rearrangement. -/
theorem Rearranges.all_eq (h : t.Rearranges u) : t.all onKey onScalar = u.all onKey onScalar := by
  induction h with
  | scalar _ | set _ | check _ => rfl
  | sequence ht hu length _ ih =>
    rw [all_of_items? ht, all_of_items? hu]
    exact allItems_congr (List.forall₂_iff_zip.2 ⟨length, fun h => ih _ h⟩)
  | @map es ds fs order length keys _ ih =>
    have hentries : allEntries onKey onScalar es = allEntries onKey onScalar ds := by
      rw [Bool.eq_iff_iff, allEntries_iff, allEntries_iff]
      exact ⟨fun h e he => h e (order.mem_iff.2 he), fun h e he => h e (order.mem_iff.1 he)⟩
    rw [all, all, hentries]
    exact allEntries_congr (List.forall₂_iff_zip.2 ⟨length, fun h => ⟨keys _ h, ih _ h⟩⟩)

end All

/-! ## Shapes -/

/-- The shape of a sequence, be it a list or a tuple. -/
theorem kind_of_items? {xs : List (Tree α)} (h : t.items? = some xs) :
    t.kind = if xs.isEmpty then .emptySequence else .sequence := by
  cases t with
  | list ys | tuple ys =>
    obtain rfl := Option.some.inj h
    rfl
  | map _ | scalar _ | set _ | check _ => exact nomatch h

/-- Of two lists of one length both are empty or none is. -/
theorem isEmpty_eq_of_length_eq {γ : Type w} {xs ys : List γ} (h : xs.length = ys.length) :
    xs.isEmpty = ys.isEmpty := by
  rw [Bool.eq_iff_iff, List.isEmpty_iff_length_eq_zero, List.isEmpty_iff_length_eq_zero, h]

/-- A rearrangement has the shape of the tree. -/
theorem Rearranges.kind_eq (h : t.Rearranges u) : t.kind = u.kind := by
  cases h with
  | scalar _ | set _ | check _ => rfl
  | sequence ht hu length _ =>
    rw [kind_of_items? ht, kind_of_items? hu, isEmpty_eq_of_length_eq length]
  | map order length _ _ =>
    have hlength := order.length_eq.trans length
    rw [kind, kind, isEmpty_eq_of_length_eq hlength]

/-! ## Children and leaves -/

/-- The children of a sequence are those of the list of its elements. -/
theorem children_eq_of_items? {xs : List (Tree α)} (h : t.items? = some xs) :
    t.children = (Tree.list xs).children := by
  cases t with
  | list ys | tuple ys =>
    obtain rfl := Option.some.inj h
    rfl
  | map _ | scalar _ | set _ | check _ => exact nomatch h

/-- Elements that are related stand under the same index. -/
theorem forall₂_zipIdx {R : Tree α → Tree α → Prop} {xs ys : List (Tree α)}
    (h : List.Forall₂ R xs ys) (i : Nat) :
    List.Forall₂ (fun c d => c.1 = d.1 ∧ R c.2 d.2)
      ((xs.zipIdx i).map fun e => (Step.index e.2, e.1))
      ((ys.zipIdx i).map fun e => (Step.index e.2, e.1)) := by
  induction h generalizing i with
  | nil => exact .nil
  | cons hxy _ ih => exact .cons ⟨rfl, hxy⟩ (ih (i + 1))

/-- The children of a rearranged tree are rearranged children at the same steps. -/
theorem Rearranges.rel_children (h : t.Rearranges u) :
    Multiset.Rel (fun c d => c.1 = d.1 ∧ c.2.Rearranges d.2)
      (t.children : Multiset (Step × Tree α)) (u.children : Multiset (Step × Tree α)) := by
  cases h with
  | scalar _ | set _ | check _ => exact .zero
  | sequence ht hu length elements =>
    rw [children_eq_of_items? ht, children_eq_of_items? hu]
    have hitems := List.forall₂_iff_zip.2 ⟨length, fun h => elements _ h⟩
    exact multiset_rel_of_forall₂ (forall₂_zipIdx hitems 0)
  | @map es ds fs order length keys values =>
    -- As multisets the children do not depend on the order, so only the pairs of values are left.
    have hperm : ((Tree.map es).children : Multiset (Step × Tree α)) = (Tree.map ds).children :=
      Multiset.coe_eq_coe.2 (order.map _)
    have hentries : List.Forall₂ (fun d f => d.1 = f.1 ∧ d.2.Rearranges f.2) ds fs :=
      List.forall₂_iff_zip.2 ⟨length, fun h => ⟨keys _ h, values _ h⟩⟩
    rw [hperm, children, children]
    refine multiset_rel_of_forall₂ ?_
    rw [List.forall₂_map_left_iff, List.forall₂_map_right_iff]
    exact hentries.imp fun d f h => ⟨by rw [h.1], h.2⟩

/-- A rearranged node has children if the node has. -/
theorem Rearranges.children_eq_nil_iff (h : t.Rearranges u) :
    t.children = [] ↔ u.children = [] := by
  have hlength : t.children.length = u.children.length :=
    Multiset.card_eq_card_of_rel h.rel_children
  rw [← List.length_eq_zero_iff, hlength, List.length_eq_zero_iff]

/-- The leaves of a rearranged tree are rearranged leaves at the same paths. -/
theorem Rearranges.rel_leaves (h : t.Rearranges u) :
    Multiset.Rel (fun l m => l.path = m.path ∧ l.node.Rearranges m.node)
      (t.leaves : Multiset (Leaf α)) (u.leaves : Multiset (Leaf α)) := by
  induction u using byChildren generalizing t with
  | node u ih =>
    by_cases hu : u.children = []
    · rw [leaves_of_children_eq_nil (h.children_eq_nil_iff.2 hu), leaves_of_children_eq_nil hu]
      exact .cons ⟨rfl, h⟩ .zero
    · rw [leaves_of_children_ne_nil (mt h.children_eq_nil_iff.1 hu), leaves_of_children_ne_nil hu,
        ← Multiset.coe_bind, ← Multiset.coe_bind]
      have hbelow : Multiset.Rel (fun c d => c.1 = d.1 ∧ Multiset.Rel
            (fun l m => l.path = m.path ∧ l.node.Rearranges m.node)
            (c.2.leaves : Multiset (Leaf α)) (d.2.leaves : Multiset (Leaf α)))
          (t.children : Multiset (Step × Tree α)) (u.children : Multiset (Step × Tree α)) :=
        h.rel_children.mono fun c _ d hd hcd => ⟨hcd.1, ih d (Multiset.mem_coe.1 hd) hcd.2⟩
      refine Multiset.rel_bind ?_ hbelow
      -- Below two children at the same step, the paths get the same step in front.
      rintro c d ⟨hstep, hleaves⟩
      show Multiset.Rel _ (c.2.leaves.map (Leaf.below [c.1]) : Multiset (Leaf α))
        (d.2.leaves.map (Leaf.below [d.1]) : Multiset (Leaf α))
      rw [← Multiset.map_coe, ← Multiset.map_coe, Multiset.rel_map]
      refine hleaves.mono fun l _ m _ hlm => ⟨?_, hlm.2⟩
      rw [Leaf.below, Leaf.below, hstep, hlm.1]

/-- What does not tell a leaf from its rearrangement at the same path gives the same list for all
leaves, up to the order. -/
theorem Rearranges.perm_map_leaves {γ : Type w} (h : t.Rearranges u) {f g : Leaf α → γ}
    (hfg : ∀ l ∈ t.leaves, ∀ m ∈ u.leaves, l.path = m.path → l.node.Rearranges m.node → f l = g m) :
    (t.leaves.map f).Perm (u.leaves.map g) := by
  rw [← Multiset.coe_eq_coe, ← Multiset.map_coe, ← Multiset.map_coe, ← Multiset.rel_eq,
    Multiset.rel_map]
  exact h.rel_leaves.mono fun l hl m hm hlm => hfg l hl m hm hlm.1 hlm.2

/-! ## Lookup -/

/-- The steps out of a rearranged node are the same, up to their order. -/
theorem Rearranges.perm_steps (h : t.Rearranges u) :
    (t.children.map (·.1)).Perm (u.children.map (·.1)) := by
  rw [← Multiset.coe_eq_coe, ← Multiset.map_coe, ← Multiset.map_coe, ← Multiset.rel_eq,
    Multiset.rel_map]
  exact h.rel_children.mono fun c _ d _ hcd => hcd.1

/-- Where the steps differ, a step leads to a rearranged child or nowhere in both trees. -/
theorem Rearranges.rel_child? (h : t.Rearranges u) (hu : (u.children.map (·.1)).Nodup) (s : Step) :
    Option.Rel Rearranges (t.child? s) (u.child? s) := by
  have ht : (t.children.map (·.1)).Nodup := h.perm_steps.nodup_iff.2 hu
  cases hx : u.child? s with
  | some x =>
    -- The counterpart of the child stands at the same step, and at no other step of the tree.
    obtain ⟨c, hc, hstep, hbelow⟩ := Multiset.exists_mem_of_rel_of_mem
      (Multiset.rel_flip.2 h.rel_children) (Multiset.mem_coe.2 (mem_children_of_child? hx))
    obtain rfl : c.1 = s := hstep
    rw [(child?_eq_some_iff ht).2 (Multiset.mem_coe.1 hc)]
    exact .some hbelow
  | none =>
    cases hy : t.child? s with
    | none => exact .none
    | some y =>
      obtain ⟨d, hd, hstep, -⟩ := Multiset.exists_mem_of_rel_of_mem h.rel_children
        (Multiset.mem_coe.2 (mem_children_of_child? hy))
      exact absurd hstep.symm (ne_of_child?_eq_none hx (Multiset.mem_coe.1 hd))

/-- Where the keys of each map have different names, a path leads to a rearranged node or nowhere in
both trees. -/
theorem Rearranges.rel_lookup? (h : t.Rearranges u) (hu : u.DistinctNames) (p : Path) :
    Option.Rel Rearranges (t.lookup? p) (u.lookup? p) := by
  induction p generalizing t u with
  | nil => exact .some h
  | cons s p ih =>
    have hchild := h.rel_child? hu.nodup_steps s
    rw [lookup?, lookup?]
    generalize t.child? s = x at hchild ⊢
    generalize hy : u.child? s = y at hchild ⊢
    cases hchild with
    | none => exact .none
    | some hbelow => exact ih hbelow (hu.child (mem_children_of_child? hy))

end Tree

end TreeMatch
