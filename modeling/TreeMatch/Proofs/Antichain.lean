import TreeMatch.Proofs.Walking

/-!
# The paths of the leaves form an antichain

What a walk reports has no contents, and it reports something if all keys can be written. If the
keys of each map have different names, then no leaf stands at the path of another one or on the way
to it (`DistinctNames.pairwise_apart`), wherever the walk begins (`walk_reports_antichain`). So the
verdicts on two leaves never concern the same part of a tree. This is said of the paths and not of
their texts, which may be the same for two leaves.
-/

namespace TreeMatch

namespace Path

/-- Neither of two paths leads on to the other one, and they differ. -/
def Apart (p q : Path) : Prop := ¬ p <+: q ∧ ¬ q <+: p

instance (p q : Path) : Decidable (Apart p q) := inferInstanceAs (Decidable (_ ∧ _))

/-- Two paths that begin alike are apart if they are so after their common beginning. -/
theorem apart_append_iff (base : Path) {p q : Path} :
    Apart (base ++ p) (base ++ q) ↔ Apart p q := by
  unfold Apart
  rw [List.prefix_append_right_inj, List.prefix_append_right_inj]

end Path

/-- The nodes that are not descended into are neither maps nor sequences with contents. -/
theorem Kind.isBranch_eq_false_iff {k : Kind} :
    k.isBranch = false ↔ k ≠ .map ∧ k ≠ .sequence := by
  cases k <;> decide

namespace Tree

variable {α : Type u}

/-- Where names are distinct, the paths of any two leaves are apart. -/
theorem DistinctNames.pairwise_apart {t : Tree α} (h : t.DistinctNames) :
    t.leaves.Pairwise fun l m => l.path.Apart m.path := by
  have htexts : t.leaves.Pairwise fun l m => l.path.texts ≠ m.path.texts :=
    List.pairwise_map.1 h.nodup_texts
  -- A leaf on the way to another one would be that leaf, and have the texts of its path.
  have hway : ∀ l ∈ t.leaves, ∀ m ∈ t.leaves, l.path <+: m.path →
      l.path.texts = m.path.texts := by
    intro l hl m hm hp
    have hsame : l = m := h.eq_of_texts_prefix hl hm (hp.map _)
    rw [hsame]
  apply htexts.imp_of_mem
  intro l m hl hm hne
  constructor
  · intro hp
    exact hne (hway l hl m hm hp)
  · intro hp
    exact hne (hway m hm l hl hp).symm

/-- A walk reports no map or sequence with contents. If the keys of each map have different names,
no two of the reported paths are the same and none of them leads on to another one. Where all keys
can be written, at least one leaf is reported; where one cannot, the walk fails. -/
theorem walk_reports_antichain {α : Type} (t : Tree α) (base : Path) :
    (∀ l ∈ (t.walkUpTo none base).1, l.kind ≠ .map ∧ l.kind ≠ .sequence) ∧
    (t.DistinctNames → (t.walkUpTo none base).1.Pairwise fun l m => l.path.Apart m.path) ∧
    (t.hasWritableKeys = true →
      (t.walkUpTo none base).1 ≠ [] ∧ (t.walkUpTo none base).2 = .done) ∧
    (t.hasWritableKeys = false → (t.walkUpTo none base).2 = .failed .tooManyDigits) := by
  have hfront : t.reachedFrom base <+: t.leaves.map (Leaf.below base) :=
    leavesFrom_eq_map base t ▸ isPrefix_reachedFrom base t
  rw [walkUpTo_none, walkEnd]
  refine ⟨fun l hl => ?_, fun h => ?_, fun h => ?_, fun h => ?_⟩
  · obtain ⟨m, hm, rfl⟩ := List.mem_map.1 (hfront.subset hl)
    have hnone : m.node.children = [] := children_node_of_mem_leaves hm
    apply Kind.isBranch_eq_false_iff.1
    rw [← Bool.not_eq_true, Leaf.kind, isBranch_kind_iff, not_not]
    exact hnone
  · refine List.Pairwise.sublist hfront.sublist (List.pairwise_map.2 ?_)
    exact h.pairwise_apart.imp (Path.apart_append_iff base).2
  · rw [reachedFrom_of_hasWritableKeys h, leavesFrom_eq_map, h]
    obtain ⟨l, hl⟩ := exists_mem_leaves t
    exact ⟨List.ne_nil_of_mem (List.mem_map_of_mem hl), rfl⟩
  · rw [h]
    rfl

/-- A tree in which three leaves have paths with the same text, and two more lie below a number. -/
def echoTree : Value :=
  .map [(.scalar (.str "a"), .map [(.scalar (.str "b"), .list [.int 1, .map []])]),
    (.scalar (.str "a.b"), .map [(.scalar (.str "[0]"), .int 2)]),
    (.scalar (.str "a.b.[0]"), .int 3),
    (.scalar (.int 7), .tuple [.list [.null], .map [(.scalar (.str ""), .set [])]])]

/-- Three of the paths have the same text, but all of them are apart. -/
theorem walk_echoTree :
    (echoTree.walkUpTo none [.key "x"]).1.map (·.path.render) =
      ["x.a.b.[0]", "x.a.b.[1]", "x.a.b.[0]", "x.a.b.[0]", "x.7.[0].[0]", "x.7.[1]."] ∧
    (echoTree.walkUpTo none [.key "x"]).2 = .done ∧
    (echoTree.walkUpTo none [.key "x"]).1.Pairwise fun l m => l.path.Apart m.path := by
  obtain ⟨-, hapart, hdone, -⟩ := walk_reports_antichain echoTree [.key "x"]
  exact ⟨by decide +kernel, (hdone (by decide +kernel)).2, hapart (by decide +kernel)⟩

/-- A map whose only key cannot be written. -/
def hiddenTree : Value := .map [(longKey, .int 1)]

/-- A walk has nothing to report of the map. -/
theorem walk_hiddenTree : hiddenTree.walkUpTo none Path.root = ([], .failed .tooManyDigits) := by
  simp [walkUpTo_none, walkEnd, hiddenTree, reachedFrom, reachedEntries, hasWritableKeys, all,
    allEntries, longKey_isWritable]

end Tree

end TreeMatch
