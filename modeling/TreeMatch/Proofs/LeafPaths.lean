import TreeMatch.Proofs.Children
import TreeMatch.Proofs.Rendering

/-!
# Leaves are told apart by the texts of their paths

In a tree whose maps have keys with different names, no path of a leaf leads on to another leaf, and
the texts of the steps alone are enough to see this (`DistinctNames.eq_of_texts_prefix`). The steps
out of one node all lead into the same kind of container, so that a key that is written as an index
cannot stand beside that index. It follows that the paths of the leaves have different texts if the
names have no dots (`DistinctNames.nodup_render`).
-/

namespace TreeMatch.Tree

variable {α : Type u}

/-- In every map of the tree the names of the keys differ from one another. This is said of the
steps to the children, as those into a sequence differ in any case. -/
inductive DistinctNames : Tree α → Prop where
  /-- The steps to the children differ, and so it is in every child. -/
  | node {t : Tree α} (steps : (t.children.map (·.1)).Nodup)
      (below : ∀ c ∈ t.children, DistinctNames c.2) : DistinctNames t

/-- The steps to the children differ. -/
theorem DistinctNames.nodup_steps {t : Tree α} (h : t.DistinctNames) :
    (t.children.map (·.1)).Nodup := by
  cases h with
  | node steps below => exact steps

/-- The children have distinct names as well. -/
theorem DistinctNames.child {t : Tree α} (h : t.DistinctNames) {c : Step × Tree α}
    (hc : c ∈ t.children) : c.2.DistinctNames := by
  cases h with
  | node steps below => exact below c hc

/-- All steps out of a node lead into the same kind of container. -/
theorem kind_eq_of_mem_children {t : Tree α} {c d : Step × Tree α} (hc : c ∈ t.children)
    (hd : d ∈ t.children) : c.1.kind = d.1.kind := by
  cases t with
  | list xs | tuple xs | map xs =>
    obtain ⟨_, _, rfl⟩ := List.mem_map.1 hc
    obtain ⟨_, _, rfl⟩ := List.mem_map.1 hd
    rfl
  | scalar _ | set _ | check _ => exact nomatch hc

/-- The steps into a sequence differ. -/
theorem nodup_steps_list (xs : List (Tree α)) : ((Tree.list xs).children.map (·.1)).Nodup := by
  have hsteps : (Tree.list xs).children.map (·.1) = (xs.zipIdx.map Prod.snd).map Step.index := by
    rw [children, List.map_map, List.map_map]
    rfl
  rw [hsteps, List.zipIdx_map_snd]
  exact (List.nodup_range').map fun _ _ h => Step.index.inj h

/-- A tree without children has distinct names. -/
theorem DistinctNames.of_children_eq_nil {t : Tree α} (h : t.children = []) : t.DistinctNames :=
  .node (by rw [h]; exact List.nodup_nil) (by rw [h]; exact fun _ hc => nomatch hc)

/-- Distinct names are a matter of the children alone. -/
theorem DistinctNames.of_children_eq {t u : Tree α} (h : t.DistinctNames)
    (hc : t.children = u.children) : u.DistinctNames :=
  .node (by rw [← hc]; exact h.nodup_steps) (by rw [← hc]; exact fun _ => h.child)

/-- The names in a sequence are distinct if they are in its elements. -/
theorem distinctNames_list_iff {xs : List (Tree α)} :
    (Tree.list xs).DistinctNames ↔ ∀ x ∈ xs, x.DistinctNames := by
  constructor
  · intro h x hx
    obtain ⟨s, hs⟩ := exists_mem_children_of_mem hx
    exact h.child hs
  · exact fun h => .node (nodup_steps_list xs) fun c hc => h _ (mem_of_mem_children_list hc)

/-- The names in a map are distinct if those of its own keys are and those in its values are. -/
theorem distinctNames_map_iff {es : List (Key × Tree α)} :
    (Tree.map es).DistinctNames ↔
      (es.map (·.1.text)).Nodup ∧ ∀ e ∈ es, e.2.DistinctNames := by
  have hsteps : (Tree.map es).children.map (·.1) = (es.map (·.1.text)).map Step.key := by
    rw [children, List.map_map, List.map_map]
    rfl
  have hnodup : ((es.map (·.1.text)).map Step.key).Nodup ↔ (es.map (·.1.text)).Nodup :=
    List.nodup_map_iff fun _ _ => Step.key.inj
  constructor
  · intro h
    refine ⟨hnodup.1 (hsteps ▸ h.nodup_steps), fun e he => ?_⟩
    exact h.child (List.mem_map.2 ⟨e, he, rfl⟩)
  · rintro ⟨hnames, hbelow⟩
    refine .node (hsteps ▸ hnodup.2 hnames) fun c hc => ?_
    obtain ⟨e, he, rfl⟩ := mem_of_mem_children_map hc
    exact hbelow e he

mutual

/-- Whether the names of the keys differ in every map of the tree. -/
def hasDistinctNames : Tree α → Bool
  | .scalar _ | .set _ | .check _ => true
  | .list xs | .tuple xs => itemsHaveDistinctNames xs
  | .map es => decide (es.map (·.1.text)).Nodup && entriesHaveDistinctNames es
termination_by structural t => t

/-- Whether the names of the keys differ in every map of the elements. -/
def itemsHaveDistinctNames : List (Tree α) → Bool
  | [] => true
  | x :: xs => hasDistinctNames x && itemsHaveDistinctNames xs
termination_by structural ts => ts

/-- Whether the names of the keys differ in every map of the values. -/
def entriesHaveDistinctNames : List (Key × Tree α) → Bool
  | [] => true
  | (_, x) :: es => hasDistinctNames x && entriesHaveDistinctNames es
termination_by structural es => es

end

/-- The names in the elements are distinct if they are in each of them. -/
theorem itemsHaveDistinctNames_iff {xs : List (Tree α)} :
    itemsHaveDistinctNames xs = true ↔ ∀ x ∈ xs, x.hasDistinctNames = true := by
  induction xs with
  | nil => simp [itemsHaveDistinctNames]
  | cons x xs ih => simp [itemsHaveDistinctNames, ih]

/-- The names in the values are distinct if they are in each of them. -/
theorem entriesHaveDistinctNames_iff {es : List (Key × Tree α)} :
    entriesHaveDistinctNames es = true ↔ ∀ e ∈ es, e.2.hasDistinctNames = true := by
  induction es with
  | nil => simp [entriesHaveDistinctNames]
  | cons e es ih => simp [entriesHaveDistinctNames, ih]

/-- The names in a tree are distinct if a look at all its maps says so. -/
theorem hasDistinctNames_iff {t : Tree α} : t.hasDistinctNames = true ↔ t.DistinctNames := by
  induction t using byChildren with
  | node t ih =>
    have hitems : ∀ xs : List (Tree α), (∀ c ∈ (Tree.list xs).children,
        c.2.hasDistinctNames = true ↔ c.2.DistinctNames) →
        (itemsHaveDistinctNames xs = true ↔ (Tree.list xs).DistinctNames) := by
      intro xs hchildren
      rw [itemsHaveDistinctNames_iff, distinctNames_list_iff]
      refine forall₂_congr fun x hx => ?_
      obtain ⟨s, hs⟩ := exists_mem_children_of_mem hx
      exact hchildren (s, x) hs
    cases t with
    | list xs => exact hitems xs ih
    | tuple xs => exact (hitems xs ih).trans ⟨fun h => h.of_children_eq rfl, fun h =>
        h.of_children_eq rfl⟩
    | map es =>
      rw [hasDistinctNames, Bool.and_eq_true, decide_eq_true_iff, entriesHaveDistinctNames_iff,
        distinctNames_map_iff]
      exact and_congr_right fun _ => forall₂_congr fun e he => ih _ (List.mem_map_of_mem he)
    | scalar _ | set _ | check _ => exact iff_of_true rfl (.of_children_eq_nil rfl)

instance (t : Tree α) : Decidable t.DistinctNames := decidable_of_iff _ hasDistinctNames_iff

/-- Children whose steps have the same text are the same child. -/
theorem DistinctNames.child_eq {t : Tree α} (h : t.DistinctNames) {c d : Step × Tree α}
    (hc : c ∈ t.children) (hd : d ∈ t.children) (htext : c.1.text = d.1.text) : c = d :=
  List.inj_on_of_nodup_map h.nodup_steps hc hd
    (Step.eq_of_text_eq (kind_eq_of_mem_children hc hd) htext)

/-- No leaf lies on the way to another one, judging by the texts of the steps. -/
theorem DistinctNames.eq_of_texts_prefix {t : Tree α} (h : t.DistinctNames) {l m : Leaf α}
    (hl : l ∈ t.leaves) (hm : m ∈ t.leaves) (hp : l.path.texts <+: m.path.texts) : l = m := by
  induction t using byChildren generalizing l m with
  | node t ih =>
    rcases mem_leaves_iff.1 hl with ⟨hn, rfl⟩ | ⟨c, hc, l', hl', rfl⟩
    · rw [leaves_of_children_eq_nil hn] at hm
      exact (List.mem_singleton.1 hm).symm
    · rcases mem_leaves_iff.1 hm with ⟨hn, rfl⟩ | ⟨d, hd, m', hm', rfl⟩
      · exact absurd hn (List.ne_nil_of_mem hc)
      · -- The first steps have the same text, so both leaves are below one child.
        obtain ⟨hhead, htail⟩ := List.cons_prefix_cons.1 hp
        obtain rfl := h.child_eq hc hd (String.toList_injective hhead)
        rw [ih c hc (h.child hc) hl' hm' htail]

/-- The leaves have different paths, judging by the texts of the steps. -/
theorem DistinctNames.nodup_texts {t : Tree α} (h : t.DistinctNames) :
    (t.leaves.map (·.path.texts)).Nodup := by
  induction t using byChildren with
  | node t ih =>
    by_cases hn : t.children = []
    · rw [leaves_of_children_eq_nil hn]
      exact List.nodup_singleton _
    · rw [leaves_of_children_ne_nil hn, List.map_flatMap]
      refine List.nodup_flatMap.2 ⟨fun c hc => ?_, ?_⟩
      · -- Below one child the texts differ after the first step.
        rw [List.map_map]
        have hbelow : (fun l : Leaf α => l.path.texts) ∘ Leaf.below [c.1] =
            (List.cons c.1.text.toList) ∘ fun l => l.path.texts := rfl
        rw [hbelow, ← List.map_map]
        exact (ih c hc (h.child hc)).map fun _ _ heq => (List.cons.inj heq).2
      · -- Below different children they differ in the first step.
        have hsteps : t.children.Pairwise fun c d => c.1 ≠ d.1 :=
          List.pairwise_map.1 h.nodup_steps
        refine hsteps.imp_of_mem fun {c d} hc hd hne => ?_
        intro w hwc hwd
        simp only [List.map_map, List.mem_map, Function.comp_apply, Leaf.below] at hwc hwd
        obtain ⟨l, -, rfl⟩ := hwc
        obtain ⟨m, -, heq⟩ := hwd
        have htext : d.1.text = c.1.text := String.toList_injective (List.cons.inj heq).1
        exact hne (congrArg Prod.fst (h.child_eq hd hc htext)).symm

/-- Below the root no leaf has the path of the root. -/
theorem path_ne_nil_of_mem_leaves {t : Tree α} (h : t.children ≠ []) {l : Leaf α}
    (hl : l ∈ t.leaves) : l.path ≠ [] := by
  rcases mem_leaves_iff.1 hl with ⟨hn, -⟩ | ⟨c, -, l', -, rfl⟩
  · exact absurd hn h
  · exact List.cons_ne_nil _ _

/-- No leaf lies on the way to another one, judging by the segments of the texts of their paths. -/
theorem DistinctNames.eq_of_segments_prefix {t : Tree α} (h : t.DistinctNames)
    (hdots : ∀ l ∈ t.leaves, l.path.IsDotFree) {l m : Leaf α} (hl : l ∈ t.leaves)
    (hm : m ∈ t.leaves) (hp : segments l.path.render <+: segments m.path.render) : l = m := by
  by_cases hn : t.children = []
  · rw [leaves_of_children_eq_nil hn, List.mem_singleton] at hl hm
    rw [hl, hm]
  · rw [(hdots l hl).segments_render (path_ne_nil_of_mem_leaves hn hl),
      (hdots m hm).segments_render (path_ne_nil_of_mem_leaves hn hm)] at hp
    exact h.eq_of_texts_prefix hl hm hp

/-- The leaves have paths with different texts. -/
theorem DistinctNames.nodup_render {t : Tree α} (h : t.DistinctNames)
    (hdots : ∀ l ∈ t.leaves, l.path.IsDotFree) : (t.leaves.map (·.path.render)).Nodup := by
  by_cases hn : t.children = []
  · rw [leaves_of_children_eq_nil hn]
    exact List.nodup_singleton _
  · have hsegments : t.leaves.map (fun l => segments l.path.render) =
        t.leaves.map (·.path.texts) :=
      List.map_congr_left fun l hl =>
        (hdots l hl).segments_render (path_ne_nil_of_mem_leaves hn hl)
    refine List.Nodup.of_map segments ?_
    rw [List.map_map]
    exact hsegments ▸ h.nodup_texts

end TreeMatch.Tree
