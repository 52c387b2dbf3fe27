import TreeMatch.Proofs.LeafPaths
import TreeMatch.Tree.Writable

/-!
# Trees whose keys are texts without dots

The keys of such a tree name its entries in a path as they are: no two keys of a map have the same
name (`HasTextKeys.distinctNames`), and no path has a dot within a step (`HasTextKeys.isDotFree`).
Replacing the checks of a tree changes neither its keys nor the paths of its leaves
(`leaves_mapChecks`).
-/

namespace TreeMatch

/-- Whether a key is a text without a dot. -/
def Key.isDotFreeText (k : Key) : Bool := k.str?.any fun s => !s.toList.contains '.'

/-- A text without a dot is the text of the key, and has no dot. -/
theorem Key.exists_of_isDotFreeText {k : Key} (h : k.isDotFreeText = true) :
    ∃ s, k = .scalar (.str s) ∧ '.' ∉ s.toList := by
  unfold isDotFreeText Key.str? at h
  split at h
  · rename_i s
    exact ⟨s, rfl, by simpa using h⟩
  · exact nomatch h

/-- Two texts are one key if they are the same text. -/
theorem Key.same_str (s t : String) : (Key.scalar (.str s)).same (.scalar (.str t)) = (s == t) := by
  show (true && (some (Scalar.Form.str s) == some (Scalar.Form.str t))) = (s == t)
  rw [Bool.true_and, Bool.eq_iff_iff, beq_iff_eq, beq_iff_eq, Option.some.injEq,
    Scalar.Form.str.injEq]

/-- Whether a key is a text. -/
def Key.isText (k : Key) : Bool := k.str?.isSome

/-- A key that is a text has it. -/
theorem Key.exists_of_isText {k : Key} (h : k.isText = true) : ∃ s, k = .scalar (.str s) := by
  unfold isText str? at h
  split at h
  · rename_i s
    exact ⟨s, rfl⟩
  · exact nomatch h

/-- A text without a dot is a text. -/
theorem Key.isText_of_isDotFreeText {k : Key} (h : k.isDotFreeText = true) : k.isText = true := by
  obtain ⟨s, rfl, -⟩ := exists_of_isDotFreeText h
  rfl

/-- Keys that differ have different names if they are texts. -/
theorem Assoc.Distinct.nodup_text {β : Type u} {es : List (Key × β)}
    (hd : Assoc.Distinct Key.same es) (ht : ∀ e ∈ es, e.1.isText = true) :
    (es.map (·.1.text)).Nodup := by
  have hkeys : es.Pairwise fun d e => e.1.same d.1 = false := List.pairwise_map.1 hd
  refine List.pairwise_map.2 (hkeys.imp_of_mem fun {d e} hmem hmem' hsame htext => ?_)
  obtain ⟨s, hs⟩ := Key.exists_of_isText (ht d hmem)
  obtain ⟨t, ht⟩ := Key.exists_of_isText (ht e hmem')
  rw [hs, ht, Key.same_str, beq_eq_false_iff_ne] at hsame
  rw [hs, ht] at htext
  exact hsame htext.symm

namespace Tree

variable {α : Type u} {β : Type v}

/-- The keys of the maps in the tree are texts without dots, and those of one map differ. -/
structure HasTextKeys (t : Tree α) : Prop where
  /-- The keys of one map differ. -/
  distinct : t.DistinctKeys
  /-- All keys are texts without dots. -/
  texts : t.all Key.isDotFreeText (fun _ => true) = true

/-! ## From a tree to its children -/

/-- What holds of all keys and scalars in a sequence holds of those in its elements. -/
theorem allItems_iff {onKey : Key → Bool} {onScalar : Scalar → Bool} {xs : List (Tree α)} :
    allItems onKey onScalar xs = true ↔ ∀ x ∈ xs, x.all onKey onScalar = true := by
  induction xs with
  | nil => simp [allItems]
  | cons x xs ih => simp [allItems, ih]

/-- What holds of all keys and scalars in a map holds of its keys and of those in its values. -/
theorem allEntries_iff {onKey : Key → Bool} {onScalar : Scalar → Bool}
    {es : List (Key × Tree α)} : allEntries onKey onScalar es = true ↔
      ∀ e ∈ es, onKey e.1 = true ∧ e.2.all onKey onScalar = true := by
  induction es with
  | nil => simp [allEntries]
  | cons e es ih => simp [allEntries, ih]

/-- What holds of all keys and scalars of a tree holds of those of a child. -/
theorem all_child {onKey : Key → Bool} {onScalar : Scalar → Bool} {t : Tree α}
    (h : t.all onKey onScalar = true) {c : Step × Tree α} (hc : c ∈ t.children) :
    c.2.all onKey onScalar = true := by
  cases t with
  | list xs => exact allItems_iff.1 h _ (mem_of_mem_children_list hc)
  | tuple xs => exact allItems_iff.1 h _ (@mem_of_mem_children_list _ xs c hc)
  | map es =>
    obtain ⟨e, he, rfl⟩ := mem_of_mem_children_map hc
    exact (allEntries_iff.1 h e he).2
  | scalar _ | set _ | check _ => exact nomatch hc

/-- A sequence has text keys if its elements have. -/
theorem hasTextKeys_list_iff {xs : List (Tree α)} :
    (Tree.list xs).HasTextKeys ↔ ∀ x ∈ xs, x.HasTextKeys := by
  constructor
  · exact fun h x hx => ⟨itemsDistinctKeys_iff.1 h.distinct x hx, allItems_iff.1 h.texts x hx⟩
  · exact fun h => ⟨itemsDistinctKeys_iff.2 fun x hx => (h x hx).distinct,
      allItems_iff.2 fun x hx => (h x hx).texts⟩

/-- A map has text keys if its own keys are different texts without dots and its values have text
keys. -/
theorem hasTextKeys_map_iff {es : List (Key × Tree α)} :
    (Tree.map es).HasTextKeys ↔ Assoc.Distinct Key.same es ∧
      ∀ e ∈ es, e.1.isDotFreeText = true ∧ e.2.HasTextKeys := by
  constructor
  · rintro ⟨⟨hkeys, hdistinct⟩, htexts⟩
    refine ⟨hkeys, fun e he => ?_⟩
    obtain ⟨hkey, hbelow⟩ := allEntries_iff.1 htexts e he
    exact ⟨hkey, entriesDistinctKeys_iff.1 hdistinct e he, hbelow⟩
  · rintro ⟨hkeys, h⟩
    exact ⟨⟨hkeys, entriesDistinctKeys_iff.2 fun e he => (h e he).2.distinct⟩,
      allEntries_iff.2 fun e he => ⟨(h e he).1, (h e he).2.texts⟩⟩

/-- The children of a tree with text keys have text keys. -/
theorem HasTextKeys.child {t : Tree α} (h : t.HasTextKeys) {c : Step × Tree α}
    (hc : c ∈ t.children) : c.2.HasTextKeys :=
  ⟨h.distinct.child hc, all_child h.texts hc⟩

/-- A key of a map with text keys is a text without a dot. -/
theorem HasTextKeys.exists_key {es : List (Key × Tree α)} (h : (Tree.map es).HasTextKeys)
    {e : Key × Tree α} (he : e ∈ es) : ∃ s, e.1 = .scalar (.str s) ∧ '.' ∉ s.toList :=
  Key.exists_of_isDotFreeText (allEntries_iff.1 h.texts e he).1

/-- The steps out of a node have no dots in their texts. -/
theorem HasTextKeys.dot_notMem {t : Tree α} (h : t.HasTextKeys) {c : Step × Tree α}
    (hc : c ∈ t.children) : '.' ∉ c.1.text.toList := by
  cases t with
  | list xs | tuple xs =>
    obtain ⟨e, -, rfl⟩ := List.mem_map.1 hc
    exact Step.dot_notMem_text_index e.2
  | map es =>
    obtain ⟨⟨k, x⟩, he, rfl⟩ := mem_of_mem_children_map hc
    obtain ⟨s, hk, hs⟩ := h.exists_key he
    obtain rfl : k = .scalar (.str s) := hk
    exact hs
  | scalar _ | set _ | check _ => exact nomatch hc

/-- Keys that differ have different names in the whole tree if they are texts, of whatever kind. -/
theorem DistinctKeys.distinctNames {onKey : Key → Bool} {onScalar : Scalar → Bool} {t : Tree α}
    (hd : t.DistinctKeys) (ht : t.all onKey onScalar = true)
    (hkey : ∀ k, onKey k = true → k.isText = true) : t.DistinctNames := by
  induction t using byChildren with
  | node t ih =>
    refine .node ?_ fun c hc => ih c hc (hd.child hc) (all_child ht hc)
    cases t with
    | list xs | tuple xs => exact nodup_steps_list xs
    | map es =>
      have hnames : (es.map (·.1.text)).Nodup :=
        hd.1.nodup_text fun e he => hkey _ (allEntries_iff.1 ht e he).1
      have hsteps : (Tree.map es).children.map (·.1) = (es.map (·.1.text)).map Step.key := by
        rw [children, List.map_map, List.map_map]
        rfl
      rw [hsteps]
      exact hnames.map fun _ _ => Step.key.inj
    | scalar _ | set _ | check _ => exact List.nodup_nil

/-- Text keys that differ are names that differ. -/
theorem HasTextKeys.distinctNames {t : Tree α} (h : t.HasTextKeys) : t.DistinctNames :=
  h.distinct.distinctNames h.texts fun _ => Key.isText_of_isDotFreeText

/-- The steps to the children of a node with text keys differ. -/
theorem HasTextKeys.nodup_steps {t : Tree α} (h : t.HasTextKeys) :
    (t.children.map (·.1)).Nodup := h.distinctNames.nodup_steps

/-- The paths to the leaves are dot-free. -/
theorem HasTextKeys.isDotFree {t : Tree α} (h : t.HasTextKeys) {l : Leaf α} (hl : l ∈ t.leaves) :
    l.path.IsDotFree := by
  induction t using byChildren generalizing l with
  | node t ih =>
    rcases mem_leaves_iff.1 hl with ⟨-, rfl⟩ | ⟨c, hc, l', hl', rfl⟩
    · exact fun s hs => nomatch hs
    · intro s hs
      rcases List.mem_cons.1 hs with rfl | hs
      · exact h.dot_notMem hc
      · exact ih c hc (h.child hc) hl' s hs

/-! ## Replacing the checks -/

/-- The checks of a sequence are replaced element by element. -/
theorem mapItems_eq_map (f : α → β) (xs : List (Tree α)) :
    mapItems f xs = xs.map (mapChecks f) := by
  induction xs with
  | nil => rfl
  | cons x xs ih => rw [mapItems, ih, List.map_cons]

/-- The checks of a map are replaced value by value. -/
theorem mapEntries_eq_map (f : α → β) (es : List (Key × Tree α)) :
    mapEntries f es = es.map fun e => (e.1, e.2.mapChecks f) := by
  induction es with
  | nil => rfl
  | cons e es ih => rw [mapEntries, ih, List.map_cons]

/-- The shape of a node stays when checks are replaced. -/
theorem kind_mapChecks (f : α → β) (t : Tree α) : (t.mapChecks f).kind = t.kind := by
  cases t with
  | list xs | tuple xs | map xs =>
    cases xs with
    | nil => rfl
    | cons x xs => rfl
  | scalar _ | set _ | check _ => rfl

/-- The steps to the children stay when checks are replaced. -/
theorem children_mapChecks (f : α → β) (t : Tree α) :
    (t.mapChecks f).children = t.children.map fun c => (c.1, c.2.mapChecks f) := by
  cases t with
  | list xs | tuple xs =>
    rw [mapChecks, children, children, mapItems_eq_map, List.zipIdx_map, List.map_map, List.map_map]
    rfl
  | map es =>
    rw [mapChecks, children, children, mapEntries_eq_map, List.map_map, List.map_map]
    rfl
  | scalar _ | set _ | check _ => rfl

/-- The paths of the leaves stay when checks are replaced. -/
theorem leaves_mapChecks (f : α → β) (t : Tree α) :
    (t.mapChecks f).leaves = t.leaves.map fun l => ⟨l.path, l.node.mapChecks f⟩ := by
  induction t using byChildren with
  | node t ih =>
    by_cases h : t.children = []
    · have hmapped : (t.mapChecks f).children = [] := by rw [children_mapChecks, h, List.map_nil]
      rw [leaves_of_children_eq_nil h, leaves_of_children_eq_nil hmapped]
      rfl
    · have hmapped : (t.mapChecks f).children ≠ [] := by
        rw [children_mapChecks]
        exact mt List.map_eq_nil_iff.1 h
      rw [leaves_of_children_ne_nil h, leaves_of_children_ne_nil hmapped, children_mapChecks,
        List.flatMap_map, List.map_flatMap]
      refine List.flatMap_congr fun c hc => ?_
      rw [ih c hc, List.map_map, List.map_map]
      rfl

mutual

/-- Replacing checks twice is replacing them once. -/
theorem mapChecks_mapChecks {γ : Type w} (f : α → β) (g : β → γ) (t : Tree α) :
    (t.mapChecks f).mapChecks g = t.mapChecks (g ∘ f) := by
  cases t with
  | scalar _ | set _ | check _ => rfl
  | list xs | tuple xs => rw [mapChecks, mapChecks, mapItems_mapItems, mapChecks]
  | map es => rw [mapChecks, mapChecks, mapEntries_mapEntries, mapChecks]

/-- The same for the elements of a sequence. -/
theorem mapItems_mapItems {γ : Type w} (f : α → β) (g : β → γ) (xs : List (Tree α)) :
    mapItems g (mapItems f xs) = mapItems (g ∘ f) xs := by
  cases xs with
  | nil => rfl
  | cons x xs => rw [mapItems, mapItems, mapChecks_mapChecks, mapItems_mapItems, mapItems]

/-- The same for the entries of a map. -/
theorem mapEntries_mapEntries {γ : Type w} (f : α → β) (g : β → γ) (es : List (Key × Tree α)) :
    mapEntries g (mapEntries f es) = mapEntries (g ∘ f) es := by
  cases es with
  | nil => rfl
  | cons e es =>
    rw [mapEntries, mapEntries, mapChecks_mapChecks, mapEntries_mapEntries, mapEntries]

end

/-- A tree without checks has none to replace. -/
theorem mapChecks_ofPlain (f : α → β) (t : PlainTree) : (ofPlain t).mapChecks f = ofPlain t := by
  have hempty : f ∘ Empty.elim = Empty.elim := funext fun e => e.elim
  rw [ofPlain, mapChecks_mapChecks, hempty, ofPlain]

/-- Text keys stay when checks are replaced. -/
theorem HasTextKeys.mapChecks {t : Tree α} (h : t.HasTextKeys) (f : α → β) :
    (t.mapChecks f).HasTextKeys := by
  induction t using byChildren with
  | node t ih =>
    have hbelow : ∀ c ∈ t.children, (c.2.mapChecks f).HasTextKeys :=
      fun c hc => ih c hc (h.child hc)
    cases t with
    | list xs | tuple xs =>
      have hitems : ∀ x ∈ xs, (x.mapChecks f).HasTextKeys := by
        intro x hx
        obtain ⟨s, hs⟩ := exists_mem_children_of_mem hx
        exact hbelow (s, x) hs
      have hlist : (Tree.list (xs.map (Tree.mapChecks f))).HasTextKeys := by
        rwa [hasTextKeys_list_iff, List.forall_mem_map]
      rw [Tree.mapChecks, mapItems_eq_map]
      exact ⟨hlist.distinct, hlist.texts⟩
    | map es =>
      obtain ⟨hkeys, hentries⟩ := hasTextKeys_map_iff.1 h
      rw [Tree.mapChecks, mapEntries_eq_map, hasTextKeys_map_iff, Assoc.Distinct, Assoc.keys,
        List.map_map, List.forall_mem_map]
      exact ⟨hkeys, fun e he => ⟨(hentries e he).1, hbelow _ (List.mem_map_of_mem he)⟩⟩
    | scalar _ | set _ | check _ => exact ⟨trivial, h.texts⟩

end Tree

end TreeMatch
