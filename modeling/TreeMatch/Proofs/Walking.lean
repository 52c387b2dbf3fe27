import TreeMatch.Proofs.Following

/-!
# A walk reports what can be looked up

`Tree.visit` hands the leaves to an observer one after the other, as a loop over a list would
(`visit_eq`), so that an observer that only records sees exactly these (`walkUpTo_none`). The list
ends where a key is not written (`Tree.reachedFrom`), and then the walk fails; otherwise it is that
of all leaves.

The main statement compares what is reported with what lookup finds (`walk_agrees_with_lookup`):
every node without contents that a path leads to is reported at this path; and if the keys of each
map have different names, every leaf that is reported is what its path leads to. Names matter
because a walk writes every key as a text, and two keys that are written alike share one path, at
which lookup finds only one of their values.
-/

namespace TreeMatch

namespace Tree

/-! ## What the observer sees -/

section Reached

variable {α : Type u}

mutual

/-- The leaves below a node that stands at `path`, from left to right, up to the first key that is
not written. -/
def reachedFrom (path : Path) : Tree α → List (Leaf α)
  | .scalar s => [⟨path, .scalar s⟩]
  | .set ms => [⟨path, .set ms⟩]
  | .check c => [⟨path, .check c⟩]
  | .list [] => [⟨path, .list []⟩]
  | .list (x :: xs) => reachedItems path 0 (x :: xs)
  | .tuple [] => [⟨path, .tuple []⟩]
  | .tuple (x :: xs) => reachedItems path 0 (x :: xs)
  | .map [] => [⟨path, .map []⟩]
  | .map (e :: es) => reachedEntries path (e :: es)
termination_by structural t => t

/-- The leaves below the elements of a sequence, the first of which has index `i`, up to the first
key that is not written. -/
def reachedItems (path : Path) (i : Nat) : List (Tree α) → List (Leaf α)
  | [] => []
  | x :: xs =>
    reachedFrom (path.extend (.index i)) x ++
      if x.hasWritableKeys then reachedItems path (i + 1) xs else []
termination_by structural ts => ts

/-- The leaves below the entries of a map, up to the first key that is not written. -/
def reachedEntries (path : Path) : List (Key × Tree α) → List (Leaf α)
  | [] => []
  | (k, x) :: es =>
    if k.isWritable then
      reachedFrom (path.extend (.key k.text)) x ++
        if x.hasWritableKeys then reachedEntries path es else []
    else []
termination_by structural es => es

end

mutual

/-- Where all keys can be written, a walk reaches all leaves. -/
theorem reachedFrom_of_hasWritableKeys {t : Tree α} (h : t.hasWritableKeys = true) (path : Path) :
    t.reachedFrom path = t.leavesFrom path := by
  cases t with
  | list xs | tuple xs =>
    cases xs with
    | nil => rfl
    | cons x xs => exact reachedItems_of_forall (allItems_iff.1 h) path 0
  | map es =>
    cases es with
    | nil => rfl
    | cons e es => exact reachedEntries_of_forall (allEntries_iff.1 h) path
  | scalar _ | set _ | check _ => rfl

/-- The same for the elements of a sequence. -/
theorem reachedItems_of_forall {xs : List (Tree α)} (h : ∀ x ∈ xs, x.hasWritableKeys = true)
    (path : Path) (i : Nat) : reachedItems path i xs = itemLeaves path i xs := by
  cases xs with
  | nil => rfl
  | cons x xs =>
    obtain ⟨hx, hxs⟩ := List.forall_mem_cons.1 h
    rw [reachedItems, itemLeaves, if_pos hx, reachedFrom_of_hasWritableKeys hx,
      reachedItems_of_forall hxs]

/-- The same for the entries of a map. -/
theorem reachedEntries_of_forall {es : List (Key × Tree α)}
    (h : ∀ e ∈ es, e.1.isWritable = true ∧ e.2.hasWritableKeys = true) (path : Path) :
    reachedEntries path es = entryLeaves path es := by
  cases es with
  | nil => rfl
  | cons e es =>
    obtain ⟨k, x⟩ := e
    obtain ⟨⟨hk, hx⟩, hes⟩ := List.forall_mem_cons.1 h
    rw [reachedEntries, entryLeaves, if_pos hk, if_pos hx, reachedFrom_of_hasWritableKeys hx,
      reachedEntries_of_forall hes]

end

mutual

/-- A walk reaches leaves one after the other, and may break off. -/
theorem isPrefix_reachedFrom (path : Path) (t : Tree α) :
    t.reachedFrom path <+: t.leavesFrom path := by
  cases t with
  | list xs | tuple xs =>
    cases xs with
    | nil => exact List.prefix_rfl
    | cons x xs => exact reachedItems_prefix path 0 (x :: xs)
  | map es =>
    cases es with
    | nil => exact List.prefix_rfl
    | cons e es => exact reachedEntries_prefix path (e :: es)
  | scalar _ | set _ | check _ => exact List.prefix_rfl

/-- The same for the elements of a sequence. -/
theorem reachedItems_prefix (path : Path) (i : Nat) (xs : List (Tree α)) :
    reachedItems path i xs <+: itemLeaves path i xs := by
  cases xs with
  | nil => exact List.prefix_rfl
  | cons x xs =>
    rw [reachedItems, itemLeaves]
    by_cases hx : x.hasWritableKeys = true
    · rw [if_pos hx, reachedFrom_of_hasWritableKeys hx, List.prefix_append_right_inj]
      exact reachedItems_prefix path (i + 1) xs
    · rw [if_neg hx, List.append_nil]
      exact (isPrefix_reachedFrom _ x).trans (List.prefix_append _ _)

/-- The same for the entries of a map. -/
theorem reachedEntries_prefix (path : Path) (es : List (Key × Tree α)) :
    reachedEntries path es <+: entryLeaves path es := by
  cases es with
  | nil => exact List.prefix_rfl
  | cons e es =>
    obtain ⟨k, x⟩ := e
    rw [reachedEntries, entryLeaves]
    split
    · by_cases hx : x.hasWritableKeys = true
      · rw [if_pos hx, reachedFrom_of_hasWritableKeys hx, List.prefix_append_right_inj]
        exact reachedEntries_prefix path es
      · rw [if_neg hx, List.append_nil]
        exact (isPrefix_reachedFrom _ x).trans (List.prefix_append _ _)
    · exact List.nil_prefix

end

end Reached

/-- What is said at the end of a walk, when no observer has stopped it. -/
def walked (complete : Bool) : Except WriteFault Unit :=
  if complete then .ok () else .error .tooManyDigits

section Visit

variable {α : Type u} {m : Type → Type v} [Monad m] [LawfulMonad m] (observe : Leaf α → m Unit)

/-- A walk of two parts comes to the second one if the first is complete. -/
theorem walked_bind {ls ks : List (Leaf α)} {a b : Bool} :
    (ExceptT.mk (do forM ls observe; pure (walked a)) >>= fun _ =>
        ExceptT.mk (do forM ks observe; pure (walked b)) : ExceptT WriteFault m Unit) =
      ExceptT.mk (do forM (ls ++ if a then ks else []) observe; pure (walked (a && b))) := by
  refine ExceptT.ext ?_
  rw [ExceptT.run_bind]
  cases a with
  | true => simp [walked, List.forM_append]
  | false => simp [walked]

mutual

/-- A walk hands the leaves that it reaches to the observer from left to right, and fails if it
breaks off. -/
theorem visit_eq (path : Path) (t : Tree α) :
    t.visit observe path =
      ExceptT.mk (do forM (t.reachedFrom path) observe; pure (walked t.hasWritableKeys)) := by
  have hleaf : ∀ l : Leaf α, (observe l : ExceptT WriteFault m Unit) =
      ExceptT.mk (do forM [l] observe; pure (walked true)) := fun l => by
    refine ExceptT.ext ?_
    simp [walked]
  cases t with
  | list xs | tuple xs =>
    cases xs with
    | nil => exact hleaf _
    | cons x xs => exact visitItems_eq path 0 (x :: xs)
  | map es =>
    cases es with
    | nil => exact hleaf _
    | cons e es => exact visitEntries_eq path (e :: es)
  | set ms =>
    have hset : (Tree.set ms : Tree α).hasWritableKeys = true := List.all_eq_true.2 fun _ _ => rfl
    rw [hset]
    exact hleaf _
  | scalar _ | check _ => exact hleaf _

/-- The same for the elements of a sequence. -/
theorem visitItems_eq (path : Path) (i : Nat) (xs : List (Tree α)) :
    visitItems observe path i xs =
      ExceptT.mk (do
        forM (reachedItems path i xs) observe
        pure (walked (allItems Key.isWritable (fun _ => true) xs))) := by
  cases xs with
  | nil =>
    refine ExceptT.ext ?_
    simp [visitItems, reachedItems, allItems, walked]
  | cons x xs => rw [visitItems, visit_eq, visitItems_eq, walked_bind]; rfl

/-- The same for the entries of a map. -/
theorem visitEntries_eq (path : Path) (es : List (Key × Tree α)) :
    visitEntries observe path es =
      ExceptT.mk (do
        forM (reachedEntries path es) observe
        pure (walked (allEntries Key.isWritable (fun _ => true) es))) := by
  cases es with
  | nil =>
    refine ExceptT.ext ?_
    simp [visitEntries, reachedEntries, allEntries, walked]
  | cons e es =>
    obtain ⟨k, x⟩ := e
    rw [visitEntries, reachedEntries, allEntries, Key.name]
    -- A key that is not written comes before all leaves below it.
    cases k.isWritable with
    | true =>
      have hname : (ExceptT.mk (pure (Except.ok k.text)) : ExceptT WriteFault m String) =
        pure k.text := rfl
      rw [if_pos rfl, if_pos rfl, hname, pure_bind, visit_eq, visitEntries_eq, walked_bind]
      rfl
    | false =>
      refine ExceptT.ext ?_
      rw [ExceptT.run_bind]
      simp [walked]

end

/-- A walk reports all leaves where all keys can be written. -/
theorem visit_eq_forM {t : Tree α} (h : t.hasWritableKeys = true) (path : Path) :
    t.visit observe path = ExceptT.lift (forM (t.leavesFrom path) observe) := by
  rw [visit_eq, reachedFrom_of_hasWritableKeys h, h]
  refine ExceptT.ext ?_
  simp [walked]

/-- What comes out of a walk whose observer has a state and may raise exceptions: an exception, if
it raises one at a leaf that the walk reaches. -/
theorem visit_run {ε σ : Type} (observe : Leaf α → ExceptT ε (StateM σ) Unit) (path : Path)
    (t : Tree α) (s : σ) :
    (t.visit observe path).run.run s =
      Prod.map (Except.map fun _ => walked t.hasWritableKeys) id
        ((forM (t.reachedFrom path) observe).run s) := by
  rw [visit_eq]
  show StateT.run (ExceptT.bindCont (fun _ => pure (walked t.hasWritableKeys))
    ((forM (t.reachedFrom path) observe).run s).1) ((forM (t.reachedFrom path) observe).run s).2 = _
  rcases (forM (t.reachedFrom path) observe).run s with ⟨_ | _, _⟩ <;> rfl

end Visit

/-- An observer that is never to stop the walk records every leaf. -/
theorem forM_recordLeaf {α : Type} (ls : List (Leaf α)) (seen : List (Leaf α)) :
    (forM ls recordLeaf).run ⟨seen, none⟩ = (.ok (), ⟨seen ++ ls, none⟩) := by
  induction ls generalizing seen with
  | nil => rw [List.append_nil]; rfl
  | cons l ls ih =>
    have hrest := ih (seen ++ [l])
    rw [List.append_assoc, List.singleton_append] at hrest
    exact hrest

/-- How a walk ends that no observer stops. -/
def walkEnd {α : Type u} (t : Tree α) : WalkEnd :=
  if t.hasWritableKeys then .done else .failed .tooManyDigits

/-- A walk without a limit sees the leaves that it reaches and is not stopped. -/
theorem walkUpTo_none {α : Type} (path : Path) (t : Tree α) :
    t.walkUpTo none path = (t.reachedFrom path, t.walkEnd) := by
  rw [walkUpTo, visit_run, forM_recordLeaf, walkEnd, walked]
  cases t.hasWritableKeys with
  | true => rfl
  | false => rfl

/-- Where all keys can be written, it sees all leaves. -/
theorem walkUpTo_none_of_hasWritableKeys {α : Type} {t : Tree α} (h : t.hasWritableKeys = true)
    (path : Path) : t.walkUpTo none path = (t.leavesFrom path, .done) := by
  rw [walkUpTo_none, reachedFrom_of_hasWritableKeys h, walkEnd, h]
  rfl

/-! ## What lookup finds -/

variable {α : Type u}

/-- The nodes that are descended into are those with children. -/
theorem isBranch_kind_iff {t : Tree α} : t.kind.isBranch = true ↔ t.children ≠ [] := by
  cases t with
  | list xs | tuple xs | map xs =>
    cases xs with
    | nil => simp [kind, Kind.isBranch, children]
    | cons x xs => simp [kind, Kind.isBranch, children, List.zipIdx_cons]
  | scalar _ | set _ | check _ => simp [kind, Kind.isBranch, children]

/-- With distinct names, a leaf is what its path leads to. -/
theorem DistinctNames.lookup?_of_mem_leaves {t : Tree α} (h : t.DistinctNames) {l : Leaf α}
    (hl : l ∈ t.leaves) : t.lookup? l.path = some l.node := by
  induction t using byChildren generalizing l with
  | node t ih =>
    rcases mem_leaves_iff.1 hl with ⟨-, rfl⟩ | ⟨c, hc, l', hl', rfl⟩
    · rfl
    · have hstep : t.child? c.1 = some c.2 := (child?_eq_some_iff h.nodup_steps).2 hc
      rw [lookup?, hstep]
      exact ih c hc (h.child hc) hl'

/-- The search for the name of a key that can be written ends at this key or before it, if the keys
before it can be written. -/
theorem canEnter_text {before after : List (Key × Tree α)} {k : Key} {x : Tree α}
    (hbefore : ∀ e ∈ before, e.1.isWritable = true) (hk : k.isWritable = true) :
    canEnter (before ++ (k, x) :: after) k.text = true := by
  rw [canEnter, Bool.or_eq_true]
  cases hs : k.str? with
  | some s =>
    refine .inl (List.any_eq_true.2 ⟨(k, x), by simp, ?_⟩)
    rw [hs, Key.text_eq_of_str? hs, beq_self_eq_true]
  | none =>
    refine .inr ((Option.all_eq_true _ _).2 fun e he => ?_)
    rw [List.filter_append, List.find?_append, Option.or_eq_some_iff] at he
    rcases he with he | ⟨-, he⟩
    · exact hbefore e (List.mem_filter.1 (List.mem_of_find?_eq_some he)).1
    · have hfirst : (!k.isWritable || k.text == k.text) = true := by simp
      rw [List.filter_cons, hs, if_pos (by rfl), List.find?_cons, hfirst] at he
      obtain rfl := Option.some.inj he
      exact hk

/-- What is reached in a sequence is reached in one of the elements. -/
theorem exists_of_mem_reachedItems {path : Path} {i : Nat} {xs : List (Tree α)} {l : Leaf α}
    (hl : l ∈ reachedItems path i xs) :
    ∃ j, ∃ x : Tree α, xs[j]? = some x ∧ l ∈ x.reachedFrom (path.extend (.index (i + j))) := by
  induction xs generalizing i with
  | nil => exact nomatch hl
  | cons x xs ih =>
    rw [reachedItems, List.mem_append] at hl
    rcases hl with hl | hl
    · exact ⟨0, x, rfl, hl⟩
    · split at hl
      · obtain ⟨j, y, hy, hl⟩ := ih hl
        exact ⟨j + 1, y, hy, by rwa [Nat.add_comm j, ← Nat.add_assoc]⟩
      · exact nomatch hl

/-- What is reached in a map is reached below a key that can be written, as the keys before it can.
-/
theorem exists_of_mem_reachedEntries {path : Path} {es : List (Key × Tree α)} {l : Leaf α}
    (hl : l ∈ reachedEntries path es) :
    ∃ before k x after, es = before ++ (k, x) :: after ∧
      (∀ e ∈ before, e.1.isWritable = true) ∧ k.isWritable = true ∧
      l ∈ x.reachedFrom (path.extend (.key k.text)) := by
  induction es with
  | nil => exact nomatch hl
  | cons e es ih =>
    obtain ⟨k, x⟩ := e
    rw [reachedEntries] at hl
    split at hl
    · rename_i hk
      rcases List.mem_append.1 hl with hl | hl
      · exact ⟨[], k, x, es, rfl, by simp, hk, hl⟩
      · split at hl
        · obtain ⟨before, k', y, after, rfl, hbefore, hk', hl⟩ := ih hl
          exact ⟨(k, x) :: before, k', y, after, rfl,
            List.forall_mem_cons.2 ⟨hk, hbefore⟩, hk', hl⟩
        · exact nomatch hl
    · exact nomatch hl

/-- What is reached is the node itself or reached below a child, to which a step can be tried. -/
theorem exists_of_mem_reachedFrom {path : Path} {t : Tree α} {l : Leaf α}
    (hl : l ∈ t.reachedFrom path) : l = ⟨path, t⟩ ∨
      ∃ c ∈ t.children, t.canTry c.1 = true ∧ l ∈ c.2.reachedFrom (path.extend c.1) := by
  cases t with
  | list xs | tuple xs =>
    cases xs with
    | nil => exact .inl (List.mem_singleton.1 hl)
    | cons x xs =>
      obtain ⟨j, y, hy, hl⟩ := exists_of_mem_reachedItems hl
      rw [Nat.zero_add] at hl
      exact .inr ⟨(.index j, y), mem_children_list_iff.2 ⟨j, hy, rfl⟩, rfl, hl⟩
  | map es =>
    cases es with
    | nil => exact .inl (List.mem_singleton.1 hl)
    | cons e es =>
      obtain ⟨before, k, x, after, hes, hbefore, hk, hl⟩ := exists_of_mem_reachedEntries hl
      rw [hes]
      exact .inr ⟨(.key k.text, x), List.mem_map.2 ⟨(k, x), by simp, rfl⟩,
        canEnter_text hbefore hk, hl⟩
  | scalar _ | set _ | check _ => exact .inl (List.mem_singleton.1 hl)

/-- Where names are distinct, the path of a leaf that a walk reaches can be followed. -/
theorem DistinctNames.canFollow_of_mem_reachedFrom {t : Tree α} (h : t.DistinctNames) {path : Path}
    {l : Leaf α} (hl : l ∈ t.reachedFrom path) :
    ∃ p, l.path = path ++ p ∧ t.canFollow p = true := by
  induction t using byChildren generalizing path with
  | node t ih =>
    rcases exists_of_mem_reachedFrom hl with rfl | ⟨c, hc, htry, hl⟩
    · exact ⟨[], (List.append_nil path).symm, rfl⟩
    · obtain ⟨p, hp, hfollow⟩ := ih c hc (h.child hc) hl
      have hstep : t.child? c.1 = some c.2 := (child?_eq_some_iff h.nodup_steps).2 hc
      refine ⟨c.1 :: p, by rw [hp, Path.extend, List.append_assoc, List.singleton_append], ?_⟩
      rw [canFollow, htry, hstep]
      exact hfollow

/-- With distinct names, lookup finds every leaf that a walk reaches. -/
theorem DistinctNames.lookup_of_mem_reachedFrom {t : Tree α} (h : t.DistinctNames) {l : Leaf α}
    (hl : l ∈ t.reachedFrom Path.root) : t.lookup l.path = .ok (some l.node) := by
  obtain ⟨p, hp, hfollow⟩ := h.canFollow_of_mem_reachedFrom hl
  obtain rfl : l.path = p := hp
  exact lookup_eq_ok_iff.2
    ⟨hfollow, h.lookup?_of_mem_leaves ((isPrefix_reachedFrom Path.root t).subset hl)⟩

/-- A walk reports leaves only; and if the keys of each map have different names, each of them is
what lookup finds at its path. Where all keys can be written, it reports every node without contents
that lookup finds, at its path and with its kind; where one cannot, it breaks off and fails, having
reported some of the first leaves. -/
theorem walk_agrees_with_lookup {α : Type} (t : Tree α) :
    (∀ l ∈ (t.walkUpTo none Path.root).1, l.kind = l.node.kind ∧ l.kind.isBranch = false) ∧
    (t.DistinctNames → ∀ l ∈ (t.walkUpTo none Path.root).1,
      t.lookup l.path = .ok (some l.node)) ∧
    (t.hasWritableKeys = true → (t.walkUpTo none Path.root).2 = .done ∧
      ∀ p x, t.lookup p = .ok (some x) → x.kind.isBranch = false →
        ∃ l ∈ (t.walkUpTo none Path.root).1, l.path = p ∧ l.node = x ∧ l.kind = x.kind) ∧
    (t.hasWritableKeys = false → (t.walkUpTo none Path.root).2 = .failed .tooManyDigits ∧
      (t.walkUpTo none Path.root).1 <+: t.leaves) := by
  have hleaf : ∀ x : Tree α, x.kind.isBranch = false ↔ x.children = [] := fun x => by
    rw [← Bool.not_eq_true, isBranch_kind_iff, not_not]
  have hfront := isPrefix_reachedFrom Path.root t
  rw [walkUpTo_none, walkEnd]
  refine ⟨fun l hl => ?_, fun h l hl => h.lookup_of_mem_reachedFrom hl, fun h => ?_, fun h => ?_⟩
  · exact ⟨rfl, (hleaf l.node).2 (children_node_of_mem_leaves (hfront.subset hl))⟩
  · rw [h, reachedFrom_of_hasWritableKeys h]
    refine ⟨rfl, fun p x hx hbranch => ?_⟩
    have hp := (lookup_eq_ok_iff.1 hx).2
    exact ⟨⟨p, x⟩, mem_leaves_of_lookup? hp ((hleaf x).1 hbranch), rfl, rfl, rfl⟩
  · rw [h]
    exact ⟨rfl, hfront⟩

/-- A tree with keys of several types, among them a number that is not itself. -/
def mixedKeyTree : Value :=
  .map [(.scalar (.int 200), .list [.int 1, .map []]),
    (.scalar (.str "a"), .map [(.scalar (.float .nan), .null),
      (.tuple [.scalar (.int 1), .scalar .null], .str "x")]),
    (.scalar (.bool true), .set [])]

/-- The names of the keys are distinct although the keys have different types. -/
theorem distinctNames_mixedKeyTree : mixedKeyTree.DistinctNames := by
  have hlist : (Tree.list [.int 1, .map []] : Value).DistinctNames :=
    distinctNames_list_iff.2 (by
      simp only [List.forall_mem_cons]
      exact ⟨.of_children_eq_nil rfl, .of_children_eq_nil rfl, fun _ h => nomatch h⟩)
  have hmap : (Tree.map [(.scalar (.float .nan), .null),
      (.tuple [.scalar (.int 1), .scalar .null], .str "x")] : Value).DistinctNames :=
    distinctNames_map_iff.2 ⟨by decide +kernel, by
      simp only [List.forall_mem_cons]
      exact ⟨.of_children_eq_nil rfl, .of_children_eq_nil rfl, fun _ h => nomatch h⟩⟩
  refine distinctNames_map_iff.2 ⟨by decide +kernel, ?_⟩
  simp only [List.forall_mem_cons]
  exact ⟨hlist, hmap, .of_children_eq_nil rfl, fun _ h => nomatch h⟩

/-- The empty map below the number is reported at the path that leads to it, and everything that is
reported is found. -/
theorem walk_mixedKeyTree :
    (mixedKeyTree.walkUpTo none Path.root).2 = .done ∧
    (∃ l ∈ (mixedKeyTree.walkUpTo none Path.root).1,
      l.path = [.key "200", .index 1] ∧ l.kind = .emptyMap) ∧
    ∀ l ∈ (mixedKeyTree.walkUpTo none Path.root).1,
      mixedKeyTree.lookup l.path = .ok (some l.node) := by
  obtain ⟨-, hfound, hreported, -⟩ := walk_agrees_with_lookup mixedKeyTree
  obtain ⟨hdone, hreported⟩ := hreported (by decide +kernel)
  have hkind : (mixedKeyTree.lookup? [.key "200", .index 1]).map kind = some .emptyMap := by
    decide +kernel
  obtain ⟨x, hx, hkind⟩ := Option.map_eq_some_iff.1 hkind
  have hlookup : mixedKeyTree.lookup [.key "200", .index 1] = .ok (some x) :=
    lookup_eq_ok_iff.2 ⟨by decide +kernel, hx⟩
  obtain ⟨l, hl, hpath, -, hlkind⟩ := hreported _ x hlookup (by rw [hkind]; rfl)
  exact ⟨hdone, ⟨l, hl, hpath, hlkind.trans hkind⟩, hfound distinctNames_mixedKeyTree⟩

/-- A tree whose first key cannot be written. -/
def longKeyTree : Value := .map [(longKey, .int 2), (.scalar (.str "a"), .int 1)]

/-- Lookup finds the number under the second key, but the walk comes to the first key before it. -/
theorem walk_misses_longKeyTree :
    longKeyTree.lookup [.key "a"] = .ok (some (.int 1)) ∧
    (Tree.int 1 : Value).kind.isBranch = false ∧
    longKeyTree.walkUpTo none Path.root = ([], .failed .tooManyDigits) := by
  have hreached : longKeyTree.reachedFrom Path.root = [] := by
    rw [longKeyTree, reachedFrom, reachedEntries, longKey_isWritable]
    rfl
  have hlong : longKeyTree.hasWritableKeys = false := by
    rw [longKeyTree, hasWritableKeys, all, allEntries, longKey_isWritable]
    rfl
  refine ⟨rfl, rfl, ?_⟩
  rw [walkUpTo_none, walkEnd, hreached, hlong]
  rfl

end Tree

end TreeMatch
