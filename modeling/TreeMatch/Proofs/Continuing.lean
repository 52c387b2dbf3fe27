import TreeMatch.Proofs.Interruption

/-!
# Paths that go on

A path that is followed to a node may be continued from there, and what is found is what the
continuation finds in that node; where a path leads nowhere, none of its continuations leads
anywhere. A walk that begins at a path is related to one that begins at the root in the same way: it
hands the same leaves to its observer in the same order, with that path in front of theirs
(`visit_eq_visit_below`), and stops after the same leaf if the observer stops it
(`walkUpTo_eq_below`). `lookup_and_walk_continue` puts the two together. Where lookup fails, at a
key that is not written, so does the lookup of every continuation.
-/

namespace TreeMatch

namespace Tree

/-! ## Following a path in two parts -/

/-- Lookup of two parts goes on where the first part leads, if it leads anywhere. -/
theorem lookup_append {α : Type u} (t : Tree α) (p q : Path) :
    t.lookup (p ++ q) = t.lookup p >>= fun found =>
      match found with
      | some x => x.lookup q
      | none => .ok none := by
  induction p generalizing t with
  | nil => rfl
  | cons s p ih =>
    rw [List.cons_append, lookup, lookup]
    cases t.child s with
    | error _ => rfl
    | ok found =>
      cases found with
      | none => rfl
      | some x => exact ih x

/-! ## The same walk from another path -/

section Visit

variable {α : Type u} {m : Type → Type v} [Monad m] (observe : Leaf α → m Unit) (base : Path)

mutual

/-- A walk below `base` goes like one of which the observer gets to know every leaf as it is seen
from `base`. -/
theorem visit_append (path : Path) (t : Tree α) :
    t.visit observe (base ++ path) = t.visit (fun l => observe (l.below base)) path := by
  -- A sequence or a map without parts is a leaf itself.
  cases t with
  | list xs | tuple xs =>
    cases xs with
    | nil => rfl
    | cons x xs => exact visitItems_append path 0 (x :: xs)
  | map es =>
    cases es with
    | nil => rfl
    | cons e es => exact visitEntries_append path (e :: es)
  | scalar _ | set _ | check _ => rfl

/-- The same for the elements of a sequence. -/
theorem visitItems_append (path : Path) (i : Nat) (xs : List (Tree α)) :
    visitItems observe (base ++ path) i xs =
      visitItems (fun l => observe (l.below base)) path i xs := by
  cases xs with
  | nil => rfl
  | cons x xs =>
    have hstep : (base ++ path).extend (.index i) = base ++ path.extend (.index i) :=
      List.append_assoc base path _
    rw [visitItems, visitItems, hstep, visit_append, visitItems_append]

/-- The same for the entries of a map. -/
theorem visitEntries_append (path : Path) (es : List (Key × Tree α)) :
    visitEntries observe (base ++ path) es =
      visitEntries (fun l => observe (l.below base)) path es := by
  cases es with
  | nil => rfl
  | cons e es =>
    obtain ⟨k, x⟩ := e
    have hstep : ∀ name, (base ++ path).extend (.key name) = base ++ path.extend (.key name) :=
      fun name => List.append_assoc base path _
    rw [visitEntries, visitEntries]
    simp only [hstep, visit_append, visitEntries_append]

end

/-- A walk from `base` is a walk from the root whose observer gets to know every leaf as it is seen
from `base`. -/
theorem visit_eq_visit_below (t : Tree α) :
    t.visit observe base = t.visit (fun l => observe (l.below base)) Path.root := by
  have h := visit_append observe base Path.root t
  rwa [Path.root, List.append_nil] at h

end Visit

end Tree

/-! ## The walk with a limit -/

section Limit

variable {α : Type}

/-- What was seen on a walk, as it is seen from a node that `base` leads down from. -/
def Trace.below (base : Path) (r : Trace α) : Trace α := ⟨r.seen.map (Leaf.below base), r.remaining⟩

/-- Recording a leaf as it is seen from `base` uses up the limit as the leaf itself does. -/
theorem recordLeaf_below (base : Path) (l : Leaf α) (r : Trace α) :
    (recordLeaf (l.below base)).run (r.below base) =
      (((recordLeaf l).run r).1, ((recordLeaf l).run r).2.below base) := by
  obtain ⟨seen, remaining⟩ := r
  have hseen : seen.map (Leaf.below base) ++ [l.below base] =
      (seen ++ [l]).map (Leaf.below base) := by
    rw [List.map_append, List.map_singleton]
  cases remaining with
  | none => exact congrArg (fun ls => (Except.ok (), Trace.mk ls none)) hseen
  | some k =>
    show (recordLeaf (l.below base)).run ⟨seen.map (Leaf.below base), some k⟩ = _
    rw [recordLeaf_run, recordLeaf_run, hseen]
    rfl

/-- Recording leaves one after the other as they are seen from `base` stops after the same leaf. -/
theorem forM_recordLeaf_below (base : Path) (ls : List (Leaf α)) (r : Trace α) :
    (forM (ls.map (Leaf.below base)) recordLeaf).run (r.below base) =
      (((forM ls recordLeaf).run r).1, ((forM ls recordLeaf).run r).2.below base) := by
  induction ls generalizing r with
  | nil => rfl
  | cons l ls ih =>
    have hstep := recordLeaf_below base l r
    rcases hrun : (recordLeaf l).run r with ⟨result, r'⟩
    rw [hrun] at hstep
    rw [List.map_cons]
    cases result with
    | error _ => rw [forM_cons_run_error hstep, forM_cons_run_error hrun]
    | ok _ => rw [forM_cons_run_ok hstep, forM_cons_run_ok hrun, ih]

/-- A walk with a limit sees from `base` what it sees from the root, with `base` in front of the
paths, and is stopped if that one is. -/
theorem Tree.walkUpTo_eq_below (t : Tree α) (limit : Option Nat) (base : Path) :
    t.walkUpTo limit base =
      ((t.walkUpTo limit Path.root).1.map (Leaf.below base), (t.walkUpTo limit Path.root).2) := by
  have hobserve : ∀ s : Trace α,
      (forM (t.reachedFrom Path.root) fun l => recordLeaf (l.below base)).run s =
        (forM ((t.reachedFrom Path.root).map (Leaf.below base)) recordLeaf).run s := fun s => by
    rw [List.forM_map]
  rw [walkUpTo, walkUpTo, visit_eq_visit_below, visit_run, visit_run, hobserve]
  have hrun : (forM ((t.reachedFrom Path.root).map (Leaf.below base)) recordLeaf).run ⟨[], limit⟩ =
      (((forM (t.reachedFrom Path.root) recordLeaf).run ⟨[], limit⟩).1,
        ((forM (t.reachedFrom Path.root) recordLeaf).run ⟨[], limit⟩).2.below base) :=
    forM_recordLeaf_below base (t.reachedFrom Path.root) ⟨[], limit⟩
  rw [hrun]
  rfl

end Limit

namespace Tree

/-- A path may be followed in two parts: if the first part leads to a node, then the whole path
finds what its second part finds in that node; if it leads nowhere, so does the whole path; and if
it fails, so does the whole path. A walk from whatever path is the walk from the root, with that
path in front of all paths: any observer is handed the same nodes in the same order, and so the walk
reports the same nodes of the same kinds, and ends alike, also if it is cut short by a limit. -/
theorem lookup_and_walk_continue (t : Tree α) :
    (∀ p q v, t.lookup p = .ok (some v) → t.lookup (p ++ q) = v.lookup q) ∧
    (∀ p q, t.lookup p = .ok none → t.lookup (p ++ q) = .ok none) ∧
    (∀ p q fault, t.lookup p = .error fault → t.lookup (p ++ q) = .error fault) ∧
    (∀ (m : Type → Type v) [Monad m] (observe : Leaf α → m Unit) (base : Path),
      t.visit observe base =
        t.visit (fun l => observe ⟨base ++ l.path, l.node⟩) Path.root) ∧
    ∀ (limit : Option Nat) (base : Path),
      (t.walkUpTo limit base).1.map (fun l => (l.path, l.node, l.kind)) =
        (t.walkUpTo limit Path.root).1.map (fun l => (base ++ l.path, l.node, l.kind)) ∧
      (t.walkUpTo limit base).2 = (t.walkUpTo limit Path.root).2 := by
  refine ⟨fun p q v hp => ?_, fun p q hp => ?_, fun p q fault hp => ?_, fun m _ observe base => ?_,
    fun limit base => ?_⟩
  · rw [lookup_append, hp]
    rfl
  · rw [lookup_append, hp]
    rfl
  · rw [lookup_append, hp]
    rfl
  · exact visit_eq_visit_below observe base t
  · rw [walkUpTo_eq_below t limit base, List.map_map]
    exact ⟨rfl, rfl⟩

/-- Orders by number, one of them with lines. -/
def ordersTree : Value :=
  .map [(.scalar (.int 7), .map [(.scalar (.str "7"), .null),
      (.scalar (.str "lines"), .list [.str "nut", .tuple [.int 2, .map []]])]),
    (.scalar (.str "8"), .list [])]

/-- The order 7 has a second line, whose first part is found in two parts as well; there is no order
9, and so no line of it. From two steps further up, a walk that stops in the middle of the second
line has reported the same leaves. -/
theorem ordersTree_continues :
    (∃ v, ordersTree.lookup [.key "7", .key "lines"] = .ok (some v) ∧
      ordersTree.lookup [.key "7", .key "lines", .index 1, .index 0] =
        v.lookup [.index 1, .index 0] ∧
      ordersTree.lookup [.key "7", .key "lines", .index 1, .index 0] = .ok (some (.int 2))) ∧
    ordersTree.lookup [.key "9", .key "lines", .index 1] = .ok none ∧
    (ordersTree.walkUpTo (some 3) [.key "shop", .index 4]).1.map (·.path.render) =
      ["shop.[4].7.7", "shop.[4].7.lines.[0]", "shop.[4].7.lines.[1].[0]"] := by
  obtain ⟨hfound, hnone, -, -, hwalk⟩ := lookup_and_walk_continue.{0} ordersTree
  have hlines : ordersTree.lookup [.key "7", .key "lines"] =
      .ok (some (.list [.str "nut", .tuple [.int 2, .map []]])) :=
    lookup_eq_ok_iff.2 ⟨by decide +kernel, by with_unfolding_all rfl⟩
  refine ⟨⟨_, hlines, hfound [.key "7", .key "lines"] [.index 1, .index 0] _ hlines, ?_⟩, ?_, ?_⟩
  · exact hfound [.key "7", .key "lines"] [.index 1, .index 0] _ hlines
  · have horder : ordersTree.lookup [.key "9"] = .ok none :=
      lookup_eq_ok_iff.2 ⟨by decide +kernel, by with_unfolding_all rfl⟩
    exact hnone [.key "9"] [.key "lines", .index 1] horder
  · have hpaths := congrArg (List.map fun l => Path.render l.1)
      (hwalk (some 3) [.key "shop", .index 4]).1
    rw [List.map_map, List.map_map] at hpaths
    exact hpaths.trans (by decide +kernel)

end Tree

end TreeMatch
