import TreeMatch.Proofs.Walking

/-!
# A walk that its observer interrupts

An observer may raise an exception, and then the walk is over: no further leaf is reported, however
many maps and sequences the walk is in (`forM_cons_run_error`). An observer that records every leaf
and raises an exception right after the `n`th one (`RaisesAfter`) has then seen just the first `n`
leaves of the walk, and the exception comes out of it; if the walk reaches fewer leaves, the
observer has seen all of these and the walk ends as without it (`observer_interrupts_walk`). What
the observer keeps of the leaves and which exception it raises is left open. The walk with a limit
has such an observer (`recordLeaf_raisesAfter`).
-/

namespace TreeMatch

variable {α ε σ : Type}

/-- The observer records every leaf, and raises `e` right after the `n`th one. Its state is
`state seen` when it has recorded the leaves `seen`. -/
structure RaisesAfter (observe : Leaf α → ExceptT ε (StateM σ) Unit) (n : Nat) (e : ε)
    (state : List (Leaf α) → σ) : Prop where
  /-- A leaf before the `n`th one is recorded. -/
  records : ∀ seen l, seen.length + 1 < n →
    (observe l).run (state seen) = (.ok (), state (seen ++ [l]))
  /-- The `n`th leaf is recorded, and then the exception is raised. -/
  raises : ∀ seen l, seen.length + 1 = n →
    (observe l).run (state seen) = (.error e, state (seen ++ [l]))

/-! ## From leaf to leaf -/

section Observer

variable {observe : Leaf α → ExceptT ε (StateM σ) Unit} {n : Nat} {e : ε}
  {state : List (Leaf α) → σ}

/-- An exception at a leaf is the end, whatever leaves would come after it. -/
theorem forM_cons_run_error {l : Leaf α} {s s' : σ} (h : (observe l).run s = (.error e, s'))
    (ls : List (Leaf α)) : (forM (l :: ls) observe).run s = (.error e, s') := by
  show (ExceptT.bindCont (fun _ => forM ls observe) ((observe l).run s).1).run
    ((observe l).run s).2 = _
  rw [h]
  rfl

/-- Without an exception the next leaf follows. -/
theorem forM_cons_run_ok {l : Leaf α} {s s' : σ} (h : (observe l).run s = (.ok (), s'))
    (ls : List (Leaf α)) : (forM (l :: ls) observe).run s = (forM ls observe).run s' := by
  show (ExceptT.bindCont (fun _ => forM ls observe) ((observe l).run s).1).run
    ((observe l).run s).2 = _
  rw [h]
  rfl

/-- With fewer than `n` leaves in all, the observer records them and raises nothing. -/
theorem RaisesAfter.forM_run_of_lt (h : RaisesAfter observe n e state) {seen ls : List (Leaf α)}
    (hn : seen.length + ls.length < n) :
    (forM ls observe).run (state seen) = (.ok (), state (seen ++ ls)) := by
  induction ls generalizing seen with
  | nil =>
    rw [List.append_nil]
    rfl
  | cons l ls ih =>
    have hlength : (seen ++ [l]).length = seen.length + 1 := by simp
    rw [List.length_cons] at hn
    calc (forM (l :: ls) observe).run (state seen)
      _ = (forM ls observe).run (state (seen ++ [l])) :=
        forM_cons_run_ok (h.records seen l (by omega)) ls
      _ = (.ok (), state (seen ++ [l] ++ ls)) := ih (by omega)
      _ = (.ok (), state (seen ++ l :: ls)) := by rw [List.append_assoc, List.singleton_append]

/-- With `n` leaves or more, it records the first `n` of them and raises its exception. -/
theorem RaisesAfter.forM_run_of_le (h : RaisesAfter observe n e state) {seen ls : List (Leaf α)}
    (hseen : seen.length < n) (hn : n ≤ seen.length + ls.length) :
    (forM ls observe).run (state seen) = (.error e, state ((seen ++ ls).take n)) := by
  induction ls generalizing seen with
  | nil =>
    rw [List.length_nil] at hn
    omega
  | cons l ls ih =>
    have hlength : (seen ++ [l]).length = seen.length + 1 := by simp
    have hsplit : seen ++ l :: ls = seen ++ [l] ++ ls := by simp
    rw [List.length_cons] at hn
    rw [hsplit]
    by_cases hlast : seen.length + 1 = n
    · -- This is the `n`th leaf, so the ones after it are not seen.
      have htake : (seen ++ [l] ++ ls).take n = seen ++ [l] := by
        rw [← hlast, ← hlength, List.take_left]
      rw [htake, forM_cons_run_error (h.raises seen l hlast)]
    · rw [forM_cons_run_ok (h.records seen l (by omega))]
      exact ih (by omega) (by omega)

end Observer

/-- What the observer of a walk with a limit does with a leaf. -/
theorem recordLeaf_run (l : Leaf α) (seen : List (Leaf α)) (k : Nat) :
    (recordLeaf l).run ⟨seen, some k⟩ =
      (if k = 1 then .error () else .ok (), ⟨seen ++ [l], some (k - 1)⟩) := by
  by_cases h : k = 1
  · subst h
    rfl
  · rw [if_neg h]
    show (if k = 1 then throw () else pure () : ExceptT Unit (StateM (Trace α)) Unit).run _ = _
    rw [if_neg h]
    rfl

/-- The observer of a walk with a limit raises an exception at the limit. -/
theorem recordLeaf_raisesAfter (n : Nat) :
    RaisesAfter (α := α) recordLeaf n () fun seen => ⟨seen, some (n - seen.length)⟩ where
  records seen l hn := by
    have hmore : n - seen.length ≠ 1 := by omega
    have hrest : n - (seen ++ [l]).length = n - seen.length - 1 := by simp; omega
    rw [recordLeaf_run, if_neg hmore, hrest]
  raises seen l hn := by
    have hlast : n - seen.length = 1 := by omega
    have hrest : n - (seen ++ [l]).length = n - seen.length - 1 := by simp; omega
    rw [recordLeaf_run, if_pos hlast, hrest]

/-! ## The whole walk -/

/-- Let an observer record every leaf and raise an exception right after the `n`th one. If a walk,
from whatever path, reports at least `n` leaves, then the exception comes out of it and the observer
has recorded just the first `n` of them; otherwise the observer has recorded all of them, and the
walk ends as without an observer to stop it. So it is with a walk that has a limit of `n` leaves.
Where all keys can be written, the walk reports all leaves and ends without an exception; where one
cannot, it fails there. -/
theorem observer_interrupts_walk (t : Tree α) (base : Path) {n : Nat} (hn : 1 ≤ n)
    {observe : Leaf α → ExceptT ε (StateM σ) Unit} {e : ε} {state : List (Leaf α) → σ}
    (hobserve : RaisesAfter observe n e state) :
    (n ≤ (t.walkUpTo none base).1.length →
      (t.visit observe base).run.run (state []) =
        (.error e, state ((t.walkUpTo none base).1.take n)) ∧
      t.walkUpTo (some n) base = ((t.walkUpTo none base).1.take n, .stopped)) ∧
    ((t.walkUpTo none base).1.length < n →
      (t.visit observe base).run.run (state []) =
        (.ok (if t.hasWritableKeys then .ok () else .error .tooManyDigits),
          state (t.walkUpTo none base).1) ∧
      t.walkUpTo (some n) base = t.walkUpTo none base) ∧
    (t.hasWritableKeys = true → t.walkUpTo none base = (t.leavesFrom base, .done)) ∧
    (t.hasWritableKeys = false → (t.walkUpTo none base).2 = .failed .tooManyDigits) := by
  -- The limit is such an observer itself, so both walks go by the same two lemmas.
  have hlimit := recordLeaf_raisesAfter (α := α) n
  have hseen : ([] : List (Leaf α)).length < n := hn
  rw [Tree.walkUpTo_none, Tree.walkUpTo, Tree.visit_run, Tree.visit_run]
  refine ⟨fun hle => ?_, fun hlt => ?_, fun h => ?_, fun h => ?_⟩
  · have hle' : n ≤ ([] : List (Leaf α)).length + (t.reachedFrom base).length := by simpa using hle
    have hrun : (forM (t.reachedFrom base) recordLeaf).run ⟨[], some n⟩ = _ :=
      hlimit.forM_run_of_le hseen hle'
    rw [hrun, hobserve.forM_run_of_le hseen hle']
    exact ⟨rfl, rfl⟩
  · have hlt' : ([] : List (Leaf α)).length + (t.reachedFrom base).length < n := by simpa using hlt
    have hrun : (forM (t.reachedFrom base) recordLeaf).run ⟨[], some n⟩ = _ :=
      hlimit.forM_run_of_lt hlt'
    rw [hrun, hobserve.forM_run_of_lt hlt', Tree.walkEnd]
    refine ⟨rfl, ?_⟩
    cases t.hasWritableKeys with
    | true => rfl
    | false => rfl
  · rw [Tree.reachedFrom_of_hasWritableKeys h, Tree.walkEnd, h]
    rfl
  · rw [Tree.walkEnd, h]
    rfl

/-- An observer that keeps the leaves in a list, and says at the third one that it has enough. -/
def watchThree (l : Leaf Label) : ExceptT String (StateM (List (Leaf Label))) Unit := do
  let seen ← get
  set (seen ++ [l])
  if seen.length + 1 = 3 then throw "enough"

/-- It raises its exception after three leaves. -/
theorem watchThree_raisesAfter : RaisesAfter watchThree 3 "enough" id where
  records seen l hn := by
    have hmore : seen.length + 1 ≠ 3 := by omega
    show (if seen.length + 1 = 3 then throw "enough" else pure () :
      ExceptT String (StateM (List (Leaf Label))) Unit).run _ = _
    rw [if_neg hmore]
    rfl
  raises seen l hn := by
    show (if seen.length + 1 = 3 then throw "enough" else pure () :
      ExceptT String (StateM (List (Leaf Label))) Unit).run _ = _
    rw [if_pos hn]
    rfl

/-- A tree of five leaves, the third of which is the last one of a list in a map. -/
def rowsTree : Value :=
  .map [(.scalar (.str "rows"), .list [.int 1, .tuple [.map []], .int 2]),
    (.scalar (.str "more"), .map [(.scalar .null, .list []), (.scalar (.int 0), .str "x")])]

/-- The observer sees the leaves of the list and neither of those in the map behind it. A limit of
six leaves is not reached. -/
theorem visit_rowsTree :
    (rowsTree.visit watchThree [.key "here"]).run.run [] =
      (.error "enough", (rowsTree.walkUpTo none [.key "here"]).1.take 3) ∧
    ((rowsTree.walkUpTo none [.key "here"]).1.take 3).map (·.path.render) =
      ["here.rows.[0]", "here.rows.[1].[0]", "here.rows.[2]"] ∧
    (rowsTree.walkUpTo (some 6) [.key "here"]).2 = .done := by
  have hlength : (rowsTree.walkUpTo none [.key "here"]).1.length = 5 := by decide +kernel
  have hthree := observer_interrupts_walk rowsTree [.key "here"] (by decide) watchThree_raisesAfter
  have hsix := observer_interrupts_walk rowsTree [.key "here"] (n := 6) (by decide)
    (recordLeaf_raisesAfter 6)
  obtain ⟨hraised, -⟩ := hthree.1 (by omega)
  simp only [id] at hraised
  refine ⟨hraised, by decide +kernel, ?_⟩
  exact (congrArg Prod.snd (hsix.2.1 (by omega)).2).trans (by decide +kernel)

/-- A list behind a map whose key cannot be written. -/
def blockedTree : Value := .list [.map [(longKey, .null)], .int 1, .int 2]

/-- The tree has three leaves, but the observer that waits for the third one sees none of them: what
comes out of the walk is neither its exception nor nothing. -/
theorem visit_blockedTree :
    blockedTree.leaves.length = 3 ∧
    (blockedTree.visit watchThree Path.root).run.run [] = (.ok (.error .tooManyDigits), []) := by
  have hmap : (Tree.map [(longKey, .null)] : Value).hasWritableKeys = false := by
    rw [Tree.hasWritableKeys, Tree.all, Tree.allEntries, longKey_isWritable]
    rfl
  have hlist : blockedTree.hasWritableKeys = false := by
    rw [Tree.hasWritableKeys] at hmap ⊢
    rw [blockedTree, Tree.all, Tree.allItems, hmap]
    rfl
  have hreached : blockedTree.reachedFrom Path.root = [] := by
    simp [blockedTree, Tree.reachedFrom, Tree.reachedItems, Tree.reachedEntries, longKey_isWritable,
      hmap]
  refine ⟨by decide +kernel, ?_⟩
  rw [Tree.visit_run, hreached, hlist]
  rfl

end TreeMatch
