import TreeMatch.Proofs.Running
import TreeMatch.Schema.Compile

/-!
# What a schema compiles to

A leaf that is no check stands for a comparison, and the name of a comparison has the leaf in it. So
a schema is flattened if all of it can be written: its checks are then those of its leaves, from
left to right (`Schema.flatten_eq`). A map compiles to a validator of these checks, and a sequence
to a strict one (`Schema.compile_eq`). Once there is a comparison it gives an outcome where the
value that it looks up can be written or is the expected one, and it passes in the second case only
(`PathCheck.passes_comparison_iff`).
-/

namespace TreeMatch

/-! ## Comparisons -/

namespace Check

/-- The check that compares a value with an expected one, as if this could be written. -/
def comparison (expected : Value) : Check :=
  named ("equals " ++ expected.written) (compare expected)

/-- There is the comparison with what can be written. -/
theorem equals_eq (expected : Value) :
    equals expected =
      if expected.isWritable then .ok (comparison expected) else .error .tooManyDigits := by
  unfold equals Tree.write
  cases expected.isWritable with
  | true => rfl
  | false => rfl

/-- The message of a difference is there if both values can be written. -/
theorem differenceMessage_eq (value expected : Value) : ∃ text,
    differenceMessage value expected =
      if value.isWritable && expected.isWritable then .ok text else .error .tooManyDigits := by
  unfold differenceMessage Tree.write
  cases value.isWritable with
  | false => exact ⟨"", rfl⟩
  | true =>
    cases expected.isWritable with
    | false => exact ⟨"", rfl⟩
    | true => exact ⟨_, rfl⟩

/-- A comparison passes for what is equal. For anything else it fails, if both values can be
written.
-/
theorem compare_eq (expected : Value) (path : Path) (value : Value) : ∃ text,
    compare expected path value true =
      if value.deepEqual expected then .ok (.passed path)
      else if value.isWritable && expected.isWritable then .ok (.failed path text)
      else .error (.unwritable .tooManyDigits) := by
  obtain ⟨text, hmessage⟩ := differenceMessage_eq value expected
  refine ⟨text, ?_⟩
  unfold compare failing
  rw [hmessage]
  cases value.deepEqual expected with
  | true => rfl
  | false =>
    cases value.isWritable && expected.isWritable with
    | true => rfl
    | false => rfl

/-- So it gives an outcome if the values are equal or can be written. -/
theorem exists_compare_iff {expected : Value} {path : Path} {value : Value} :
    (∃ o, compare expected path value true = .ok o) ↔
      value.deepEqual expected = true ∨ (value.isWritable = true ∧ expected.isWritable = true) := by
  obtain ⟨text, hcompare⟩ := compare_eq expected path value
  rw [hcompare]
  cases value.deepEqual expected with
  | true => simp
  | false =>
    cases value.isWritable with
    | false => simp
    | true => cases expected.isWritable <;> simp

/-- Its outcome is valid if the values are equal. -/
theorem exists_valid_compare_iff {expected : Value} {path : Path} {value : Value} :
    (∃ o, compare expected path value true = .ok o ∧ o.valid = true) ↔
      value.deepEqual expected = true := by
  obtain ⟨text, hcompare⟩ := compare_eq expected path value
  rw [hcompare]
  cases value.deepEqual expected with
  | true => simp [Outcome.passed, Outcome.passedWith]
  | false => cases value.isWritable && expected.isWritable <;> simp [Outcome.failed]

/-- A comparison with what can be written always answers. -/
theorem comparison_answers {expected : Value} (h : expected.isWritable = true) :
    (comparison expected).Answers := by
  intro path value found hvalue
  cases found with
  | false => exact ⟨.keyMissing path, rfl⟩
  | true => exact exists_compare_iff.2 (.inr ⟨hvalue, h⟩)

/-- The check that nothing is there always answers. -/
theorem absent_answers : absent.Answers := by
  intro path value found hvalue
  show ∃ o, (if found then _ else _) = Except.ok o
  unfold failing Tree.write
  rw [hvalue]
  cases found with
  | true => exact ⟨_, rfl⟩
  | false => exact ⟨_, rfl⟩

end Check

namespace PathCheck

/-- A comparison passes if its path leads to a value that is the expected one. -/
theorem passes_comparison_iff {p : Path} {expected actual : Value} :
    (PathCheck.mk p (Check.comparison expected)).Passes actual ↔
      ∃ v, actual.lookup p = .ok (some v) ∧ v.deepEqual expected = true := by
  unfold Passes PathCheck.run
  cases actual.lookup p with
  | error fault => simp
  | ok found =>
    cases found with
    | none =>
      refine iff_of_false ?_ (by simp)
      rintro ⟨o, ho, hvalid⟩
      obtain rfl := Except.ok.inj ho
      exact absurd hvalid Bool.false_ne_true
    | some v =>
      refine Check.exists_valid_compare_iff.trans ?_
      simp

end PathCheck

/-! ## The checks of a schema -/

/-- A tree can be written if its keys can and all its leaves. -/
theorem Tree.isWritable_iff {α : Type u} {t : Tree α} :
    t.isWritable = true ↔ t.hasWritableKeys = true ∧ ∀ l ∈ t.leaves, l.node.isWritable = true := by
  constructor
  · refine fun h => ⟨hasWritableKeys_of_isWritable h, fun l hl => ?_⟩
    induction t using byChildren generalizing l with
    | node t ih =>
      rcases mem_leaves_iff.1 hl with ⟨-, rfl⟩ | ⟨c, hc, l', hl', rfl⟩
      · exact h
      · exact ih c hc (all_child h hc) l' hl'
  · rintro ⟨hkeys, hleaves⟩
    induction t using byChildren with
    | node t ih =>
      by_cases hn : t.children = []
      · exact hleaves ⟨[], t⟩ (by rw [leaves_of_children_eq_nil hn]; exact List.mem_singleton.2 rfl)
      · have hbelow : ∀ c ∈ t.children, c.2.isWritable = true := fun c hc =>
          ih c hc (all_child hkeys hc) fun l hl =>
          hleaves ⟨c.1 :: l.path, l.node⟩ (mem_leaves_of_child hc hl)
        cases t with
        | list xs | tuple xs =>
          refine allItems_iff.2 fun x hx => ?_
          obtain ⟨s, hs⟩ := exists_mem_children_of_mem hx
          exact hbelow (s, x) hs
        | map es =>
          refine allEntries_iff.2 fun e he => ⟨(allEntries_iff.1 hkeys e he).1, ?_⟩
          exact hbelow _ (List.mem_map_of_mem he)
        | scalar _ | set _ | check _ => exact absurd rfl hn

namespace Schema

/-- The check that a leaf stands for, as if it could be written. -/
def leafComparison : Schema → Check
  | .check c => c
  | leaf => Check.comparison leaf.labels

/-- A leaf stands for a check if it can be written. -/
theorem leafCheck_eq (leaf : Schema) :
    leafCheck leaf =
      if leaf.isWritable then .ok (leafComparison leaf) else .error .tooManyDigits := by
  have hlabels : leaf.labels.isWritable = leaf.isWritable := Tree.all_mapChecks _ leaf
  cases leaf with
  | check c => rfl
  | scalar _ | set _ | list _ | tuple _ | map _ =>
    rw [← hlabels]
    exact Check.equals_eq _

end Schema

/-- The check that a leaf of a schema stands for, at the path of the leaf. -/
def Leaf.toCheck (l : Leaf Check) : PathCheck := ⟨l.path, Schema.leafComparison l.node⟩

namespace Schema

/-- The checks of a schema with their paths, from left to right, as if it could be written. -/
def leafChecks (s : Schema) : List PathCheck := s.leaves.map Leaf.toCheck

/-- An observer that collects the checks of leaves fails at the first leaf that cannot be written.
-/
theorem forM_collect (ls : List (Leaf Check)) (checks : List PathCheck) :
    StateT.run (forM ls collect) checks =
      if ls.all (·.node.isWritable) then .ok ((), checks ++ ls.map Leaf.toCheck)
      else .error .tooManyDigits := by
  induction ls generalizing checks with
  | nil =>
    rw [List.map_nil, List.append_nil]
    rfl
  | cons l ls ih =>
    have hcons : StateT.run (forM (l :: ls) collect) checks =
        (leafCheck l.node).bind fun c =>
          StateT.run (forM ls collect) (checks ++ [⟨l.path, c⟩]) := by
      show StateT.run (collect l >>= fun _ => forM ls collect) checks = _
      unfold collect
      cases leafCheck l.node with
      | ok c => rfl
      | error fault => rfl
    rw [hcons, leafCheck_eq, List.all_cons]
    cases l.node.isWritable with
    | true =>
      have hrest := ih (checks ++ [l.toCheck])
      rw [List.append_assoc, List.singleton_append] at hrest
      exact hrest
    | false => rfl

/-- A schema is flattened if it can be written. -/
theorem flatten_eq (s : Schema) :
    s.flatten = if s.isWritable then .ok s.leafChecks else .error .tooManyDigits := by
  have hrun : s.flatten =
      (StateT.run (forM (s.reachedFrom Path.root) collect) []).bind fun out =>
        (Tree.walked s.hasWritableKeys).bind fun _ => .ok out.2 := by
    unfold flatten
    rw [Tree.visit_eq]
    show Except.bind (Except.bind (StateT.run (forM (s.reachedFrom Path.root) collect) []) _) _ = _
    cases StateT.run (forM (s.reachedFrom Path.root) collect) [] with
    | ok out => rfl
    | error fault => rfl
  have hiff := Tree.isWritable_iff (t := s)
  rw [hrun, forM_collect, List.nil_append, Tree.walked]
  cases hkeys : s.hasWritableKeys with
  | true =>
    have hall : (s.leaves.all (·.node.isWritable)) = s.isWritable := by
      rw [Bool.eq_iff_iff, List.all_eq_true, hiff, hkeys]
      simp
    rw [Tree.reachedFrom_of_hasWritableKeys hkeys]
    show (if s.leaves.all (·.node.isWritable) then _ else _ : Except _ _).bind _ = _
    rw [hall]
    cases s.isWritable with
    | true => rfl
    | false => rfl
  | false =>
    have hwritable : s.isWritable = false := by
      rw [← Bool.not_eq_true, hiff, hkeys]
      simp
    rw [hwritable]
    split
    · rfl
    · rfl

/-- The checks into which a schema is flattened are those of its leaves. -/
theorem flatten_eq_ok_iff {s : Schema} {cs : List PathCheck} :
    s.flatten = .ok cs ↔ s.isWritable = true ∧ s.leafChecks = cs := by
  rw [flatten_eq]
  cases s.isWritable with
  | true => simp
  | false => simp

/-- If a schema can be written, it is flattened into the checks of its leaves. -/
theorem flatten_of_isWritable {s : Schema} (h : s.isWritable = true) :
    s.flatten = .ok s.leafChecks :=
  flatten_eq_ok_iff.2 ⟨h, rfl⟩

end Schema

/-! ## What a container compiles to -/

/-- Whether nodes of the kind are maps or sequences, with contents or without. -/
def Kind.isContainer : Kind → Bool
  | .map | .emptyMap | .sequence | .emptySequence => true
  | .scalar | .predicate => false

namespace Schema

variable {s : Schema} {v : Validator}

/-- The validator of the checks of a map or a sequence: a strict one for a sequence. -/
def ofChecks (s : Schema) (cs : List PathCheck) : Validator :=
  if s.kind.isSequence then .strict (.checks cs) else .checks cs

/-- A map or a sequence compiles to a validator of its checks. -/
theorem compile_eq (hs : s.kind.isContainer = true) :
    s.compile = (s.flatten.map s.ofChecks).mapError .unwritable := by
  cases s with
  | map es =>
    cases es with
    | nil => rfl
    | cons _ _ => rfl
  | list xs | tuple xs =>
    cases xs with
    | nil => rfl
    | cons _ _ => rfl
  | scalar _ | set _ | check _ => exact absurd hs Bool.false_ne_true

/-- It compiles if it can be flattened. -/
theorem compile_eq_ok_iff (hs : s.kind.isContainer = true) :
    s.compile = .ok v ↔ ∃ cs, s.flatten = .ok cs ∧ s.ofChecks cs = v := by
  rw [compile_eq hs]
  cases s.flatten with
  | ok cs => simp [Except.map, Except.mapError]
  | error fault => simp [Except.map, Except.mapError]

/-- A map is a container. -/
theorem isContainer_map (es : List (Key × Schema)) :
    (Tree.map es : Schema).kind.isContainer = true := by
  cases es with
  | nil => rfl
  | cons _ _ => rfl

/-- The validator of the checks of a map is lax. -/
theorem ofChecks_map (es : List (Key × Schema)) (cs : List PathCheck) :
    ofChecks (.map es) cs = .checks cs := by
  cases es with
  | nil => rfl
  | cons _ _ => rfl

/-- A map compiles to a lax validator of its checks. -/
theorem exists_flatten_of_compile_map {es : List (Key × Schema)} (h : compile (.map es) = .ok v) :
    ∃ cs, flatten (.map es) = .ok cs ∧ .checks cs = v := by
  obtain ⟨cs, hcs, hv⟩ := (compile_eq_ok_iff (isContainer_map es)).1 h
  exact ⟨cs, hcs, (ofChecks_map es cs).symm.trans hv⟩

/-- If it can be written, it compiles to a validator of the checks of its leaves. -/
theorem compile_of_isWritable (hs : s.kind.isContainer = true) (h : s.isWritable = true) :
    s.compile = .ok (s.ofChecks s.leafChecks) :=
  (compile_eq_ok_iff hs).2 ⟨_, flatten_of_isWritable h, rfl⟩

/-- If it cannot be written, it does not compile. -/
theorem compile_of_not_isWritable (hs : s.kind.isContainer = true) (h : s.isWritable = false) :
    s.compile = .error (.unwritable .tooManyDigits) := by
  rw [compile_eq hs, flatten_eq, h]
  rfl

/-- A schema has at least one check. -/
theorem ne_nil_of_flatten {cs : List PathCheck} (h : s.flatten = .ok cs) : cs ≠ [] := by
  obtain ⟨-, rfl⟩ := flatten_eq_ok_iff.1 h
  obtain ⟨l, hl⟩ := s.exists_mem_leaves
  exact List.ne_nil_of_mem (List.mem_map_of_mem hl)

end Schema

end TreeMatch
