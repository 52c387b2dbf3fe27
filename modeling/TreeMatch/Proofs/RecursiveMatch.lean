import TreeMatch.Check.Stock
import TreeMatch.Proofs.Compiling

/-!
# Flat checks match as one descent does

A compiled schema is a flat list of checks, and each of them looks its path up from the root of the
value. `Schema.verdicts` is the match one would write without compiling: it goes down the schema and
the value together and hands every child what the value has at its step, or nothing where the value
ends or is a container of another kind. The main statement is that both give the same outcomes at
the same paths in the same order, or stop at the same fault (`evaluate_flatten_eq_verdicts`). It
rests on `runAll_leavesFrom`, an induction on the schema below a path: what the path leads to from
the root is what the descent has in hand there, since a lookup may be continued by one step
(`select_found`).
-/

namespace TreeMatch

/-- What stands at a step from a value, if the value exists: the child and that it exists, or the
absent value and that nothing does. A key that has to be written on the way but is not is a fault.
-/
def Tree.select (value : Value) (found : Bool) (s : Step) : Except WriteFault (Value × Bool) :=
  match found with
  | false => .ok (.null, false)
  | true =>
    match value.child s with
    | .ok (some child) => .ok (child, true)
    | .ok none => .ok (.null, false)
    | .error fault => .error fault

namespace Schema

mutual

/-- The outcomes of a schema at `path`, where the value is `value` if it is found at all. A leaf is
checked; below a map or a sequence the children of the schema are matched with those of the value.
-/
def verdictsFrom (path : Path) (value : Value) (found : Bool) :
    Schema → Except CheckFault (List (Path × Outcome))
  | .check c => (c.run path value found).map fun o => [(path, o)]
  | .map (e :: es) => entryVerdicts path value found (e :: es)
  | .list (x :: xs) | .tuple (x :: xs) => itemVerdicts path value found 0 (x :: xs)
  | leaf => (Check.compare leaf.labels path value found).map fun o => [(path, o)]
termination_by structural s => s

/-- The outcomes of the elements of a sequence, the first of them at index `i`. -/
def itemVerdicts (path : Path) (value : Value) (found : Bool) (i : Nat) :
    List Schema → Except CheckFault (List (Path × Outcome))
  | [] => .ok []
  | x :: xs => do
    let here ← (value.select found (.index i)).mapError .unwritable
    let os ← verdictsFrom (path.extend (.index i)) here.1 here.2 x
    let rest ← itemVerdicts path value found (i + 1) xs
    pure (os ++ rest)
termination_by structural xs => xs

/-- The outcomes of the entries of a map. -/
def entryVerdicts (path : Path) (value : Value) (found : Bool) :
    List (Key × Schema) → Except CheckFault (List (Path × Outcome))
  | [] => .ok []
  | (k, x) :: es => do
    let here ← (value.select found (.key k.text)).mapError .unwritable
    let os ← verdictsFrom (path.extend (.key k.text)) here.1 here.2 x
    let rest ← entryVerdicts path value found es
    pure (os ++ rest)
termination_by structural es => es

end

/-- The outcomes of a schema on a value, from left to right, or the first fault. -/
def verdicts (s : Schema) (actual : Value) : Except CheckFault (List (Path × Outcome)) :=
  verdictsFrom Path.root actual true s

end Schema

/-! ## Continuing a lookup -/

namespace Tree

variable {actual : Value} {p : Path}

/-- A path that can be followed can be followed by a step if this can be tried where the path leads,
if it leads anywhere. -/
theorem canFollow_extend (h : actual.canFollow p = true) (s : Step) :
    actual.canFollow (p.extend s) = (actual.lookup? p).all (·.canTry s) := by
  have hstep : ∀ x : Value, x.canFollow [s] = x.canTry s := fun x => by
    rw [canFollow]
    cases x.child? s with
    | none => exact Bool.and_true _
    | some y => exact Bool.and_true _
  rw [Path.extend, canFollow_append, h, Bool.true_and]
  cases actual.lookup? p with
  | none => rfl
  | some x => exact hstep x

/-- A lookup is continued by a step of the descent. -/
theorem select_found (h : actual.canFollow p = true) (s : Step) :
    (actual.found p).1.select (actual.found p).2 s =
      if actual.canFollow (p.extend s) then .ok (actual.found (p.extend s))
      else .error .tooManyDigits := by
  have hlookup : actual.lookup? (p.extend s) = (actual.lookup? p).bind (·.child? s) := by
    rw [Path.extend, lookup?_append]
    cases actual.lookup? p with
    | none => rfl
    | some x =>
      show (x.child? s).bind (·.lookup? []) = x.child? s
      cases x.child? s with
      | none => rfl
      | some y => rfl
  rw [canFollow_extend h, found, found, hlookup]
  cases actual.lookup? p with
  | none => rfl
  | some x =>
    show x.select true s = if x.canTry s then _ else _
    rw [select, child_eq]
    cases x.canTry s with
    | false => rfl
    | true =>
      rw [Option.bind_some]
      cases x.child? s with
      | none => rfl
      | some y => rfl

end Tree

namespace PathCheck

/-- Two lists of checks run one after the other. -/
theorem runAll_append (actual : Value) (cs ds : List PathCheck) :
    runAll actual (cs ++ ds) = (do
      let os ← runAll actual cs
      let rest ← runAll actual ds
      pure (os ++ rest)) := by
  induction cs with
  | nil =>
    show runAll actual ds = (runAll actual ds >>= fun rest => pure ([] ++ rest))
    cases runAll actual ds with
    | error fault => rfl
    | ok rest => rfl
  | cons c cs ih =>
    rw [List.cons_append, runAll, runAll, ih]
    cases c.run actual with
    | error fault => rfl
    | ok o =>
      cases runAll actual cs with
      | error fault => rfl
      | ok os =>
        cases runAll actual ds with
        | error fault => rfl
        | ok rest => rfl

/-- A single check runs alone. -/
theorem runAll_singleton (actual : Value) (c : PathCheck) :
    runAll actual [c] = (c.run actual).map fun o => [(c.path, o)] := by
  unfold runAll
  cases c.run actual with
  | error fault => rfl
  | ok o => rfl

end PathCheck

namespace Schema

/-- A leaf of the schema gives the outcome of its check on what the path leads to. -/
theorem runAll_leaf {actual : Value} {path : Path} (h : actual.canFollow path = true)
    (leaf : Schema) :
    PathCheck.runAll actual [Leaf.toCheck ⟨path, leaf⟩] =
      ((leafComparison leaf).run path (actual.found path).1 (actual.found path).2).map
        fun o => [(path, o)] := by
  have hpath : actual.canFollow (Leaf.toCheck ⟨path, leaf⟩).path = true := h
  rw [PathCheck.runAll_singleton, PathCheck.run_eq, if_pos hpath]
  rfl

/-- Where a path cannot be followed, no check below it can be run. -/
theorem runAll_of_not_canFollow {actual : Value} {path : Path}
    (h : actual.canFollow path = false) (s : Schema) :
    PathCheck.runAll actual ((s.leavesFrom path).map Leaf.toCheck) =
      .error (.unwritable .tooManyDigits) := by
  obtain ⟨l, ls, hleaves⟩ := List.exists_cons_of_ne_nil
    (fun hn => List.ne_nil_of_mem s.exists_mem_leaves.choose_spec hn)
  have hfirst : actual.canFollow (path ++ l.path) = false := by
    rw [Tree.canFollow_append, h, Bool.false_and]
  have hrun : (Leaf.toCheck (l.below path)).run actual = .error (.unwritable .tooManyDigits) := by
    rw [PathCheck.run_eq]
    exact if_neg (by rw [Leaf.toCheck, Leaf.below, hfirst]; exact Bool.false_ne_true)
  rw [Tree.leavesFrom_eq_map, hleaves, List.map_cons, List.map_cons, PathCheck.runAll, hrun]

/-- The checks below a step give what the descent gives from the child that it selects. -/
theorem runAll_below {actual : Value} {path : Path} (h : actual.canFollow path = true)
    {step : Step} {x : Schema}
    (hbelow : actual.canFollow (path.extend step) = true →
      PathCheck.runAll actual ((x.leavesFrom (path.extend step)).map Leaf.toCheck) =
        verdictsFrom (path.extend step) (actual.found (path.extend step)).1
          (actual.found (path.extend step)).2 x) :
    PathCheck.runAll actual ((x.leavesFrom (path.extend step)).map Leaf.toCheck) =
      (do
        let here ← ((actual.found path).1.select (actual.found path).2 step).mapError .unwritable
        verdictsFrom (path.extend step) here.1 here.2 x) := by
  rw [Tree.select_found h]
  cases hstep : actual.canFollow (path.extend step) with
  | true => exact hbelow hstep
  | false => exact runAll_of_not_canFollow hstep x

mutual

/-- The checks of the leaves below a path give what the descent gives from there on. -/
theorem runAll_leavesFrom {actual : Value} {path : Path} (h : actual.canFollow path = true)
    (s : Schema) :
    PathCheck.runAll actual ((s.leavesFrom path).map Leaf.toCheck) =
      verdictsFrom path (actual.found path).1 (actual.found path).2 s := by
  cases s with
  | list xs | tuple xs =>
    cases xs with
    | nil => exact runAll_leaf h _
    | cons x xs => exact runAll_itemLeaves h 0 (x :: xs)
  | map es =>
    cases es with
    | nil => exact runAll_leaf h _
    | cons e es => exact runAll_entryLeaves h (e :: es)
  | scalar _ | set _ | check _ => exact runAll_leaf h _

/-- The same for the elements of a sequence. -/
theorem runAll_itemLeaves {actual : Value} {path : Path} (h : actual.canFollow path = true)
    (i : Nat) (xs : List Schema) :
    PathCheck.runAll actual ((Tree.itemLeaves path i xs).map Leaf.toCheck) =
      itemVerdicts path (actual.found path).1 (actual.found path).2 i xs := by
  cases xs with
  | nil => rfl
  | cons x xs =>
    have hhere := runAll_below h fun hstep : actual.canFollow (path.extend (.index i)) = true =>
      runAll_leavesFrom hstep x
    have hrest := runAll_itemLeaves h (i + 1) xs
    rw [Tree.itemLeaves, List.map_append, PathCheck.runAll_append, hhere, hrest, itemVerdicts]
    exact bind_assoc _ _ _

/-- The same for the entries of a map. -/
theorem runAll_entryLeaves {actual : Value} {path : Path} (h : actual.canFollow path = true)
    (es : List (Key × Schema)) :
    PathCheck.runAll actual ((Tree.entryLeaves path es).map Leaf.toCheck) =
      entryVerdicts path (actual.found path).1 (actual.found path).2 es := by
  cases es with
  | nil => rfl
  | cons e es =>
    obtain ⟨k, x⟩ := e
    have hhere := runAll_below h fun hstep : actual.canFollow (path.extend (.key k.text)) = true =>
      runAll_leavesFrom hstep x
    have hrest := runAll_entryLeaves h es
    rw [Tree.entryLeaves, List.map_append, PathCheck.runAll_append, hhere, hrest, entryVerdicts]
    exact bind_assoc _ _ _

end

/-- A run of the flat checks of a schema gives its verdicts, or stops with the same fault. -/
theorem runAll_leafChecks (s : Schema) (actual : Value) :
    PathCheck.runAll actual s.leafChecks = s.verdicts actual := by
  have hroot : actual.canFollow Path.root = true := rfl
  exact runAll_leavesFrom hroot s

/-- The checks that the leaves of a schema stand for always answer, if the checks in it do and it
can be written. -/
theorem leafChecks_answer {s : Schema} (hs : s.isWritable = true)
    (h : ∀ l ∈ s.leaves, ∀ c, l.node = .check c → c.Answers) :
    ∀ c ∈ s.leafChecks, c.check.Answers := by
  refine List.forall_mem_map.2 fun l hl => ?_
  have hl' := (Tree.isWritable_iff.1 hs).2 l hl
  have hlabels : Tree.isWritable (Tree.labels l.node) = true :=
    (Tree.all_mapChecks _ l.node).trans hl'
  show (leafComparison l.node).Answers
  cases hnode : l.node with
  | check c => exact h l hl c hnode
  | scalar _ | set _ | list _ | tuple _ | map _ =>
    rw [hnode] at hlabels
    exact Check.comparison_answers hlabels

end Schema

/-- A schema is flattened exactly if it can be written. The report on its flat checks then records
the outcomes that the descent gives, in order, or stops with the same fault. If the paths of the
leaves have different texts, the report has one entry for every leaf, in the order of the walk, with
the outcome that the descent gives there, and it succeeds if all these outcomes are valid. There is
no fault if the value can be written and the checks in the schema answer. -/
theorem evaluate_flatten_eq_verdicts (s : Schema) (actual : Value) :
    ((∃ cs, s.flatten = .ok cs) ↔ s.isWritable = true) ∧
    ∀ cs, s.flatten = .ok cs →
      (Validator.checks cs).evaluate actual =
        (s.verdicts actual).map Report.empty.recordAll ∧
      ((s.leaves.map (·.path.render)).Nodup →
        ∀ os r, s.verdicts actual = .ok os → (Validator.checks cs).evaluate actual = .ok r →
          os.map (·.1) = s.leaves.map (·.path) ∧
          r.entries = os.map (fun e => (e.1.render, { e.2 with path := e.1 })) ∧
          (r.succeeded = true ↔ ∀ e ∈ os, e.2.valid = true)) ∧
      (actual.isWritable = true → (∀ l ∈ s.leaves, ∀ c, l.node = .check c → c.Answers) →
        ∃ os r, s.verdicts actual = .ok os ∧ (Validator.checks cs).evaluate actual = .ok r) := by
  refine ⟨⟨fun ⟨cs, hcs⟩ => (Schema.flatten_eq_ok_iff.1 hcs).1,
    fun h => ⟨_, Schema.flatten_of_isWritable h⟩⟩, fun cs hcs => ?_⟩
  obtain ⟨hwritable, rfl⟩ := Schema.flatten_eq_ok_iff.1 hcs
  have hevaluate : (Validator.checks s.leafChecks).evaluate actual =
      (s.verdicts actual).map Report.empty.recordAll := by
    rw [Validator.evaluate, Report.addChecks_eq, Schema.runAll_leafChecks]
  refine ⟨hevaluate, fun hd os r hos hr => ?_, fun hactual hc => ?_⟩
  · rw [hevaluate, hos] at hr
    obtain rfl := Except.ok.inj hr
    rw [← Schema.runAll_leafChecks] at hos
    have hgives := PathCheck.forall₂_of_runAll hos
    have hpaths : os.map (·.1) = s.leaves.map (·.path) := by
      rw [PathCheck.map_path_of_forall₂ hgives, Schema.leafChecks, List.map_map]
      rfl
    have hrender : (os.map (·.1.render)).Nodup := by
      have hsame := congrArg (List.map Path.render) hpaths
      rw [List.map_map, List.map_map] at hsame
      exact hsame ▸ hd
    have hentries : (Report.empty.recordAll os).entries =
        os.map (fun e => (e.1.render, { e.2 with path := e.1 })) :=
      Report.entries_recordAll_of_nodup (fun _ _ => List.not_mem_nil) hrender
    refine ⟨hpaths, hentries, ?_⟩
    rw [Report.succeeded_iff, hentries]
    exact List.forall_mem_map
  · obtain ⟨os, hos⟩ := PathCheck.exists_runAll_of_runs fun c hcs =>
      PathCheck.exists_run_of_answers (Schema.leafChecks_answer hwritable hc c hcs) hactual
    rw [Schema.runAll_leafChecks] at hos
    exact ⟨os, _, hos, hevaluate.trans (congrArg (Except.map _) hos)⟩

/-- A schema with a check for presence, a key that is a number and one that must be absent. -/
def mixedSchema : Schema :=
  .map [(.scalar (.str "tags"), .list [.int 1, .check (.named "present" Checker.present)]),
    (.scalar (.int 200), .map [(.scalar (.str "b"), .check .absent)])]

/-- A value whose sequence is too short, and which has no map under the number. -/
def shortValue : Value :=
  .map [(.scalar (.int 200), .int 5), (.scalar (.str "tags"), .tuple [.int 1])]

/-- The schema is matched with the value in one descent as by its flat checks: the second element is
missing, and nothing is found below a number. -/
theorem evaluate_mixedSchema : ∃ cs os r, mixedSchema.flatten = .ok cs ∧
    mixedSchema.verdicts shortValue = .ok os ∧
    (Validator.checks cs).evaluate shortValue = .ok r ∧
    os.map (fun e => (e.1.render, e.2.valid)) =
      [("tags.[0]", true), ("tags.[1]", false), ("200.b", true)] ∧
    r.entries = os.map (fun e => (e.1.render, { e.2 with path := e.1 })) := by
  have hd : (mixedSchema.leaves.map (·.path.render)).Nodup := by decide +kernel
  have hc : ∀ l ∈ mixedSchema.leaves, ∀ c, l.node = .check c → c.Answers := by
    intro l hl c hlc
    have hleaves : mixedSchema.leaves.map (·.node) =
        [.int 1, .check (.named "present" Checker.present), .check .absent] := rfl
    have hnode : .check c ∈ mixedSchema.leaves.map (·.node) := hlc ▸ List.mem_map_of_mem hl
    rw [hleaves] at hnode
    simp only [Tree.int, List.mem_cons, Tree.check.injEq, List.not_mem_nil, or_false,
      reduceCtorEq, false_or] at hnode
    rcases hnode with rfl | rfl
    · exact fun _ _ _ _ => ⟨_, rfl⟩
    · exact Check.absent_answers
  obtain ⟨hflatten, hlaw⟩ := evaluate_flatten_eq_verdicts mixedSchema shortValue
  obtain ⟨cs, hcs⟩ := hflatten.2 (by decide +kernel)
  obtain ⟨-, hentries, hends⟩ := hlaw cs hcs
  obtain ⟨os, r, hos, hr⟩ := hends (by decide +kernel) hc
  have hvalid : (mixedSchema.verdicts shortValue).map
      (fun os => os.map fun e => (e.1.render, e.2.valid)) =
        .ok [("tags.[0]", true), ("tags.[1]", false), ("200.b", true)] := by
    decide +kernel
  rw [hos] at hvalid
  exact ⟨cs, os, r, hcs, hos, hr, Except.ok.inj hvalid, (hentries hd os r hos hr).2.1⟩

/-- A schema with one literal leaf. -/
def literalSchema : Schema := .map [(.scalar (.str "z"), .int 1)]

/-- There is no report on a value with a key that cannot be written, although the schema has no
checks that could give up: the search for the key of the schema comes to it. -/
theorem literalSchema_misses_longKeyTree : ∃ cs, literalSchema.flatten = .ok cs ∧
    (literalSchema.leaves.map (·.path.render)).Nodup ∧
    (∀ l ∈ literalSchema.leaves, ∀ c, l.node ≠ .check c) ∧
    (Validator.checks cs).evaluate Tree.longKeyTree = .error (.unwritable .tooManyDigits) := by
  refine ⟨_, Schema.flatten_of_isWritable (by decide +kernel), by decide +kernel, ?_,
    by decide +kernel⟩
  rintro l hl c hnode
  have hleaves : literalSchema.leaves.map (·.node) = [.int 1] := rfl
  have hmem : .check c ∈ literalSchema.leaves.map (·.node) := hnode ▸ List.mem_map_of_mem hl
  rw [hleaves, List.mem_singleton] at hmem
  exact nomatch hmem

end TreeMatch
