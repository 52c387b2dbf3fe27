import TreeMatch.Proofs.Equivalence
import TreeMatch.Proofs.JointCoverage

/-!
# The order of keys does not matter

A strict report follows the order of entries everywhere: checks are run and recorded in the order of
the schema, surplus leaves in that of the value, and a name is looked up key by key. What it says is
the same for every order. A comparison with a leaf of the schema never looks into a container
(`Rearranges.deepEqual_leaf`), so the checks of a rearranged schema give the same verdicts on a
rearranged value (`Schema.perm_verdicts_checks`); and as coverage depends only on which texts there
are, closing adds the same ones (`Report.perm_verdicts_close`). Where something is not written,
which check comes to it first does depend on the order, but not whether there is a report
(`Schema.answers_iff_of_rearranges`). The main statement is `strict_verdicts_perm`.
-/

namespace TreeMatch

/-! ## Comparison with a leaf -/

namespace Tree

variable {α : Type u} {v v' n n' : Tree α}

/-- A container without contents is equal to what has its shape. -/
theorem deepEqual_of_isContainer (hn : n.children = []) (hk : n.kind.isContainer = true) :
    v.deepEqual n = decide (v.kind = n.kind) := by
  cases n with
  | list xs | tuple xs | map xs =>
    obtain rfl : xs = [] := by simpa [children] using hn
    cases v with
    | list ys | tuple ys | map ys =>
      cases ys with
      | nil => rfl
      | cons y ys => rfl
    | scalar _ | set _ | check _ => rfl
  | scalar _ | set _ | check _ => exact absurd hk Bool.false_ne_true

/-- A container is not equal to anything else. -/
theorem deepEqual_eq_false_of_isContainer (hv : v.kind.isContainer = true)
    (hn : n.kind.isContainer = false) : v.deepEqual n = false := by
  cases v with
  | list xs | tuple xs | map xs =>
    cases n with
    | scalar _ | set _ | check _ => rfl
    | list ys | tuple ys | map ys => cases ys <;> exact absurd hn.symm Bool.false_ne_true
  | scalar _ | set _ | check _ => exact absurd hv Bool.false_ne_true

/-- What is no container is rearranged by itself only. -/
theorem Rearranges.eq_of_not_isContainer (h : v'.Rearranges v)
    (hv : v.kind.isContainer = false) : v' = v := by
  cases h with
  | scalar _ | set _ | check _ => rfl
  | sequence _ hu _ _ =>
    rw [kind_of_items? hu] at hv
    split at hv <;> exact absurd hv.symm Bool.false_ne_true
  | map _ _ _ _ =>
    rw [kind] at hv
    split at hv <;> exact absurd hv.symm Bool.false_ne_true

/-- Whether a value is equal to a leaf does not change when both are rearranged. -/
theorem Rearranges.deepEqual_leaf (hv : v'.Rearranges v) (hn : n'.Rearranges n)
    (hleaf : n.children = []) : v'.deepEqual n' = v.deepEqual n := by
  by_cases hnk : n.kind.isContainer = true
  · rw [deepEqual_of_isContainer hleaf hnk,
      deepEqual_of_isContainer (hn.children_eq_nil_iff.2 hleaf) (hn.kind_eq ▸ hnk), hv.kind_eq,
      hn.kind_eq]
  · -- The leaf is as before, and so is the value, unless it is a container and differs anyway.
    rw [Bool.not_eq_true] at hnk
    rw [hn.eq_of_not_isContainer hnk]
    by_cases hvk : v.kind.isContainer = true
    · rw [deepEqual_eq_false_of_isContainer hvk hnk,
        deepEqual_eq_false_of_isContainer (hv.kind_eq ▸ hvk) hnk]
    · rw [hv.eq_of_not_isContainer (Bool.eq_false_iff.2 hvk)]

end Tree

/-! ## Verdicts -/

namespace Report

/-- The texts of a report, each with whether its outcome is valid. -/
def verdicts (r : Report) : List (String × Bool) := r.entries.map fun e => (e.1, e.2.valid)

/-- The texts of a report are those of its verdicts. -/
theorem map_fst_verdicts (r : Report) : r.verdicts.map (·.1) = r.paths := by
  rw [verdicts, paths, List.map_map]
  rfl

/-- Where the texts of checks differ, each check has a verdict: whether it passes. -/
theorem verdicts_checks {actual : Value} {cs : List PathCheck} {r : Report}
    (h : (Validator.checks cs).evaluate actual = .ok r) (hd : (cs.map (·.path.render)).Nodup) :
    r.verdicts = cs.map fun c => (c.path.render, decide (c.Passes actual)) := by
  obtain ⟨os, hrun, rfl⟩ := exists_run_of_evaluate h
  have hentries : (empty.recordAll os).entries =
      os.map fun e => (e.1.render, { e.2 with path := e.1 }) := by
    rw [← PathCheck.map_render_of_forall₂ hrun] at hd
    exact entries_recordAll_of_nodup (fun _ _ => List.not_mem_nil) hd
  rw [verdicts, hentries, List.map_map]
  clear hentries hd h
  induction hrun with
  | nil => rfl
  | @cons c e _ _ hgives _ ih =>
    have hvalid : decide (c.Passes actual) = e.2.valid := by
      rw [Bool.eq_iff_iff, decide_eq_true_iff, hgives.passes_iff]
    rw [List.map_cons, List.map_cons, ih, hvalid, ← hgives.1]
    rfl

/-- Closing a report adds a negative verdict for every text of an uncovered leaf. -/
theorem verdicts_close (r : Report) (actual : Value) :
    (r.close actual).verdicts =
      r.verdicts ++ ((r.uncovered actual).map Path.render).eraseDups.map fun t => (t, false) := by
  have hfails : ∀ e ∈ (r.surplus actual).entries, e.2.valid = false := by
    intro e he
    obtain ⟨p, -, rfl⟩ := mem_entries_surplus.1 he
    rfl
  rw [close_eq_append, verdicts, List.map_append, ← paths_surplus, paths, List.map_map]
  exact congrArg _ (List.map_congr_left fun e he => congrArg (Prod.mk e.1) (hfails e he))

variable {r r' : Report} {actual actual' : Value}

/-- Reports on the same texts leave the same paths of a value and its rearrangement uncovered. -/
theorem perm_uncovered (hpaths : ∀ t, t ∈ r'.paths ↔ t ∈ r.paths)
    (h : actual'.Rearranges actual) : (r'.uncovered actual').Perm (r.uncovered actual) := by
  rw [uncovered, uncovered, CoveredPaths.ofList_eq_of_mem_iff hpaths]
  exact (h.perm_map_leaves fun _ _ _ _ hpath _ => hpath).filter _

/-- Reports with the same verdicts have the same ones after they are closed over a value and its
rearrangement. -/
theorem perm_verdicts_close (hverdicts : r'.verdicts.Perm r.verdicts)
    (h : actual'.Rearranges actual) :
    (r'.close actual').verdicts.Perm (r.close actual).verdicts := by
  have hpaths : ∀ t, t ∈ r'.paths ↔ t ∈ r.paths := by
    intro t
    rw [← map_fst_verdicts, ← map_fst_verdicts]
    exact (hverdicts.map _).mem_iff
  have htexts := (perm_uncovered hpaths h).map Path.render
  rw [verdicts_close, verdicts_close]
  refine hverdicts.append (List.Perm.map _ ?_)
  -- Each text is added once, so it is enough that the same ones are added.
  refine (List.perm_ext_iff_of_nodup (nodup_eraseDups _) (nodup_eraseDups _)).2 fun t => ?_
  rw [List.mem_eraseDups, List.mem_eraseDups, htexts.mem_iff]

end Report

namespace Schema

variable {s s' : PlainTree} {actual actual' : Value}

/-- There is a strict report: all keys of the value can be written, and no check of the schema gives
up. -/
def Answers (s : PlainTree) (actual : Value) : Prop :=
  actual.hasWritableKeys = true ∧
    ∀ c ∈ leafChecks (Tree.ofPlain s), ∃ o, c.run actual = .ok o

/-- A comparison gives up only because something is not written. -/
theorem run_comparison_fault {p : Path} {expected : Value} {fault : CheckFault}
    (h : (PathCheck.mk p (Check.comparison expected)).run actual = .error fault) :
    fault = .unwritable .tooManyDigits := by
  rw [PathCheck.run_eq, Tree.found] at h
  split at h
  · cases hv : actual.lookup? p with
    | none =>
      rw [hv] at h
      cases h
    | some v =>
      obtain ⟨text, hcompare⟩ := Check.compare_eq expected p v
      rw [hv] at h
      have hfault := hcompare.symm.trans h
      split at hfault
      · cases hfault
      · split at hfault
        · cases hfault
        · exact (Except.error.inj hfault).symm
  · exact (Except.error.inj h).symm

/-- The checks of a schema without checks fail only because something is not written. -/
theorem fault_of_evaluate {fault : CheckFault}
    (h : (Validator.checks (leafChecks (Tree.ofPlain s))).evaluate actual = .error fault) :
    fault = .unwritable .tooManyDigits := by
  rw [Validator.evaluate, Report.addChecks_eq] at h
  cases hrun : PathCheck.runAll actual (leafChecks (Tree.ofPlain s)) with
  | ok os =>
    rw [hrun] at h
    cases h
  | error fault' =>
    rw [hrun] at h
    obtain rfl := Except.error.inj h
    obtain ⟨c, hc, hfault⟩ := PathCheck.exists_run_of_runAll_eq_error hrun
    rw [leafChecks_ofPlain] at hc
    obtain ⟨l, -, rfl⟩ := List.mem_map.1 hc
    exact run_comparison_fault hfault

/-- A strict validator of a map or a sequence without checks closes the report on its leaves, if
there is one, and fails otherwise because something is not written. -/
theorem exists_strict_eq_close (hs : s.kind.isContainer = true) (hwritable : s.isWritable = true)
    (actual : Value) :
    ∃ v, compile (Tree.ofPlain s) = .ok v ∧
      (Answers s actual → ∃ lax,
        (Validator.checks (leafChecks (Tree.ofPlain s))).evaluate actual = .ok lax ∧
        (Validator.strict v).evaluate actual = .ok (lax.close actual)) ∧
      (¬ Answers s actual →
        (Validator.strict v).evaluate actual = .error (.unwritable .tooManyDigits)) := by
  have hcompile := compile_ofPlain hs hwritable
  refine ⟨_, hcompile, fun ⟨hkeys, hruns⟩ => ?_, fun hnot => ?_⟩
  · obtain ⟨lax, hlax⟩ := Report.exists_evaluate_checks hruns
    have hstrict := Validator.evaluate_strict hkeys hlax
    refine ⟨lax, hlax, ?_⟩
    unfold ofChecks
    split
    · -- The validator is strict in itself, but nothing is left for the second pass.
      have htwice := Validator.evaluate_strict hkeys hstrict
      rwa [Report.close_of_uncovered_eq_nil (lax.uncovered_close actual)] at htwice
    · exact hstrict
  · cases hresult : (Validator.strict (ofChecks (Tree.ofPlain s)
        (leafChecks (Tree.ofPlain s)))).evaluate actual with
    | ok r =>
      obtain ⟨cs, lax, hcs, hkeys, hlax, -⟩ := exists_report_of_strict
        ((isContainer_ofPlain (α := Check) s).trans hs) hcompile hresult
      obtain ⟨-, rfl⟩ := flatten_eq_ok_iff.1 hcs
      exact absurd ⟨hkeys, fun c hc => Report.exists_run_of_mem hlax hc⟩ hnot
    | error fault =>
      refine congrArg Except.error ?_
      rcases Validator.fault_of_strict hresult with hinner | hfault
      · unfold ofChecks at hinner
        split at hinner
        · exact (Validator.fault_of_strict hinner).elim fault_of_evaluate id
        · exact fault_of_evaluate hinner
      · exact hfault

/-- The texts of the paths of the checks of a schema without checks are those of its leaves. -/
theorem map_render_leafChecks_ofPlain (s : PlainTree) :
    (leafChecks (Tree.ofPlain s)).map (·.path.render) = s.leaves.map (·.path.render) := by
  rw [leafChecks_ofPlain, Tree.ofPlain, Tree.leaves_mapChecks, List.map_map, List.map_map]
  rfl

/-- Whether the check of a leaf passes does not change when the leaf and the value are rearranged.
-/
theorem passes_comparison_iff_of_rearranges {p : Path} {n n' : Value}
    (hkeys : actual.hasWritableKeys = true) (hactual : actual.DistinctNames)
    (h : actual'.Rearranges actual) (hn : n'.Rearranges n) (hleaf : n.children = []) :
    (PathCheck.mk p (Check.comparison n')).Passes actual' ↔
      (PathCheck.mk p (Check.comparison n)).Passes actual := by
  rw [PathCheck.passes_comparison_iff, PathCheck.passes_comparison_iff,
    Tree.lookup_of_hasWritableKeys hkeys, Tree.lookup_of_hasWritableKeys (h.all_eq.trans hkeys)]
  have hfound := h.rel_lookup? hactual p
  generalize actual'.lookup? p = x at hfound
  generalize actual.lookup? p = y at hfound
  cases hfound with
  | none => simp
  | some hv => simp [hv.deepEqual_leaf hn hleaf]

/-- So does not whether it gives an outcome. -/
theorem run_comparison_iff_of_rearranges {p : Path} {n n' : Value}
    (hkeys : actual.hasWritableKeys = true) (hactual : actual.DistinctNames)
    (h : actual'.Rearranges actual) (hn : n'.Rearranges n) (hleaf : n.children = []) :
    (∃ o, (PathCheck.mk p (Check.comparison n')).run actual' = .ok o) ↔
      ∃ o, (PathCheck.mk p (Check.comparison n)).run actual = .ok o := by
  unfold PathCheck.run
  rw [Tree.lookup_of_hasWritableKeys hkeys, Tree.lookup_of_hasWritableKeys (h.all_eq.trans hkeys)]
  have hfound := h.rel_lookup? hactual p
  generalize actual'.lookup? p = x at hfound
  generalize actual.lookup? p = y at hfound
  cases hfound with
  | none => exact iff_of_true ⟨_, rfl⟩ ⟨_, rfl⟩
  | @some v' v hv =>
    have hvalue : v'.isWritable = v.isWritable := hv.all_eq
    have hexpected : n'.isWritable = n.isWritable := hn.all_eq
    refine Check.exists_compare_iff.trans (Iff.trans ?_ Check.exists_compare_iff.symm)
    rw [hv.deepEqual_leaf hn hleaf, hvalue, hexpected]

/-- There is a report on a rearranged value if there is one on the value. -/
theorem answers_iff_of_rearranges (hactual : actual.DistinctNames) (hs : s'.Rearranges s)
    (h : actual'.Rearranges actual) : Answers s' actual' ↔ Answers s actual := by
  have hsame : actual'.hasWritableKeys = actual.hasWritableKeys := h.all_eq
  unfold Answers
  rw [hsame]
  refine and_congr_right fun hkeys => ?_
  have hexpected : (Tree.ofPlain s' : Value).Rearranges (Tree.ofPlain s) := hs.mapChecks _
  rw [leafChecks_ofPlain, leafChecks_ofPlain]
  -- A leaf of one schema and its counterpart in the other one answer alike.
  have hperm := hexpected.perm_map_leaves
    (f := fun l => ∃ o, (PathCheck.mk l.path (Check.comparison l.node)).run actual' = .ok o)
    (g := fun m => ∃ o, (PathCheck.mk m.path (Check.comparison m.node)).run actual = .ok o)
    fun l _ m hm hpath hnode => by
      have hleaf := Tree.children_node_of_mem_leaves hm
      rw [hpath]
      exact propext (run_comparison_iff_of_rearranges hkeys hactual h hnode hleaf)
  rw [List.forall_mem_map, List.forall_mem_map]
  constructor
  · intro hall m hm
    obtain ⟨l, hl, hsame⟩ := List.mem_map.1 (hperm.mem_iff.2 (List.mem_map_of_mem hm))
    exact hsame.mp (hall l hl)
  · intro hall l hl
    obtain ⟨m, hm, hsame⟩ := List.mem_map.1 (hperm.mem_iff.1 (List.mem_map_of_mem hl))
    exact hsame.mp (hall m hm)

/-- The checks of a rearranged schema give the same verdicts on a rearranged value. -/
theorem perm_verdicts_checks {lax lax' : Report} (htexts : (s.leaves.map (·.path.render)).Nodup)
    (hkeys : actual.hasWritableKeys = true) (hactual : actual.DistinctNames)
    (hs : s'.Rearranges s) (h : actual'.Rearranges actual)
    (hlax : (Validator.checks (leafChecks (Tree.ofPlain s))).evaluate actual = .ok lax)
    (hlax' : (Validator.checks (leafChecks (Tree.ofPlain s'))).evaluate actual' = .ok lax') :
    lax'.verdicts.Perm lax.verdicts := by
  have htexts' : (s'.leaves.map (·.path.render)).Nodup :=
    (hs.perm_map_leaves fun _ _ _ _ hpath _ => congrArg Path.render hpath).nodup_iff.2 htexts
  rw [← map_render_leafChecks_ofPlain] at htexts htexts'
  rw [Report.verdicts_checks hlax htexts, Report.verdicts_checks hlax' htexts', leafChecks_ofPlain,
    leafChecks_ofPlain, List.map_map, List.map_map]
  -- A leaf of one schema and its counterpart in the other one stand for checks at the same path.
  have hexpected : (Tree.ofPlain s' : Value).Rearranges (Tree.ofPlain s) := hs.mapChecks _
  refine hexpected.perm_map_leaves fun l _ m hm hpath hnode => ?_
  have hleaf := Tree.children_node_of_mem_leaves hm
  refine Prod.ext (congrArg Path.render hpath) (decide_eq_decide.2 ?_)
  show (PathCheck.mk l.path _).Passes actual' ↔ _
  rw [hpath]
  exact passes_comparison_iff_of_rearranges hkeys hactual h hnode hleaf

end Schema

/-- If the leaves of a map or a sequence without checks have paths with different texts, and the
keys of each map in a value have different names, both may be rearranged at any depth, entries of
maps in another order and lists and tuples exchanged. If the schema can be written, it compiles
before and after: either the strict reports have the same texts with the same verdicts, or there is
no report in both cases, as something is not written. There is one if the value can be written. If
the schema cannot be written, it does not compile before and after. -/
theorem strict_verdicts_perm (s s' : PlainTree) (actual actual' : Value)
    (hcontainer : s.kind.isContainer = true) (htexts : (s.leaves.map (·.path.render)).Nodup)
    (hactual : actual.DistinctNames) (hs : s'.Rearranges s) (h : actual'.Rearranges actual) :
    (s.isWritable = true → ∃ v v', Schema.compile (Tree.ofPlain s) = .ok v ∧
      Schema.compile (Tree.ofPlain s') = .ok v' ∧
      ((∃ r r', (Validator.strict v).evaluate actual = .ok r ∧
          (Validator.strict v').evaluate actual' = .ok r' ∧ r'.verdicts.Perm r.verdicts) ∨
        (actual.isWritable = false ∧
          (Validator.strict v).evaluate actual = .error (.unwritable .tooManyDigits) ∧
          (Validator.strict v').evaluate actual' = .error (.unwritable .tooManyDigits)))) ∧
    (s.isWritable = false →
      Schema.compile (Tree.ofPlain s) = .error (.unwritable .tooManyDigits) ∧
      Schema.compile (Tree.ofPlain s') = .error (.unwritable .tooManyDigits)) := by
  have hcontainer' : s'.kind.isContainer = true := hs.kind_eq ▸ hcontainer
  have hsame : s'.isWritable = s.isWritable := hs.all_eq
  refine ⟨fun hwritable => ?_, fun hlong => ⟨?_, ?_⟩⟩
  · obtain ⟨v, hv, hreports, hfails⟩ := Schema.exists_strict_eq_close hcontainer hwritable actual
    obtain ⟨v', hv', hreports', hfails'⟩ :=
      Schema.exists_strict_eq_close hcontainer' (hsame.trans hwritable) actual'
    have hiff := Schema.answers_iff_of_rearranges hactual hs h
    refine ⟨v, v', hv, hv', ?_⟩
    by_cases hanswers : Schema.Answers s actual
    · obtain ⟨lax, hlax, hr⟩ := hreports hanswers
      obtain ⟨lax', hlax', hr'⟩ := hreports' (hiff.2 hanswers)
      have hverdicts := Schema.perm_verdicts_checks htexts hanswers.1 hactual hs h hlax hlax'
      exact .inl ⟨_, _, hr, hr', Report.perm_verdicts_close hverdicts h⟩
    · refine .inr ⟨?_, hfails hanswers, hfails' (mt hiff.1 hanswers)⟩
      rw [Bool.eq_false_iff]
      exact fun hvalue => hanswers ⟨Tree.hasWritableKeys_of_isWritable hvalue, fun c hc =>
        PathCheck.exists_run_of_answers (Schema.leafChecks_ofPlain_answer hwritable c hc) hvalue⟩
  · exact Schema.compile_ofPlain_of_not_isWritable hcontainer hlong
  · exact Schema.compile_ofPlain_of_not_isWritable hcontainer' (hsame.trans hlong)

/-- A schema with keys of several types. -/
def listedSchema : PlainTree :=
  .map [(.scalar (.str "a"),
      .map [(.scalar (.int 1), .str "x"), (.scalar (.str "b"), .list [.null])]),
    (.scalar (.bool true), .map [])]

/-- The same schema with the entries of both maps in another order. -/
def shuffledSchema : PlainTree :=
  .map [(.scalar (.bool true), .map []),
    (.scalar (.str "a"),
      .map [(.scalar (.str "b"), .list [.null]), (.scalar (.int 1), .str "x")])]

/-- A value that has one entry more, and a number in place of the absent value. -/
def listedValue : Value :=
  .map [(.scalar (.str "a"),
      .map [(.scalar (.int 1), .str "x"), (.scalar (.str "b"), .list [.int 3]),
        (.scalar (.str "c"), .null)]),
    (.scalar (.bool true), .map [])]

/-- The same value with the entries of both maps in another order. -/
def shuffledValue : Value :=
  .map [(.scalar (.bool true), .map []),
    (.scalar (.str "a"),
      .map [(.scalar (.str "c"), .null), (.scalar (.str "b"), .list [.int 3]),
        (.scalar (.int 1), .str "x")])]

/-- The strict reports give the same verdicts. -/
theorem shuffledSchema_verdicts_perm : ∃ v v' r r',
    Schema.compile (Tree.ofPlain listedSchema) = .ok v ∧
      Schema.compile (Tree.ofPlain shuffledSchema) = .ok v' ∧
      (Validator.strict v).evaluate listedValue = .ok r ∧
      (Validator.strict v').evaluate shuffledValue = .ok r' ∧ r'.verdicts.Perm r.verdicts := by
  have hschema : shuffledSchema.Rearranges listedSchema := by
    refine .map (List.Perm.swap _ _ _) rfl ?_ ?_
    · simp only [List.zip_cons_cons, List.zip_nil_left, List.forall_mem_cons]
      exact ⟨trivial, trivial, fun _ h => nomatch h⟩
    · simp only [List.zip_cons_cons, List.zip_nil_left, List.forall_mem_cons]
      exact ⟨.of_perm (List.Perm.swap _ _ _), .refl _, fun _ h => nomatch h⟩
  have hvalue : shuffledValue.Rearranges listedValue := by
    refine .map (List.Perm.swap _ _ _) rfl ?_ ?_
    · simp only [List.zip_cons_cons, List.zip_nil_left, List.forall_mem_cons]
      exact ⟨trivial, trivial, fun _ h => nomatch h⟩
    · simp only [List.zip_cons_cons, List.zip_nil_left, List.forall_mem_cons]
      exact ⟨.of_perm (List.reverse_perm [_, _, _]), .refl _, fun _ h => nomatch h⟩
  have hnames : listedValue.DistinctNames := by
    refine Tree.distinctNames_map_iff.2 ⟨by decide +kernel, ?_⟩
    simp only [List.forall_mem_cons]
    refine ⟨Tree.distinctNames_map_iff.2 ⟨by decide +kernel, ?_⟩, .of_children_eq_nil rfl,
      fun _ h => nomatch h⟩
    simp only [List.forall_mem_cons]
    refine ⟨.of_children_eq_nil rfl, Tree.distinctNames_list_iff.2 ?_, .of_children_eq_nil rfl,
      fun _ h => nomatch h⟩
    exact List.forall_mem_singleton.2 (.of_children_eq_nil rfl)
  obtain ⟨hlaw, -⟩ := strict_verdicts_perm listedSchema shuffledSchema listedValue shuffledValue rfl
    (by decide +kernel) hnames hschema hvalue
  obtain ⟨v, v', hv, hv', ⟨r, r', hr, hr', hverdicts⟩ | ⟨hlong, -⟩⟩ := hlaw (by decide +kernel)
  · exact ⟨v, v', r, r', hv, hv', hr, hr', hverdicts⟩
  · exact absurd hlong (by decide +kernel)

end TreeMatch
