import TreeMatch.Proofs.Bisection
import TreeMatch.Proofs.Compiling
import TreeMatch.Proofs.DeepEquality

/-!
# What a strict report lets through

A strict validator fails every leaf of the value that its inner report does not cover, so it
succeeds exactly if the inner report does and covers all leaves (`succeeded_close_iff`). Coverage is
judged by the texts of the paths: a leaf is let through if the segments of its path begin those of a
check (`succeeded_strict_iff_segments_prefix`). Where keys have no dots and are not written as
indices, the path of the leaf itself begins that of a check; elsewhere a key can pass for the way to
a check (`surplusValue_succeeds_uncovered`).
-/

namespace TreeMatch

namespace Report

/-- A report that has recorded only failures does not succeed. -/
theorem succeeded_recordAll_of_invalid (r : Report) {os : List (Path × Outcome)} (hne : os ≠ [])
    (h : ∀ e ∈ os, e.2.valid = false) : (r.recordAll os).succeeded = false := by
  have hlast : r.recordAll os = (r.recordAll os.dropLast).record (os.getLast hne).1
      (os.getLast hne).2 := by
    conv_lhs => rw [← List.dropLast_append_getLast hne]
    rw [recordAll, List.foldl_append]
    rfl
  rw [hlast]
  exact succeeded_record_of_invalid _ _ (h _ (List.getLast_mem hne))

/-- Closing a report records a failure for every uncovered leaf. -/
theorem close_eq_recordAll (r : Report) (actual : Value) :
    r.close actual =
      r.recordAll ((r.uncovered actual).map fun p => (p, .unexpectedField p)) := by
  rw [close, addUnexpected, recordAll, List.foldl_map]

/-- Where all leaves are covered, closing does nothing. -/
theorem close_of_uncovered_eq_nil {r : Report} {actual : Value} (h : r.uncovered actual = []) :
    r.close actual = r := by
  rw [close, h, addUnexpected, List.foldl_nil]

/-- A closed report succeeds if the report did and all leaves are covered. -/
theorem succeeded_close_iff {r : Report} {actual : Value} :
    (r.close actual).succeeded = true ↔ r.succeeded = true ∧ r.uncovered actual = [] := by
  by_cases h : r.uncovered actual = []
  · rw [close_of_uncovered_eq_nil h, and_iff_left h]
  · have hfails : (r.close actual).succeeded = false := by
      rw [close_eq_recordAll]
      refine succeeded_recordAll_of_invalid r (mt List.map_eq_nil_iff.1 h) ?_
      exact List.forall_mem_map.2 fun _ _ => rfl
    rw [hfails]
    exact iff_of_false (fun h => nomatch h) fun hboth => h hboth.2

/-- A path is uncovered if it is the path of a leaf and not covered. -/
theorem mem_uncovered_iff {r : Report} {actual : Value} {p : Path} :
    p ∈ r.uncovered actual ↔ (∃ l ∈ actual.leaves, l.path = p) ∧
      (CoveredPaths.ofList r.paths).covers p = false := by
  rw [uncovered, List.mem_filter, List.mem_map, Bool.not_eq_true']

/-- All leaves are covered if none is uncovered. -/
theorem uncovered_eq_nil_iff_covers {r : Report} {actual : Value} :
    r.uncovered actual = [] ↔
      ∀ l ∈ actual.leaves, (CoveredPaths.ofList r.paths).covers l.path = true := by
  rw [uncovered, List.filter_eq_nil_iff, List.forall_mem_map]
  refine forall₂_congr fun l _ => ?_
  rw [Bool.not_eq_true', Bool.not_eq_false]

/-- All leaves of a value are covered if the segments of each of their paths begin those of a
recorded text. -/
theorem uncovered_eq_nil_iff {r : Report} {actual : Value} :
    r.uncovered actual = [] ↔ ∀ l ∈ actual.leaves, (l.path = [] ∧ r.paths ≠ []) ∨
      ∃ t ∈ r.paths, segments l.path.render <+: segments t := by
  rw [uncovered_eq_nil_iff_covers]
  exact forall₂_congr fun l _ => CoveredPaths.covers_ofList_iff_segments

end Report

/-! ## Strict reports on schemas -/

namespace Schema

variable {s : Schema} {cs : List PathCheck} {v : Validator} {actual : Value} {r : Report}

/-- A strict report on a map or a sequence succeeds if the report on the checks does and covers all
leaves. That a sequence is strict in itself makes no difference. -/
theorem exists_report_of_strict (hs : s.kind.isContainer = true) (hv : s.compile = .ok v)
    (hr : (Validator.strict v).evaluate actual = .ok r) :
    ∃ cs lax, s.flatten = .ok cs ∧ actual.hasWritableKeys = true ∧
      (Validator.checks cs).evaluate actual = .ok lax ∧
      (r.succeeded = true ↔ lax.succeeded = true ∧ lax.uncovered actual = []) := by
  obtain ⟨cs, hcs, rfl⟩ := (compile_eq_ok_iff hs).1 hv
  obtain ⟨hkeys, inner, hinner, rfl⟩ := Validator.evaluate_strict_eq_ok_iff.1 hr
  unfold ofChecks at hinner
  split at hinner
  · obtain ⟨-, lax, hlax, rfl⟩ := Validator.evaluate_strict_eq_ok_iff.1 hinner
    refine ⟨cs, lax, hcs, hkeys, hlax, ?_⟩
    -- The report is closed twice, but only the first time can find an uncovered leaf.
    rw [Report.succeeded_close_iff, Report.succeeded_close_iff]
    constructor
    · exact fun h => h.1
    · intro h
      have huncovered := h.2
      rw [Report.close_of_uncovered_eq_nil huncovered]
      exact ⟨h, huncovered⟩
  · exact ⟨cs, inner, hcs, hkeys, hinner, Report.succeeded_close_iff⟩

/-- A strict report on a map or a sequence comes to its end if the report on the checks does and all
keys of the value can be written. -/
theorem exists_strict_of_report (hs : s.kind.isContainer = true) (hcs : s.flatten = .ok cs)
    (hkeys : actual.hasWritableKeys = true)
    (hr : (Validator.checks cs).evaluate actual = .ok r) :
    ∃ v r', s.compile = .ok v ∧ (Validator.strict v).evaluate actual = .ok r' := by
  have hinner : ∃ inner, (s.ofChecks cs).evaluate actual = .ok inner := by
    unfold ofChecks
    split
    · exact ⟨_, Validator.evaluate_strict hkeys hr⟩
    · exact ⟨r, hr⟩
  obtain ⟨inner, hinner⟩ := hinner
  exact ⟨_, _, (compile_eq_ok_iff hs).2 ⟨cs, hcs, rfl⟩, Validator.evaluate_strict hkeys hinner⟩

/-- A report on the checks of a schema covers all leaves of a value if the segments of the path of
each of them begin those of the path of a check. -/
theorem uncovered_eq_nil_iff (hcs : s.flatten = .ok cs)
    (hr : (Validator.checks cs).evaluate actual = .ok r) :
    r.uncovered actual = [] ↔ ∀ l ∈ actual.leaves, l.path = [] ∨
      ∃ c ∈ cs, segments l.path.render <+: segments c.path.render := by
  have hpaths : r.paths ≠ [] := by
    obtain ⟨c, hc⟩ := List.exists_mem_of_ne_nil _ (ne_nil_of_flatten hcs)
    exact List.ne_nil_of_mem ((Report.mem_paths_checks hr).2 (List.mem_map_of_mem hc))
  simp only [Report.uncovered_eq_nil_iff, Report.mem_paths_checks hr, List.mem_map,
    exists_exists_and_eq_and, hpaths, ne_eq, not_false_iff, and_true]

/-- A strict report on a map or a sequence that succeeds is one on a value whose keys can all be
written, in which no check gives up, the checks pass that none replaced, and the segments of the
path of every leaf begin those of the path of a check. -/
theorem strict_succeeds_iff (actual : Value) (hs : s.kind.isContainer = true)
    (hcs : s.flatten = .ok cs) :
    (∃ v r, s.compile = .ok v ∧ (Validator.strict v).evaluate actual = .ok r ∧
      r.succeeded = true) ↔
      actual.hasWritableKeys = true ∧ (∀ c ∈ cs, ∃ o, c.run actual = .ok o) ∧
        (∀ c ∈ standing (·.path.render) cs, c.Passes actual) ∧
        ∀ l ∈ actual.leaves, l.path = [] ∨
          ∃ c ∈ cs, segments l.path.render <+: segments c.path.render := by
  constructor
  · rintro ⟨v, r, hv, hr, h⟩
    obtain ⟨cs', lax, hcs', hkeys, hlax, hsucceeded⟩ := exists_report_of_strict hs hv hr
    obtain rfl := Except.ok.inj (hcs.symm.trans hcs')
    rw [Report.succeeded_checks_iff hlax, uncovered_eq_nil_iff hcs hlax] at hsucceeded
    exact ⟨hkeys, fun c hc => Report.exists_run_of_mem hlax hc, hsucceeded.1 h⟩
  · rintro ⟨hkeys, hruns, hpasses, hcovered⟩
    obtain ⟨lax, hlax⟩ := Report.exists_evaluate_checks hruns
    obtain ⟨v, r, hv, hr⟩ := exists_strict_of_report hs hcs hkeys hlax
    obtain ⟨cs', lax', hcs', -, hlax', hsucceeded⟩ := exists_report_of_strict hs hv hr
    obtain rfl := Except.ok.inj (hcs.symm.trans hcs')
    rw [Report.succeeded_checks_iff hlax', uncovered_eq_nil_iff hcs hlax'] at hsucceeded
    exact ⟨v, r, hv, hr, hsucceeded.2 ⟨hpasses, hcovered⟩⟩

/-- If a schema is a container without contents and its check passes, the value has no contents
either. -/
theorem children_eq_nil_of_passes (hs : s.kind.isContainer = true) (hn : s.children = [])
    (hcs : s.flatten = .ok cs) (h : ∀ c ∈ standing (·.path.render) cs, c.Passes actual) :
    actual.children = [] := by
  have hcheck : leafComparison s = Check.comparison s.labels := by
    cases s with
    | list _ | tuple _ | map _ | scalar _ | set _ => rfl
    | check _ => exact absurd hs Bool.false_ne_true
  obtain ⟨-, rfl⟩ := flatten_eq_ok_iff.1 hcs
  rw [leafChecks, Tree.leaves_of_children_eq_nil hn] at h
  have hpasses : (PathCheck.mk [] (leafComparison s)).Passes actual := h _ List.mem_cons_self
  rw [hcheck] at hpasses
  obtain ⟨x, hx, hequal⟩ := PathCheck.passes_comparison_iff.1 hpasses
  obtain rfl := Option.some.inj (Except.ok.inj hx)
  refine Tree.children_eq_nil_of_deepEqual hequal ?_
  rw [Tree.labels, Tree.children_mapChecks, hn, List.map_nil]

end Schema

/-- If there is a strict report on a map or a sequence, the walk through the value reports all its
leaves. The report succeeds if the checks pass that none replaced in it and the segments of the path
of every leaf begin those of the path of a check. If moreover no key on the paths of the checks or
on the path of the leaf has a dot or is written as an index, the path of the leaf is the path of a
check or leads to it. -/
theorem succeeded_strict_iff_segments_prefix (s : Schema) (actual : Value) {v : Validator}
    {r : Report} (hs : s.kind.isContainer = true) (hv : s.compile = .ok v)
    (hr : (Validator.strict v).evaluate actual = .ok r) :
    ∃ cs, s.flatten = .ok cs ∧ actual.walkUpTo none Path.root = (actual.leaves, .done) ∧
      (r.succeeded = true ↔ (∀ c ∈ standing (·.path.render) cs, c.Passes actual) ∧
        ∀ l ∈ actual.leaves, l.path = [] ∨
          ∃ c ∈ cs, segments l.path.render <+: segments c.path.render) ∧
      (r.succeeded = true → (∀ c ∈ cs, c.path.IsPlain) →
        ∀ l ∈ actual.leaves, l.path.IsPlain → ∃ c ∈ cs, l.path <+: c.path) := by
  obtain ⟨cs, lax, hcs, hkeys, hlax, hsucceeded⟩ := Schema.exists_report_of_strict hs hv hr
  rw [Report.succeeded_checks_iff hlax, Schema.uncovered_eq_nil_iff hcs hlax] at hsucceeded
  refine ⟨cs, hcs, Tree.walkUpTo_none_of_hasWritableKeys hkeys Path.root, hsucceeded,
    fun h hplain l hl hlplain => ?_⟩
  obtain ⟨hpasses, hcovered⟩ := hsucceeded.1 h
  by_cases hroot : l.path = []
  · obtain ⟨c, hc⟩ := List.exists_mem_of_ne_nil _ (Schema.ne_nil_of_flatten hcs)
    exact ⟨c, hc, hroot ▸ List.nil_prefix⟩
  · obtain ⟨c, hc, hprefix⟩ := (hcovered l hl).resolve_left hroot
    refine ⟨c, hc, ?_⟩
    have hchildren : s.children ≠ [] := by
      -- Otherwise the only check is one of the root, and the value has no leaf below the root.
      intro hn
      have hnone := Schema.children_eq_nil_of_passes hs hn hcs hpasses
      rw [Tree.leaves_of_children_eq_nil hnone] at hl
      exact hroot (congrArg Leaf.path (List.mem_singleton.1 hl))
    have hne : c.path ≠ [] := by
      obtain ⟨-, rfl⟩ := Schema.flatten_eq_ok_iff.1 hcs
      obtain ⟨m, hm, rfl⟩ := List.mem_map.1 hc
      exact Tree.path_ne_nil_of_mem_leaves hchildren hm
    rw [hlplain.isDotFree.segments_render hroot, (hplain c hc).isDotFree.segments_render hne]
      at hprefix
    exact Path.prefix_of_texts_prefix hlplain (hplain c hc) hprefix

/-- A schema with one check, below `a`. -/
def belowSchema : Schema := .map [(.scalar (.str "a"), .map [(.scalar (.str "b"), .int 1)])]

/-- A value that has what the schema asks for, and nothing else. -/
def exactValue : Value := .map [(.scalar (.str "a"), .map [(.scalar (.str "b"), .int 1)])]

/-- A value with one key more, which is written like the way to the check. -/
def surplusValue : Value :=
  .map [(.scalar (.str "a"), .map [(.scalar (.str "b"), .int 1)]), (.scalar (.str "a.b"), .int 666)]

/-- The report on the exact value succeeds, and its leaf has the path of the check. -/
theorem exactValue_succeeds_covered : ∃ cs v r, belowSchema.kind.isContainer = true ∧
    belowSchema.flatten = .ok cs ∧ belowSchema.compile = .ok v ∧
    (Validator.strict v).evaluate exactValue = .ok r ∧ r.succeeded = true ∧
    ∀ l ∈ exactValue.leaves, ∃ c ∈ cs, l.path <+: c.path := by
  have hwritable : belowSchema.isWritable = true := by decide +kernel
  have hends : ((Validator.checks belowSchema.leafChecks).evaluate exactValue).map (fun _ => ()) =
      .ok () := by
    decide +kernel
  obtain ⟨lax, hlax, -⟩ := exists_of_map_eq_ok hends
  have hstrict := Validator.evaluate_strict (by decide +kernel) hlax
  have hcompile := Schema.compile_of_isWritable rfl hwritable
  obtain ⟨cs, hcs, -, hlaw⟩ :=
    succeeded_strict_iff_segments_prefix belowSchema exactValue rfl hcompile hstrict
  obtain ⟨-, rfl⟩ := Schema.flatten_eq_ok_iff.1 hcs
  have hsucceeded : (lax.close exactValue).succeeded = true := by
    refine hlaw.1.2 ⟨?_, ?_⟩
    · decide +kernel
    · decide +kernel
  have hway : Path.IsPlain [.key "a", .key "b"] := by
    intro s hs
    rcases List.mem_cons.1 hs with rfl | hs
    · exact Step.isPlain_key (by decide) (by decide)
    · obtain rfl := List.mem_singleton.1 hs
      exact Step.isPlain_key (by decide) (by decide)
  have hchecks : ∀ c ∈ belowSchema.leafChecks, c.path = [.key "a", .key "b"] := by decide +kernel
  have hleaves : ∀ l ∈ exactValue.leaves, l.path = [.key "a", .key "b"] := by decide +kernel
  refine ⟨_, _, _, rfl, hcs, hcompile, hstrict, hsucceeded,
    fun l hl => hlaw.2 hsucceeded ?_ l hl ?_⟩
  · exact fun c hc => hchecks c hc ▸ hway
  · exact hleaves l hl ▸ hway

/-- A leaf that no check knows is let through: the text of its path is that of the check. -/
theorem surplusValue_succeeds_uncovered : ∃ cs v r, belowSchema.kind.isContainer = true ∧
    belowSchema.flatten = .ok cs ∧ belowSchema.compile = .ok v ∧
    (Validator.strict v).evaluate surplusValue = .ok r ∧ r.succeeded = true ∧
    ∃ l ∈ (surplusValue.walkUpTo none Path.root).1, ∀ c ∈ cs, ¬ l.path <+: c.path := by
  have hwritable : belowSchema.isWritable = true := by decide +kernel
  have hkeys : surplusValue.hasWritableKeys = true := by decide +kernel
  have hends : ((Validator.checks belowSchema.leafChecks).evaluate surplusValue).map
      (·.succeeded) = .ok true := by
    decide +kernel
  obtain ⟨lax, hlax, hsucceeded⟩ := exists_of_map_eq_ok hends
  have hflatten := Schema.flatten_of_isWritable hwritable
  have huncovered : lax.uncovered surplusValue = [] := by
    refine (Schema.uncovered_eq_nil_iff hflatten hlax).2 ?_
    decide +kernel
  refine ⟨_, _, _, rfl, hflatten, Schema.compile_of_isWritable rfl hwritable,
    Validator.evaluate_strict hkeys hlax,
    Report.succeeded_close_iff.2 ⟨hsucceeded, huncovered⟩, ?_⟩
  rw [Tree.walkUpTo_none_of_hasWritableKeys hkeys]
  decide +kernel

end TreeMatch
