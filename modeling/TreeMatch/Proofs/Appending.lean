import TreeMatch.Check.Stock
import TreeMatch.Proofs.Closing

/-!
# A strict pass only adds to a report

A strict validator records its failures in the very report that it takes the coverage from, and a
record under a text that is there already would replace what stands under it. This cannot happen: a
path whose text is in the report is covered (`render_notMem_paths`), so that all failures come at
new texts. They are the report that recording them alone would give (`Report.surplus`), put behind
the entries that were there (`close_eq_append`). Uncovered leaves may share a text among themselves.
Then one failure stands for them, at the place of the first one and with the path of the last one,
and it is found under the text of each (`exists_get?_close`).
The main statement says this of every report that a strict validator gets from its inner one, if the
walk through the value comes to its end (`strict_appends_surplus`). If it comes to a key that is not
written, there is no strict report.
-/

namespace TreeMatch

namespace Report

/-- An uncovered path has a text under which nothing is recorded. -/
theorem render_notMem_paths {r : Report} {actual : Value} {p : Path}
    (h : p ∈ r.uncovered actual) : p.render ∉ r.paths := by
  intro hmem
  have hcovered : (CoveredPaths.ofList r.paths).covers p = true :=
    CoveredPaths.covers_ofList_iff.2 (.inl hmem)
  rw [(mem_uncovered_iff.1 h).2] at hcovered
  exact nomatch hcovered

/-- The failures of the leaves that a report does not cover, as a report of their own. -/
def surplus (r : Report) (actual : Value) : Report :=
  empty.recordAll ((r.uncovered actual).map fun p => (p, .unexpectedField p))

/-- Closing a report puts the failures behind its entries. -/
theorem close_eq_append (r : Report) (actual : Value) :
    r.close actual = ⟨r.entries ++ (r.surplus actual).entries⟩ := by
  have hnew : ∀ e ∈ (r.uncovered actual).map fun p => (p, Outcome.unexpectedField p),
      e.1.render ∉ Assoc.keys r.entries :=
    List.forall_mem_map.2 fun p hp => render_notMem_paths hp
  have happend := recordAll_append empty hnew
  have hempty : (⟨r.entries ++ empty.entries⟩ : Report) = r := congrArg mk (List.append_nil _)
  rw [hempty] at happend
  rw [close_eq_recordAll, happend, surplus]

/-- There is one failure for every text of an uncovered path, in the order in which the walk first
comes to them. -/
theorem paths_surplus (r : Report) (actual : Value) :
    (r.surplus actual).paths = ((r.uncovered actual).map Path.render).eraseDups := by
  rw [surplus, paths_recordAll_empty, List.map_map]
  rfl

/-- The failure at a text has the last uncovered path of this text. -/
theorem mem_entries_surplus {r : Report} {actual : Value} {e : String × Outcome} :
    e ∈ (r.surplus actual).entries ↔
      ∃ p ∈ standing Path.render (r.uncovered actual), e = (p.render, .unexpectedField p) := by
  rw [surplus, mem_entries_recordAll distinct_empty, standing_map]
  simp only [List.mem_map, exists_exists_and_eq_and]
  exact or_iff_right fun h => nomatch h.1

/-- Under the text of an uncovered path a closed report has the failure of an uncovered path with
this text. -/
theorem exists_get?_close {r : Report} {actual : Value} {p : Path} (h : p ∈ r.uncovered actual) :
    ∃ q ∈ r.uncovered actual, q.render = p.render ∧
      (r.close actual).get? p.render = some (.unexpectedField q) := by
  have hmem : p.render ∈ (r.surplus actual).paths := by
    rw [paths_surplus, List.mem_eraseDups]
    exact List.mem_map_of_mem h
  obtain ⟨o, ho, hentry⟩ := exists_get?_of_mem_paths hmem
  obtain ⟨q, hq, hpair⟩ := mem_entries_surplus.1 hentry
  obtain ⟨htext, rfl⟩ := Prod.mk.inj hpair
  refine ⟨q, standing_subset _ _ hq, htext.symm, ?_⟩
  have hnew : r.entries.lookup p.render = none := get?_eq_none_iff.2 (render_notMem_paths h)
  rw [close_eq_append, get?, List.lookup_append, hnew, Option.none_or]
  exact ho

end Report

/-- Let a validator give a report, whichever validator it is. If all keys of the value can be
written, the strict report has the entries of this report as they are, and then a failure for every
text of an uncovered path, in the order in which the walk first comes to them. None of these texts
was in the report before, and the failure has the last uncovered path of its text. The strict report
succeeds if the inner one does and all leaves that the walk reports are covered. If a key cannot be
written, there is no strict report. -/
theorem strict_appends_surplus (v : Validator) (actual : Value) {r : Report}
    (hr : v.evaluate actual = .ok r) :
    (actual.hasWritableKeys = true →
      actual.walkUpTo none Path.root = (actual.leaves, .done) ∧
      ∃ added, (Validator.strict v).evaluate actual = .ok ⟨r.entries ++ added⟩ ∧
        added.map (·.1) = ((r.uncovered actual).map Path.render).eraseDups ∧
        (∀ e ∈ added, e.1 ∉ r.paths ∧ ∃ before p after,
          r.uncovered actual = before ++ p :: after ∧ p.render ∉ after.map Path.render ∧
            e = (p.render, .unexpectedField p)) ∧
        ((⟨r.entries ++ added⟩ : Report).succeeded = true ↔ r.succeeded = true ∧
          ∀ l ∈ actual.leaves, (CoveredPaths.ofList r.paths).covers l.path = true)) ∧
    (actual.hasWritableKeys = false →
      (Validator.strict v).evaluate actual = .error (.unwritable .tooManyDigits)) := by
  refine ⟨fun hkeys => ⟨Tree.walkUpTo_none_of_hasWritableKeys hkeys _, ?_⟩, fun hkeys => ?_⟩
  · have hclose := Report.close_eq_append r actual
    refine ⟨(r.surplus actual).entries, ?_, Report.paths_surplus r actual, fun e he => ?_, ?_⟩
    · rw [Validator.evaluate_strict hkeys hr, hclose]
    · obtain ⟨p, hp, rfl⟩ := Report.mem_entries_surplus.1 he
      obtain ⟨before, after, hsplit, hlast⟩ := mem_standing_iff.1 hp
      have hmem : p ∈ r.uncovered actual := standing_subset _ _ hp
      exact ⟨Report.render_notMem_paths hmem, before, p, after, hsplit, hlast, rfl⟩
    · rw [← hclose, Report.succeeded_close_iff, Report.uncovered_eq_nil_iff_covers]
  · rw [Validator.evaluate_strict_eq, hr, hkeys]
    rfl

/-- Two validators of which one looks at `c` and the other one at the whole value. -/
def partialValidator : Validator :=
  .compose [.checks [⟨[.key "c"], .named "present" .present⟩],
    .predicate (.named "present" .present)]

/-- What the two validators report. -/
def partialReport : Report := ⟨[("c", .passed [.key "c"]), ("", .passed [])]⟩

/-- A value with a leaf besides that, and two leaves whose paths have the same text. -/
def twinValue : Value :=
  .map [(.scalar (.str "c"), .int 1), (.scalar (.str "a"), .map [(.scalar (.str "b"), .int 2)]),
    (.scalar (.str "d"), .int 3), (.scalar (.str "a.b"), .int 4)]

/-- The two leaves with the same text fail once, before the leaf that the walk comes to between
them. -/
theorem strict_twinValue : ∃ added,
    (Validator.strict partialValidator).evaluate twinValue = .ok ⟨partialReport.entries ++ added⟩ ∧
      added.map (·.1) = ["a.b", "d"] ∧ ∀ e ∈ added, e.2.valid = false := by
  have hinner : partialValidator.evaluate twinValue = .ok partialReport := by decide +kernel
  have huncovered : (partialReport.uncovered twinValue).map Path.render = ["a.b", "d", "a.b"] := by
    rw [Report.uncovered]
    simp only [CoveredPaths.covers_ofList_eq_decide]
    decide +kernel
  obtain ⟨-, added, hstrict, hkeys, hadded, -⟩ :=
    (strict_appends_surplus partialValidator twinValue hinner).1 (by decide +kernel)
  refine ⟨added, hstrict, ?_, fun e he => ?_⟩
  · rw [hkeys, huncovered]
    decide +kernel
  · obtain ⟨-, _, p, _, -, -, rfl⟩ := hadded e he
    rfl

/-- A schema that looks at one key. -/
def oneKeySchema : Schema := .map [(.scalar (.str "a"), .int 1)]

/-- It gives a report on a value in which another key cannot be written, but the strict validator
around it does not. -/
theorem strict_misses_longKeyTree : ∃ v r, oneKeySchema.compile = .ok v ∧
    v.evaluate Tree.longKeyTree = .ok r ∧ r.succeeded = true ∧
    (Validator.strict v).evaluate Tree.longKeyTree = .error (.unwritable .tooManyDigits) := by
  have hwritable : oneKeySchema.isWritable = true := by decide +kernel
  have hlong : Tree.longKeyTree.hasWritableKeys = false := by decide +kernel
  have hends : ((oneKeySchema.ofChecks oneKeySchema.leafChecks).evaluate Tree.longKeyTree).map
      (·.succeeded) = .ok true := by
    decide +kernel
  obtain ⟨r, hr, hsucceeded⟩ := exists_of_map_eq_ok hends
  refine ⟨_, r, Schema.compile_of_isWritable rfl hwritable, hr, hsucceeded, ?_⟩
  rw [Validator.evaluate_strict_eq, hr, hlong]
  rfl

end TreeMatch
