import TreeMatch.Proofs.Recording
import TreeMatch.Proofs.Walking
import TreeMatch.Validator

/-!
# Running checks

A check is given what its path leads to, if the path can be followed (`PathCheck.run_eq`). A list of
checks runs to its end or up to the first one that gives up (`PathCheck.runAll`), and the report on
it records the outcomes in order, so that it succeeds if the checks pass that no later one with the
same text replaces (`Report.succeeded_checks_iff`).

A strict pass walks the value for leaves that a report does not cover. Where all keys of the value
can be written it comes to its end, and the report is closed: it gets a failure for every uncovered
leaf (`Report.close`). Elsewhere there is no report (`Validator.evaluate_strict_eq`).
-/

namespace TreeMatch

/-- What a path leads to: the node and that it exists, or the absent value and that nothing does. -/
def Tree.found (actual : Value) (p : Path) : Value × Bool :=
  match actual.lookup? p with
  | some value => (value, true)
  | none => (.null, false)

/-- A check runs on what its path leads to, if the path can be followed. -/
theorem PathCheck.run_eq (c : PathCheck) (actual : Value) :
    c.run actual =
      if actual.canFollow c.path then
        c.check.run c.path (actual.found c.path).1 (actual.found c.path).2
      else .error (.unwritable .tooManyDigits) := by
  rw [PathCheck.run, Tree.lookup_eq, Tree.found]
  cases actual.canFollow c.path with
  | false => rfl
  | true =>
    cases actual.lookup? c.path with
    | none => rfl
    | some value => rfl

/-- The path of a check that gives an outcome can be followed. -/
theorem PathCheck.canFollow_of_run {c : PathCheck} {actual : Value} {o : Outcome}
    (h : c.run actual = .ok o) : actual.canFollow c.path = true := by
  rw [run_eq] at h
  split at h
  · assumption
  · exact nomatch h

/-! ## Runs of checks -/

/-- The check gives an outcome on every value that can be written. -/
def Check.Answers (c : Check) : Prop :=
  ∀ (path : Path) (value : Value) (found : Bool), value.isWritable = true →
    ∃ o, c.checker path value found = .ok o

/-- A check that always answers gives an outcome when it is run. -/
theorem Check.Answers.exists_run {c : Check} (h : c.Answers) (path : Path) {value : Value}
    (hvalue : value.isWritable = true) (found : Bool) : ∃ o, c.run path value found = .ok o := by
  unfold Check.run
  split
  · exact ⟨_, rfl⟩
  · exact h path value found hvalue

namespace PathCheck

/-- The check gives a valid outcome. -/
def Passes (c : PathCheck) (actual : Value) : Prop :=
  ∃ o, c.run actual = .ok o ∧ o.valid = true

/-- A check passes if it gives an outcome and this is valid. -/
theorem passes_iff {c : PathCheck} {actual : Value} :
    c.Passes actual ↔ (c.run actual).map (·.valid) = .ok true := by
  constructor
  · rintro ⟨o, ho, hv⟩
    rw [ho, ← hv]
    rfl
  · exact exists_of_map_eq_ok

instance (c : PathCheck) (actual : Value) : Decidable (c.Passes actual) :=
  decidable_of_iff _ passes_iff.symm

/-- The outcomes of checks with the paths of the checks, in order, or the fault of the first check
that gives up. -/
def runAll (actual : Value) : List PathCheck → Except CheckFault (List (Path × Outcome))
  | [] => .ok []
  | c :: cs =>
    match c.run actual with
    | .ok o => (runAll actual cs).map ((c.path, o) :: ·)
    | .error fault => .error fault

/-- A run of checks none of which gives up comes to its end. -/
theorem exists_runAll_of_runs {cs : List PathCheck} {actual : Value}
    (h : ∀ c ∈ cs, ∃ o, c.run actual = .ok o) : ∃ os, runAll actual cs = .ok os := by
  induction cs with
  | nil => exact ⟨[], rfl⟩
  | cons c cs ih =>
    obtain ⟨os, hos⟩ := ih fun d hd => h d (List.mem_cons_of_mem _ hd)
    obtain ⟨o, ho⟩ := h c List.mem_cons_self
    refine ⟨(c.path, o) :: os, ?_⟩
    unfold runAll
    rw [ho, hos]
    rfl

/-- A run that stops at a fault stops at a check that gives up with it. -/
theorem exists_run_of_runAll_eq_error {cs : List PathCheck} {actual : Value} {fault : CheckFault}
    (h : runAll actual cs = .error fault) : ∃ c ∈ cs, c.run actual = .error fault := by
  induction cs with
  | nil => exact nomatch h
  | cons c cs ih =>
    unfold runAll at h
    split at h
    · cases hrest : runAll actual cs with
      | ok os =>
        rw [hrest] at h
        exact nomatch h
      | error fault' =>
        rw [hrest] at h
        obtain rfl := Except.error.inj h
        obtain ⟨d, hd, hrun⟩ := ih hrest
        exact ⟨d, List.mem_cons_of_mem _ hd, hrun⟩
    · rename_i fault' hrun
      obtain rfl := Except.error.inj h
      exact ⟨c, List.mem_cons_self, hrun⟩

/-- A run stops at a fault if there is no other one. -/
theorem runAll_eq_error {cs : List PathCheck} {actual : Value} {fault : CheckFault}
    (h : ∀ c ∈ cs, (∃ o, c.run actual = .ok o) ∨ c.run actual = .error fault)
    (hfault : ∃ c ∈ cs, c.run actual = .error fault) : runAll actual cs = .error fault := by
  induction cs with
  | nil =>
    obtain ⟨c, hc, -⟩ := hfault
    exact nomatch hc
  | cons c cs ih =>
    obtain ⟨hfirst, hrest⟩ := List.forall_mem_cons.1 h
    unfold runAll
    rcases hfirst with ⟨o, ho⟩ | hfirst
    · -- The fault is one of a later check.
      obtain ⟨d, hd, hdfault⟩ := hfault
      have hlater : ∃ d ∈ cs, d.run actual = .error fault := by
        rcases List.mem_cons.1 hd with rfl | hd
        · exact nomatch ho.symm.trans hdfault
        · exact ⟨d, hd, hdfault⟩
      rw [ho, ih hrest hlater]
      rfl
    · rw [hfirst]

/-- A check that always answers gives an outcome on what is in a value that can be written. -/
theorem exists_run_of_answers {c : PathCheck} (h : c.check.Answers) {actual : Value}
    (hactual : actual.isWritable = true) : ∃ o, c.run actual = .ok o := by
  have hkeys := Tree.hasWritableKeys_of_isWritable hactual
  rw [run_eq, if_pos (Tree.canFollow_of_hasWritableKeys hkeys c.path), Tree.found]
  cases hv : actual.lookup? c.path with
  | none => exact h.exists_run _ Tree.isWritable_null _
  | some v => exact h.exists_run _ (Tree.all_lookup? hactual hv) _

/-- The outcome at a place of a run belongs to the check at that place. -/
def Gives (actual : Value) (c : PathCheck) (e : Path × Outcome) : Prop :=
  e.1 = c.path ∧ c.run actual = .ok e.2

/-- A check passes if the outcome that it gives is valid. -/
theorem Gives.passes_iff {actual : Value} {c : PathCheck} {e : Path × Outcome}
    (h : Gives actual c e) : c.Passes actual ↔ e.2.valid = true := by
  constructor
  · rintro ⟨o, ho, hv⟩
    obtain rfl := Except.ok.inj (h.2.symm.trans ho)
    exact hv
  · exact fun hv => ⟨e.2, h.2, hv⟩

/-- A run that comes to its end has run every check. -/
theorem forall₂_of_runAll {actual : Value} {cs : List PathCheck} {os : List (Path × Outcome)}
    (h : runAll actual cs = .ok os) : List.Forall₂ (Gives actual) cs os := by
  induction cs generalizing os with
  | nil =>
    obtain rfl := Except.ok.inj h
    exact .nil
  | cons c cs ih =>
    unfold runAll at h
    split at h
    · rename_i o ho
      obtain ⟨rest, hrest, rfl⟩ := exists_of_map_eq_ok h
      exact .cons ⟨rfl, ho⟩ (ih hrest)
    · exact nomatch h

/-- The outcomes of a run stand at the paths of the checks. -/
theorem map_path_of_forall₂ {actual : Value} {cs : List PathCheck}
    {os : List (Path × Outcome)} (h : List.Forall₂ (Gives actual) cs os) :
    os.map (·.1) = cs.map (·.path) := by
  induction h with
  | nil => rfl
  | cons hgives _ ih => rw [List.map_cons, List.map_cons, ih, hgives.1]

/-- The texts of the paths of a run are those of its checks. -/
theorem map_render_of_forall₂ {actual : Value} {cs : List PathCheck} {os : List (Path × Outcome)}
    (h : List.Forall₂ (Gives actual) cs os) :
    os.map (·.1.render) = cs.map (·.path.render) := by
  have hpaths := congrArg (List.map Path.render) (map_path_of_forall₂ h)
  rw [List.map_map, List.map_map] at hpaths
  exact hpaths

/-- The outcomes that stand are valid if the checks that stand pass. -/
theorem standing_valid_iff {actual : Value} {cs : List PathCheck} {os : List (Path × Outcome)}
    (h : List.Forall₂ (Gives actual) cs os) :
    (∀ e ∈ standing (·.1.render) os, e.2.valid = true) ↔
      ∀ c ∈ standing (·.path.render) cs, c.Passes actual := by
  induction h with
  | nil => exact iff_of_true (fun _ h => nomatch h) fun _ h => nomatch h
  | @cons c e cs os hgives hrest ih =>
    rw [standing, standing, map_render_of_forall₂ hrest, hgives.1]
    split
    · exact ih
    · simp only [List.forall_mem_cons, ih, hgives.passes_iff]

end PathCheck

namespace Report

/-- To add checks to a report is to record the outcomes of their run. -/
theorem addChecks_eq (r : Report) (actual : Value) (cs : List PathCheck) :
    r.addChecks actual cs = (PathCheck.runAll actual cs).map r.recordAll := by
  induction cs generalizing r with
  | nil => rfl
  | cons c cs ih =>
    unfold addChecks PathCheck.runAll
    cases c.run actual with
    | error fault => rfl
    | ok o =>
      show (r.record c.path o).addChecks actual cs = _
      rw [ih]
      cases PathCheck.runAll actual cs with
      | error fault => rfl
      | ok os => rfl

/-- A run of checks that comes to its end makes a report. -/
theorem evaluate_checks_of_runAll {cs : List PathCheck} {actual : Value}
    {os : List (Path × Outcome)} (h : PathCheck.runAll actual cs = .ok os) :
    (Validator.checks cs).evaluate actual = .ok (empty.recordAll os) := by
  rw [Validator.evaluate, addChecks_eq, h]
  rfl

/-- There is a report on checks none of which gives up. -/
theorem exists_evaluate_checks {cs : List PathCheck} {actual : Value}
    (h : ∀ c ∈ cs, ∃ o, c.run actual = .ok o) :
    ∃ r, (Validator.checks cs).evaluate actual = .ok r := by
  obtain ⟨os, hos⟩ := PathCheck.exists_runAll_of_runs h
  exact ⟨_, evaluate_checks_of_runAll hos⟩

/-- A report on checks comes from a run of all of them. -/
theorem exists_run_of_evaluate {actual : Value} {cs : List PathCheck} {r : Report}
    (h : (Validator.checks cs).evaluate actual = .ok r) :
    ∃ os, List.Forall₂ (PathCheck.Gives actual) cs os ∧ r = empty.recordAll os := by
  rw [Validator.evaluate, addChecks_eq] at h
  obtain ⟨os, hrun, rfl⟩ := exists_of_map_eq_ok h
  exact ⟨os, PathCheck.forall₂_of_runAll hrun, rfl⟩

/-- In a report on checks none of them has given up. -/
theorem exists_run_of_mem {actual : Value} {cs : List PathCheck} {r : Report}
    (h : (Validator.checks cs).evaluate actual = .ok r) {c : PathCheck} (hc : c ∈ cs) :
    ∃ o, c.run actual = .ok o := by
  obtain ⟨os, hrun, -⟩ := exists_run_of_evaluate h
  clear h
  induction hrun with
  | nil => exact nomatch hc
  | cons hgives _ ih =>
    rcases List.mem_cons.1 hc with rfl | hc
    · exact ⟨_, hgives.2⟩
    · exact ih hc

/-- A report on checks succeeds if the checks pass after which no other one has the same text. -/
theorem succeeded_checks_iff {actual : Value} {cs : List PathCheck} {r : Report}
    (h : (Validator.checks cs).evaluate actual = .ok r) :
    r.succeeded = true ↔ ∀ c ∈ standing (·.path.render) cs, c.Passes actual := by
  obtain ⟨os, hrun, rfl⟩ := exists_run_of_evaluate h
  rw [succeeded_recordAll_iff distinct_empty, PathCheck.standing_valid_iff hrun]
  exact and_iff_right fun e he => nomatch he

/-- A report on checks has entries under the texts of their paths. -/
theorem mem_paths_checks {actual : Value} {cs : List PathCheck} {r : Report}
    (h : (Validator.checks cs).evaluate actual = .ok r) {t : String} :
    t ∈ r.paths ↔ t ∈ cs.map (·.path.render) := by
  obtain ⟨os, hrun, rfl⟩ := exists_run_of_evaluate h
  rw [mem_paths_recordAll, PathCheck.map_render_of_forall₂ hrun]
  exact or_iff_right List.not_mem_nil

end Report

/-! ## Strict passes -/

namespace Report

/-- The paths of the leaves that the report does not cover, in the order of the leaves. -/
def uncovered (r : Report) (actual : Value) : List Path :=
  (actual.leaves.map (·.path)).filter fun p => !(CoveredPaths.ofList r.paths).covers p

/-- The report with a failure for every leaf that it does not cover. -/
def close (r : Report) (actual : Value) : Report := r.addUnexpected (r.uncovered actual)

/-- An observer that collects uncovered paths keeps those among the paths of the leaves. -/
theorem forM_collect (covered : CoveredPaths) (ls : List (Leaf Label)) (paths : List Path) :
    StateT.run (forM ls covered.collect) paths =
      ((), paths ++ (ls.map (·.path)).filter fun p => !covered.covers p) := by
  induction ls generalizing paths with
  | nil =>
    rw [List.map_nil, List.filter_nil, List.append_nil]
    rfl
  | cons l ls ih =>
    have hcons : StateT.run (forM (l :: ls) covered.collect) paths =
        StateT.run (forM ls covered.collect)
          (if covered.covers l.path then paths else paths ++ [l.path]) := by
      show StateT.run (covered.collect l >>= fun _ => forM ls covered.collect) paths = _
      rw [CoveredPaths.collect]
      cases covered.covers l.path with
      | true => rfl
      | false => rfl
    rw [hcons, ih, List.map_cons, List.filter_cons]
    cases covered.covers l.path with
    | true => rfl
    | false => exact congrArg (Prod.mk ()) (List.append_assoc _ _ _)

/-- A walk finds the uncovered leaves if all keys can be written. -/
theorem findUncovered_eq (r : Report) (actual : Value) :
    r.findUncovered actual =
      if actual.hasWritableKeys then .ok (r.uncovered actual) else .error .tooManyDigits := by
  have hrun : ((actual.visit (CoveredPaths.ofList r.paths).collect Path.root).run.run []) =
      (Tree.walked actual.hasWritableKeys,
        (StateT.run (forM (actual.reachedFrom Path.root)
          (CoveredPaths.ofList r.paths).collect) []).2) := by
    rw [Tree.visit_eq]
    rfl
  rw [findUncovered, hrun, forM_collect, Tree.walked]
  cases h : actual.hasWritableKeys with
  | true =>
    rw [Tree.reachedFrom_of_hasWritableKeys h]
    rfl
  | false => rfl

end Report

/-- A strict validator closes the report of its inner one, if all keys of the value can be written.
-/
theorem Validator.evaluate_strict_eq (inner : Validator) (actual : Value) :
    (Validator.strict inner).evaluate actual =
      (inner.evaluate actual).bind fun r =>
        if actual.hasWritableKeys then .ok (r.close actual)
        else .error (.unwritable .tooManyDigits) := by
  rw [evaluate]
  cases inner.evaluate actual with
  | error fault => rfl
  | ok r =>
    show ((r.findUncovered actual).mapError CheckFault.unwritable >>= fun paths =>
      pure (r.addUnexpected paths)) = if _ then _ else _
    rw [Report.findUncovered_eq]
    cases actual.hasWritableKeys with
    | true => rfl
    | false => rfl

/-- There is a strict report if there is one of the inner validator and all keys of the value can be
written. -/
theorem Validator.evaluate_strict_eq_ok_iff {inner : Validator} {actual : Value} {r : Report} :
    (Validator.strict inner).evaluate actual = .ok r ↔
      actual.hasWritableKeys = true ∧
        ∃ lax, inner.evaluate actual = .ok lax ∧ lax.close actual = r := by
  rw [evaluate_strict_eq]
  cases inner.evaluate actual with
  | error fault => simp [Except.bind]
  | ok lax =>
    cases actual.hasWritableKeys with
    | true => simp [Except.bind]
    | false => simp [Except.bind]

/-- The strict report is the closed one of the inner validator. -/
theorem Validator.evaluate_strict {inner : Validator} {actual : Value} {lax : Report}
    (hkeys : actual.hasWritableKeys = true) (h : inner.evaluate actual = .ok lax) :
    (Validator.strict inner).evaluate actual = .ok (lax.close actual) :=
  evaluate_strict_eq_ok_iff.2 ⟨hkeys, lax, h, rfl⟩

/-- A strict validator fails like its inner one or because something is not written. -/
theorem Validator.fault_of_strict {inner : Validator} {actual : Value} {fault : CheckFault}
    (h : (Validator.strict inner).evaluate actual = .error fault) :
    inner.evaluate actual = .error fault ∨ fault = .unwritable .tooManyDigits := by
  rw [evaluate_strict_eq] at h
  cases hinner : inner.evaluate actual with
  | error fault' =>
    rw [hinner] at h
    obtain rfl := Except.error.inj h
    exact .inl rfl
  | ok r =>
    rw [hinner] at h
    refine .inr ?_
    cases hkeys : actual.hasWritableKeys with
    | true =>
      rw [hkeys] at h
      exact nomatch h
    | false =>
      rw [hkeys] at h
      exact (Except.error.inj h).symm

end TreeMatch
