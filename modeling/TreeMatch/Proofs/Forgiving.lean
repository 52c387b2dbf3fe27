import TreeMatch.Check.Stock
import TreeMatch.Proofs.Appending

/-!
# Optional checks forgive absence and nothing else

An optional check passes where its path leads nowhere, for whatever reason it does so: a missing
entry, a sequence that is too short, a container of another kind on the way. Everywhere else it says
what the check says that was made optional, and to make it optional again adds nothing
(`PathCheck.run_forgive`). In a report of checks at paths with different texts every check has its
own entry, so that making some of them optional changes just the entries of those whose paths lead
nowhere. The texts of the report stay, and with them the leaves that a strict pass finds uncovered
(`Report.surplus_congr`). The main statement is about the reports with and without this pass
(`optional_forgives_absence`).
-/

namespace TreeMatch

/-! ## One check -/

namespace Check

/-- An optional check passes for an absent value. -/
theorem run_optional_absent (c : Check) (path : Path) (value : Value) :
    c.optional.run path value false = .ok (.passed path) := rfl

/-- For a value that is there it makes no difference whether a check is optional. -/
theorem run_optional_found (c : Check) (path : Path) (value : Value) :
    c.optional.run path value true = c.run path value true := by
  unfold run
  simp [optional]

/-- A check that was made optional several times is one that was made optional once. -/
theorem run_repeat_optional (c : Check) (times : Nat) (path : Path) (value : Value)
    (found : Bool) : (Nat.repeat optional times c).run path value found =
      if 0 < times ∧ found = false then .ok (.passed path) else c.run path value found := by
  induction times with
  | zero => simp [Nat.repeat]
  | succ times ih =>
    -- For an absent value the outermost check decides alone; a value that is there goes inwards.
    rw [Nat.repeat]
    cases found with
    | false => simp [run_optional_absent]
    | true => simpa [run_optional_found] using ih

end Check

namespace PathCheck

/-- The check made optional as many times as given. -/
def forgive (c : PathCheck) (times : Nat) : PathCheck :=
  { c with check := Nat.repeat Check.optional times c.check }

/-- Whether a check is forgiven the absence of its value when it has been made optional so many
times: it has been made so at all, and its path leads nowhere. -/
def isForgiven (c : PathCheck) (times : Nat) (actual : Value) : Bool :=
  match actual.lookup c.path with
  | .ok none => 0 < times
  | _ => false

/-- A check that was made optional passes if its path leads nowhere, and gives what it gave before
otherwise. -/
theorem run_forgive (c : PathCheck) (times : Nat) (actual : Value) :
    (c.forgive times).run actual =
      if c.isForgiven times actual then .ok (.passed c.path) else c.run actual := by
  cases hfound : actual.lookup c.path with
  | error fault => simp [run, forgive, isForgiven, hfound]
  | ok found =>
    cases found with
    | none => simp [run, forgive, isForgiven, hfound, Check.run_repeat_optional]
    | some value => simp [run, forgive, isForgiven, hfound, Check.run_repeat_optional]

/-- A check that gives an outcome gives one when it was made optional. -/
theorem run_forgive_of_run {c : PathCheck} {actual : Value} {o : Outcome}
    (h : c.run actual = .ok o) (times : Nat) :
    (c.forgive times).run actual =
      .ok (if c.isForgiven times actual then .passed c.path else o) := by
  rw [run_forgive, h]
  split <;> rfl

/-- A check whose path cannot be looked up gives up, also when it was made optional. -/
theorem run_forgive_of_lookup {c : PathCheck} {actual : Value} {fault : WriteFault}
    (h : actual.lookup c.path = .error fault) (times : Nat) :
    (c.forgive times).run actual = .error (.unwritable fault) := by
  have hpath : (c.forgive times).path = c.path := rfl
  rw [PathCheck.run, hpath, h]

/-- Checks none of which gives up have an outcome each. -/
theorem exists_outcomes {checks : List PathCheck} {actual : Value}
    (hc : ∀ c ∈ checks, ∃ o, c.run actual = .ok o) :
    ∃ outcome : PathCheck → Outcome, ∀ c ∈ checks, c.run actual = .ok (outcome c) := by
  -- The outcome of a check that is not in the list does not matter, so any will do.
  have hruns : ∀ c : PathCheck, ∃ o, c ∈ checks → c.run actual = .ok o := by
    intro c
    by_cases hmem : c ∈ checks
    · obtain ⟨o, ho⟩ := hc c hmem
      exact ⟨o, fun _ => ho⟩
    · exact ⟨.passed c.path, fun h => absurd h hmem⟩
  choose outcome houtcome using hruns
  exact ⟨outcome, houtcome⟩

end PathCheck

/-! ## Reports -/

section Outcomes

variable {β : Type u} {xs : List β} {check : β → PathCheck} {outcome : β → Outcome}
  {actual : Value}

/-- Checks that all give an outcome run to the end. -/
theorem PathCheck.runAll_map (hrun : ∀ x ∈ xs, (check x).run actual = .ok (outcome x)) :
    runAll actual (xs.map check) = .ok (xs.map fun x => ((check x).path, outcome x)) := by
  induction xs with
  | nil => rfl
  | cons x xs ih =>
    have hrest := ih fun y hy => hrun y (List.mem_cons_of_mem _ hy)
    rw [List.map_cons, runAll, hrun x List.mem_cons_self, hrest]
    rfl

/-- Checks that all give an outcome, at paths with different texts, have one entry each. -/
theorem Report.evaluate_checks_map (hrun : ∀ x ∈ xs, (check x).run actual = .ok (outcome x))
    (hd : (xs.map fun x => (check x).path.render).Nodup) :
    (Validator.checks (xs.map check)).evaluate actual = .ok ⟨xs.map fun x =>
      ((check x).path.render, { outcome x with path := (check x).path })⟩ := by
  have htexts : ((xs.map fun x => ((check x).path, outcome x)).map (·.1.render)).Nodup := by
    rw [List.map_map]
    exact hd
  have hentries := entries_recordAll_of_nodup (r := empty) (fun _ _ => List.not_mem_nil) htexts
  rw [List.map_map] at hentries
  rw [evaluate_checks_of_runAll (PathCheck.runAll_map hrun)]
  exact congrArg Except.ok (congrArg mk hentries)

end Outcomes

namespace Report

/-- What a strict pass adds to a report depends on its texts alone. -/
theorem surplus_congr {r r' : Report} (h : r.paths = r'.paths) (actual : Value) :
    r.surplus actual = r'.surplus actual := by
  unfold surplus uncovered
  rw [h]

/-- What a strict pass adds are failures of unexpected fields, at texts that are new. -/
theorem surplus_is_new {r : Report} {actual : Value} {e : String × Outcome}
    (he : e ∈ (r.surplus actual).entries) :
    e.1 ∉ r.paths ∧ ∃ p, e = (p.render, .unexpectedField p) := by
  obtain ⟨p, hp, rfl⟩ := mem_entries_surplus.1 he
  exact ⟨render_notMem_paths (standing_subset _ _ hp), p, rfl⟩

end Report

/-- If a check among some cannot look its path up, and every other one that can gives an outcome,
then there is no report on them, however often each of them was made optional, and no strict one. -/
theorem Validator.evaluate_forgiven_of_lookup {checks : List (PathCheck × Nat)} {actual : Value}
    (hc : ∀ e ∈ checks, ∀ found, actual.lookup e.1.path = .ok found → ∃ o, e.1.run actual = .ok o)
    (hfault : ∃ e ∈ checks, ∃ fault, actual.lookup e.1.path = .error fault)
    (times : PathCheck × Nat → Nat) :
    ∀ v ∈ [Validator.checks (checks.map fun e => e.1.forgive (times e)),
        .strict (.checks (checks.map fun e => e.1.forgive (times e)))],
      v.evaluate actual = .error (.unwritable .tooManyDigits) := by
  have hruns : PathCheck.runAll actual (checks.map fun e => e.1.forgive (times e)) =
      .error (.unwritable .tooManyDigits) := by
    refine PathCheck.runAll_eq_error (List.forall_mem_map.2 fun e he => ?_) ?_
    · cases hfound : actual.lookup e.1.path with
      | ok found =>
        obtain ⟨o, ho⟩ := hc e he found hfound
        exact .inl ⟨_, PathCheck.run_forgive_of_run ho _⟩
      | error fault => exact .inr (PathCheck.run_forgive_of_lookup hfound _)
    · obtain ⟨e, he, fault, hfault⟩ := hfault
      exact ⟨_, List.mem_map_of_mem he, PathCheck.run_forgive_of_lookup hfault _⟩
  have hlax : (Validator.checks (checks.map fun e => e.1.forgive (times e))).evaluate actual =
      .error (.unwritable .tooManyDigits) := by
    rw [evaluate, Report.addChecks_eq, hruns]
    rfl
  refine List.forall_mem_cons.2 ⟨hlax, List.forall_mem_singleton.2 ?_⟩
  rw [evaluate_strict_eq, hlax]
  rfl

/-- Let checks stand at paths with different texts, let each of them whose path can be looked up
give an outcome, and let each be made optional some number of times, which may be zero. If all paths
can be looked up, then before and after that their report has one entry for every check, in order,
and a strict pass adds the same failures of unexpected fields at other texts, or comes to a key that
cannot be written before and after. An entry after that is a passed check if the check was made
optional and its path leads nowhere, and what it was before otherwise. If some path cannot be looked
up, there are no reports before and after. -/
theorem optional_forgives_absence (checks : List (PathCheck × Nat)) (actual : Value)
    (hd : (checks.map (·.1.path.render)).Nodup)
    (hc : ∀ e ∈ checks, ∀ found, actual.lookup e.1.path = .ok found →
      ∃ o, e.1.run actual = .ok o) :
    ((∀ e ∈ checks, ∃ found, actual.lookup e.1.path = .ok found) →
      ∃ (outcome : PathCheck → Outcome) (added : List (String × Outcome)),
        let before := checks.map fun e => (e.1.path.render, outcome e.1)
        let after := checks.map fun e => (e.1.path.render,
          if e.1.isForgiven e.2 actual then .passed e.1.path else outcome e.1)
        (Validator.checks (checks.map (·.1))).evaluate actual = .ok ⟨before⟩ ∧
        (Validator.checks (checks.map fun e => e.1.forgive e.2)).evaluate actual = .ok ⟨after⟩ ∧
        (actual.hasWritableKeys = true →
          (Validator.strict (.checks (checks.map (·.1)))).evaluate actual =
            .ok ⟨before ++ added⟩ ∧
          (Validator.strict (.checks (checks.map fun e => e.1.forgive e.2))).evaluate actual =
            .ok ⟨after ++ added⟩) ∧
        (actual.hasWritableKeys = false →
          (Validator.strict (.checks (checks.map (·.1)))).evaluate actual =
            .error (.unwritable .tooManyDigits) ∧
          (Validator.strict (.checks (checks.map fun e => e.1.forgive e.2))).evaluate actual =
            .error (.unwritable .tooManyDigits)) ∧
        ∀ e ∈ added, e.1 ∉ checks.map (·.1.path.render) ∧
          ∃ p, e = (p.render, .unexpectedField p)) ∧
    ((∃ e ∈ checks, ∃ fault, actual.lookup e.1.path = .error fault) →
      ∀ v ∈ [Validator.checks (checks.map (·.1)), .strict (.checks (checks.map (·.1))),
          .checks (checks.map fun e => e.1.forgive e.2),
          .strict (.checks (checks.map fun e => e.1.forgive e.2))],
        v.evaluate actual = .error (.unwritable .tooManyDigits)) := by
  refine ⟨fun hfound => ?_, fun hfault => ?_⟩
  · have hruns : ∀ e ∈ checks, ∃ o, e.1.run actual = .ok o := fun e he => by
      obtain ⟨found, hfound⟩ := hfound e he
      exact hc e he found hfound
    obtain ⟨given, hgiven⟩ := PathCheck.exists_outcomes (List.forall_mem_map.2 hruns)
    have hplain : ∀ e ∈ checks, e.1.run actual = .ok (given e.1) := List.forall_mem_map.1 hgiven
    have hforgiving : ∀ e ∈ checks, (e.1.forgive e.2).run actual =
        .ok (if e.1.isForgiven e.2 actual then .passed e.1.path else given e.1) :=
      fun e he => PathCheck.run_forgive_of_run (hplain e he) e.2
    -- A report files an outcome under the path of the check, whichever path the outcome names.
    let outcome : PathCheck → Outcome := fun c => { given c with path := c.path }
    let lax : Report := ⟨checks.map fun e => (e.1.path.render, outcome e.1)⟩
    refine ⟨outcome, (lax.surplus actual).entries, ?_⟩
    intro before after
    have hbefore : (Validator.checks (checks.map (·.1))).evaluate actual = .ok lax :=
      Report.evaluate_checks_map hplain hd
    have hafter : (Validator.checks (checks.map fun e => e.1.forgive e.2)).evaluate actual =
        .ok ⟨after⟩ := by
      rw [Report.evaluate_checks_map hforgiving hd]
      refine congrArg Except.ok (congrArg Report.mk (List.map_congr_left fun e _ => ?_))
      show (e.1.path.render, _) = (e.1.path.render, _)
      split <;> rfl
    -- Both reports have the texts of the checks, so a strict pass adds the same to them.
    have hpaths : lax.paths = checks.map (·.1.path.render) := List.map_map
    have hpaths' : (Report.mk after).paths = checks.map (·.1.path.render) := List.map_map
    refine ⟨hbefore, hafter, fun hkeys => ⟨?_, ?_⟩, fun hkeys => ⟨?_, ?_⟩, fun e he => ?_⟩
    · rw [Validator.evaluate_strict hkeys hbefore, Report.close_eq_append]
    · rw [Validator.evaluate_strict hkeys hafter, Report.close_eq_append,
        Report.surplus_congr (hpaths'.trans hpaths.symm)]
    · rw [Validator.evaluate_strict_eq, hbefore, hkeys]
      rfl
    · rw [Validator.evaluate_strict_eq, hafter, hkeys]
      rfl
    · rw [← hpaths]
      exact Report.surplus_is_new he
  · have hnever := Validator.evaluate_forgiven_of_lookup hc hfault fun _ => 0
    have hafter := Validator.evaluate_forgiven_of_lookup hc hfault fun e => e.2
    exact List.forall_mem_append.2 ⟨hnever, hafter⟩

/-- A value with a short list, a number and one thing more. -/
def sparseValue : Value :=
  .map [(.scalar (.str "tags"), .list [.str "x"]), (.scalar (.str "n"), .int 5),
    (.scalar (.str "extra"), .null)]

/-- Checks of an element behind the end of the list, of an entry in the number, of the number and of
a missing entry, with the number of times that each is made optional. -/
def lenientChecks : List (PathCheck × Nat) :=
  [(⟨[.key "tags", .index 1], .comparison (.str "y")⟩, 2),
    (⟨[.key "n", .key "deep"], .named "present" .present⟩, 1),
    (⟨[.key "n"], .comparison (.int 6)⟩, 1),
    (⟨[.key "gone"], .named "present" .present⟩, 0)]

/-- All four checks fail. Made optional, the first two pass, but the third has a value that differs
and the fourth was not made optional. What a strict pass adds is the same. -/
theorem lenientChecks_forgive_sparseValue : ∃ before after added : List (String × Outcome),
    (Validator.strict (.checks (lenientChecks.map (·.1)))).evaluate sparseValue =
      .ok ⟨before ++ added⟩ ∧
    (Validator.strict (.checks (lenientChecks.map fun e => e.1.forgive e.2))).evaluate
      sparseValue = .ok ⟨after ++ added⟩ ∧
    before.map (fun e => (e.1, e.2.valid)) =
      [("tags.[1]", false), ("n.deep", false), ("n", false), ("gone", false)] ∧
    after.map (fun e => (e.1, e.2.valid)) =
      [("tags.[1]", true), ("n.deep", true), ("n", false), ("gone", false)] := by
  have hd : (lenientChecks.map (·.1.path.render)).Nodup := by decide +kernel
  have hends : ∀ e ∈ lenientChecks, (e.1.run sparseValue).map (fun _ => ()) = .ok () := by
    decide +kernel
  have hruns : ∀ e ∈ lenientChecks, ∃ o, e.1.run sparseValue = .ok o := fun e he =>
    (exists_of_map_eq_ok (hends e he)).imp fun _ h => h.1
  have hkeys : sparseValue.hasWritableKeys = true := by decide +kernel
  obtain ⟨outcome, added, hbefore, hafter, hstricts, -, -⟩ :=
    (optional_forgives_absence lenientChecks sparseValue hd fun e he _ _ => hruns e he).1
      fun e _ => ⟨_, Tree.lookup_of_hasWritableKeys hkeys e.1.path⟩
  obtain ⟨hstrict, hforgiving⟩ := hstricts hkeys
  refine ⟨_, _, added, hstrict, hforgiving, ?_, ?_⟩
  · have hverdicts : ((Validator.checks (lenientChecks.map (·.1))).evaluate sparseValue).map
        (fun r => r.entries.map fun e => (e.1, e.2.valid)) =
          .ok [("tags.[1]", false), ("n.deep", false), ("n", false), ("gone", false)] := by
      decide +kernel
    rw [hbefore] at hverdicts
    exact Except.ok.inj hverdicts
  · have hverdicts : ((Validator.checks (lenientChecks.map fun e =>
        e.1.forgive e.2)).evaluate sparseValue).map
        (fun r => r.entries.map fun e => (e.1, e.2.valid)) =
          .ok [("tags.[1]", true), ("n.deep", true), ("n", false), ("gone", false)] := by
      decide +kernel
    rw [hafter] at hverdicts
    exact Except.ok.inj hverdicts

end TreeMatch
