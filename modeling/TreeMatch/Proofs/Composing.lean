import Mathlib.Data.List.Induction
import TreeMatch.Check.Stock
import TreeMatch.Proofs.Closing
import TreeMatch.Proofs.Merging

/-!
# Compositions as ordered merges

A composition merges the reports of its parts, one after the other, into an empty one. To look a
text up in a merged report is to look it up in the report that came last, and if it is not there in
the one before (`Coherent.get?_merge`). So under every text the composition has what the last of its
parts has that has something there (`get?_mergeAll`), at the place where the first one put it
(`paths_mergeAll`). Both speak of reports in which every outcome stands under the text of its path,
and every report of a validator is of this kind (`coherent_of_evaluate`). That parts may be
regrouped needs no more than that a merge replays what it merges (`mergeAll_regroup`). The main
statement puts this together for compositions of any validators (`compose_merges_in_order`).
-/

namespace TreeMatch

namespace Report

/-! ## Looking up in merged reports -/

/-- After recording, the outcome is found under the text of its path, and every other text has what
it had. -/
theorem get?_record (r : Report) (p : Path) (o : Outcome) (t : String) :
    (r.record p o).get? t = if t = p.render then some { o with path := p } else r.get? t := by
  rw [get?, get?, ← Assoc.get?_eq_lookup, ← Assoc.get?_eq_lookup, record, Assoc.get?_set]

/-- What is found in a merged report is found in the report that was merged, or else in the one that
it was merged into. -/
theorem Coherent.get?_merge {r' : Report} (h : r'.Coherent) (r : Report) (t : String) :
    (r.merge r').get? t = (r'.get? t).or (r.get? t) := by
  rw [get?, get?, get?, ← Assoc.get?_eq_lookup, ← Assoc.get?_eq_lookup, ← Assoc.get?_eq_lookup,
    h.merge_eq, Assoc.get?_setAll h.distinct]

/-- A report of coherent entries is looked through path by path. -/
theorem Coherent.map_render_eachResult {r : Report} (h : r.Coherent) :
    r.eachResult.map (·.1.render) = r.paths := by
  rw [eachResult, outcomes, List.map_map, List.map_map, paths]
  exact List.map_congr_left fun e he => (h.aligned e he).symm

/-! ## Merging many reports -/

/-- To merge reports one after the other is to record all their outcomes. -/
theorem mergeAll_eq_replay (rs : List Report) : mergeAll rs = replay (rs.flatMap eachResult) := by
  rw [mergeAll, replay, recordAll, List.foldl_flatMap]
  rfl

/-- A merge of reports is coherent, whatever they are. -/
theorem coherent_mergeAll (rs : List Report) : (mergeAll rs).Coherent := by
  rw [mergeAll_eq_replay]
  exact coherent_replay _

/-- Merged reports have the texts of all of them, in the order in which they first occur. -/
theorem paths_mergeAll {rs : List Report} (h : ∀ r ∈ rs, r.Coherent) :
    (mergeAll rs).paths = (rs.flatMap paths).eraseDups := by
  have htexts : (rs.flatMap eachResult).map (·.1.render) = rs.flatMap paths := by
    rw [List.map_flatMap]
    exact List.flatMap_congr fun r hr => (h r hr).map_render_eachResult
  rw [mergeAll_eq_replay, replay, paths_recordAll_empty, htexts]

/-- What is found in merged reports is found in the last of them that has anything there. -/
theorem get?_mergeAll {rs : List Report} (h : ∀ r ∈ rs, r.Coherent) (t : String) :
    (mergeAll rs).get? t = rs.reverse.findSome? (·.get? t) := by
  induction rs using List.reverseRecOn with
  | nil => rfl
  | append_singleton rs r ih =>
    have hstep : mergeAll (rs ++ [r]) = (mergeAll rs).merge r := by
      rw [mergeAll, mergeAll, List.foldl_append, List.foldl_cons, List.foldl_nil]
    rw [hstep, (h r (by simp)).get?_merge, ih fun s hs => h s (List.mem_append_left _ hs),
      List.reverse_concat, List.findSome?_cons]
    cases r.get? t with
    | none => rfl
    | some o => rfl

/-- Reports may be merged among themselves before they are merged with others. -/
theorem mergeAll_regroup (xs ys zs : List Report) :
    mergeAll (xs ++ mergeAll ys :: zs) = mergeAll (xs ++ ys ++ zs) := by
  have hmiddle : (mergeAll xs).merge (mergeAll ys) = mergeAll (xs ++ ys) := by
    rw [mergeAll_eq_replay ys, merge_replay, mergeAll_eq_replay xs, mergeAll_eq_replay (xs ++ ys),
      List.flatMap_append, replay_append]
  calc mergeAll (xs ++ mergeAll ys :: zs)
      = zs.foldl merge ((mergeAll xs).merge (mergeAll ys)) := by
        rw [mergeAll, List.foldl_append, List.foldl_cons, mergeAll, mergeAll]
    _ = mergeAll (xs ++ ys ++ zs) := by
        rw [hmiddle, mergeAll, mergeAll, ← List.foldl_append]

/-- The outcome of a report is found when the report is merged with others, some before it and some
after it. As another report may have just the same outcome, this is said of every message that the
outcome could have. -/
def Survives (before : List Report) (r : Report) (after : List Report) (o : Outcome) : Prop :=
  ∀ message : String,
    (mergeAll (before ++ r.record o.path { o with message := message } :: after)).get?
      o.path.render = some { o with message := message }

/-- An outcome survives the merge exactly if no later report has anything at its text. -/
theorem survives_iff {before after : List Report} {r : Report} {o : Outcome}
    (hbefore : ∀ s ∈ before, s.Coherent) (hr : r.Coherent) (hafter : ∀ s ∈ after, s.Coherent) :
    Survives before r after o ↔ ∀ s ∈ after, o.path.render ∉ s.paths := by
  have hfound : ∀ message, (mergeAll
      (before ++ r.record o.path { o with message := message } :: after)).get? o.path.render =
        (after.reverse.findSome? (·.get? o.path.render)).or
          (some { o with message := message }) := by
    intro message
    have hall : ∀ s ∈ before ++ r.record o.path { o with message := message } :: after,
        s.Coherent := by
      intro s hs
      rcases List.mem_append.1 hs with hs | hs
      · exact hbefore s hs
      · rcases List.mem_cons.1 hs with rfl | hs
        · exact hr.record _ _
        · exact hafter s hs
    rw [get?_mergeAll hall, List.reverse_append, List.reverse_cons, List.append_assoc,
      List.findSome?_append, List.singleton_append, List.findSome?_cons, get?_record, if_pos rfl]
  have hnone : after.reverse.findSome? (·.get? o.path.render) = none ↔
      ∀ s ∈ after, o.path.render ∉ s.paths := by
    simp only [List.findSome?_eq_none_iff, List.mem_reverse, get?_eq_none_iff]
  rw [Survives, ← hnone]
  simp only [hfound]
  constructor
  · intro h
    -- A later outcome could not have two messages.
    cases hlater : after.reverse.findSome? (·.get? o.path.render) with
    | none => rfl
    | some later =>
      rw [hlater] at h
      have hempty : later.message = "" := congrArg Outcome.message (Option.some.inj (h ""))
      have hother : later.message = "x" := congrArg Outcome.message (Option.some.inj (h "x"))
      exact absurd (hempty.symm.trans hother) (by decide)
  · intro h message
    rw [h, Option.none_or]

end Report

namespace Validator

/-! ## Reports of validators -/

/-- Every report of a validator is coherent. -/
theorem coherent_of_evaluate {actual : Value} :
    ∀ {v : Validator} {r : Report}, v.evaluate actual = .ok r → r.Coherent
  | .checks cs, r, h => by
    obtain ⟨os, -, rfl⟩ := Report.exists_run_of_evaluate h
    exact Report.coherent_replay os
  | .predicate c, r, h => by
    obtain ⟨o, -, rfl⟩ := exists_of_map_eq_ok h
    exact Report.coherent_empty.record _ o
  | .strict inner, r, h => by
    obtain ⟨-, lax, hlax, rfl⟩ := evaluate_strict_eq_ok_iff.1 h
    rw [Report.close_eq_recordAll]
    exact (coherent_of_evaluate hlax).recordAll _
  | .compose parts, r, h => by
    obtain ⟨rs, -, rfl⟩ := exists_of_map_eq_ok h
    exact Report.coherent_mergeAll rs

/-- The report is what the validator answers on the value. -/
def Reports (actual : Value) (v : Validator) (r : Report) : Prop := v.evaluate actual = .ok r

instance (actual : Value) (v : Validator) (r : Report) : Decidable (Reports actual v r) :=
  inferInstanceAs (Decidable (_ = _))

/-- Validators that all report are evaluated one by one. -/
theorem evaluateAll_eq_ok_iff {actual : Value} {vs : List Validator} {rs : List Report} :
    evaluateAll actual vs = .ok rs ↔ List.Forall₂ (Reports actual) vs rs := by
  induction vs generalizing rs with
  | nil =>
    rw [evaluateAll, List.forall₂_nil_left_iff, Except.ok.injEq, eq_comm]
  | cons v vs ih =>
    rw [evaluateAll, List.forall₂_cons_left_iff]
    cases hv : v.evaluate actual with
    | error fault =>
      refine iff_of_false (fun h => nomatch h) ?_
      rintro ⟨r, rest, hr, -, -⟩
      exact nomatch hv.symm.trans hr
    | ok r =>
      constructor
      · intro h
        obtain ⟨rest, hrest, rfl⟩ := exists_of_map_eq_ok h
        exact ⟨r, rest, hv, ih.1 hrest, rfl⟩
      · rintro ⟨r', rest, hr, hrest, rfl⟩
        obtain rfl := Except.ok.inj (hv.symm.trans hr)
        show (evaluateAll actual vs).map (r :: ·) = _
        rw [ih.2 hrest]
        rfl

/-- Validators each of which has a report have a list of reports. -/
theorem exists_reports {actual : Value} {vs : List Validator}
    (h : ∀ v ∈ vs, ∃ r, v.evaluate actual = .ok r) :
    ∃ rs, List.Forall₂ (Reports actual) vs rs := by
  induction vs with
  | nil => exact ⟨[], .nil⟩
  | cons v vs ih =>
    obtain ⟨⟨r, hr⟩, hrest⟩ := List.forall_mem_cons.1 h
    obtain ⟨rs, hrs⟩ := ih hrest
    exact ⟨r :: rs, .cons hr hrs⟩

/-- What every validator has exactly if its report has something, all validators have exactly if all
reports do. -/
theorem forall_validators_iff {actual : Value} {vs : List Validator} {rs : List Report}
    {P : Validator → Prop} {Q : Report → Prop} (h : List.Forall₂ (Reports actual) vs rs)
    (heach : ∀ v r, v.evaluate actual = .ok r → (P v ↔ Q r)) :
    (∀ v ∈ vs, P v) ↔ ∀ r ∈ rs, Q r := by
  induction h with
  | nil => exact iff_of_true (fun _ hv => nomatch hv) (fun _ hr => nomatch hr)
  | cons hv _ ih => rw [List.forall_mem_cons, List.forall_mem_cons, heach _ _ hv, ih]

/-- Reports of validators are coherent. -/
theorem coherent_of_reports {actual : Value} {vs : List Validator} {rs : List Report}
    (h : List.Forall₂ (Reports actual) vs rs) : ∀ r ∈ rs, r.Coherent :=
  (forall_validators_iff h fun _ _ hv => iff_of_true trivial (coherent_of_evaluate hv)).1
    fun _ _ => trivial

/-- A composition of validators that all report merges their reports. -/
theorem evaluate_compose {actual : Value} {vs : List Validator} {rs : List Report}
    (h : List.Forall₂ (Reports actual) vs rs) :
    (compose vs).evaluate actual = .ok (Report.mergeAll rs) := by
  rw [evaluate, evaluateAll_eq_ok_iff.2 h]
  rfl

/-- Validators are evaluated up to the first fault, so the first ones come first. -/
theorem evaluateAll_append (actual : Value) (vs ws : List Validator) :
    evaluateAll actual (vs ++ ws) =
      (evaluateAll actual vs).bind fun rs => (evaluateAll actual ws).map (rs ++ ·) := by
  induction vs with
  | nil =>
    rw [List.nil_append, evaluateAll]
    show _ = (evaluateAll actual ws).map id
    cases evaluateAll actual ws with
    | error fault => rfl
    | ok rs => rfl
  | cons v vs ih =>
    rw [List.cons_append, evaluateAll, evaluateAll, ih]
    cases v.evaluate actual with
    | error fault => rfl
    | ok r =>
      cases evaluateAll actual vs with
      | error fault => rfl
      | ok rs =>
        cases evaluateAll actual ws with
        | error fault => rfl
        | ok ss => rfl

/-- Validators may be composed among themselves before they are composed with others. -/
theorem evaluate_compose_regroup (actual : Value) (xs ys zs : List Validator) :
    (compose (xs ++ compose ys :: zs)).evaluate actual =
      (compose (xs ++ ys ++ zs)).evaluate actual := by
  rw [evaluate, evaluate, List.append_assoc, evaluateAll_append, evaluateAll_append,
    evaluateAll_append, evaluateAll, evaluate]
  -- The fault that comes first is the same on both sides. Without one, reports are regrouped.
  cases evaluateAll actual xs with
  | error fault => rfl
  | ok rs =>
    cases evaluateAll actual ys with
    | error fault => rfl
    | ok ss =>
      cases evaluateAll actual zs with
      | error fault => rfl
      | ok ts =>
        have hmerge := Report.mergeAll_regroup rs ss ts
        rw [List.append_assoc] at hmerge
        exact congrArg Except.ok hmerge

end Validator

/-- A composition of validators that all report has the texts of their reports, in the order in
which they first occur, and under each text what the last report that has the text has there. So it
succeeds exactly if all these outcomes are valid, and an outcome of one of the reports survives
exactly if no later one has its text. Whether some of the validators have been composed before makes
no difference. -/
theorem compose_merges_in_order (actual : Value) :
    (∀ vs rs, List.Forall₂ (Validator.Reports actual) vs rs →
      ∃ r, (Validator.compose vs).evaluate actual = .ok r ∧
        r.paths = (rs.flatMap Report.paths).eraseDups ∧
        (∀ t, r.get? t = rs.reverse.findSome? (·.get? t)) ∧
        (r.succeeded = true ↔
          ∀ t o, rs.reverse.findSome? (·.get? t) = some o → o.valid = true) ∧
        ∀ before s after, rs = before ++ s :: after → ∀ t o, s.get? t = some o →
          (Report.Survives before s after o ↔ ∀ s' ∈ after, t ∉ s'.paths)) ∧
    ∀ xs ys zs, (Validator.compose (xs ++ .compose ys :: zs)).evaluate actual =
      (Validator.compose (xs ++ ys ++ zs)).evaluate actual := by
  refine ⟨fun vs rs h => ?_, Validator.evaluate_compose_regroup actual⟩
  have hcoherent := Validator.coherent_of_reports h
  have hget : ∀ t, (Report.mergeAll rs).get? t = rs.reverse.findSome? (·.get? t) :=
    Report.get?_mergeAll hcoherent
  refine ⟨Report.mergeAll rs, Validator.evaluate_compose h, Report.paths_mergeAll hcoherent, hget,
    ?_, ?_⟩
  · rw [(Report.coherent_mergeAll rs).distinct.succeeded_iff_get?]
    simp only [hget]
  · rintro before s after rfl t o ho
    obtain ⟨hbefore, hrest⟩ := List.forall_mem_append.1 hcoherent
    obtain ⟨hs, hafter⟩ := List.forall_mem_cons.1 hrest
    have htext : t = o.path.render := hs.aligned _ (hs.distinct.get?_eq_some_iff.1 ho)
    rw [htext]
    exact Report.survives_iff hbefore hs hafter

/-- A value with two entries. -/
def pairValue : Value := .map [(.scalar (.str "a"), .int 1), (.scalar (.str "b"), .int 2)]

/-- Validators that contradict each other: the first one fails `a`, the second one is strict and
passes `a` alone, the third one is a composition and passes `b`, and the last one fails `c`. -/
def contradicting : List Validator :=
  [.checks [⟨[.key "a"], .named "rejected" (.reject "no")⟩],
    .strict (.checks [⟨[.key "a"], .named "present" .present⟩]),
    .compose [.checks [⟨[.key "b"], .named "present" .present⟩],
      .predicate (.named "present" .present)],
    .checks [⟨[.key "c"], .named "present" .present⟩]]

/-- What they report. -/
def contradictingReports : List Report :=
  [⟨[("a", .failed [.key "a"] "no")]⟩,
    ⟨[("a", .passed [.key "a"]), ("b", .unexpectedField [.key "b"])]⟩,
    ⟨[("b", .passed [.key "b"]), ("", .passed [])]⟩,
    ⟨[("c", .keyMissing [.key "c"])]⟩]

/-- The reports are those of the validators. -/
theorem reports_contradicting :
    List.Forall₂ (Validator.Reports pairValue) contradicting contradictingReports := by
  have hstrict : Validator.Reports pairValue
      (.strict (.checks [⟨[.key "a"], .named "present" .present⟩]))
      ⟨[("a", .passed [.key "a"]), ("b", .unexpectedField [.key "b"])]⟩ := by
    have hinner : (Validator.checks [⟨[.key "a"], .named "present" .present⟩]).evaluate pairValue =
        .ok ⟨[("a", .passed [.key "a"])]⟩ := by decide +kernel
    have huncovered : (⟨[("a", .passed [.key "a"])]⟩ : Report).uncovered pairValue =
        [[.key "b"]] := by
      rw [Report.uncovered]
      simp only [CoveredPaths.covers_ofList_eq_decide]
      decide +kernel
    rw [Validator.Reports, Validator.evaluate_strict (by decide +kernel) hinner, Report.close,
      huncovered]
    decide +kernel
  exact .cons (by decide +kernel) (.cons hstrict
    (.cons (by decide +kernel) (.cons (by decide +kernel) .nil)))

/-- The failures under `a` and `b` give way to what later validators report there. The one under `c`
survives. -/
theorem compose_contradicting :
    (∃ r, (Validator.compose contradicting).evaluate pairValue = .ok r ∧
      r.paths = ["a", "b", "", "c"] ∧ r.get? "a" = some (.passed [.key "a"]) ∧
      r.get? "b" = some (.passed [.key "b"]) ∧ r.succeeded = false) ∧
    ∃ s₁ s₂ s₃ s₄, contradictingReports = [s₁, s₂, s₃, s₄] ∧
      ¬ Report.Survives [s₁] s₂ [s₃, s₄] (.unexpectedField [.key "b"]) ∧
      Report.Survives [s₁, s₂, s₃] s₄ [] (.keyMissing [.key "c"]) := by
  obtain ⟨r, hr, hpaths, hget, hsucceeded, hsurvives⟩ :=
    (compose_merges_in_order pairValue).1 _ _ reports_contradicting
  refine ⟨⟨r, hr, ?_, ?_, ?_, ?_⟩, _, _, _, _, rfl, ?_, ?_⟩
  · rw [hpaths]
    decide +kernel
  · rw [hget]
    decide +kernel
  · rw [hget]
    decide +kernel
  · rw [← Bool.not_eq_true, hsucceeded]
    intro h
    have hvalid := h "c" (.keyMissing [.key "c"]) (by decide +kernel)
    exact nomatch hvalid
  · rw [hsurvives [_] _ [_, _] rfl "b" _ (by decide +kernel)]
    decide +kernel
  · rw [hsurvives [_, _, _] _ [] rfl "c" _ (by decide +kernel)]
    exact fun _ h => nomatch h

end TreeMatch
