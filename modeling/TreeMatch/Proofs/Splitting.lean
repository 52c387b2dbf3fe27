import TreeMatch.Proofs.Composing
import TreeMatch.Proofs.RecursiveMatch

/-!
# Schemas in parts

Whether a list of checks is run in one pass or in two, with the two reports merged, makes no
difference (`evaluate_checks_append`): a merge records again what the second part has recorded, and
recording goes on where it stopped. The checks of a map come entry by entry, so a map of two groups
of entries has the checks of the one and then those of the other (`flatten_map_append`). The main
statement is that a schema may be split at any of its entries, and parts without a common key put
together again (`schema_splits`). It does not matter which paths are written alike, in one part or
in both.
-/

namespace TreeMatch

/-! ## Checks in two parts -/

/-- Checks in two parts give the merge of the two reports, or the first fault. -/
theorem evaluate_checks_append (actual : Value) (cs ds : List PathCheck) :
    (Validator.checks (cs ++ ds)).evaluate actual = (do
      let r ← (Validator.checks cs).evaluate actual
      let s ← (Validator.checks ds).evaluate actual
      pure (r.merge s)) := by
  rw [Validator.evaluate, Validator.evaluate, Validator.evaluate, Report.addChecks_eq,
    Report.addChecks_eq, Report.addChecks_eq, PathCheck.runAll_append]
  cases PathCheck.runAll actual cs with
  | error fault => rfl
  | ok os =>
    cases PathCheck.runAll actual ds with
    | error fault => rfl
    | ok rest =>
      have hmerge : (Report.replay os).merge (Report.replay rest) = Report.replay (os ++ rest) := by
        rw [Report.merge_replay, Report.replay_append]
      exact congrArg Except.ok hmerge.symm

/-- Two lists of checks are composed as one list is checked. -/
theorem evaluate_compose_checks (actual : Value) (cs ds : List PathCheck) :
    (Validator.compose [.checks cs, .checks ds]).evaluate actual =
      (Validator.checks (cs ++ ds)).evaluate actual := by
  rw [evaluate_checks_append]
  show (Validator.evaluateAll actual [.checks cs, .checks ds]).map Report.mergeAll = _
  rw [Validator.evaluateAll, Validator.evaluateAll]
  cases hfirst : (Validator.checks cs).evaluate actual with
  | error fault => rfl
  | ok r =>
    cases (Validator.checks ds).evaluate actual with
    | error fault => rfl
    | ok s =>
      -- The merge begins with an empty report, and a report that was recorded into one is itself.
      obtain ⟨os, -, rfl⟩ := Report.exists_run_of_evaluate hfirst
      have hempty : Report.empty.merge (Report.replay os) = Report.replay os :=
        Report.merge_replay _ _
      show Except.ok ((Report.empty.merge (Report.replay os)).merge s) = _
      rw [hempty]
      rfl

/-! ## Maps in two parts -/

/-- The checks of a map come entry by entry. -/
theorem Schema.leafChecks_map_append {es fs : List (Key × Schema)} (hes : es ≠ []) (hfs : fs ≠ []) :
    leafChecks (.map (es ++ fs)) = leafChecks (.map es) ++ leafChecks (.map fs) := by
  have hchildren : (Tree.map (es ++ fs)).children =
      (Tree.map es).children ++ (Tree.map fs).children := List.map_append
  have hne : ∀ {ds : List (Key × Schema)}, ds ≠ [] → (Tree.map ds).children ≠ [] :=
    fun hds => mt List.map_eq_nil_iff.1 hds
  have hwhole : (Tree.map (es ++ fs)).children ≠ [] := by
    rw [hchildren]
    exact List.append_ne_nil_of_left_ne_nil (hne hes) _
  rw [leafChecks, leafChecks, leafChecks, Tree.leaves_of_children_ne_nil hwhole, hchildren,
    Tree.leaves_of_children_ne_nil (hne hes), Tree.leaves_of_children_ne_nil (hne hfs),
    List.flatMap_append, List.map_append]

/-- A map can be written if both parts of its entries can. -/
theorem Tree.isWritable_map_append {α : Type u} (es fs : List (Key × Tree α)) :
    (Tree.map (es ++ fs)).isWritable = ((Tree.map es).isWritable && (Tree.map fs).isWritable) := by
  rw [Bool.eq_iff_iff, Bool.and_eq_true]
  show allEntries _ _ (es ++ fs) = true ↔ allEntries _ _ es = true ∧ allEntries _ _ fs = true
  rw [allEntries_iff, allEntries_iff, allEntries_iff, List.forall_mem_append]

/-- A map is flattened part by part. -/
theorem Schema.flatten_map_append {es fs : List (Key × Schema)} (hes : es ≠ []) (hfs : fs ≠ []) :
    flatten (.map (es ++ fs)) = (do
      let cs ← flatten (.map es)
      let ds ← flatten (.map fs)
      pure (cs ++ ds)) := by
  rw [flatten_eq, flatten_eq, flatten_eq, Tree.isWritable_map_append, leafChecks_map_append hes hfs]
  cases (Tree.map es).isWritable with
  | false => rfl
  | true =>
    cases (Tree.map fs).isWritable with
    | false => rfl
    | true => rfl

/-- Keys that are distinct in two parts and not shared by them are distinct. -/
theorem Assoc.Distinct.append {κ : Type u} {β : Type v} {same : κ → κ → Bool}
    {es fs : List (κ × β)} (hes : Distinct same es) (hfs : Distinct same fs)
    (hnew : ∀ e ∈ es, ∀ f ∈ fs, same f.1 e.1 = false) : Distinct same (es ++ fs) := by
  have hpairs : (es ++ fs).Pairwise fun d e => same e.1 d.1 = false :=
    List.pairwise_append.2 ⟨List.pairwise_map.1 hes, List.pairwise_map.1 hfs, hnew⟩
  exact List.pairwise_map.2 hpairs

/-- Two maps with entries but without a common key compile exactly if the map compiles that has the
entries of the one and then those of the other. They are composed, part by part, as this map is
checked: the reports are the same, or the evaluation stops at the same fault. If no check gives up,
there is a report. The same holds of any two lists of checks, and what they are composed to is the
merge of their reports. -/
theorem schema_splits (actual : Value) :
    (∀ es fs : List (Key × Schema), es ≠ [] → fs ≠ [] →
      Assoc.Distinct Key.same es → Assoc.Distinct Key.same fs →
      (∀ e ∈ es, ∀ f ∈ fs, f.1.same e.1 = false) →
      ((∃ v, Schema.compile (Tree.ofPairs (es ++ fs)) = .ok v) ↔
        (∃ v₁, Schema.compile (.map es) = .ok v₁) ∧ ∃ v₂, Schema.compile (.map fs) = .ok v₂) ∧
      ∀ v v₁ v₂, Schema.compile (Tree.ofPairs (es ++ fs)) = .ok v →
        Schema.compile (.map es) = .ok v₁ → Schema.compile (.map fs) = .ok v₂ →
        v.evaluate actual = (Validator.compose [v₁, v₂]).evaluate actual ∧
        ∃ cs ds, Schema.flatten (.map es) = .ok cs ∧ Schema.flatten (.map fs) = .ok ds ∧
          ((∀ c ∈ cs ++ ds, ∃ o, c.run actual = .ok o) → ∃ r, v.evaluate actual = .ok r)) ∧
    ∀ cs ds : List PathCheck,
      (Validator.checks (cs ++ ds)).evaluate actual =
        (Validator.compose [.checks cs, .checks ds]).evaluate actual ∧
      (Validator.checks (cs ++ ds)).evaluate actual = (do
        let r ← (Validator.checks cs).evaluate actual
        let s ← (Validator.checks ds).evaluate actual
        pure (r.merge s)) := by
  refine ⟨fun es fs hes hfs hdes hdfs hnew => ?_, fun cs ds =>
    ⟨(evaluate_compose_checks actual cs ds).symm, evaluate_checks_append actual cs ds⟩⟩
  have hpairs : (Tree.ofPairs (es ++ fs) : Schema) = .map (es ++ fs) :=
    congrArg Tree.map (Assoc.ofPairs_of_distinct (hdes.append hdfs hnew))
  have hwritable := Tree.isWritable_map_append es fs
  have hcompiles : ∀ ds : List (Key × Schema),
      (∃ v, Schema.compile (.map ds) = .ok v) ↔ (Tree.map ds).isWritable = true := fun ds => by
    constructor
    · rintro ⟨v, hv⟩
      obtain ⟨cs, hcs, -⟩ := Schema.exists_flatten_of_compile_map hv
      exact (Schema.flatten_eq_ok_iff.1 hcs).1
    · exact fun h => ⟨_, Schema.compile_of_isWritable (Schema.isContainer_map ds) h⟩
  rw [hpairs]
  refine ⟨?_, fun v v₁ v₂ hv hv₁ hv₂ => ?_⟩
  · rw [hcompiles, hcompiles, hcompiles, hwritable, Bool.and_eq_true]
  · obtain ⟨cs, hcs, rfl⟩ := Schema.exists_flatten_of_compile_map hv₁
    obtain ⟨ds, hds, rfl⟩ := Schema.exists_flatten_of_compile_map hv₂
    have hflatten := Schema.flatten_map_append hes hfs
    rw [hcs, hds] at hflatten
    obtain ⟨cs', hcs', rfl⟩ := Schema.exists_flatten_of_compile_map hv
    obtain rfl : cs' = cs ++ ds := Except.ok.inj (hcs'.symm.trans hflatten)
    exact ⟨(evaluate_compose_checks actual cs ds).symm, cs, ds, hcs, hds,
      Report.exists_evaluate_checks⟩

/-- Entries with a check below `a`. -/
def wayEntries : List (Key × Schema) := [(.scalar (.str "a"), .map [(.scalar (.str "b"), .int 1)])]

/-- Entries of which one is written like the way to that check, and another one must be there. -/
def textEntries : List (Key × Schema) :=
  [(.scalar (.str "a.b"), .int 2), (.scalar (.int 3), .check (.named "present" .present))]

/-- A value with the wrong number below `a`. -/
def wrongWay : Value :=
  .map [(.scalar (.str "a"), .map [(.scalar (.str "b"), .int 9)]), (.scalar (.str "a.b"), .int 2)]

/-- The outcome of the second part takes over the place that the first one has found, whether the
schema is in one part or in two. -/
theorem wrongWay_splits : ∃ v v₁ v₂ r,
    Schema.compile (Tree.ofPairs (wayEntries ++ textEntries)) = .ok v ∧
    Schema.compile (.map wayEntries) = .ok v₁ ∧ Schema.compile (.map textEntries) = .ok v₂ ∧
    v.evaluate wrongWay = .ok r ∧ (Validator.compose [v₁, v₂]).evaluate wrongWay = .ok r ∧
    r.entries = [("a.b", .passed [.key "a.b"]), ("3", .keyMissing [.key "3"])] := by
  obtain ⟨-, hsplits⟩ := (schema_splits wrongWay).1 wayEntries textEntries (by decide) (by decide)
    (by decide) (by decide) (by decide)
  have hpairs : (Tree.ofPairs (wayEntries ++ textEntries) : Schema) =
      .map (wayEntries ++ textEntries) :=
    congrArg Tree.map (Assoc.ofPairs_of_distinct (by decide))
  have hcompiles : ∀ es : List (Key × Schema), (Tree.map es).isWritable = true →
      Schema.compile (.map es) = .ok (.checks (Schema.leafChecks (.map es))) := fun es h =>
    (Schema.compile_of_isWritable (Schema.isContainer_map es) h).trans
      (congrArg Except.ok (Schema.ofChecks_map es _))
  have hv := hcompiles (wayEntries ++ textEntries) (by decide +kernel)
  have hv₁ := hcompiles wayEntries (by decide +kernel)
  have hv₂ := hcompiles textEntries (by decide +kernel)
  rw [← hpairs] at hv
  obtain ⟨hsame, -⟩ := hsplits _ _ _ hv hv₁ hv₂
  have hentries : ((Validator.checks (Schema.leafChecks (Tree.ofPairs
      (wayEntries ++ textEntries)))).evaluate wrongWay).map (·.entries) =
        .ok [("a.b", .passed [.key "a.b"]), ("3", .keyMissing [.key "3"])] := by
    decide +kernel
  obtain ⟨r, hr, hentries⟩ := exists_of_map_eq_ok hentries
  exact ⟨_, _, _, r, hv, hv₁, hv₂, hr, hsame ▸ hr, hentries⟩

end TreeMatch
