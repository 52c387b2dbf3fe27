import TreeMatch.Check.Stock
import TreeMatch.Proofs.Compiling

/-!
# Failures that a report hides

A report knows a check by the text of its path alone. Two leaves of a schema may have paths with the
same text, and then the outcome of the later one replaces that of the earlier one, even if it
failed: the report succeeds exactly if the checks pass after which no other one has the same text.
So no failure is hidden where the texts differ, and where they do not, checks at the same paths hide
one (`succeeded_iff_unreplaced_pass`). The texts differ where the keys of each map have different
names without dots (`DistinctNames.nodup_render`); a key with a dot can have the text of another
path (`succeeds_beside_failed_check`).
-/

namespace TreeMatch

/-! ## Members that stand -/

/-- What is followed by a member with the same text does not stand. -/
theorem mem_of_mem_standing {β : Type u} {text : β → String} {before after : List β} {x y : β}
    (hx : text x ∈ after.map text) (h : y ∈ standing text (before ++ x :: after)) :
    y ∈ before ∨ y ∈ after := by
  -- The place of `y` is not that of `x`, since no member after `y` has its text.
  obtain ⟨init, rest, heq, hy⟩ := mem_standing_iff.1 h
  rcases List.append_eq_append_iff.1 heq with ⟨middle, rfl, hmiddle⟩ | ⟨middle, rfl, hmiddle⟩
  · cases middle with
    | nil =>
      obtain ⟨rfl, rfl⟩ := List.cons.inj hmiddle
      exact absurd hx hy
    | cons z middle =>
      obtain ⟨-, rfl⟩ := List.cons.inj hmiddle
      exact .inr (List.mem_append_right _ List.mem_cons_self)
  · cases middle with
    | nil =>
      obtain ⟨rfl, rfl⟩ := List.cons.inj hmiddle
      exact absurd hx hy
    | cons z middle =>
      obtain ⟨rfl, -⟩ := List.cons.inj hmiddle
      exact .inl (List.mem_append_right _ List.mem_cons_self)

/-- Where not all texts differ, some member is followed by another one with its text. -/
theorem exists_replaced {β : Type u} {text : β → String} {xs : List β}
    (h : ¬ (xs.map text).Nodup) :
    ∃ before x after, xs = before ++ x :: after ∧ text x ∈ after.map text := by
  induction xs with
  | nil => exact absurd List.nodup_nil h
  | cons x xs ih =>
    by_cases hx : text x ∈ xs.map text
    · exact ⟨[], x, xs, rfl, hx⟩
    · have hrest : ¬ (xs.map text).Nodup := fun hd => h (List.nodup_cons.2 ⟨hx, hd⟩)
      obtain ⟨before, y, after, rfl, hy⟩ := ih hrest
      exact ⟨x :: before, y, after, rfl, hy⟩

/-! ## Checks that hide a failure -/

/-- The check that accepts whatever is at a path. -/
def PathCheck.accepting (p : Path) : PathCheck := ⟨p, .named "accept" (.accept "")⟩

/-- The check that rejects whatever is at a path. -/
def PathCheck.rejecting (p : Path) : PathCheck := ⟨p, .named "reject" (.reject "")⟩

/-- Nothing fails a check that accepts, if its path can be followed. -/
theorem PathCheck.accepting_passes {p : Path} {actual : Value} (hp : actual.canFollow p = true) :
    (accepting p).Passes actual :=
  ⟨.passedWith p "", (run_eq _ actual).trans (if_pos hp), rfl⟩

/-- Nothing passes a check that rejects. -/
theorem PathCheck.not_passes_rejecting (p : Path) (actual : Value) :
    ¬ (rejecting p).Passes actual := by
  rintro ⟨o, ho, hvalid⟩
  have hrun := (run_eq _ actual).symm.trans ho
  rw [if_pos (canFollow_of_run ho)] at hrun
  obtain rfl := Except.ok.inj hrun
  exact nomatch hvalid

/-- Checks of which only the one between `before` and `after` rejects. -/
def PathCheck.rejectingOnly (before : List Path) (p : Path) (after : List Path) : List PathCheck :=
  before.map accepting ++ rejecting p :: after.map accepting

/-- The paths of the checks are the given ones. -/
theorem PathCheck.map_path_rejectingOnly (before : List Path) (p : Path) (after : List Path) :
    (rejectingOnly before p after).map (·.path) = before ++ p :: after := by
  have hpaths : ∀ ps : List Path, (ps.map accepting).map (·.path) = ps := by
    intro ps
    rw [List.map_map]
    exact List.map_id _
  rw [rejectingOnly, List.map_append, List.map_cons, hpaths, hpaths]
  rfl

/-- These checks give an outcome where all the paths can be followed. -/
theorem PathCheck.exists_run_rejectingOnly {before : List Path} {p : Path} {after : List Path}
    {actual : Value} (hfollow : ∀ q ∈ before ++ p :: after, actual.canFollow q = true)
    {c : PathCheck} (hc : c ∈ rejectingOnly before p after) : ∃ o, c.run actual = .ok o := by
  have hpath : actual.canFollow c.path = true := by
    refine hfollow c.path ?_
    rw [← map_path_rejectingOnly before p after]
    exact List.mem_map_of_mem hc
  rw [run_eq, if_pos hpath]
  rcases List.mem_append.1 hc with hc | hc
  · obtain ⟨q, -, rfl⟩ := List.mem_map.1 hc
    exact ⟨_, rfl⟩
  · rcases List.mem_cons.1 hc with rfl | hc
    · exact ⟨_, rfl⟩
    · obtain ⟨q, -, rfl⟩ := List.mem_map.1 hc
      exact ⟨_, rfl⟩

/-- If a later path has the text of the check that rejects, all checks that stand pass. -/
theorem PathCheck.passes_of_mem_standing {before : List Path} {p : Path} {after : List Path}
    (hp : p.render ∈ after.map Path.render) {actual : Value}
    (hfollow : ∀ q ∈ before ++ p :: after, actual.canFollow q = true) {c : PathCheck}
    (hc : c ∈ standing (·.path.render) (rejectingOnly before p after)) : c.Passes actual := by
  have hlater : (rejecting p).path.render ∈ (after.map accepting).map (·.path.render) := by
    rw [List.map_map]
    exact hp
  -- The check that rejects is replaced, and all others accept.
  rcases mem_of_mem_standing hlater hc with hc | hc
  · obtain ⟨q, hq, rfl⟩ := List.mem_map.1 hc
    exact accepting_passes (hfollow q (List.mem_append_left _ hq))
  · obtain ⟨q, hq, rfl⟩ := List.mem_map.1 hc
    exact accepting_passes (hfollow q (List.mem_append_right _ (List.mem_cons_of_mem _ hq)))

/-- Where two paths have the same text, checks at these paths can fail unseen on every value in
which the paths can be followed. -/
theorem exists_hidden_failure {paths : List Path} (h : ¬ (paths.map Path.render).Nodup)
    {actual : Value} (hfollow : ∀ p ∈ paths, actual.canFollow p = true) :
    ∃ cs r, cs.map (·.path) = paths ∧
      (Validator.checks cs).evaluate actual = .ok r ∧ r.succeeded = true ∧
      ∃ c ∈ cs, ¬ c.Passes actual := by
  obtain ⟨before, p, after, rfl, hp⟩ := exists_replaced h
  obtain ⟨r, hr⟩ := Report.exists_evaluate_checks fun c hc =>
    PathCheck.exists_run_rejectingOnly hfollow hc
  refine ⟨_, r, PathCheck.map_path_rejectingOnly before p after, hr, ?_, .rejecting p, ?_,
    PathCheck.not_passes_rejecting p actual⟩
  · rw [Report.succeeded_checks_iff hr]
    exact fun c hc => PathCheck.passes_of_mem_standing hp hfollow hc
  · exact List.mem_append_right _ List.mem_cons_self

/-! ## Reports on map schemas -/

/-- The report on a map schema succeeds if the checks pass after which no other one has a path with
the same text. Where the texts of all paths differ, it succeeds if all checks pass; where they do
not, some checks at the same paths hide a failure. -/
theorem succeeded_iff_unreplaced_pass (es : List (Key × Schema)) (actual : Value) {v : Validator}
    {r : Report} (hv : Schema.compile (.map es) = .ok v) (hr : v.evaluate actual = .ok r) :
    ∃ cs, Schema.flatten (.map es) = .ok cs ∧
      (r.succeeded = true ↔ ∀ before c after, cs = before ++ c :: after →
        c.path.render ∉ after.map (·.path.render) → c.Passes actual) ∧
      ((cs.map (·.path.render)).Nodup → (r.succeeded = true ↔ ∀ c ∈ cs, c.Passes actual)) ∧
      (¬ (cs.map (·.path.render)).Nodup → ∃ cs' r', cs'.map (·.path) = cs.map (·.path) ∧
        (Validator.checks cs').evaluate actual = .ok r' ∧ r'.succeeded = true ∧
        ∃ c ∈ cs', ¬ c.Passes actual) := by
  obtain ⟨cs, hcs, rfl⟩ := Schema.exists_flatten_of_compile_map hv
  have hsucceeded := Report.succeeded_checks_iff hr
  refine ⟨cs, hcs, ?_, fun hd => ?_, fun hd => ?_⟩
  · rw [hsucceeded]
    constructor
    · intro h before c after heq hnot
      exact h c (mem_standing_iff.2 ⟨before, after, heq, hnot⟩)
    · intro h c hc
      obtain ⟨before, after, heq, hnot⟩ := mem_standing_iff.1 hc
      exact h before c after heq hnot
  · rw [hsucceeded, standing_of_nodup hd]
  · refine exists_hidden_failure ?_ ?_
    · rwa [List.map_map]
    · refine List.forall_mem_map.2 fun c hc => ?_
      obtain ⟨o, ho⟩ := Report.exists_run_of_mem hr hc
      exact PathCheck.canFollow_of_run ho

/-- The entries of a schema that writes out the way to every leaf. -/
def nestedEntries : List (Key × Schema) :=
  [(.scalar (.str "a"), .map [(.scalar (.str "b"), .int 1)]), (.scalar (.str "a-b"), .int 2)]

/-- The entries of a schema in which a key is written like the way to another leaf. -/
def dottedEntries : List (Key × Schema) :=
  [(.scalar (.str "a"), .map [(.scalar (.str "b"), .int 1)]), (.scalar (.str "a.b"), .int 2)]

/-- A value with the wrong number at the leaf below `a`. -/
def wrongBelow : Value :=
  .map [(.scalar (.str "a"), .map [(.scalar (.str "b"), .int 9)]), (.scalar (.str "a.b"), .int 2),
    (.scalar (.str "a-b"), .int 2)]

/-- Beside a key without a dot the wrong number fails the report. -/
theorem wrongBelow_fails_nested : ∃ cs v r, Schema.flatten (.map nestedEntries) = .ok cs ∧
    Schema.compile (.map nestedEntries) = .ok v ∧ v.evaluate wrongBelow = .ok r ∧
    (cs.map (·.path.render)).Nodup ∧ ¬ (∀ c ∈ cs, c.Passes wrongBelow) ∧
    r.succeeded = false := by
  have hwritable : (Tree.map nestedEntries).isWritable = true := by decide +kernel
  have hnodup : ((Schema.leafChecks (.map nestedEntries)).map (·.path.render)).Nodup := by
    decide +kernel
  have hfails : ¬ ∀ c ∈ Schema.leafChecks (.map nestedEntries), c.Passes wrongBelow := by
    decide +kernel
  have hends : ((Validator.checks (Schema.leafChecks (.map nestedEntries))).evaluate
      wrongBelow).map (fun _ => ()) = .ok () := by
    decide +kernel
  obtain ⟨r, hr, -⟩ := exists_of_map_eq_ok hends
  have hcompile := Schema.compile_of_isWritable rfl hwritable
  obtain ⟨cs, hcs, -, hlaw, -⟩ := succeeded_iff_unreplaced_pass nestedEntries wrongBelow hcompile hr
  obtain ⟨-, rfl⟩ := Schema.flatten_eq_ok_iff.1 hcs
  have hfailed : r.succeeded = false := Bool.eq_false_iff.2 (mt (hlaw hnodup).1 hfails)
  exact ⟨_, _, r, hcs, hcompile, hr, hnodup, hfails, hfailed⟩

/-- A failed check is hidden: the report succeeds although the wrong number fails its check, since
the outcome at the key with the dot has the same text and comes later. -/
theorem succeeds_beside_failed_check : ∃ cs v r, Schema.flatten (.map dottedEntries) = .ok cs ∧
    Schema.compile (.map dottedEntries) = .ok v ∧ v.evaluate wrongBelow = .ok r ∧
    r.succeeded = true ∧ ∃ c ∈ cs, ¬ c.Passes wrongBelow := by
  have hwritable : (Tree.map dottedEntries).isWritable = true := by decide +kernel
  have hends : ((Validator.checks (Schema.leafChecks (.map dottedEntries))).evaluate
      wrongBelow).map (·.succeeded) = .ok true := by
    decide +kernel
  obtain ⟨r, hr, hsucceeded⟩ := exists_of_map_eq_ok hends
  exact ⟨_, _, r, Schema.flatten_of_isWritable hwritable,
    Schema.compile_of_isWritable rfl hwritable, hr, hsucceeded, by decide +kernel⟩

end TreeMatch
