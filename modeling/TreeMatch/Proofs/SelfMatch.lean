import TreeMatch.Document.Match
import TreeMatch.Proofs.LiteralMatch
import TreeMatch.Proofs.Walking

/-!
# A literal schema matches itself

Where the keys of each map have different names, every leaf of a tree is what its path leads to
(`DistinctNames.lookup?_of_mem_leaves`). So each check of a literal schema is given its own leaf
when the schema is matched against itself, and passes if the leaf is not NaN
(`passes_ofPlain_self`). It does not matter whether two paths have the same text: a check that is
replaced by another one has passed as well, and every leaf is covered by the check that stands for
it. But the name of a check has the leaf in it. The main statement (`literal_matches_itself`) is
that a tree matches itself exactly if it holds no whole number that is too long to be written, and
does not compile otherwise.
-/

namespace TreeMatch

/-! ## Being equal to oneself -/

/-- Whether the scalar is NaN, which is not equal to itself. -/
def Scalar.isNaN : Scalar → Bool
  | .float .nan => true
  | _ => false

/-- Whether the member is a NaN that is not the same in all sets. -/
def Member.isNaN : Member → Bool
  | .scalar s => s.isNaN
  | .nan => false

/-- Whether a node is NaN, or a set with a NaN in it that is not the same in all sets. -/
def Tree.isNaN {α : Type u} : Tree α → Bool
  | .scalar s => s.isNaN
  | .set ms => ms.any Member.isNaN
  | _ => false

/-- A scalar that is not NaN is the same as itself. -/
theorem Scalar.same_self {s : Scalar} (h : s.isNaN = false) : s.same s = true := by
  have hform : s.form?.isSome = true := by
    cases s with
    | float x =>
      cases x with
      | nan => exact nomatch h
      | infinite _ | finite _ _ _ => rfl
    | null | bool _ | int _ | str _ | bytes _ | moment _ => rfl
  rw [same, hform, beq_self_eq_true, Bool.and_self]

/-- A scalar that is not NaN is equal to itself as a leaf. -/
theorem Scalar.equal_self {s : Scalar} (h : s.isNaN = false) : s.equal s = true := by
  rw [equal, beq_self_eq_true, Bool.true_and]
  exact same_self h

/-- A member that is not NaN is the same as itself. -/
theorem Member.same_self {m : Member} (h : m.isNaN = false) : m.same m = true := by
  cases m with
  | scalar s => exact Scalar.same_self h
  | nan => rfl

/-- A set has its own members, if none of them is NaN. -/
theorem Member.sameAll_self {ms : List Member} (h : ∀ m ∈ ms, m.isNaN = false) :
    sameAll ms ms = true := by
  have hsame : ∀ m ∈ ms, ms.any m.same = true := fun m hm =>
    List.any_eq_true.2 ⟨m, hm, same_self (h m hm)⟩
  rw [sameAll, Bool.and_self]
  exact List.all_eq_true.2 hsame

namespace Tree

/-- A leaf without checks is deeply equal to itself if it is not NaN. -/
theorem deepEqual_ofPlain_self {t : PlainTree} (hn : t.children = []) (h : t.isNaN = false) :
    (ofPlain t : Value).deepEqual (ofPlain t) = true := by
  cases t with
  | scalar s => exact Scalar.equal_self h
  | set ms =>
    exact Member.sameAll_self fun m hm => Bool.eq_false_iff.2 (List.any_eq_false.1 h m hm)
  | list xs | tuple xs | map xs =>
    obtain rfl : xs = [] := by simpa [children] using hn
    rfl
  | check e => exact e.elim

variable {α : Type u} {β : Type v}

/-- Distinct names stay when checks are replaced. -/
theorem DistinctNames.mapChecks {t : Tree α} (h : t.DistinctNames) (f : α → β) :
    (t.mapChecks f).DistinctNames := by
  induction h with
  | node steps below ih =>
    refine .node ?_ ?_
    · rw [children_mapChecks, List.map_map]
      exact steps
    · rw [children_mapChecks, List.forall_mem_map]
      exact ih

end Tree

namespace Schema

/-- On the tree itself all checks of a tree without checks pass, if its keys can be written and have
distinct names, and none of its leaves is NaN. -/
theorem passes_ofPlain_self {t : PlainTree} (hkeys : t.hasWritableKeys = true)
    (hnames : t.DistinctNames) (hnan : ∀ l ∈ t.leaves, l.node.isNaN = false) :
    ∀ c ∈ leafChecks (Tree.ofPlain t), c.Passes (Tree.ofPlain t) := by
  have hvalue : (Tree.ofPlain t : Value).hasWritableKeys = true :=
    (Tree.all_mapChecks _ t).trans hkeys
  rw [leafChecks_ofPlain, List.forall_mem_map]
  intro l hl
  have hfound := (hnames.mapChecks _).lookup?_of_mem_leaves hl
  refine PathCheck.passes_comparison_iff.2
    ⟨l.node, (Tree.lookup_of_hasWritableKeys hvalue l.path).trans (congrArg _ hfound), ?_⟩
  rw [Tree.ofPlain, Tree.leaves_mapChecks] at hl
  obtain ⟨m, hm, rfl⟩ := List.mem_map.1 hl
  exact Tree.deepEqual_ofPlain_self (Tree.children_node_of_mem_leaves hm) (hnan m hm)

/-- The strict report on the tree itself succeeds. Every leaf is covered by its own check, whatever
other paths have the same text. -/
theorem exists_strict_report_self {t : PlainTree} (hs : t.kind.isContainer = true)
    (hwritable : t.isWritable = true) (hnames : t.DistinctNames)
    (hnan : ∀ l ∈ t.leaves, l.node.isNaN = false) :
    ∃ v r, compile (Tree.ofPlain t) = .ok v ∧
      (Validator.strict v).evaluate (Tree.ofPlain t) = .ok r ∧ r.succeeded = true := by
  have hkeys := Tree.hasWritableKeys_of_isWritable hwritable
  have hpasses := passes_ofPlain_self hkeys hnames hnan
  have hcs := flatten_ofPlain hwritable
  refine (strict_succeeds_iff _ ((isContainer_ofPlain t).trans hs) hcs).2
    ⟨(Tree.all_mapChecks _ t).trans hkeys, fun c hc => (hpasses c hc).imp fun _ ho => ho.1,
      fun c hc => ?_, fun l hl => ?_⟩
  · -- Whichever checks stand, they are among those that pass.
    exact hpasses c (standing_subset _ _ hc)
  · -- The check that stands for the leaf has the same path.
    refine .inr ⟨⟨l.path, Check.comparison l.node⟩, ?_, List.prefix_rfl⟩
    rw [leafChecks_ofPlain]
    exact List.mem_map_of_mem hl

end Schema

namespace Tree

/-! ## Coming to an end -/

mutual

/-- A tree without checks is a document without marks. -/
theorem finite?_ofPlain (t : PlainTree) : finite? (ofPlain t) = some t := by
  cases t with
  | scalar _ | set _ => rfl
  | list xs | tuple xs =>
    rw [ofPlain, mapChecks, finite?, finiteItems?_mapItems]
    rfl
  | map es =>
    rw [ofPlain, mapChecks, finite?, finiteEntries?_mapEntries]
    rfl
  | check e => exact e.elim

/-- The same for the elements of a sequence. -/
theorem finiteItems?_mapItems (xs : List PlainTree) :
    finiteItems? (mapItems Empty.elim xs) = some xs := by
  cases xs with
  | nil => rfl
  | cons x xs =>
    have hx : finite? (mapChecks Empty.elim x) = some x := finite?_ofPlain x
    rw [mapItems, finiteItems?, hx, finiteItems?_mapItems]
    rfl

/-- The same for the entries of a map. -/
theorem finiteEntries?_mapEntries (es : List (Key × PlainTree)) :
    finiteEntries? (mapEntries Empty.elim es) = some es := by
  cases es with
  | nil => rfl
  | cons e es =>
    have hx : finite? (mapChecks Empty.elim e.2) = some e.2 := finite?_ofPlain e.2
    rw [mapEntries, finiteEntries?, hx, finiteEntries?_mapEntries]
    rfl

end

end Tree

namespace Matching

/-- The report on a match of a tree with itself is that of its validator. -/
theorem report_self {t : PlainTree} {strict : Bool} {v : Validator} {r : Report}
    (hv : (Matching.mk t (Tree.ofPlain t) strict).validator = .ok v)
    (hr : v.evaluate (Tree.ofPlain t) = .ok r) :
    (Matching.mk t (Tree.ofPlain t) strict).report = .ok r := by
  have hends : (Matching.mk t (Tree.ofPlain t) strict).ends = true := by
    rw [ends, Tree.finite?_ofPlain]
    exact Bool.or_true _
  have hvalue : (Matching.mk t (Tree.ofPlain t) strict).value = Tree.ofPlain t :=
    Tree.mapChecks_ofPlain _ t
  rw [report, hv, hvalue]
  simp only [Except.mapError, hends]
  show ((v.evaluate (Tree.ofPlain t)).mapError MatchFault.check >>= fun r => pure r) = _
  rw [hr]
  rfl

end Matching

/-- A map or a sequence without checks matches itself strictly, whatever the types of its keys, if
the keys of each map have distinct names and no leaf is NaN, provided that it holds no whole number
that is too long to be written. Otherwise it does not compile, and as one document matched against
another it gives no report. -/
theorem literal_matches_itself (t : PlainTree) (hs : t.kind.isContainer = true)
    (hnames : t.DistinctNames) (hnan : ∀ l ∈ t.leaves, l.node.isNaN = false) :
    (t.isWritable = true → ∃ v r, Schema.compile (Tree.ofPlain t) = .ok v ∧
      (Validator.strict v).evaluate (Tree.ofPlain t) = .ok r ∧ r.succeeded = true ∧
      (Matching.mk t (Tree.ofPlain t) true).report = .ok r) ∧
    (t.isWritable = false →
      Schema.compile (Tree.ofPlain t) = .error (.unwritable .tooManyDigits) ∧
      (Matching.mk t (Tree.ofPlain t) true).report =
        .error (.compile (.unwritable .tooManyDigits))) := by
  refine ⟨fun h => ?_, fun h => ?_⟩
  · obtain ⟨v, r, hv, hr, hsucceeded⟩ := Schema.exists_strict_report_self hs h hnames hnan
    refine ⟨v, r, hv, hr, hsucceeded, Matching.report_self ?_ hr⟩
    show (Schema.compile (Tree.ofPlain t)).map _ = _
    rw [hv]
    rfl
  · have hcompile := Schema.compile_ofPlain_of_not_isWritable hs h
    refine ⟨hcompile, ?_⟩
    have hvalidator : (Matching.mk t (Tree.ofPlain t) true).validator =
        .error (.unwritable .tooManyDigits) := congrArg (Except.map _) hcompile
    rw [Matching.report, hvalidator]
    rfl

/-- A tree with keys of several types, in which the key `a.b` is written like the way to a leaf. -/
def mixedLiteral : PlainTree :=
  .map [(.scalar (.str "a"), .map [(.scalar (.str "b"), .int 1)]), (.scalar (.str "a.b"), .int 2),
    (.scalar (.str "[0]"), .list []), (.scalar (.str ""), .set [.nan]),
    (.scalar (.int 200), .str "ok"), (.scalar (.float .nan), .scalar (.bytes [120])),
    (.tuple [.scalar (.bool true), .scalar .null], .null)]

/-- The tree matches itself, although the paths of two leaves have the same text. -/
theorem mixedLiteral_matches_itself :
    (∃ cs, Schema.flatten (Tree.ofPlain mixedLiteral) = .ok cs ∧
      ¬ (cs.map (·.path.render)).Nodup) ∧
    ∃ r, (Matching.mk mixedLiteral (Tree.ofPlain mixedLiteral) true).report = .ok r ∧
      r.succeeded = true := by
  have hbelow : (Tree.map [(.scalar (.str "b"), .int 1)] : PlainTree).DistinctNames :=
    Tree.distinctNames_map_iff.2 ⟨by decide, by
      simp only [List.forall_mem_cons]
      exact ⟨.of_children_eq_nil rfl, fun _ h => nomatch h⟩⟩
  have hleaf : ∀ x : PlainTree, x.children = [] → x.DistinctNames := fun _ => .of_children_eq_nil
  have hnames : mixedLiteral.DistinctNames := by
    refine Tree.distinctNames_map_iff.2 ⟨by decide +kernel, ?_⟩
    simp only [List.forall_mem_cons]
    exact ⟨hbelow, hleaf _ rfl, hleaf _ rfl, hleaf _ rfl, hleaf _ rfl, hleaf _ rfl, hleaf _ rfl,
      fun _ h => nomatch h⟩
  have hnan : ∀ l ∈ mixedLiteral.leaves, l.node.isNaN = false := by decide +kernel
  obtain ⟨hmatches, -⟩ := literal_matches_itself mixedLiteral rfl hnames hnan
  obtain ⟨v, r, -, -, hsucceeded, hreport⟩ := hmatches (by decide +kernel)
  have hwritable : mixedLiteral.isWritable = true := by decide +kernel
  have hcs := Schema.flatten_ofPlain hwritable
  exact ⟨⟨_, hcs, by decide +kernel⟩, r, hreport, hsucceeded⟩

/-- A list with a whole number of more than `digitLimit` digits. -/
def longLiteral : PlainTree := .list [.int (Nat.pow 16 4000 : Nat)]

/-- There is no report on the list as a schema for itself, since its only check cannot be named. -/
theorem longLiteral_has_no_report : longLiteral.kind.isContainer = true ∧
    longLiteral.DistinctNames ∧ (∀ l ∈ longLiteral.leaves, l.node.isNaN = false) ∧
    (Matching.mk longLiteral (Tree.ofPlain longLiteral) true).report =
      .error (.compile (.unwritable .tooManyDigits)) := by
  have hnames : longLiteral.DistinctNames := by
    refine Tree.distinctNames_list_iff.2 fun x hx => ?_
    obtain rfl := List.mem_singleton.1 hx
    exact .of_children_eq_nil rfl
  have hlong : longLiteral.isWritable = false := by decide +kernel
  have hvalidator : (Matching.mk longLiteral (Tree.ofPlain longLiteral) true).validator =
      .error (.unwritable .tooManyDigits) :=
    congrArg (Except.map _) (Schema.compile_ofPlain_of_not_isWritable rfl hlong)
  refine ⟨rfl, hnames, by decide +kernel, ?_⟩
  rw [Matching.report, hvalidator]
  rfl

end TreeMatch
