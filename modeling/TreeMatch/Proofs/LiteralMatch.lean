import TreeMatch.Proofs.Closing

/-!
# Literal schemas match what is deeply equal

A schema without checks is a value, and a strict report on it compares leaves: each one of the
schema with what its path leads to, and the paths of the leaves of the value with those of the
schema (`Tree.Fits`). The main statement is that this succeeds exactly if the value is deeply equal
to the schema (`succeeded_strict_iff_deepEqual`), where the keys are texts without dots, so that
coverage by texts is coverage by paths (`covered_iff_of_found`). An induction on the schema relates
the two comparisons: to fit is to have the same steps and to fit at every step
(`fits_iff_children`), and deep equality is the same (`Tree.deepEqual_iff_children`).
-/

namespace TreeMatch

namespace Tree

/-- Every leaf of the first tree has an equal node at its path in the second one, and the leaves of
the second tree have no other paths. -/
def Fits (s a : Value) : Prop :=
  (∀ l ∈ s.leaves, ∃ v, a.lookup? l.path = some v ∧ v.deepEqual l.node = true) ∧
    ∀ m ∈ a.leaves, ∃ l ∈ s.leaves, l.path = m.path

/-- Where a step leads to a child, a path that goes on from there is looked up in the child. -/
theorem lookup?_cons_of_child? {t x : Value} {u : Step} (h : t.child? u = some x) (p : Path) :
    t.lookup? (u :: p) = x.lookup? p := by
  rw [lookup?, h]
  rfl

/-- A value fits a tree without children if it is equal to it. -/
theorem fits_iff_of_children_eq_nil {s a : Value} (hn : s.children = []) :
    s.Fits a ↔ a.deepEqual s = true := by
  rw [Fits, leaves_of_children_eq_nil hn]
  constructor
  · rintro ⟨hfound, -⟩
    obtain ⟨v, hv, hequal⟩ := hfound _ List.mem_cons_self
    obtain rfl := Option.some.inj hv
    exact hequal
  · intro h
    rw [leaves_of_children_eq_nil (children_eq_nil_of_deepEqual h hn)]
    refine ⟨fun l hl => ?_, fun m hm => ?_⟩
    · obtain rfl := List.mem_singleton.1 hl
      exact ⟨a, rfl, h⟩
    · obtain rfl := List.mem_singleton.1 hm
      exact ⟨_, List.mem_cons_self, rfl⟩

/-- If a value fits a tree, every child of the tree has at its step a child of the value that fits
it. -/
theorem Fits.exists_child {s a : Value} (h : s.Fits a) (hd : (s.children.map (·.1)).Nodup)
    {c : Step × Value} (hc : c ∈ s.children) : ∃ v, a.child? c.1 = some v ∧ c.2.Fits v := by
  obtain ⟨hfound, hpaths⟩ := h
  obtain ⟨l, hl⟩ := c.2.exists_mem_leaves
  obtain ⟨w, hw, -⟩ := hfound _ (mem_leaves_of_child hc hl)
  obtain ⟨v, hv, -⟩ := Option.bind_eq_some_iff.1 hw
  refine ⟨v, hv, fun l hl => ?_, fun m hm => ?_⟩
  · rw [← lookup?_cons_of_child? hv]
    exact hfound _ (mem_leaves_of_child hc hl)
  · have hmem := mem_leaves_of_child (mem_children_of_child? hv) hm
    obtain ⟨l, hl, hpath⟩ := hpaths _ hmem
    -- The leaf of the tree with this path lies below the same child.
    rcases mem_leaves_iff.1 hl with ⟨hn, -⟩ | ⟨d, hd', l', hl', rfl⟩
    · exact absurd hn (List.ne_nil_of_mem hc)
    · obtain ⟨hstep, hrest⟩ := List.cons.inj hpath
      obtain rfl := List.inj_on_of_nodup_map hd hd' hc hstep
      exact ⟨l', hl', hrest⟩

/-- If a value fits a tree with children, it has no other steps. -/
theorem Fits.exists_step {s a : Value} (h : s.Fits a) (hne : s.children ≠ [])
    {d : Step × Value} (hd : d ∈ a.children) : ∃ c ∈ s.children, c.1 = d.1 := by
  obtain ⟨m, hm⟩ := d.2.exists_mem_leaves
  obtain ⟨l, hl, hpath⟩ := h.2 _ (mem_leaves_of_child hd hm)
  rcases mem_leaves_iff.1 hl with ⟨hn, -⟩ | ⟨c, hc, l', -, rfl⟩
  · exact absurd hn hne
  · exact ⟨c, hc, (List.cons.inj hpath).1⟩

/-- A value fits a tree with children if it has the same steps, and at every step something that
fits the child. -/
theorem fits_of_children {s a : Value} (hd : (a.children.map (·.1)).Nodup) (hne : s.children ≠ [])
    (hfits : ∀ c ∈ s.children, ∃ v, a.child? c.1 = some v ∧ c.2.Fits v)
    (hsteps : ∀ d ∈ a.children, ∃ c ∈ s.children, c.1 = d.1) : s.Fits a := by
  constructor
  · intro l hl
    rcases mem_leaves_iff.1 hl with ⟨hn, -⟩ | ⟨c, hc, l', hl', rfl⟩
    · exact absurd hn hne
    · obtain ⟨v, hv, hfound, -⟩ := hfits c hc
      rw [lookup?_cons_of_child? hv]
      exact hfound l' hl'
  · intro m hm
    rcases mem_leaves_iff.1 hm with ⟨hn, -⟩ | ⟨d, hd', m', hm', rfl⟩
    · obtain ⟨c, hc⟩ := List.exists_mem_of_ne_nil _ hne
      obtain ⟨v, hv, -⟩ := hfits c hc
      exact absurd hn (List.ne_nil_of_mem (mem_children_of_child? hv))
    · -- The leaf is below a step of the tree, and what fits there is the same child.
      obtain ⟨c, hc, hstep⟩ := hsteps d hd'
      obtain ⟨v, hv, -, hpaths⟩ := hfits c hc
      obtain rfl : v = d.2 := by
        have hchild := (child?_eq_some_iff hd).2 hd'
        rw [← hstep, hv] at hchild
        exact Option.some.inj hchild
      obtain ⟨l, hl, hpath⟩ := hpaths m' hm'
      refine ⟨_, mem_leaves_of_child hc hl, ?_⟩
      show c.1 :: l.path = d.1 :: m'.path
      rw [hstep, hpath]

/-- To fit a tree with children is to have the same steps and to fit at every step. -/
theorem fits_iff_children {s a : Value} (hds : (s.children.map (·.1)).Nodup)
    (hda : (a.children.map (·.1)).Nodup) (hne : s.children ≠ []) :
    s.Fits a ↔ (∀ c ∈ s.children, ∃ v, a.child? c.1 = some v ∧ c.2.Fits v) ∧
      ∀ d ∈ a.children, ∃ c ∈ s.children, c.1 = d.1 := by
  constructor
  · exact fun h => ⟨fun _ hc => h.exists_child hds hc, fun _ hd => h.exists_step hne hd⟩
  · exact fun ⟨hfits, hsteps⟩ => fits_of_children hda hne hfits hsteps

/-- With text keys, a value fits a tree if it is deeply equal to it. -/
theorem fits_iff_deepEqual {s a : Value} (hs : s.HasTextKeys) (ha : a.HasTextKeys) :
    s.Fits a ↔ a.deepEqual s = true := by
  induction s using byChildren generalizing a with
  | node s ih =>
    by_cases hn : s.children = []
    · exact fits_iff_of_children_eq_nil hn
    · rw [fits_iff_children hs.nodup_steps ha.nodup_steps hn, deepEqual_iff_children ha hs hn]
      refine and_congr_left fun _ => forall₂_congr fun c hc => exists_congr fun v => ?_
      refine and_congr_right fun hv => ?_
      exact ih c hc (hs.child hc) (ha.child (mem_children_of_child? hv))

/-- Where every leaf of a tree has an equal node in the value, a text covers a leaf of the value
only if it is the text of its own path. -/
theorem covered_iff_of_found {s a : Value} (ha : a.HasTextKeys)
    (hfound : ∀ l ∈ s.leaves, ∃ v, a.lookup? l.path = some v ∧ v.deepEqual l.node = true)
    {m : Leaf Label} (hm : m ∈ a.leaves) :
    (m.path = [] ∨ ∃ l ∈ s.leaves, segments m.path.render <+: segments l.path.render) ↔
      ∃ l ∈ s.leaves, l.path = m.path := by
  -- The nodes that are found are leaves of the value, since leaves of the schema have no children.
  have hleaf : ∀ l ∈ s.leaves, ∃ v, ⟨l.path, v⟩ ∈ a.leaves := by
    intro l hl
    obtain ⟨v, hv, hequal⟩ := hfound l hl
    have hn := children_eq_nil_of_deepEqual hequal (children_node_of_mem_leaves hl)
    exact ⟨v, mem_leaves_of_lookup? hv hn⟩
  constructor
  · rintro (hroot | ⟨l, hl, hprefix⟩)
    · -- The value is its only leaf, and so is every node that is found.
      obtain ⟨l, hl⟩ := s.exists_mem_leaves
      obtain ⟨v, hv⟩ := hleaf l hl
      refine ⟨l, hl, ?_⟩
      have hn : a.children = [] := by
        by_contra hne
        exact path_ne_nil_of_mem_leaves hne hm hroot
      rw [leaves_of_children_eq_nil hn, List.mem_singleton] at hv
      rw [hroot]
      exact congrArg Leaf.path hv
    · obtain ⟨v, hv⟩ := hleaf l hl
      have heq := ha.distinctNames.eq_of_segments_prefix (fun _ => ha.isDotFree) hm hv hprefix
      exact ⟨l, hl, (congrArg Leaf.path heq).symm⟩
  · rintro ⟨l, hl, hpath⟩
    exact .inr ⟨l, hl, hpath ▸ List.prefix_rfl⟩

end Tree

namespace Schema

/-- A leaf of a schema without checks stands for the comparison with it. -/
theorem leafComparison_ofPlain (t : PlainTree) :
    leafComparison (Tree.ofPlain t) = Check.comparison (Tree.ofPlain t) := by
  have hlabels : Tree.labels (Tree.ofPlain t) = Tree.ofPlain t := Tree.mapChecks_ofPlain _ t
  cases t with
  | check e => exact e.elim
  | scalar _ | set _ | list _ | tuple _ | map _ =>
    show Check.comparison (Tree.labels (Tree.ofPlain _)) = _
    rw [hlabels]

/-- The checks of a schema without checks are the comparisons with its leaves. -/
theorem leafChecks_ofPlain (s : PlainTree) :
    leafChecks (Tree.ofPlain s) =
      (Tree.ofPlain s : Value).leaves.map fun l => ⟨l.path, Check.comparison l.node⟩ := by
  rw [leafChecks, Tree.ofPlain, Tree.leaves_mapChecks, Tree.ofPlain, Tree.leaves_mapChecks,
    List.map_map, List.map_map]
  refine List.map_congr_left fun l _ => ?_
  exact congrArg (PathCheck.mk l.path) (leafComparison_ofPlain l.node)

/-- A tree without checks can be written as a schema if it can be written. -/
theorem isWritable_ofPlain {α : Type u} (s : PlainTree) :
    (Tree.ofPlain s : Tree α).isWritable = s.isWritable :=
  Tree.all_mapChecks _ s

/-- A map or a sequence without checks is one as a schema. -/
theorem isContainer_ofPlain {α : Type u} (s : PlainTree) :
    (Tree.ofPlain s : Tree α).kind.isContainer = s.kind.isContainer := by
  rw [Tree.ofPlain, Tree.kind_mapChecks]

/-- A tree without checks is flattened if it can be written. -/
theorem flatten_ofPlain {s : PlainTree} (h : s.isWritable = true) :
    flatten (Tree.ofPlain s) = .ok (leafChecks (Tree.ofPlain s)) :=
  flatten_of_isWritable ((isWritable_ofPlain s).trans h)

/-- If it is a map or a sequence, it compiles then. -/
theorem compile_ofPlain {s : PlainTree} (hs : s.kind.isContainer = true)
    (h : s.isWritable = true) :
    compile (Tree.ofPlain s) =
      .ok (ofChecks (Tree.ofPlain s) (leafChecks (Tree.ofPlain s))) :=
  compile_of_isWritable ((isContainer_ofPlain s).trans hs) ((isWritable_ofPlain s).trans h)

/-- If it cannot be written, it does not compile. -/
theorem compile_ofPlain_of_not_isWritable {s : PlainTree} (hs : s.kind.isContainer = true)
    (h : s.isWritable = false) :
    compile (Tree.ofPlain s) = .error (.unwritable .tooManyDigits) :=
  compile_of_not_isWritable ((isContainer_ofPlain s).trans hs) ((isWritable_ofPlain s).trans h)

/-- A schema without checks gives up on no value that can be written. -/
theorem leafChecks_ofPlain_answer {s : PlainTree} (h : s.isWritable = true) :
    ∀ c ∈ leafChecks (Tree.ofPlain s), c.check.Answers := by
  have hwritable : (Tree.ofPlain s : Value).isWritable = true := (isWritable_ofPlain s).trans h
  rw [leafChecks_ofPlain]
  exact List.forall_mem_map.2 fun l hl =>
    Check.comparison_answers ((Tree.isWritable_iff.1 hwritable).2 l hl)

/-- With text keys, the checks of a schema without checks have paths with different texts. -/
theorem nodup_render_ofPlain {s : PlainTree} (h : s.HasTextKeys) :
    ((leafChecks (Tree.ofPlain s)).map (·.path.render)).Nodup := by
  have hexpected : (Tree.ofPlain s : Value).HasTextKeys := h.mapChecks _
  rw [leafChecks_ofPlain, List.map_map]
  exact hexpected.distinctNames.nodup_render fun _ => hexpected.isDotFree

/-- Where all keys are texts without dots, the checks pass and cover all leaves if the value is
deeply equal to the schema. -/
theorem passes_and_covers_iff_deepEqual {s : PlainTree} {actual : Value} (hkeys : s.HasTextKeys)
    (hactual : actual.HasTextKeys) :
    ((∀ c ∈ leafChecks (Tree.ofPlain s), c.Passes actual) ∧
      ∀ l ∈ actual.leaves, l.path = [] ∨
        ∃ c ∈ leafChecks (Tree.ofPlain s), segments l.path.render <+: segments c.path.render) ↔
      actual.deepEqual (Tree.ofPlain s) = true := by
  have hexpected : (Tree.ofPlain s : Value).HasTextKeys := hkeys.mapChecks _
  rw [leafChecks_ofPlain, List.forall_mem_map, ← Tree.fits_iff_deepEqual hexpected hactual,
    Tree.Fits]
  simp only [PathCheck.passes_comparison_iff, Tree.lookup_of_hasWritableKeys
    hactual.hasWritableKeys, Except.ok.injEq, List.mem_map, exists_exists_and_eq_and]
  exact and_congr_right fun hfound => forall₂_congr fun m hm =>
    Tree.covered_iff_of_found hactual hfound hm

end Schema

/-- A map or a sequence without checks that can be written compiles. Where all keys are texts
without dots, there is a strict report that succeeds exactly if the value is deeply equal to the
schema, and there is no report only if a value has to be written and cannot be. A schema that cannot
be written does not compile. -/
theorem succeeded_strict_iff_deepEqual (s : PlainTree) (actual : Value)
    (hs : s.kind.isContainer = true) (hkeys : s.HasTextKeys) (hactual : actual.HasTextKeys) :
    (s.isWritable = true → ∃ v, Schema.compile (Tree.ofPlain s) = .ok v ∧
      ((∃ r, (Validator.strict v).evaluate actual = .ok r ∧ r.succeeded = true) ↔
        actual.deepEqual (Tree.ofPlain s) = true) ∧
      (actual.isWritable = true → ∃ r, (Validator.strict v).evaluate actual = .ok r)) ∧
    (s.isWritable = false →
      Schema.compile (Tree.ofPlain s) = .error (.unwritable .tooManyDigits)) := by
  have hcontainer := (Schema.isContainer_ofPlain (α := Check) s).trans hs
  refine ⟨fun h => ?_, fun h => ?_⟩
  · have hcs := Schema.flatten_ofPlain h
    have hcompile := Schema.compile_ofPlain hs h
    have hlaw := Schema.strict_succeeds_iff actual hcontainer hcs
    rw [standing_of_nodup (Schema.nodup_render_ofPlain hkeys),
      Schema.passes_and_covers_iff_deepEqual hkeys hactual] at hlaw
    refine ⟨_, hcompile, ⟨?_, fun hequal => ?_⟩, fun hvalue => ?_⟩
    · exact fun ⟨r, hr, hsucceeded⟩ => (hlaw.1 ⟨_, r, hcompile, hr, hsucceeded⟩).2.2
    · have hpasses := ((Schema.passes_and_covers_iff_deepEqual hkeys hactual).2 hequal).1
      obtain ⟨v, r, hv, hr⟩ := hlaw.2 ⟨hactual.hasWritableKeys,
        fun c hc => (hpasses c hc).imp fun _ ho => ho.1, hequal⟩
      obtain rfl := Except.ok.inj (hcompile.symm.trans hv)
      exact ⟨r, hr⟩
    · obtain ⟨lax, hlax⟩ := Report.exists_evaluate_checks fun c hc =>
        PathCheck.exists_run_of_answers (Schema.leafChecks_ofPlain_answer h c hc) hvalue
      obtain ⟨v, r, hv, hr⟩ := Schema.exists_strict_of_report hcontainer hcs
        hactual.hasWritableKeys hlax
      obtain rfl := Except.ok.inj (hcompile.symm.trans hv)
      exact ⟨r, hr⟩
  · exact Schema.compile_ofPlain_of_not_isWritable hs h

/-- A schema without checks, with an empty map among its leaves. -/
def plainSchema : PlainTree :=
  .map [(.scalar (.str "tags"), .list [.int 1, .bool true]), (.scalar (.str "meta"), .map [])]

/-- The same tree with its keys in another order, and a tuple in place of the list. -/
def plainValue : Value :=
  .map [(.scalar (.str "meta"), .map []), (.scalar (.str "tags"), .tuple [.int 1, .bool true])]

/-- The strict report on the value succeeds, as the order of the keys and the type of the sequence
do not count. -/
theorem plainValue_succeeds : ∃ v r, Schema.compile (Tree.ofPlain plainSchema) = .ok v ∧
    (Validator.strict v).evaluate plainValue = .ok r ∧ r.succeeded = true := by
  have hkeys : plainSchema.HasTextKeys :=
    ⟨⟨by decide, ⟨trivial, trivial, trivial⟩, ⟨List.Pairwise.nil, trivial⟩, trivial⟩, by decide⟩
  have hactual : plainValue.HasTextKeys :=
    ⟨⟨by decide, ⟨List.Pairwise.nil, trivial⟩, ⟨trivial, trivial, trivial⟩, trivial⟩, by decide⟩
  have hequal : plainValue.deepEqual (Tree.ofPlain plainSchema) = true := by decide +kernel
  obtain ⟨hlaw, -⟩ := succeeded_strict_iff_deepEqual plainSchema plainValue rfl hkeys hactual
  obtain ⟨v, hv, hiff, -⟩ := hlaw (by decide +kernel)
  obtain ⟨r, hr, hsucceeded⟩ := hiff.2 hequal
  exact ⟨v, r, hv, hr, hsucceeded⟩

/-- A map with a whole number of more than `digitLimit` digits. -/
def longNumberMap : PlainTree := .map [(.scalar (.str "a"), .int (Nat.pow 16 4000 : Nat))]

/-- The map is deeply equal to itself, but as a schema it does not compile: its only check cannot be
named. -/
theorem longNumberMap_does_not_compile : longNumberMap.kind.isContainer = true ∧
    longNumberMap.HasTextKeys ∧ (Tree.ofPlain longNumberMap : Value).HasTextKeys ∧
    (Tree.ofPlain longNumberMap : Value).deepEqual (Tree.ofPlain longNumberMap) = true ∧
    Schema.compile (Tree.ofPlain longNumberMap) = .error (.unwritable .tooManyDigits) := by
  have hkeys : longNumberMap.HasTextKeys := ⟨⟨by decide, trivial, trivial⟩, by decide⟩
  have hlong : longNumberMap.isWritable = false := by decide +kernel
  exact ⟨rfl, hkeys, hkeys.mapChecks _, by decide +kernel,
    Schema.compile_ofPlain_of_not_isWritable rfl hlong⟩

end TreeMatch
