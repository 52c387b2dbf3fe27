import TreeMatch.Check.Stock
import TreeMatch.Proofs.Trailing

/-!
# Sequence schemas and values that are no sequences

An index leads nowhere in a value that is no sequence, so all checks of a sequence schema are given
the absent value there, whatever the value is (`run_eq_runAbsent`). What absence means is for each
check to say: a literal fails, an optional check passes. So a value that is no sequence is not
rejected as such. The main statement (`accepts_absence_iff`) is that one without contents, a scalar
or an empty map, is accepted exactly if the schema has elements and its checks accept absence; for
the root counts as covered as soon as anything was checked. A map with contents has keys besides,
and each of them has to be covered. So it is not accepted unless the checks accept absence and all
its keys begin like an index of the schema.
-/

namespace TreeMatch

/-! ## Checks of the absent value -/

namespace PathCheck

/-- Runs the check as where its path leads nowhere. -/
def runAbsent (c : PathCheck) : Except CheckFault Outcome := c.check.run c.path .null false

/-- The check passes where its path leads nowhere. -/
def AcceptsAbsence (c : PathCheck) : Prop := ∃ o, c.runAbsent = .ok o ∧ o.valid = true

/-- An optional check accepts absence. -/
theorem optional_acceptsAbsence (p : Path) (c : Check) :
    (PathCheck.mk p c.optional).AcceptsAbsence :=
  ⟨.passed p, rfl, rfl⟩

/-- The check that nothing is there accepts absence. -/
theorem absent_acceptsAbsence (p : Path) : (PathCheck.mk p .absent).AcceptsAbsence :=
  ⟨.passed p, rfl, rfl⟩

/-- The check for a literal does not accept absence. -/
theorem comparison_not_acceptsAbsence (p : Path) (expected : Value) :
    ¬ (PathCheck.mk p (.comparison expected)).AcceptsAbsence := by
  rintro ⟨o, ho, hvalid⟩
  obtain rfl := Except.ok.inj ho
  exact nomatch hvalid

end PathCheck

/-- An index leads nowhere in a value that is no sequence. -/
theorem Tree.lookup_eq_none_of_head_index {α : Type u} {t : Tree α} (ht : t.items? = none)
    {p : Path} {i : Nat} (hp : p.head? = some (.index i)) : t.lookup p = .ok none := by
  obtain ⟨p, rfl⟩ := List.head?_eq_some_iff.1 hp
  cases t with
  | list xs | tuple xs => exact nomatch ht
  | map _ | scalar _ | set _ | check _ => rfl

namespace Schema

/-- The schema compiles, and the report on the value succeeds. -/
def Accepts (s : Schema) (actual : Value) : Prop :=
  ∃ v r, s.compile = .ok v ∧ v.evaluate actual = .ok r ∧ r.succeeded = true

/-- The checks of a schema accept absence: all of them answer where nothing is found, and those pass
that no later one with the same text replaces. -/
structure AcceptsAbsence (s : Schema) (cs : List PathCheck) : Prop where
  /-- These are the checks of the schema. -/
  flattens : s.flatten = .ok cs
  /-- No check gives up. -/
  answers : ∀ c ∈ cs, ∃ o, c.runAbsent = .ok o
  /-- The checks that stand pass. -/
  passes : ∀ c ∈ standing (·.path.render) cs, c.AcceptsAbsence

variable {s : Schema} {xs : List Schema} {cs : List PathCheck} {actual : Value}

/-- If each of its checks accepts absence, so do the checks of a schema together. -/
theorem AcceptsAbsence.of_forall (hcs : s.flatten = .ok cs) (h : ∀ c ∈ cs, c.AcceptsAbsence) :
    s.AcceptsAbsence cs :=
  ⟨hcs, fun c hc => (h c hc).imp fun _ ho => ho.1, fun c hc => h c (standing_subset _ _ hc)⟩

/-- The path of a check of a sequence with elements begins with the index of an element. -/
theorem exists_head_index (hs : s.items? = some xs) (hne : xs ≠ []) (hcs : s.flatten = .ok cs)
    {c : PathCheck} (hc : c ∈ cs) : ∃ i < xs.length, c.path.head? = some (.index i) := by
  obtain ⟨-, rfl⟩ := flatten_eq_ok_iff.1 hcs
  obtain ⟨l, hl, rfl⟩ := List.mem_map.1 hc
  have hchildren : s.children ≠ [] := by
    have hlt : 0 < xs.length := List.length_pos_of_ne_nil hne
    have hfirst : (Step.index 0, xs[0]) ∈ s.children :=
      (Tree.mem_children_of_items? hs).2 ⟨0, List.getElem?_eq_getElem hlt, rfl⟩
    exact List.ne_nil_of_mem hfirst
  obtain ⟨step, rest, hpath⟩ :=
    List.exists_cons_of_ne_nil (Tree.path_ne_nil_of_mem_leaves hchildren hl)
  have hhead : l.path.head? = some step := by rw [hpath]; rfl
  obtain ⟨i, hi, rfl⟩ := Tree.exists_index_of_mem_leaves hs hl hhead
  exact ⟨i, hi, hhead⟩

/-- In a value that is no sequence all checks of a sequence with elements see the absent value. -/
theorem run_eq_runAbsent (hs : s.items? = some xs) (hne : xs ≠ []) (ha : actual.items? = none)
    (hcs : s.flatten = .ok cs) {c : PathCheck} (hc : c ∈ cs) : c.run actual = c.runAbsent := by
  obtain ⟨i, -, hhead⟩ := exists_head_index hs hne hcs hc
  rw [PathCheck.run, Tree.lookup_eq_none_of_head_index ha hhead, PathCheck.runAbsent]

/-- A sequence schema accepts a value if it is flattened, all keys of the value can be written, no
check gives up on it, the checks that stand pass, and the segments of the path of every leaf begin
those of the path of a check. -/
theorem accepts_iff_of_items? (hs : s.items? = some xs) :
    s.Accepts actual ↔ ∃ cs, s.flatten = .ok cs ∧ actual.hasWritableKeys = true ∧
      (∀ c ∈ cs, ∃ o, c.run actual = .ok o) ∧
      (∀ c ∈ standing (·.path.render) cs, c.Passes actual) ∧
      ∀ l ∈ actual.leaves, l.path = [] ∨
        ∃ c ∈ cs, segments l.path.render <+: segments c.path.render := by
  constructor
  · rintro ⟨v, r, hv, hr, hsucceeded⟩
    obtain ⟨cs, hcs, -⟩ := (compile_eq_ok_iff (isContainer_of_items? hs)).1 hv
    obtain rfl := Except.ok.inj ((compile_of_items? hs hcs).symm.trans hv)
    obtain ⟨hkeys, lax, hlax, rfl⟩ := Validator.evaluate_strict_eq_ok_iff.1 hr
    obtain ⟨hpasses, huncovered⟩ := Report.succeeded_close_iff.1 hsucceeded
    refine ⟨cs, hcs, hkeys, fun c hc => Report.exists_run_of_mem hlax hc, ?_, ?_⟩
    · exact (Report.succeeded_checks_iff hlax).1 hpasses
    · exact (uncovered_eq_nil_iff hcs hlax).1 huncovered
  · rintro ⟨cs, hcs, hkeys, hruns, hpasses, hcovered⟩
    obtain ⟨lax, hlax⟩ := Report.exists_evaluate_checks hruns
    refine ⟨_, _, compile_of_items? hs hcs, Validator.evaluate_strict hkeys hlax,
      Report.succeeded_close_iff.2 ⟨?_, ?_⟩⟩
    · exact (Report.succeeded_checks_iff hlax).2 hpasses
    · exact (uncovered_eq_nil_iff hcs hlax).2 hcovered

/-- A schema that accepts a value that is no sequence has elements. -/
theorem ne_nil_of_accepts (hs : s.items? = some xs) (ha : actual.items? = none)
    (h : s.Accepts actual) : xs ≠ [] := by
  rintro rfl
  obtain ⟨cs, hcs, -, -, hpasses, -⟩ := (accepts_iff_of_items? hs).1 h
  obtain ⟨-, rfl⟩ := flatten_eq_ok_iff.1 hcs
  -- The only check asks for an empty sequence at the root.
  have hcheck : ∃ e : Value, e.items? = some [] ∧ s.leafChecks = [⟨[], .comparison e⟩] := by
    cases s with
    | list _ | tuple _ =>
      obtain rfl := Option.some.inj hs
      exact ⟨_, rfl, rfl⟩
    | map _ | scalar _ | set _ | check _ => exact nomatch hs
  obtain ⟨e, he, hleafChecks⟩ := hcheck
  rw [hleafChecks] at hpasses
  obtain ⟨v, hv, hequal⟩ := PathCheck.passes_comparison_iff.1 (hpasses _ List.mem_cons_self)
  obtain rfl := Option.some.inj (Except.ok.inj hv)
  cases e with
  | list _ | tuple _ =>
    cases actual with
    | list _ | tuple _ => exact nomatch ha
    | map _ | scalar _ | set _ | check _ => exact absurd hequal Bool.false_ne_true
  | map _ | scalar _ | set _ | check _ => exact nomatch he

/-- If a schema accepts a value that is no sequence, its checks accept absence. -/
theorem acceptsAbsence_of_accepts (hs : s.items? = some xs) (ha : actual.items? = none)
    (h : s.Accepts actual) : ∃ cs, s.AcceptsAbsence cs := by
  have hne := ne_nil_of_accepts hs ha h
  obtain ⟨cs, hcs, -, hruns, hpasses, -⟩ := (accepts_iff_of_items? hs).1 h
  refine ⟨cs, hcs, fun c hc => ?_, fun c hc => ?_⟩
  · rw [← run_eq_runAbsent hs hne ha hcs hc]
    exact hruns c hc
  · obtain ⟨o, ho, hvalid⟩ := hpasses c hc
    rw [run_eq_runAbsent hs hne ha hcs (standing_subset _ _ hc)] at ho
    exact ⟨o, ho, hvalid⟩

/-- If a schema accepts a map, every key begins like an index of the schema. -/
theorem exists_index_of_accepts_map {es : List (Key × Value)} (hs : s.items? = some xs)
    (h : s.Accepts (.map es)) {e : Key × Value} (he : e ∈ es) :
    ∃ i < xs.length, segments (Step.index i).text <+: segments e.1.text := by
  have hne := ne_nil_of_accepts hs rfl h
  obtain ⟨cs, hcs, -, -, -, hcovered⟩ := (accepts_iff_of_items? hs).1 h
  obtain ⟨l, hl⟩ := e.2.exists_mem_leaves
  have hchild : (Step.key e.1.text, e.2) ∈ (Tree.map es).children := List.mem_map.2 ⟨e, he, rfl⟩
  rcases hcovered _ (Tree.mem_leaves_of_child hchild hl) with hroot | ⟨c, hc, hprefix⟩
  · exact nomatch hroot
  · obtain ⟨i, hi, hhead⟩ := exists_head_index hs hne hcs hc
    obtain ⟨p, hp⟩ := List.head?_eq_some_iff.1 hhead
    refine ⟨i, hi, ?_⟩
    -- The paths of the leaf and of the check have the same first segment.
    have hleaf := Path.head?_segments_render_cons (.key e.1.text) l.path
    have hcheck := Path.head?_segments_render (Step.dot_notMem_text_index i) p
    obtain ⟨first, others, hsplit⟩ := List.exists_cons_of_ne_nil
      (List.splitOn_ne_nil '.' (Path.render (.key e.1.text :: l.path)).toList)
    obtain ⟨rest, hrest⟩ := hprefix
    rw [segments, hsplit] at hleaf hrest
    rw [← hp, ← hrest] at hcheck
    obtain rfl : first = (Step.index i).text.toList := Option.some.inj hcheck
    obtain ⟨more, hmore⟩ := List.head?_eq_some_iff.1 hleaf.symm
    have hindex : segments (Step.index i).text = [(Step.index i).text.toList] :=
      List.splitOn_eq_singleton (Step.dot_notMem_text_index i)
    have hkey : segments e.1.text = (Step.index i).text.toList :: more := hmore
    rw [hindex, hkey]
    exact List.cons_prefix_cons.2 ⟨rfl, List.nil_prefix⟩

end Schema

/-- A sequence schema accepts a value without contents that is no sequence, a scalar or an empty
map, exactly if it has elements and its checks accept absence. Whatever else is no sequence is not
accepted either unless this is so, and a map not unless each of its keys begins like an index of the
schema. If the schema has elements, all its checks are given the absent value there. -/
theorem accepts_absence_iff (s : Schema) (actual : Value) {xs : List Schema}
    (hs : s.items? = some xs) (ha : actual.items? = none) :
    (actual.children = [] → (s.Accepts actual ↔ xs ≠ [] ∧ ∃ cs, s.AcceptsAbsence cs)) ∧
      (s.Accepts actual → xs ≠ [] ∧ (∃ cs, s.AcceptsAbsence cs) ∧
        ∀ es, actual = .map es → ∀ e ∈ es,
          ∃ i < xs.length, segments (Step.index i).text <+: segments e.1.text) ∧
      (xs ≠ [] → ∀ cs, s.flatten = .ok cs → ∀ c ∈ cs,
        actual.lookup c.path = .ok none ∧ c.run actual = c.runAbsent) := by
  refine ⟨fun hn => ⟨fun h => ?_, ?_⟩, fun h => ⟨?_, ?_, ?_⟩, fun hne cs hcs c hc => ?_⟩
  · exact ⟨Schema.ne_nil_of_accepts hs ha h, Schema.acceptsAbsence_of_accepts hs ha h⟩
  · rintro ⟨hne, cs, hcs, hanswers, hpasses⟩
    have hrun : ∀ c ∈ cs, c.run actual = c.runAbsent := fun c hc =>
      Schema.run_eq_runAbsent hs hne ha hcs hc
    refine (Schema.accepts_iff_of_items? hs).2 ⟨cs, hcs, ?_, fun c hc => ?_, fun c hc => ?_,
      fun l hl => ?_⟩
    · exact Tree.hasWritableKeys_of_children_eq_nil hn
    · rw [hrun c hc]
      exact hanswers c hc
    · obtain ⟨o, ho, hvalid⟩ := hpasses c hc
      exact ⟨o, (hrun c (standing_subset _ _ hc)).trans ho, hvalid⟩
    · -- The only leaf is the value itself, and its path is that of the root.
      rw [Tree.leaves_of_children_eq_nil hn, List.mem_singleton] at hl
      exact .inl (congrArg Leaf.path hl)
  · exact Schema.ne_nil_of_accepts hs ha h
  · exact Schema.acceptsAbsence_of_accepts hs ha h
  · rintro es rfl e he
    exact Schema.exists_index_of_accepts_map hs h he
  · obtain ⟨i, -, hhead⟩ := Schema.exists_head_index hs hne hcs hc
    exact ⟨Tree.lookup_eq_none_of_head_index ha hhead, Schema.run_eq_runAbsent hs hne ha hcs hc⟩

/-- A schema with an optional element and no other one. -/
def lenientSchema : Schema := .list [.check (.optional (.comparison (.int 1)))]

/-- A schema with an element that has to be missing and one that has to be there. -/
def demandingSchema : Schema := .tuple [.check .absent, .int 1]

/-- A number passes for a sequence whose elements are optional. It does not where an element is
required, and neither does a map with a key that is no index. -/
theorem accepts_number_iff_optional :
    lenientSchema.Accepts (.int 5) ∧ ¬ demandingSchema.Accepts (.int 5) ∧
      ¬ lenientSchema.Accepts (.map [(.scalar (.str "a"), .int 1)]) := by
  have hlenient : lenientSchema.AcceptsAbsence lenientSchema.leafChecks := by
    refine .of_forall (Schema.flatten_of_isWritable (by decide +kernel)) fun c hc => ?_
    have hchecks : lenientSchema.leafChecks =
        [⟨[.index 0], .optional (.comparison (.int 1))⟩] := rfl
    rw [hchecks, List.mem_singleton] at hc
    exact hc ▸ PathCheck.optional_acceptsAbsence _ _
  have hdemanding : ¬ ∃ cs, demandingSchema.AcceptsAbsence cs := by
    rintro ⟨cs, hcs, -, hpasses⟩
    obtain ⟨-, rfl⟩ := Schema.flatten_eq_ok_iff.1 hcs
    have hnodup : (demandingSchema.leafChecks.map (·.path.render)).Nodup := by decide +kernel
    rw [standing_of_nodup hnodup] at hpasses
    have hchecks : demandingSchema.leafChecks =
        [⟨[.index 0], .absent⟩, ⟨[.index 1], .comparison (.int 1)⟩] := rfl
    refine PathCheck.comparison_not_acceptsAbsence [.index 1] (.int 1) (hpasses _ ?_)
    rw [hchecks]
    exact List.mem_cons_of_mem _ List.mem_cons_self
  have hkey : ¬ ∃ i < 1, segments (Step.index i).text <+: segments "a" := by decide +kernel
  refine ⟨?_, fun h => ?_, fun h => ?_⟩
  · exact ((accepts_absence_iff lenientSchema (.int 5) rfl rfl).1 rfl).2
      ⟨List.cons_ne_nil _ _, _, hlenient⟩
  · exact hdemanding (((accepts_absence_iff demandingSchema (.int 5) rfl rfl).1 rfl).1 h).2
  · obtain ⟨-, -, hkeys⟩ := (accepts_absence_iff lenientSchema _ rfl rfl).2.1 h
    exact hkey (hkeys _ rfl _ List.mem_cons_self)

/-- An empty map and a text pass for a sequence, although they are none. -/
theorem lenientSchema_accepts_no_sequence : lenientSchema.kind.isSequence = true ∧
    ∀ a ∈ [.map [], .str "abc"], a.items? = none ∧ lenientSchema.Accepts a := by
  have hchecks : ∀ a ∈ [.map [], .str "abc"], a.items? = none ∧ a.children = [] ∧
      ∀ c ∈ lenientSchema.leafChecks, c.Passes a := by
    simp only [List.forall_mem_cons]
    refine ⟨⟨rfl, rfl, ?_⟩, ⟨rfl, rfl, ?_⟩, fun _ h => nomatch h⟩
    · decide +kernel
    · decide +kernel
  refine ⟨rfl, fun a ha => ?_⟩
  obtain ⟨hitems, hn, hpasses⟩ := hchecks a ha
  refine ⟨hitems, (Schema.accepts_iff_of_items? rfl).2
    ⟨_, Schema.flatten_of_isWritable (by decide +kernel),
      Tree.hasWritableKeys_of_children_eq_nil hn, ?_, ?_, ?_⟩⟩
  · exact fun c hc => (hpasses c hc).imp fun _ ho => ho.1
  · exact fun c hc => hpasses c (standing_subset _ _ hc)
  · rw [Tree.leaves_of_children_eq_nil hn]
    exact fun l hl => .inl (congrArg Leaf.path (List.mem_singleton.1 hl))

end TreeMatch
