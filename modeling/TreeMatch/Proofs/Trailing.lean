import TreeMatch.Check.Stock
import TreeMatch.Proofs.Appending

/-!
# What lies behind the end of a sequence

A schema that is a sequence compiles to a strict validator, so that a longer sequence does not
match. All paths of its checks begin with the index of one of its elements
(`exists_index_of_mem_leaves`), and the text of an index is always told from that of another one, by
the dot or the end that comes after it. So whatever the keys further down are, no leaf under a later
index is covered (`mem_uncovered_of_length_le`): each of them is recorded as an unexpected field
(`sequence_fails_trailing`). Lists and tuples make no difference, in the schema or in the value.
-/

namespace TreeMatch

namespace Tree

variable {α : Type u} {t : Tree α} {xs : List (Tree α)}

/-- The elements of a sequence. -/
def items? : Tree α → Option (List (Tree α))
  | .list xs | .tuple xs => some xs
  | .map _ | .scalar _ | .set _ | .check _ => none

/-- The children of a list or a tuple are its elements under their indices. -/
theorem mem_children_of_items? (h : t.items? = some xs) {c : Step × Tree α} :
    c ∈ t.children ↔ ∃ i, xs[i]? = some c.2 ∧ c.1 = .index i := by
  cases t with
  | list ys | tuple ys =>
    obtain rfl := Option.some.inj h
    exact mem_children_list_iff
  | map _ | scalar _ | set _ | check _ => exact nomatch h

/-- The path of a leaf of a sequence begins with the index of an element. -/
theorem exists_index_of_mem_leaves (h : t.items? = some xs) {l : Leaf α} (hl : l ∈ t.leaves)
    {s : Step} (hs : l.path.head? = some s) : ∃ i < xs.length, s = .index i := by
  rcases mem_leaves_iff.1 hl with ⟨-, rfl⟩ | ⟨c, hc, l', -, rfl⟩
  · exact nomatch hs
  · obtain ⟨i, hx, hi⟩ := (mem_children_of_items? h).1 hc
    obtain ⟨hlt, -⟩ := List.getElem?_eq_some_iff.1 hx
    exact ⟨i, hlt, (Option.some.inj hs).symm.trans hi⟩

/-- There is a leaf under the index of every element. -/
theorem exists_mem_leaves_of_lt (h : t.items? = some xs) {i : Nat} (hi : i < xs.length) :
    ∃ l ∈ t.leaves, l.path.head? = some (.index i) := by
  obtain ⟨l, hl⟩ := xs[i].exists_mem_leaves
  have hc : (Step.index i, xs[i]) ∈ t.children :=
    (mem_children_of_items? h).2 ⟨i, List.getElem?_eq_getElem hi, rfl⟩
  exact ⟨_, mem_leaves_of_child hc hl, rfl⟩

end Tree

namespace Schema

variable {s : Schema} {xs : List Schema} {cs : List PathCheck} {actual : Value}

/-- A sequence is a container. -/
theorem isContainer_of_items? (hs : s.items? = some xs) : s.kind.isContainer = true := by
  cases s with
  | list ys | tuple ys =>
    cases ys with
    | nil => rfl
    | cons _ _ => rfl
  | map _ | scalar _ | set _ | check _ => exact nomatch hs

/-- The validator of the checks of a sequence is strict. -/
theorem ofChecks_of_items? (hs : s.items? = some xs) (cs : List PathCheck) :
    s.ofChecks cs = .strict (.checks cs) := by
  cases s with
  | list ys | tuple ys =>
    cases ys with
    | nil => rfl
    | cons _ _ => rfl
  | map _ | scalar _ | set _ | check _ => exact nomatch hs

/-- A sequence compiles to a strict validator of its checks. -/
theorem compile_of_items? (hs : s.items? = some xs) (hcs : s.flatten = .ok cs) :
    s.compile = .ok (.strict (.checks cs)) :=
  (compile_eq_ok_iff (isContainer_of_items? hs)).2 ⟨cs, hcs, ofChecks_of_items? hs cs⟩

/-- A report on the checks of a sequence does not cover any leaf behind its end. -/
theorem mem_uncovered_of_length_le {r : Report} (hs : s.items? = some xs) (hcs : s.flatten = .ok cs)
    (hr : (Validator.checks cs).evaluate actual = .ok r) {l : Leaf Label}
    (hl : l ∈ actual.leaves) {i : Nat} (hi : l.path.head? = some (.index i))
    (hge : xs.length ≤ i) : l.path ∈ r.uncovered actual := by
  refine Report.mem_uncovered_iff.2 ⟨⟨l, hl, rfl⟩, ?_⟩
  rw [← Bool.not_eq_true, CoveredPaths.covers_ofList_iff_segments]
  rintro (⟨hroot, -⟩ | ⟨t, ht, hprefix⟩)
  · rw [hroot] at hi
    exact nomatch hi
  · obtain ⟨c, hc, rfl⟩ := List.mem_map.1 ((Report.mem_paths_checks hr).1 ht)
    obtain ⟨-, rfl⟩ := flatten_eq_ok_iff.1 hcs
    obtain ⟨m, hm, rfl⟩ := List.mem_map.1 hc
    have hfirst : ∀ s', m.path.head? = some s' → ∃ j < xs.length, s' = .index j := fun s' hs' =>
      Tree.exists_index_of_mem_leaves hs hm hs'
    have hsame : m.path.head? = some (.index i) := by
      refine Path.head?_eq_of_segments_prefix hi (fun s' hs' => ?_) hprefix
      obtain ⟨j, -, rfl⟩ := hfirst s' hs'
      rfl
    obtain ⟨j, hj, hij⟩ := hfirst _ hsame
    obtain rfl := Step.index.inj hij
    omega

end Schema

/-- Let a value be a sequence with more elements than a schema that is one. The schema compiles if
it can be written, and not otherwise. If none of its checks gives up on the value, and all keys of
the value can be written, then there is a report, and it does not succeed: under the text of the
path of every leaf behind the end of the schema it has an unexpected field. The path of this field
is that of a leaf under the same index with the same text. If a key of the value cannot be written,
there is no report. -/
theorem sequence_fails_trailing (s : Schema) (actual : Value) {xs : List Schema} {as : List Value}
    (hs : s.items? = some xs) (ha : actual.items? = some as) (hlen : xs.length < as.length) :
    (s.isWritable = false → s.compile = .error (.unwritable .tooManyDigits)) ∧
    (s.isWritable = true → ∃ cs v, s.flatten = .ok cs ∧ s.compile = .ok v ∧
      ((∀ c ∈ cs, ∃ o, c.run actual = .ok o) → actual.hasWritableKeys = true →
        ∃ r, v.evaluate actual = .ok r ∧ r.succeeded = false ∧
          ∀ l ∈ actual.leaves, ∀ i, l.path.head? = some (.index i) → xs.length ≤ i →
            ∃ m ∈ actual.leaves, m.path.head? = some (.index i) ∧
              m.path.render = l.path.render ∧
              r.get? l.path.render = some (.unexpectedField m.path)) ∧
      ((∀ c ∈ cs, ∃ o, c.run actual = .ok o) → actual.hasWritableKeys = false →
        v.evaluate actual = .error (.unwritable .tooManyDigits))) := by
  refine ⟨Schema.compile_of_not_isWritable (Schema.isContainer_of_items? hs), fun hwritable => ?_⟩
  have hcs := Schema.flatten_of_isWritable hwritable
  refine ⟨_, _, hcs, Schema.compile_of_items? hs hcs, fun hrun hkeys => ?_, fun hrun hkeys => ?_⟩
  · obtain ⟨lax, hlax⟩ := Report.exists_evaluate_checks hrun
    refine ⟨_, Validator.evaluate_strict hkeys hlax, ?_, fun l hl i hi hge => ?_⟩
    · -- The first index behind the end has a leaf already.
      obtain ⟨l, hl, hi⟩ := Tree.exists_mem_leaves_of_lt ha hlen
      have huncovered := Schema.mem_uncovered_of_length_le hs hcs hlax hl hi (Nat.le_refl _)
      rw [← Bool.not_eq_true, Report.succeeded_close_iff]
      exact fun h => List.ne_nil_of_mem huncovered h.2
    · have huncovered := Schema.mem_uncovered_of_length_le hs hcs hlax hl hi hge
      obtain ⟨q, hq, htext, hget⟩ := Report.exists_get?_close huncovered
      obtain ⟨m, hm, rfl⟩ := List.mem_map.1 (List.mem_filter.1 hq).1
      refine ⟨m, hm, ?_, htext, hget⟩
      -- A leaf of a sequence with the same text is under the same index.
      have hsegments : segments l.path.render <+: segments m.path.render :=
        htext ▸ List.prefix_rfl
      refine Path.head?_eq_of_segments_prefix hi (fun s' hs' => ?_) hsegments
      obtain ⟨j, -, rfl⟩ := Tree.exists_index_of_mem_leaves ha hm hs'
      rfl
  · obtain ⟨lax, hlax⟩ := Report.exists_evaluate_checks hrun
    rw [Validator.evaluate_strict_eq, hlax, hkeys]
    rfl

/-- A schema of one element, with keys that are written like ways out of it. -/
def bracketSchema : Schema :=
  .list [.map [(.scalar (.str "[1]"), .int 1),
    (.scalar (.str "x.[2].a"), .check (.optional (.named "present" .present)))]]

/-- A tuple of an element that matches, an empty one, and one that has two leaves with the same
text. -/
def longValue : Value :=
  .tuple [.map [(.scalar (.str "[1]"), .int 1)], .list [],
    .map [(.scalar (.str "a"), .map [(.scalar (.str "b"), .int 2)]),
      (.scalar (.str "a.b"), .int 3)]]

/-- Both elements behind the end fail. -/
theorem bracketSchema_fails_longValue : ∃ v r, bracketSchema.compile = .ok v ∧
    v.evaluate longValue = .ok r ∧ r.succeeded = false ∧
    r.get? "[1]" = some (.unexpectedField [.index 1]) ∧
    ∃ p, r.get? "[2].a.b" = some (.unexpectedField p) := by
  obtain ⟨cs, v, hcs, hv, hlaw, -⟩ :=
    (sequence_fails_trailing bracketSchema longValue rfl rfl (by decide)).2 (by decide +kernel)
  have hrun : ∀ c ∈ cs, ∃ o, c.run longValue = .ok o := by
    obtain ⟨-, rfl⟩ := Schema.flatten_eq_ok_iff.1 hcs
    have hpasses : ∀ c ∈ bracketSchema.leafChecks, c.Passes longValue := by decide +kernel
    exact fun c hc => (hpasses c hc).imp fun _ h => h.1
  obtain ⟨r, hr, hfails, hfields⟩ := hlaw hrun (by decide +kernel)
  have hempty : ∃ l ∈ longValue.leaves, l.path = [.index 1] := by decide +kernel
  have honly : ∀ m ∈ longValue.leaves, m.path.head? = some (.index 1) → m.path = [.index 1] := by
    decide +kernel
  have hdeep : ∃ l ∈ longValue.leaves, l.path = [.index 2, .key "a.b"] := by decide +kernel
  refine ⟨v, r, hv, hr, hfails, ?_, ?_⟩
  · obtain ⟨l, hl, hpath⟩ := hempty
    obtain ⟨m, hm, hhead, -, hget⟩ := hfields l hl 1 (by rw [hpath]; rfl) (by decide)
    have htext : l.path.render = "[1]" := by rw [hpath]; decide +kernel
    rw [← htext, hget, honly m hm hhead]
  · obtain ⟨l, hl, hpath⟩ := hdeep
    obtain ⟨m, -, -, -, hget⟩ := hfields l hl 2 (by rw [hpath]; rfl) (by decide)
    have htext : l.path.render = "[2].a.b" := by rw [hpath]; decide +kernel
    exact ⟨m.path, by rw [← htext, hget]⟩

/-- A schema of one number. -/
def shortSchema : Schema := .list [.int 1]

/-- A list with two more elements, of which the second has a key that cannot be written. -/
def trailingValue : Value := .list [.int 1, .int 2, .map [(longKey, .int 1)]]

/-- There is no report on the list, although the check of the schema does not give up: the strict
pass comes to the key. -/
theorem shortSchema_misses_trailingValue : ∃ cs v, shortSchema.flatten = .ok cs ∧
    shortSchema.compile = .ok v ∧ (∀ c ∈ cs, ∃ o, c.run trailingValue = .ok o) ∧
    v.evaluate trailingValue = .error (.unwritable .tooManyDigits) := by
  have hcs := Schema.flatten_of_isWritable (s := shortSchema) (by decide +kernel)
  have hpasses : ∀ c ∈ shortSchema.leafChecks, c.Passes trailingValue := by decide +kernel
  have hlong : trailingValue.hasWritableKeys = false := by decide +kernel
  have hrun : ∀ c ∈ shortSchema.leafChecks, ∃ o, c.run trailingValue = .ok o := fun c hc =>
    (hpasses c hc).imp fun _ h => h.1
  obtain ⟨lax, hlax⟩ := Report.exists_evaluate_checks hrun
  refine ⟨_, _, hcs, Schema.compile_of_items? rfl hcs, hrun, ?_⟩
  rw [Validator.evaluate_strict_eq, hlax, hlong]
  rfl

end TreeMatch
