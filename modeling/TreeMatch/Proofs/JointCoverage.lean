import Mathlib.Data.Set.Lattice
import TreeMatch.Proofs.Appending
import TreeMatch.Proofs.Composing
import TreeMatch.Proofs.LeafPaths

/-!
# Coverage by several validators

A path is covered by some texts exactly if one of them covers it (`covers_ofList_iff_exists`), so
merged reports cover together what each of them covers (`covers_mergeAll_iff`). What they leave
uncovered is what all of them leave uncovered. This is so for texts as well as for leaves
(`mem_map_render_uncovered_mergeAll_iff`), since leaves of one value that share a text are covered
alike (`covers_eq_of_mem_leaves`). The first main statement says it of the texts that a strict
validator adds to the report of a composition (`strict_compose_adds_common`).

A closed report covers all leaves (`uncovered_close`), and they stay covered whatever is merged with
it. So a strict validator has nothing to add to another one, neither alone nor among the parts of a
composition, which is the second main statement (`strict_absorbs`).
-/

namespace TreeMatch

namespace CoveredPaths

/-- A path is covered exactly if one of the texts covers it, be it the root or be its segments the
first ones of the text. -/
theorem covers_ofList_iff_exists {checked : List String} {p : Path} :
    (ofList checked).covers p = true ↔
      ∃ t ∈ checked, p = [] ∨ segments p.render <+: segments t := by
  rw [covers_ofList_iff_segments]
  constructor
  · rintro (⟨hroot, hne⟩ | ⟨t, ht, hbelow⟩)
    · obtain ⟨t, ht⟩ := List.exists_mem_of_ne_nil _ hne
      exact ⟨t, ht, .inl hroot⟩
    · exact ⟨t, ht, .inr hbelow⟩
  · rintro ⟨t, ht, hroot | hbelow⟩
    · exact .inl ⟨hroot, List.ne_nil_of_mem ht⟩
    · exact .inr ⟨t, ht, hbelow⟩

/-- More texts cover more paths. -/
theorem covers_of_subset {checked more : List String} (h : checked ⊆ more) {p : Path}
    (hp : (ofList checked).covers p = true) : (ofList more).covers p = true := by
  obtain ⟨t, ht, hcovers⟩ := covers_ofList_iff_exists.1 hp
  exact covers_ofList_iff_exists.2 ⟨t, h ht, hcovers⟩

/-- Paths below the root are covered alike if they have the same text. -/
theorem covers_eq_of_render_eq {c : CoveredPaths} {p q : Path} (hp : p ≠ []) (hq : q ≠ [])
    (h : p.render = q.render) : c.covers p = c.covers q := by
  have hisEmpty : p.isEmpty = q.isEmpty := by
    rw [List.isEmpty_eq_false_iff.2 hp, List.isEmpty_eq_false_iff.2 hq]
  rw [covers, covers, h, hisEmpty]

/-- Leaves of one value are covered alike if their paths have the same text. -/
theorem covers_eq_of_mem_leaves (c : CoveredPaths) {actual : Value} {l m : Leaf Label}
    (hl : l ∈ actual.leaves) (hm : m ∈ actual.leaves) (h : l.path.render = m.path.render) :
    c.covers l.path = c.covers m.path := by
  by_cases hn : actual.children = []
  · -- The root has the text of an empty key, but it is a leaf only where there is no other one.
    rw [Tree.leaves_of_children_eq_nil hn, List.mem_singleton] at hl hm
    rw [hl, hm]
  · exact covers_eq_of_render_eq (Tree.path_ne_nil_of_mem_leaves hn hl)
      (Tree.path_ne_nil_of_mem_leaves hn hm) h

end CoveredPaths

namespace Report

/-! ## Leaves that several reports leave uncovered -/

/-- The texts of merged reports are those of all of them. -/
theorem mem_paths_mergeAll {rs : List Report} (h : ∀ r ∈ rs, r.Coherent) {t : String} :
    t ∈ (mergeAll rs).paths ↔ ∃ r ∈ rs, t ∈ r.paths := by
  rw [paths_mergeAll h, List.mem_eraseDups, List.mem_flatMap]

/-- Merged reports cover a path exactly if one of them does. -/
theorem covers_mergeAll_iff {rs : List Report} (h : ∀ r ∈ rs, r.Coherent) {p : Path} :
    (CoveredPaths.ofList (mergeAll rs).paths).covers p = true ↔
      ∃ r ∈ rs, (CoveredPaths.ofList r.paths).covers p = true := by
  simp only [CoveredPaths.covers_ofList_iff_exists, mem_paths_mergeAll h]
  constructor
  · rintro ⟨t, ⟨r, hr, ht⟩, hcovers⟩
    exact ⟨r, hr, t, ht, hcovers⟩
  · rintro ⟨r, hr, t, ht, hcovers⟩
    exact ⟨t, ⟨r, hr, ht⟩, hcovers⟩

/-- A text is one of an uncovered leaf if it is one of a leaf, and no leaf with this text is
covered.
-/
theorem mem_map_render_uncovered_iff {r : Report} {actual : Value} {t : String} :
    t ∈ (r.uncovered actual).map Path.render ↔
      (∃ l ∈ actual.leaves, l.path.render = t) ∧
        ∀ l ∈ actual.leaves, l.path.render = t →
          (CoveredPaths.ofList r.paths).covers l.path = false := by
  simp only [List.mem_map, mem_uncovered_iff]
  constructor
  · rintro ⟨p, ⟨⟨l, hl, rfl⟩, huncovered⟩, rfl⟩
    refine ⟨⟨l, hl, rfl⟩, fun m hm hmtext => ?_⟩
    rw [CoveredPaths.covers_eq_of_mem_leaves _ hm hl hmtext, huncovered]
  · rintro ⟨⟨l, hl, htext⟩, hall⟩
    exact ⟨l.path, ⟨⟨l, hl, rfl⟩, hall l hl htext⟩, htext⟩

/-- Merged reports leave a text uncovered exactly if each of them does. -/
theorem mem_map_render_uncovered_mergeAll_iff {rs : List Report} (hne : rs ≠ [])
    (h : ∀ r ∈ rs, r.Coherent) {actual : Value} {t : String} :
    t ∈ ((mergeAll rs).uncovered actual).map Path.render ↔
      ∀ r ∈ rs, t ∈ (r.uncovered actual).map Path.render := by
  simp only [mem_map_render_uncovered_iff, ← Bool.not_eq_true, covers_mergeAll_iff h]
  constructor
  · rintro ⟨hleaf, huncovered⟩ r hr
    exact ⟨hleaf, fun l hl htext hcovers => huncovered l hl htext ⟨r, hr, hcovers⟩⟩
  · intro hall
    obtain ⟨s, hs⟩ := List.exists_mem_of_ne_nil _ hne
    refine ⟨(hall s hs).1, ?_⟩
    rintro l hl htext ⟨r, hr, hcovers⟩
    exact (hall r hr).2 l hl htext hcovers

/-- A closed report has the texts that it had and those of the uncovered leaves. -/
theorem mem_paths_close {r : Report} {actual : Value} {t : String} :
    t ∈ (r.close actual).paths ↔ t ∈ r.paths ∨ t ∈ (r.uncovered actual).map Path.render := by
  rw [close_eq_recordAll, mem_paths_recordAll, List.map_map]
  rfl

/-! ## Closed reports -/

/-- A closed report covers all leaves. -/
theorem uncovered_close (r : Report) (actual : Value) : (r.close actual).uncovered actual = [] := by
  rw [uncovered_eq_nil_iff_covers]
  intro l hl
  by_cases hcovers : (CoveredPaths.ofList r.paths).covers l.path = true
  · exact CoveredPaths.covers_of_subset (fun t ht => mem_paths_close.2 (.inl ht)) hcovers
  · have huncovered : l.path ∈ r.uncovered actual :=
      mem_uncovered_iff.2 ⟨⟨l, hl, rfl⟩, Bool.eq_false_iff.2 hcovers⟩
    exact CoveredPaths.covers_ofList_iff.2
      (.inl (mem_paths_close.2 (.inr (List.mem_map_of_mem huncovered))))

/-- What covers all leaves does so too when other reports are merged with it. -/
theorem uncovered_mergeAll_eq_nil {rs : List Report} (h : ∀ r ∈ rs, r.Coherent) {actual : Value}
    {r : Report} (hr : r ∈ rs) (hcovers : r.uncovered actual = []) :
    (mergeAll rs).uncovered actual = [] := by
  rw [uncovered_eq_nil_iff_covers] at hcovers ⊢
  exact fun l hl => (covers_mergeAll_iff h).2 ⟨r, hr, hcovers l hl⟩

end Report

namespace Validator

/-- A validator among those that all report has one of the reports. -/
theorem exists_report_of_mem {actual : Value} {vs : List Validator} {rs : List Report}
    (h : List.Forall₂ (Reports actual) vs rs) {v : Validator} (hv : v ∈ vs) :
    ∃ r ∈ rs, v.evaluate actual = .ok r := by
  induction h with
  | nil => exact nomatch hv
  | @cons _ r _ _ hr _ ih =>
    rcases List.mem_cons.1 hv with rfl | hv
    · exact ⟨r, List.mem_cons_self, hr⟩
    · obtain ⟨s, hs, hreport⟩ := ih hv
      exact ⟨s, List.mem_cons_of_mem _ hs, hreport⟩

/-- The texts that a strict validator adds to the report of its inner one. -/
def addedTexts (inner : Validator) (actual : Value) : Set String :=
  {t | ∃ r s, inner.evaluate actual = .ok r ∧ (strict inner).evaluate actual = .ok s ∧
    t ∈ s.paths ∧ t ∉ r.paths}

/-- The added texts are those of the leaves that the inner report does not cover. -/
theorem mem_addedTexts_iff {inner : Validator} {actual : Value} {r : Report}
    (hkeys : actual.hasWritableKeys = true) (h : inner.evaluate actual = .ok r) {t : String} :
    t ∈ inner.addedTexts actual ↔ t ∈ (r.uncovered actual).map Path.render := by
  constructor
  · rintro ⟨r', s, hr', hs, hmem, hnot⟩
    obtain rfl := Except.ok.inj (h.symm.trans hr')
    obtain rfl := Except.ok.inj ((evaluate_strict hkeys h).symm.trans hs)
    exact (Report.mem_paths_close.1 hmem).resolve_left hnot
  · intro ht
    refine ⟨r, r.close actual, h, evaluate_strict hkeys h, Report.mem_paths_close.2 (.inr ht), ?_⟩
    obtain ⟨p, hp, rfl⟩ := List.mem_map.1 ht
    exact Report.render_notMem_paths hp

/-- Where a key cannot be written, there is no strict report, and nothing is added. -/
theorem addedTexts_of_not_hasWritableKeys {actual : Value} (h : actual.hasWritableKeys = false)
    (inner : Validator) : inner.addedTexts actual = ∅ := by
  refine Set.eq_empty_iff_forall_notMem.2 fun t => ?_
  rintro ⟨r, s, -, hs, -, -⟩
  rw [(evaluate_strict_eq_ok_iff.1 hs).1] at h
  exact Bool.noConfusion h

end Validator

/-- If there are validators and all of them report, so does their composition. Each of these can be
made strict if all keys of the value can be written, and none of them otherwise. The texts that the
strict composition adds are those that every one of the validators would add if it were strict by
itself. -/
theorem strict_compose_adds_common (actual : Value) {vs : List Validator} (hne : vs ≠ [])
    (hvs : ∀ v ∈ vs, ∃ r, v.evaluate actual = .ok r) :
    (∀ v ∈ .compose vs :: vs, ∃ r, v.evaluate actual = .ok r ∧
      (actual.hasWritableKeys = true → ∃ s, (Validator.strict v).evaluate actual = .ok s) ∧
      (actual.hasWritableKeys = false →
        (Validator.strict v).evaluate actual = .error (.unwritable .tooManyDigits))) ∧
    (Validator.compose vs).addedTexts actual = ⋂ v ∈ vs, v.addedTexts actual := by
  obtain ⟨rs, hrs⟩ := Validator.exists_reports hvs
  have hcompose := Validator.evaluate_compose hrs
  have hreports : rs ≠ [] := by
    rintro rfl
    exact hne (List.forall₂_nil_right_iff.1 hrs)
  refine ⟨fun v hv => ?_, ?_⟩
  · have hreport : ∃ r, v.evaluate actual = .ok r := by
      rcases List.mem_cons.1 hv with rfl | hv
      · exact ⟨_, hcompose⟩
      · exact hvs v hv
    obtain ⟨r, hr⟩ := hreport
    refine ⟨r, hr, fun hkeys => ⟨_, Validator.evaluate_strict hkeys hr⟩, fun hkeys => ?_⟩
    rw [Validator.evaluate_strict_eq, hr, hkeys]
    rfl
  · cases hkeys : actual.hasWritableKeys with
    | true =>
      refine Set.ext fun t => ?_
      have hparts : (∀ v ∈ vs, t ∈ v.addedTexts actual) ↔
          ∀ r ∈ rs, t ∈ (r.uncovered actual).map Path.render :=
        Validator.forall_validators_iff hrs fun v r hv => Validator.mem_addedTexts_iff hkeys hv
      rw [Validator.mem_addedTexts_iff hkeys hcompose,
        Report.mem_map_render_uncovered_mergeAll_iff hreports
          (Validator.coherent_of_reports hrs), ← hparts]
      simp only [Set.mem_iInter]
    | false =>
      obtain ⟨v, hv⟩ := List.exists_mem_of_ne_nil _ hne
      have hnone := Validator.addedTexts_of_not_hasWritableKeys hkeys
      rw [hnone]
      refine (Set.eq_empty_iff_forall_notMem.2 fun t ht => ?_).symm
      have hpart : t ∈ v.addedTexts actual := by
        simp only [Set.mem_iInter] at ht
        exact ht v hv
      rw [hnone] at hpart
      exact hpart

/-- Two validators that look at one entry each. -/
def entryValidators : List Validator :=
  [.checks [⟨[.key "c"], .named "present" .present⟩],
    .checks [⟨[.key "d"], .named "present" .present⟩]]

/-- The report of one of them. -/
def entryReport (name : String) : Report := ⟨[(name, .passed [.key name])]⟩

/-- Both report on the value with leaves beside these entries. -/
theorem reports_entryValidators : List.Forall₂ (Validator.Reports twinValue) entryValidators
    [entryReport "c", entryReport "d"] :=
  .cons (by decide +kernel) (.cons (by decide +kernel) .nil)

/-- The text of the two leaves that neither of them looks at is added, and that of an entry which
one of them looks at is not. -/
theorem strict_compose_entryValidators :
    "a.b" ∈ (Validator.compose entryValidators).addedTexts twinValue ∧
      "d" ∉ (Validator.compose entryValidators).addedTexts twinValue := by
  have hvs : ∀ v ∈ entryValidators, ∃ r, v.evaluate twinValue = .ok r := fun v hv =>
    (Validator.exists_report_of_mem reports_entryValidators hv).imp fun _ hr => hr.2
  have hkeys : twinValue.hasWritableKeys = true := by decide +kernel
  have hfirst : ((entryReport "c").uncovered twinValue).map Path.render = ["a.b", "d", "a.b"] := by
    rw [Report.uncovered]
    simp only [CoveredPaths.covers_ofList_eq_decide]
    decide +kernel
  have hsecond : ((entryReport "d").uncovered twinValue).map Path.render = ["c", "a.b", "a.b"] := by
    rw [Report.uncovered]
    simp only [CoveredPaths.covers_ofList_eq_decide]
    decide +kernel
  have hadded : ∀ t, t ∈ (Validator.compose entryValidators).addedTexts twinValue ↔
      t ∈ ["a.b", "d", "a.b"] ∧ t ∈ ["c", "a.b", "a.b"] := by
    intro t
    rw [(strict_compose_adds_common twinValue (by decide) hvs).2]
    simp only [Set.mem_iInter]
    rw [Validator.forall_validators_iff reports_entryValidators
      fun v r hv => Validator.mem_addedTexts_iff hkeys hv, List.forall_mem_cons,
      List.forall_mem_singleton, hfirst, hsecond]
  rw [hadded, hadded]
  decide +kernel

/-- If all of some validators report and one of them is strict, to make their composition strict
changes nothing. To make a strict validator strict changes nothing either, whether it reports or
not. -/
theorem strict_absorbs (actual : Value) :
    (∀ vs, (∀ v ∈ vs, ∃ r, v.evaluate actual = .ok r) → (∃ v, Validator.strict v ∈ vs) →
      ∃ r, (Validator.compose vs).evaluate actual = .ok r ∧
        (Validator.strict (.compose vs)).evaluate actual = .ok r) ∧
    ∀ v, (Validator.strict (.strict v)).evaluate actual = (Validator.strict v).evaluate actual := by
  constructor
  · rintro vs hvs ⟨v, hv⟩
    obtain ⟨rs, hrs⟩ := Validator.exists_reports hvs
    obtain ⟨s, hs, hreport⟩ := Validator.exists_report_of_mem hrs hv
    obtain ⟨hkeys, lax, -, rfl⟩ := Validator.evaluate_strict_eq_ok_iff.1 hreport
    have hcompose := Validator.evaluate_compose hrs
    have huncovered : (Report.mergeAll rs).uncovered actual = [] :=
      Report.uncovered_mergeAll_eq_nil (Validator.coherent_of_reports hrs) hs
        (lax.uncovered_close actual)
    have hstrict := Validator.evaluate_strict hkeys hcompose
    rw [Report.close_of_uncovered_eq_nil huncovered] at hstrict
    exact ⟨_, hcompose, hstrict⟩
  · intro v
    cases hv : (Validator.strict v).evaluate actual with
    | error fault =>
      rw [Validator.evaluate, hv]
      rfl
    | ok r =>
      obtain ⟨hkeys, lax, -, rfl⟩ := Validator.evaluate_strict_eq_ok_iff.1 hv
      rw [Validator.evaluate_strict hkeys hv,
        Report.close_of_uncovered_eq_nil (lax.uncovered_close actual)]

/-- A strict validator and one that fails the entry that the other one has found surplus. -/
def halfStrict : List Validator :=
  [.strict (.checks [⟨[.key "a"], .named "present" .present⟩]),
    .checks [⟨[.key "b"], .named "rejected" (.reject "no")⟩]]

/-- Nothing is added to what they report together, although the strict validator has found a surplus
entry by itself. -/
theorem strict_halfStrict : ∃ r, (Validator.compose halfStrict).evaluate pairValue = .ok r ∧
    (Validator.strict (.compose halfStrict)).evaluate pairValue = .ok r := by
  have hinner : (Validator.checks [⟨[.key "a"], .named "present" .present⟩]).evaluate pairValue =
      .ok ⟨[("a", .passed [.key "a"])]⟩ := by
    decide +kernel
  have hother : (Validator.checks [⟨[.key "b"], .named "rejected" (.reject "no")⟩]).evaluate
      pairValue = .ok ⟨[("b", .failed [.key "b"] "no")]⟩ := by
    decide +kernel
  refine (strict_absorbs pairValue).1 halfStrict ?_ ⟨_, List.mem_cons_self⟩
  exact List.forall_mem_cons.2 ⟨⟨_, Validator.evaluate_strict (by decide +kernel) hinner⟩,
    List.forall_mem_singleton.2 ⟨_, hother⟩⟩

end TreeMatch
