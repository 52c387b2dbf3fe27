import TreeMatch.Coverage
import TreeMatch.Proofs.Rendering

/-!
# Coverage by bisection

The search of `CoveredPaths.covers` keeps two bounds in the sorted texts: below the first one every
text is smaller than the one sought, from the second one on none is (`Brackets`). Every step keeps
this (`lowerBound_brackets`), so that the search ends at the first text that is not smaller. Texts
with a common beginning stand together in this order (`prefix_of_not_lt_of_not_lt`), so if any text
begins with the one sought, that first text does. It follows when a path is covered
(`covers_ofList_iff`), and in terms of segments that the segments of the path begin those of a
checked text (`covers_ofList_iff_segments`).

The main statement is that the search is as good as a scan of all texts (`covers_eq_scan`). What is
searched depends only on which texts there are (`ofList_eq_of_mem_iff`), so it does not matter how
often and in which order they were checked.
-/

namespace TreeMatch

/-! ## The search -/

/-- The texts stand in ascending order. -/
def Ascending (xs : Array String) : Prop :=
  ∀ i j, i ≤ j → j < xs.size → xs.getD i "" ≤ xs.getD j ""

/-- Below `lo` every text is smaller than `x`, from `lo + n` on none is. -/
structure Brackets (xs : Array String) (x : String) (lo n : Nat) : Prop where
  /-- The bounds lie within the texts. -/
  within : lo + n ≤ xs.size
  /-- Texts below the bounds are smaller. -/
  below : ∀ i < lo, xs.getD i "" < x
  /-- Texts above the bounds are not. -/
  above : ∀ i, lo + n ≤ i → i < xs.size → x ≤ xs.getD i ""

/-- The search ends where the bounds meet. -/
theorem lowerBound_brackets {xs : Array String} {x : String} {lo n : Nat} (hs : Ascending xs)
    (h : Brackets xs x lo n) : Brackets xs x (lowerBound xs x lo n) 0 := by
  fun_induction lowerBound xs x lo n with
  | case1 lo => exact h
  | case2 lo n hn mid hlt ih =>
    -- The text in the middle is smaller, and so are those before it.
    have hwithin := h.within
    refine ih ⟨by omega, fun i hi => ?_, fun i hi => h.above i (by omega)⟩
    exact Std.lt_of_le_of_lt (hs i mid (by omega) (by omega)) hlt
  | case3 lo n hn mid hge ih =>
    -- The text in the middle is not smaller, nor are those after it.
    have hwithin := h.within
    refine ih ⟨by omega, h.below, fun i hi hsize => ?_⟩
    exact String.le_trans (String.not_lt.1 hge) (hs mid i (by omega) hsize)

/-- The search in all texts begins with bounds that say nothing. -/
theorem brackets_lowerBound {xs : Array String} (hs : Ascending xs) (x : String) :
    Brackets xs x (lowerBound xs x 0 xs.size) 0 :=
  lowerBound_brackets hs ⟨by omega, fun i hi => by omega, fun i hi => by omega⟩

/-! ## Texts with a common beginning -/

/-- What is neither smaller than a list nor larger than a longer one that it begins, begins with it.
-/
theorem prefix_of_not_lt_of_not_lt {l m r : List Char} (hlow : ¬ m < l) (hhigh : ¬ l ++ r < m) :
    l <+: m := by
  induction l generalizing m with
  | nil => exact List.nil_prefix
  | cons a l ih =>
    cases m with
    | nil => exact absurd (List.nil_lt_cons a l) hlow
    | cons b m =>
      rw [List.cons_lt_cons_iff, not_or, not_and] at hlow
      rw [List.cons_append, List.cons_lt_cons_iff, not_or, not_and] at hhigh
      obtain rfl : a = b := Char.le_antisymm (Char.not_lt.1 hlow.1) (Char.not_lt.1 hhigh.1)
      exact List.cons_prefix_cons.2 ⟨rfl, ih (hlow.2 rfl) (hhigh.2 rfl)⟩

/-- A text that begins another one is not larger. -/
theorem le_of_toList_prefix {x t : String} (h : x.toList <+: t.toList) : x ≤ t := by
  obtain ⟨r, hr⟩ := h
  show ¬ t.toList < x.toList
  rw [← hr]
  exact List.le_append_left

/-- If a text begins with the one sought, the text where the search ends does. -/
theorem startsWith_lowerBound_iff {xs : Array String} (hs : Ascending xs) (x : String) :
    (lowerBound xs x 0 xs.size < xs.size ∧
        x.toList <+: (xs.getD (lowerBound xs x 0 xs.size) "").toList) ↔
      ∃ t ∈ xs, x.toList <+: t.toList := by
  have hb := brackets_lowerBound hs x
  generalize lowerBound xs x 0 xs.size = i at hb
  constructor
  · rintro ⟨hi, hp⟩
    exact ⟨xs[i], Array.getElem_mem hi, by rwa [Array.getElem_eq_getD ""]⟩
  · rintro ⟨t, ht, hp⟩
    obtain ⟨j, hj, rfl⟩ := Array.getElem_of_mem ht
    rw [Array.getElem_eq_getD ""] at hp
    -- The search does not end behind `j`, and what lies between two texts that begin with `x`
    -- begins with it as well.
    have hxj : x ≤ xs.getD j "" := le_of_toList_prefix hp
    have hij : i ≤ j := Nat.le_of_not_lt fun hlt =>
      absurd (hb.below j hlt) (String.not_lt.2 hxj)
    have hi : i < xs.size := by omega
    obtain ⟨r, hr⟩ := hp
    refine ⟨hi, prefix_of_not_lt_of_not_lt (r := r) (hb.above i (by omega) hi) ?_⟩
    rw [hr]
    exact hs i j hij hj

/-! ## Texts in order -/

/-- Sorting puts texts in ascending order. -/
theorem pairwise_le_mergeSort (texts : List String) :
    (texts.mergeSort (fun a b => a ≤ b)).Pairwise (· ≤ ·) := by
  have hsorted : (texts.mergeSort (fun a b => a ≤ b)).Pairwise
      fun a b => decide (a ≤ b) = true := by
    refine List.pairwise_mergeSort (fun a b c hab hbc => ?_) (fun a b => ?_) _
    · rw [decide_eq_true_eq] at hab hbc ⊢
      exact String.le_trans hab hbc
    · simpa using String.le_total a b
  exact hsorted.imp of_decide_eq_true

/-- Dropping repetitions leaves every text once. -/
theorem nodup_eraseDups : ∀ texts : List String, texts.eraseDups.Nodup
  | [] => List.nodup_nil
  | t :: texts => by
    have hshorter := List.length_filter_le (fun u => !u == t) texts
    rw [List.eraseDups_cons, List.nodup_cons]
    refine ⟨fun hmem => ?_, nodup_eraseDups _⟩
    obtain ⟨-, hne⟩ := List.mem_filter.1 (List.mem_eraseDups.1 hmem)
    simp at hne
termination_by texts => texts.length
decreasing_by exact Nat.lt_succ_of_le hshorter

/-! ## Coverage -/

namespace CoveredPaths

/-- The texts of checked paths are looked through in ascending order. -/
theorem ascending_ofList (checked : List String) : Ascending (ofList checked).sorted := by
  intro i j hij hj
  have hsorted := pairwise_le_mergeSort checked.eraseDups
  have hi : i < (ofList checked).sorted.size := by omega
  rw [← Array.getElem_eq_getD (h := hi) "", ← Array.getElem_eq_getD (h := hj) ""]
  rcases Nat.lt_or_eq_of_le hij with hlt | rfl
  · exact List.pairwise_iff_getElem.1 hsorted i j _ _ hlt
  · exact String.le_refl _

/-- No text is lost or added when they are sorted. -/
theorem mem_sorted_ofList {checked : List String} {t : String} :
    t ∈ (ofList checked).sorted ↔ t ∈ checked := by
  rw [ofList, List.mem_toArray, List.mem_mergeSort, List.mem_eraseDups]

/-- There are sorted texts if there are any. -/
theorem isEmpty_sorted_ofList {checked : List String} :
    (!(ofList checked).sorted.isEmpty) = true ↔ checked ≠ [] := by
  rw [Bool.not_eq_true', Array.isEmpty_eq_false_iff_exists_mem]
  constructor
  · rintro ⟨t, ht⟩
    exact List.ne_nil_of_mem (mem_sorted_ofList.1 ht)
  · intro h
    obtain ⟨t, ht⟩ := List.exists_mem_of_ne_nil _ h
    exact ⟨t, mem_sorted_ofList.2 ht⟩

/-- A path is covered if it is among the checked ones, if it is the root and anything was checked,
or if a checked text goes on with a dot after its own. -/
theorem covers_ofList_iff {checked : List String} {p : Path} :
    (ofList checked).covers p = true ↔ p.render ∈ checked ∨ (p = [] ∧ checked ≠ []) ∨
      ∃ t ∈ checked, (p.render ++ ".").toList <+: t.toList := by
  have hsearch := startsWith_lowerBound_iff (ascending_ofList checked) (p.render ++ ".")
  simp only [mem_sorted_ofList] at hsearch
  have hcontains : (ofList checked).sorted.contains p.render = true ↔ p.render ∈ checked := by
    rw [Array.contains_iff_mem, mem_sorted_ofList]
  by_cases hmem : p.render ∈ checked
  · rw [covers, if_pos (hcontains.2 hmem)]
    exact iff_of_true rfl (.inl hmem)
  · rw [covers, if_neg (mt hcontains.1 hmem)]
    by_cases hp : p = []
    · subst hp
      rw [if_pos List.isEmpty_nil, isEmpty_sorted_ofList]
      constructor
      · exact fun h => .inr (.inl ⟨rfl, h⟩)
      · rintro (h | h | ⟨t, ht, -⟩)
        · exact absurd h hmem
        · exact h.2
        · exact List.ne_nil_of_mem ht
    · rw [if_neg (by simpa using hp)]
      dsimp only
      rw [Bool.and_eq_true, decide_eq_true_eq, startsWith, List.isPrefixOf_iff_prefix, hsearch]
      simp [hmem, hp]

/-- A path is covered if its segments begin those of a checked text. Everything is below the root.
-/
theorem covers_ofList_iff_segments {checked : List String} {p : Path} :
    (ofList checked).covers p = true ↔
      (p = [] ∧ checked ≠ []) ∨ ∃ t ∈ checked, segments p.render <+: segments t := by
  simp only [covers_ofList_iff, segments_prefix_iff]
  constructor
  · rintro (h | h | ⟨t, ht, hp⟩)
    · exact .inr ⟨_, h, .inl rfl⟩
    · exact .inl h
    · exact .inr ⟨t, ht, .inr hp⟩
  · rintro (h | ⟨t, ht, rfl | hp⟩)
    · exact .inr (.inl h)
    · exact .inl ht
    · exact .inr (.inr ⟨t, ht, hp⟩)

/-- The answer of the search, by the segments of the texts. -/
theorem covers_ofList_eq_decide (checked : List String) (p : Path) :
    (ofList checked).covers p = decide ((p = [] ∧ checked ≠ []) ∨
      ∃ t ∈ checked, segments p.render <+: segments t) := by
  rw [Bool.eq_iff_iff, decide_eq_true_eq]
  exact covers_ofList_iff_segments

/-! ## The search and the scan -/

/-- The answer that is found by looking at the checked texts one by one. -/
def scan (checked : List String) (p : Path) : Bool :=
  checked.any fun t => t == p.render || p.isEmpty || startsWith t (p.render ++ ".")

/-- The scan finds a text that is the one of the path or goes on with a dot, and for the root any
text. -/
theorem scan_eq_true_iff {checked : List String} {p : Path} :
    scan checked p = true ↔ p.render ∈ checked ∨ (p = [] ∧ checked ≠ []) ∨
      ∃ t ∈ checked, (p.render ++ ".").toList <+: t.toList := by
  simp only [scan, startsWith, List.any_eq_true, Bool.or_eq_true, beq_iff_eq, List.isEmpty_iff,
    List.isPrefixOf_iff_prefix]
  constructor
  · rintro ⟨t, ht, (rfl | hroot) | hbelow⟩
    · exact .inl ht
    · exact .inr (.inl ⟨hroot, List.ne_nil_of_mem ht⟩)
    · exact .inr (.inr ⟨t, ht, hbelow⟩)
  · rintro (hmem | ⟨hroot, hne⟩ | ⟨t, ht, hbelow⟩)
    · exact ⟨_, hmem, .inl (.inl rfl)⟩
    · obtain ⟨t, ht⟩ := List.exists_mem_of_ne_nil _ hne
      exact ⟨t, ht, .inl (.inr hroot)⟩
    · exact ⟨t, ht, .inr hbelow⟩

/-- What is searched depends neither on the order of the checked texts nor on repetitions. -/
theorem ofList_eq_of_mem_iff {checked other : List String} (h : ∀ t, t ∈ other ↔ t ∈ checked) :
    ofList other = ofList checked := by
  have hdistinct : other.eraseDups.Perm checked.eraseDups := by
    refine (List.perm_ext_iff_of_nodup (nodup_eraseDups _) (nodup_eraseDups _)).2 fun t => ?_
    rw [List.mem_eraseDups, List.mem_eraseDups, h]
  -- Two ascending lists of the same texts are the same list.
  have hsorted : other.eraseDups.mergeSort (fun a b => a ≤ b) =
      checked.eraseDups.mergeSort fun a b => a ≤ b := by
    refine List.Perm.eq_of_pairwise (fun a b _ _ => String.le_antisymm)
      (pairwise_le_mergeSort _) (pairwise_le_mergeSort _) ?_
    exact ((List.mergeSort_perm _ _).trans hdistinct).trans (List.mergeSort_perm _ _).symm
  rw [ofList, ofList, hsorted]

/-- The search gives the answer of the scan: a path is covered exactly if its text is among the
checked ones, if it is the root and anything was checked, or if a checked text goes on with a dot
after its own. The answer is the same for every other list of these texts. -/
theorem covers_eq_scan (checked : List String) (p : Path) :
    (ofList checked).covers p = scan checked p ∧
    ((ofList checked).covers p = true ↔
      p.render ∈ checked ∨ (p = Path.root ∧ checked ≠ []) ∨
        ∃ t ∈ checked, ∃ rest, t = p.render ++ "." ++ rest) ∧
    ∀ other, (∀ t, t ∈ other ↔ t ∈ checked) →
      (ofList other).covers p = (ofList checked).covers p := by
  have hgoesOn : ∀ t : String, (∃ rest, t = p.render ++ "." ++ rest) ↔
      (p.render ++ ".").toList <+: t.toList := by
    intro t
    constructor
    · rintro ⟨rest, rfl⟩
      exact ⟨rest.toList, String.toList_append.symm⟩
    · rintro ⟨cs, h⟩
      refine ⟨String.ofList cs, String.toList_injective ?_⟩
      rw [String.toList_append, String.toList_ofList, h]
  refine ⟨?_, ?_, fun other h => by rw [ofList_eq_of_mem_iff h]⟩
  · rw [Bool.eq_iff_iff, covers_ofList_iff, scan_eq_true_iff]
  · simp only [hgoesOn]
    exact covers_ofList_iff

/-- Texts that begin alike, in no order. One of them stands in the order of the texts between the
text `a` and what is below it. -/
def neighbourTexts : List String := ["a.c", "ab", "a-b", "a.c"]

/-- What goes on with a dot is found behind its neighbours, and nothing else is found. -/
theorem covers_neighbourTexts :
    (ofList neighbourTexts).covers [.key "a"] = true ∧
      (ofList neighbourTexts).covers [.key "a", .key "b"] = false ∧
      (ofList ["a-b", "a.c", "ab"]).covers [.key "a"] = true := by
  have hbelow : (ofList neighbourTexts).covers [.key "a"] = true := by
    rw [(covers_eq_scan _ _).1]
    decide +kernel
  refine ⟨hbelow, ?_, ?_⟩
  · rw [(covers_eq_scan _ _).1]
    decide +kernel
  · have hforth : ∀ t ∈ ["a-b", "a.c", "ab"], t ∈ neighbourTexts := by decide
    have hback : ∀ t ∈ neighbourTexts, t ∈ ["a-b", "a.c", "ab"] := by decide
    rw [(covers_eq_scan neighbourTexts _).2.2 _ fun t => ⟨hforth t, hback t⟩, hbelow]

end CoveredPaths

end TreeMatch
