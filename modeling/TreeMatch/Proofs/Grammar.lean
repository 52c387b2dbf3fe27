import Mathlib.Data.List.Forall2
import Mathlib.Data.List.Induction
import Mathlib.Data.Nat.Digits.Defs
import TreeMatch.Path.Error
import TreeMatch.Proofs.Rendering

/-!
# The grammar of paths

A text that is not empty is a path if each of its segments is a step. Digits in brackets are the
index that they write, whatever script they are from and even if a line feed follows the bracket
(`HasIndexShape`). Any other segment is the name of a key unless it is empty or in brackets
(`Spells`). The shape of an index is looked for first, so that a segment without it is told apart
from the others by its ends alone (`readSegment_of_hasIndexShape`, `readSegment_of_forall_not`).
Segments are read from left to right, and the leftmost one that is no step decides what is said
about the whole text (`readSegments_eq_error_iff`). The main statement is that these rules say of
every text what it is read as or why it is refused (`parse_follows_grammar`).
-/

namespace TreeMatch

/-! ## Digits -/

/-- Decimal digits of any script, at least one of them. -/
def IsDigits (cs : List Char) : Prop := cs ≠ [] ∧ ∀ c ∈ cs, isDecimalDigit c = true

/-- The number that digits write is the sum of their values times the powers of ten, beginning at
the last digit. -/
theorem digitsValue_eq_ofDigits {digits : List Char} (h : ∀ c ∈ digits, isDecimalDigit c = true) :
    digitsValue digits = Nat.ofDigits 10 (digits.reverse.filterMap decimalDigit?) := by
  induction digits using List.reverseRecOn with
  | nil => rfl
  | append_singleton digits c ih =>
    obtain ⟨d, hd⟩ := Option.isSome_iff_exists.1 (h c (by simp))
    have hinit : digitsValue digits =
        Nat.ofDigits 10 (digits.reverse.filterMap decimalDigit?) :=
      ih fun e he => h e (List.mem_append_left _ he)
    have hlast : digitsValue (digits ++ [c]) = 10 * digitsValue digits + d := by
      rw [digitsValue, digitsValue, List.foldl_append, List.foldl_cons, List.foldl_nil, hd,
        Option.getD_some]
    rw [hlast, hinit, List.reverse_concat, List.filterMap_cons_some hd, Nat.ofDigits_cons]
    exact Nat.add_comm _ _

namespace Path

/-! ## Segments -/

/-- The segment is digits in brackets, perhaps with a line feed after them. -/
def HasIndexShape (segment digits : List Char) : Prop :=
  IsDigits digits ∧ (segment = '[' :: (digits ++ [']']) ∨ segment = '[' :: (digits ++ [']', '\n']))

/-- The segment begins with an opening bracket and ends with a closing one. -/
def IsInBrackets (segment : List Char) : Prop :=
  segment.head? = some '[' ∧ segment.getLast? = some ']'

instance (segment : List Char) : Decidable (IsInBrackets segment) :=
  inferInstanceAs (Decidable (_ ∧ _))

/-- The step that a segment is. A segment in brackets that is no index and an empty segment are no
step at all. -/
inductive Spells : List Char → Step → Prop where
  /-- Digits in brackets are the index that they write, if they are not too many. -/
  | index {segment digits : List Char} : HasIndexShape segment digits →
      digits.length ≤ digitLimit →
      Spells segment (.index (Nat.ofDigits 10 (digits.reverse.filterMap decimalDigit?)))
  /-- Any other segment is the name of a key, unless it is empty or in brackets. -/
  | key {segment : List Char} : (∀ digits, ¬ HasIndexShape segment digits) →
      ¬ IsInBrackets segment → segment ≠ [] → Spells segment (.key (String.ofList segment))

/-- What is said about a text because one of its segments is no step: a bare message or a diagnostic
about the whole text. -/
inductive Refused (text : String) : List Char → String ⊕ Diagnostic → Prop where
  /-- There is no more than a message about an index with too many digits. -/
  | tooManyDigits {segment digits : List Char} : HasIndexShape segment digits →
      digitLimit < digits.length →
      Refused text segment (.inl (NumberFault.tooManyDigits digits.length).message)
  /-- What stands in brackets is no index. -/
  | malformedIndex {segment : List Char} : (∀ digits, ¬ HasIndexShape segment digits) →
      IsInBrackets segment →
      Refused text segment (.inr (.make (.path (some text))
        ("Invalid sequence index segment '" ++ String.ofList segment ++ "'") [] none))
  /-- There is nothing between two dots, or before the first or after the last one. -/
  | emptySegment : Refused text [] (.inr (.make (.path (some text)) "Empty segment in path" []
      (some "Separate keys with a single '.' and do not start or end with '.'")))

/-- A text falls apart into digits and a closing bracket with what follows it in one way. -/
theorem splitDigits_iff {rest digits after : List Char} :
    (rest.takeWhile isDecimalDigit = digits ∧ rest.dropWhile isDecimalDigit = ']' :: after) ↔
      (∀ d ∈ digits, isDecimalDigit d = true) ∧ rest = digits ++ ']' :: after := by
  constructor
  · rintro ⟨rfl, hafter⟩
    refine ⟨List.all_eq_true.1 List.all_takeWhile, ?_⟩
    rw [← hafter, List.takeWhile_append_dropWhile]
  · rintro ⟨hdigits, rfl⟩
    have hbracket : ¬ isDecimalDigit ']' = true := by decide
    rw [List.takeWhile_append_of_pos hdigits, List.dropWhile_append_of_pos hdigits,
      List.takeWhile_cons_of_neg hbracket, List.dropWhile_cons_of_neg hbracket, List.append_nil]
    exact ⟨rfl, rfl⟩

/-- The digits of a segment are found exactly if it has the shape of an index. -/
theorem indexDigits?_eq_some_iff {segment digits : List Char} :
    indexDigits? segment = some digits ↔ HasIndexShape segment digits := by
  constructor
  · intro h
    unfold indexDigits? at h
    split at h
    · rename_i rest
      dsimp only at h
      split_ifs at h with hempty htail
      obtain rfl := Option.some.inj h
      have hne : rest.takeWhile isDecimalDigit ≠ [] := mt List.isEmpty_iff.2 hempty
      -- The bracket is the end, or a line feed comes after it.
      rcases htail with htail | htail
      · obtain ⟨hdigits, hrest⟩ := splitDigits_iff.1 ⟨rfl, htail⟩
        exact ⟨⟨hne, hdigits⟩, .inl (congrArg _ hrest)⟩
      · obtain ⟨hdigits, hrest⟩ := splitDigits_iff.1 ⟨rfl, htail⟩
        exact ⟨⟨hne, hdigits⟩, .inr (congrArg _ hrest)⟩
    · exact nomatch h
  · rintro ⟨⟨hne, hdigits⟩, rfl | rfl⟩
    · obtain ⟨htake, hdrop⟩ := splitDigits_iff.2 ⟨hdigits, rfl⟩
      rw [indexDigits?, htake, hdrop, if_neg (mt List.isEmpty_iff.1 hne), if_pos (.inl rfl)]
    · obtain ⟨htake, hdrop⟩ := splitDigits_iff.2 ⟨hdigits, rfl⟩
      rw [indexDigits?, htake, hdrop, if_neg (mt List.isEmpty_iff.1 hne), if_pos (.inr rfl)]

/-- No digits are found exactly if the segment has not the shape of an index. -/
theorem indexDigits?_eq_none_iff {segment : List Char} :
    indexDigits? segment = none ↔ ∀ digits, ¬ HasIndexShape segment digits := by
  rw [Option.eq_none_iff_forall_ne_some]
  exact forall_congr' fun digits => not_congr indexDigits?_eq_some_iff

/-- How a segment in the shape of an index is read depends on the number of its digits. -/
theorem readSegment_of_hasIndexShape {segment digits : List Char}
    (h : HasIndexShape segment digits) :
    readSegment segment =
      if digitLimit < digits.length then .error (.tooManyDigits digits.length)
      else .ok (.index (digitsValue digits)) := by
  rw [readSegment, indexDigits?_eq_some_iff.2 h]

/-- How any other segment is read depends on its ends. -/
theorem readSegment_of_forall_not {segment : List Char}
    (h : ∀ digits, ¬ HasIndexShape segment digits) :
    readSegment segment =
      if IsInBrackets segment then .error (.malformedIndex (String.ofList segment))
      else if segment = [] then .error .emptySegment
      else .ok (.key (String.ofList segment)) := by
  have hbrackets : isBracketed segment = true ↔ IsInBrackets segment := by
    rw [isBracketed, Bool.and_eq_true, beq_iff_eq, beq_iff_eq]
    rfl
  rw [readSegment, indexDigits?_eq_none_iff.2 h]
  simp only [hbrackets, List.isEmpty_iff]

/-- A segment is read as a step exactly if it is that step. -/
theorem readSegment_eq_ok_iff {segment : List Char} {step : Step} :
    readSegment segment = .ok step ↔ Spells segment step := by
  constructor
  · intro h
    by_cases hshape : ∃ digits, HasIndexShape segment digits
    · obtain ⟨digits, hshape⟩ := hshape
      rw [readSegment_of_hasIndexShape hshape] at h
      split_ifs at h with hlong
      obtain rfl := Except.ok.inj h
      rw [digitsValue_eq_ofDigits hshape.1.2]
      exact .index hshape (Nat.not_lt.1 hlong)
    · have hnone := not_exists.1 hshape
      rw [readSegment_of_forall_not hnone] at h
      split_ifs at h with hbrackets hempty
      obtain rfl := Except.ok.inj h
      exact .key hnone hbrackets hempty
  · rintro (⟨hshape, hshort⟩ | ⟨hnone, hbrackets, hempty⟩)
    · rw [readSegment_of_hasIndexShape hshape, if_neg (Nat.not_lt.2 hshort),
        digitsValue_eq_ofDigits hshape.1.2]
    · rw [readSegment_of_forall_not hnone, if_neg hbrackets, if_neg hempty]

/-- A segment is refused with an answer exactly if this is what is said because of it. -/
theorem readSegment_explain_iff {text : String} {segment : List Char}
    {answer : String ⊕ Diagnostic} :
    (∃ fault, readSegment segment = .error fault ∧ fault.explain text = answer) ↔
      Refused text segment answer := by
  constructor
  · rintro ⟨fault, h, rfl⟩
    by_cases hshape : ∃ digits, HasIndexShape segment digits
    · obtain ⟨digits, hshape⟩ := hshape
      rw [readSegment_of_hasIndexShape hshape] at h
      split_ifs at h with hlong
      obtain rfl := Except.error.inj h
      exact .tooManyDigits hshape hlong
    · have hnone := not_exists.1 hshape
      rw [readSegment_of_forall_not hnone] at h
      split_ifs at h with hbrackets hempty
      · obtain rfl := Except.error.inj h
        exact .malformedIndex hnone hbrackets
      · obtain rfl := Except.error.inj h
        rw [hempty]
        exact .emptySegment
  · rintro (⟨hshape, hlong⟩ | ⟨hnone, hbrackets⟩ | -)
    · exact ⟨.tooManyDigits _, by rw [readSegment_of_hasIndexShape hshape, if_pos hlong], rfl⟩
    · exact ⟨.malformedIndex _, by rw [readSegment_of_forall_not hnone, if_pos hbrackets], rfl⟩
    · exact ⟨.emptySegment, rfl, rfl⟩

/-! ## Texts -/

/-- Segments are read one by one. -/
theorem readSegments_eq_ok_iff {segments : List (List Char)} {p : Path} :
    readSegments segments = .ok p ↔ segments.map readSegment = p.map .ok := by
  induction segments generalizing p with
  | nil =>
    -- Both sides say that the path is the root.
    rw [readSegments, Except.ok.injEq, List.map_nil, eq_comm, eq_comm (a := []),
      List.map_eq_nil_iff]
  | cons segment rest ih =>
    rw [readSegments, List.map_cons]
    cases hstep : readSegment segment with
    | error fault =>
      refine iff_of_false (fun h => nomatch h) fun h => ?_
      obtain ⟨step, _, -, hhead, -⟩ := List.map_eq_cons_iff.1 h.symm
      exact nomatch hhead
    | ok step =>
      cases hsteps : readSegments rest with
      | error fault =>
        refine iff_of_false (fun h => nomatch h) fun h => ?_
        obtain ⟨_, steps, -, -, htail⟩ := List.map_eq_cons_iff.1 h.symm
        exact nomatch hsteps.symm.trans (ih.2 htail.symm)
      | ok steps =>
        show Except.ok (step :: steps) = Except.ok p ↔ _
        rw [Except.ok.injEq, ih.1 hsteps, ← List.map_cons]
        exact (List.map_inj_right fun _ _ => Except.ok.inj).symm

/-- Segments are refused with the fault of the first one, or with a fault of the others if the first
one is a step. -/
theorem readSegments_cons_eq_error_iff {first : List Char} {rest : List (List Char)}
    {fault : PathFault} :
    readSegments (first :: rest) = .error fault ↔ readSegment first = .error fault ∨
      (∃ step, readSegment first = .ok step) ∧ readSegments rest = .error fault := by
  rw [readSegments]
  cases readSegment first with
  | error other =>
    show Except.error other = .error fault ↔ _
    simp
  | ok step =>
    cases readSegments rest with
    | error other =>
      show Except.error other = .error fault ↔ _
      simp
    | ok steps =>
      show Except.ok (step :: steps) = .error fault ↔ _
      simp

/-- Segments are read up to the leftmost one that is refused. -/
theorem readSegments_eq_error_iff {segments : List (List Char)} {fault : PathFault} :
    readSegments segments = .error fault ↔ ∃ before segment after,
      segments = before ++ segment :: after ∧ (∀ s ∈ before, ∃ step, readSegment s = .ok step) ∧
        readSegment segment = .error fault := by
  induction segments with
  | nil => simp [readSegments]
  | cons first rest ih =>
    rw [readSegments_cons_eq_error_iff, ih]
    constructor
    · -- The refused segment is the first one, or one of the others behind a first step.
      rintro (hfault | ⟨hfirst, before, segment, after, rfl, hbefore, hfault⟩)
      · exact ⟨[], first, rest, rfl, fun _ hs => (nomatch hs), hfault⟩
      · exact ⟨first :: before, segment, after, rfl, List.forall_mem_cons.2 ⟨hfirst, hbefore⟩,
          hfault⟩
    · rintro ⟨before, segment, after, hsplit, hbefore, hfault⟩
      cases before with
      | nil =>
        obtain ⟨rfl, rfl⟩ := List.cons.inj hsplit
        exact .inl hfault
      | cons s before =>
        obtain ⟨rfl, rfl⟩ := List.cons.inj hsplit
        obtain ⟨hfirst, hrest⟩ := List.forall_mem_cons.1 hbefore
        exact .inr ⟨hfirst, before, segment, after, rfl, hrest, hfault⟩

/-- A text is read segment by segment, except that the empty text is the root. -/
theorem parse_eq_ok_iff {text : String} {p : Path} :
    parse text = .ok p ↔
      (text = "" ∧ p = []) ∨ (text ≠ "" ∧ (segments text).map readSegment = p.map .ok) := by
  rw [parse]
  split_ifs with hempty
  · rw [String.isEmpty_iff] at hempty
    simp [hempty, root, eq_comm]
  · rw [String.isEmpty_iff] at hempty
    simp [hempty, readSegments_eq_ok_iff, segments]

/-- A text that is not empty is read as the steps that its segments are. -/
theorem parse_eq_ok_iff_spells {text : String} {p : Path} :
    parse text = .ok p ↔
      (text = "" ∧ p = root) ∨ (text ≠ "" ∧ List.Forall₂ Spells (segments text) p) := by
  have hspells : (segments text).map readSegment = p.map .ok ↔
      List.Forall₂ Spells (segments text) p := by
    rw [← List.forall₂_eq_eq_eq, List.forall₂_map_left_iff, List.forall₂_map_right_iff]
    simp only [readSegment_eq_ok_iff]
  rw [parse_eq_ok_iff, hspells]
  rfl

/-- A text is refused with the fault of its leftmost segment that is no step. -/
theorem parse_eq_error_iff {text : String} {fault : PathFault} :
    parse text = .error fault ↔ text ≠ "" ∧ ∃ before segment after,
      segments text = before ++ segment :: after ∧ (∀ s ∈ before, ∃ step, Spells s step) ∧
        readSegment segment = .error fault := by
  simp only [← readSegment_eq_ok_iff]
  rw [parse]
  split_ifs with hempty
  · rw [String.isEmpty_iff] at hempty
    exact iff_of_false (fun h => nomatch h) fun h => h.1 hempty
  · rw [String.isEmpty_iff] at hempty
    rw [← segments, readSegments_eq_error_iff, and_iff_right hempty]

/-- The empty text is the root. Any other text is read exactly if each of its segments is a step,
and it is then the path of these steps. Otherwise the leftmost segment that is no step decides what
is said: about an index with too many digits there is a bare message, and about a segment in
brackets that is no index and about an empty segment there is a diagnostic for the whole text. -/
theorem parse_follows_grammar (text : String) :
    (∀ p, parse text = .ok p ↔
      (text = "" ∧ p = root) ∨ (text ≠ "" ∧ List.Forall₂ Spells (segments text) p)) ∧
    ∀ answer, (parse text).mapError (PathFault.explain text) = .error answer ↔
      text ≠ "" ∧ ∃ before segment after, segments text = before ++ segment :: after ∧
        (∀ s ∈ before, ∃ step, Spells s step) ∧ Refused text segment answer := by
  refine ⟨fun p => parse_eq_ok_iff_spells, fun answer => ?_⟩
  have hanswer : (parse text).mapError (PathFault.explain text) = .error answer ↔
      ∃ fault, parse text = .error fault ∧ fault.explain text = answer := by
    cases parse text with
    | ok p => simp [Except.mapError]
    | error fault => simp [Except.mapError]
  rw [hanswer]
  simp only [parse_eq_error_iff, ← readSegment_explain_iff]
  constructor
  · rintro ⟨fault, ⟨hne, before, segment, after, hsplit, hbefore, hfault⟩, hsaid⟩
    exact ⟨hne, before, segment, after, hsplit, hbefore, fault, hfault, hsaid⟩
  · rintro ⟨hne, before, segment, after, hsplit, hbefore, fault, hfault, hsaid⟩
    exact ⟨fault, ⟨hne, before, segment, after, hsplit, hbefore, hfault⟩, hsaid⟩

/-- Digits of another script, with a line feed after the bracket, and digits with zeros in front are
indices, and what only begins like an index is a key. Of a segment in brackets and an empty one the
first is complained about. -/
theorem parse_mixedSegments :
    parse "[٣]\n.[007].[1]x" = .ok [.index 3, .index 7, .key "[1]x"] ∧
    (parse "a.[x]..b").mapError (PathFault.explain "a.[x]..b") =
      .error (.inr (.make (.path (some "a.[x]..b")) "Invalid sequence index segment '[x]'" []
        none)) := by
  have hkey : ∀ segment, segment = ['[', '1', ']', 'x'] ∨ segment = ['a'] →
      Spells segment (.key (String.ofList segment)) := by
    intro segment hsegment
    rw [← readSegment_eq_ok_iff]
    rcases hsegment with rfl | rfl
    · decide +kernel
    · decide +kernel
  constructor
  · refine ((parse_follows_grammar _).1 _).2 (.inr ⟨by decide, ?_⟩)
    have hsegments : segments "[٣]\n.[007].[1]x" =
        [['[', '٣', ']', '\n'], ['[', '0', '0', '7', ']'], ['[', '1', ']', 'x']] := by
      decide +kernel
    have hthree : Spells ['[', '٣', ']', '\n'] (.index 3) :=
      @Spells.index _ ['٣'] ⟨⟨by decide, List.all_eq_true.1 (by decide)⟩, .inr rfl⟩ (by decide)
    have hseven : Spells ['[', '0', '0', '7', ']'] (.index 7) :=
      @Spells.index _ ['0', '0', '7'] ⟨⟨by decide, List.all_eq_true.1 (by decide)⟩, .inl rfl⟩
        (by decide)
    rw [hsegments]
    exact .cons hthree (.cons hseven (.cons (hkey _ (.inl rfl)) .nil))
  · refine ((parse_follows_grammar _).2 _).2
      ⟨by decide, [['a']], ['[', 'x', ']'], [[], ['b']], by decide +kernel, fun s hs => ?_, ?_⟩
    · exact ⟨_, hkey s (.inr (List.mem_singleton.1 hs))⟩
    · exact .malformedIndex (indexDigits?_eq_none_iff.1 (by decide)) ⟨rfl, rfl⟩

end Path

end TreeMatch
