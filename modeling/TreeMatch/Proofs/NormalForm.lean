import TreeMatch.Proofs.RoundTrip

/-!
# The normal form of the text of a path

A path can be written in several ways, because an index may have zeros in front, digits of any
script, and a line feed after its bracket. `Path.render` writes one of these texts. A numeral
without superfluous zeros is the one that its number is written with
(`IsNumeral.toDigits_digitsValue`), so a segment is written as it was read unless it is an index in
another form (`Spells.eq_text_iff`). An index that was read has no more digits when it is written,
so the text that is written can be read. The main statement is that it is read as the same path, and
that it is the text that the path was read from exactly if all indices of this were in their written
form (`parse_normalizes`).
-/

namespace TreeMatch

/-! ## Numerals -/

/-- A numeral as whole numbers are written: ASCII digits, of which the first one is zero only if
there is no other. -/
structure IsNumeral (digits : List Char) : Prop where
  /-- There is a digit. -/
  ne_nil : digits ≠ []
  /-- The digits are ASCII digits. -/
  isDigit : ∀ c ∈ digits, c.isDigit = true
  /-- No zero stands in front of other digits. -/
  eq_of_head : digits.head? = some '0' → digits = ['0']

/-- The value of an ASCII digit is below ten, and the digit is written for it. -/
theorem exists_value_of_isDigit {c : Char} (h : c.isDigit = true) :
    ∃ d, d < 10 ∧ decimalDigit? c = some d ∧ Nat.digitChar d = c := by
  have hbounds : 48 ≤ c.toNat ∧ c.toNat ≤ 57 := Char.isDigit_iff_toNat.1 h
  have hzero : '0'.toNat = 48 := rfl
  have hlt : c.toNat - '0'.toNat < 10 := by omega
  refine ⟨_, hlt, decimalDigit?_of_isDigit h, Char.toNat_inj.1 ?_⟩
  rw [Nat.toNat_digitChar_of_lt_ten hlt]
  omega

/-- A decimal digit of any script counts less than ten. -/
theorem decimalDigit?_lt {c : Char} {d : Nat} (h : decimalDigit? c = some d) : d < 10 := by
  obtain ⟨z, hz, rfl⟩ := Option.map_eq_some_iff.1 h
  have hbounds := List.find?_some hz
  simp only [Bool.and_eq_true, decide_eq_true_eq] at hbounds
  omega

/-- One more digit counts after ten times the others. -/
theorem digitsValue_concat (digits : List Char) {c : Char} {d : Nat}
    (h : decimalDigit? c = some d) : digitsValue (digits ++ [c]) = 10 * digitsValue digits + d := by
  rw [digitsValue, digitsValue, List.foldl_append, List.foldl_cons, List.foldl_nil, h,
    Option.getD_some]

/-- A number is written as a numeral. -/
theorem isNumeral_toDigits (i : Nat) : IsNumeral (Nat.toDigits 10 i) := by
  refine ⟨Nat.toDigits_ne_nil, fun c hc => isDigit_of_mem_toDigits hc, ?_⟩
  induction i using Nat.strong_induction_on with
  | _ i ih =>
    intro hhead
    by_cases hi : i < 10
    · rw [Nat.toDigits_of_lt_base hi] at hhead ⊢
      exact congrArg (fun c => [c]) (Option.some.inj hhead)
    · -- The first digit is that of a tenth of the number, which would have to be zero.
      rw [Nat.toDigits_of_base_le (by omega) (Nat.not_lt.1 hi),
        List.head?_append_of_ne_nil _ Nat.toDigits_ne_nil] at hhead
      have htenth : Nat.toDigits 10 (i / 10) = ['0'] := ih (i / 10) (by omega) hhead
      have hzero : i / 10 = 0 := by
        rw [← Nat.ofDigitChars_ten_toDigits (n := i / 10), htenth]
        rfl
      omega

/-- A numeral without its last digit is a numeral, unless nothing is left of it. -/
theorem IsNumeral.of_concat {digits : List Char} {c : Char} (h : IsNumeral (digits ++ [c]))
    (hne : digits ≠ []) : IsNumeral digits ∧ digits ≠ ['0'] := by
  have hhead : digits.head? ≠ some '0' := by
    intro hzero
    have hall := h.eq_of_head (by rw [List.head?_append_of_ne_nil _ hne, hzero])
    have hlength := congrArg List.length hall
    rw [List.length_append, List.length_singleton, List.length_singleton] at hlength
    exact hne (List.eq_nil_of_length_eq_zero (by omega))
  refine ⟨⟨hne, fun e he => h.isDigit e (List.mem_append_left _ he), fun hzero =>
    absurd hzero hhead⟩, ?_⟩
  rintro rfl
  exact hhead rfl

/-- A numeral is what the number is written with that it is read as. -/
theorem IsNumeral.toDigits_digitsValue {digits : List Char} (h : IsNumeral digits) :
    Nat.toDigits 10 (digitsValue digits) = digits := by
  induction digits using List.reverseRecOn with
  | nil => exact absurd rfl h.ne_nil
  | append_singleton digits c ih =>
    obtain ⟨d, hlt, hvalue, hchar⟩ := exists_value_of_isDigit (h.isDigit c (by simp))
    have hlast : Nat.toDigits 10 d = [c] := by rw [Nat.toDigits_of_lt_base hlt, hchar]
    rw [digitsValue_concat digits hvalue]
    by_cases hne : digits = []
    · subst hne
      have hnone : digitsValue [] = 0 := rfl
      rw [hnone, Nat.mul_zero, Nat.zero_add, hlast, List.nil_append]
    · obtain ⟨hnumeral, hzero⟩ := h.of_concat hne
      have hdigits := ih hnumeral
      have hpos : 0 < digitsValue digits := by
        rw [Nat.pos_iff_ne_zero]
        intro hvalue
        rw [hvalue, Nat.toDigits_zero] at hdigits
        exact hzero hdigits.symm
      calc Nat.toDigits 10 (10 * digitsValue digits + d)
          = Nat.toDigits 10 (digitsValue digits) ++ Nat.toDigits 10 d :=
            (Nat.toDigits_append_toDigits (by omega) hpos hlt).symm
        _ = digits ++ [c] := by rw [hdigits, hlast]

namespace Path

/-! ## Segments -/

/-- A segment that is a numeral in brackets, with nothing after it. -/
def IsWrittenIndex (segment : List Char) : Prop :=
  ∃ digits, segment = '[' :: (digits ++ [']']) ∧ IsNumeral digits

/-- A numeral in brackets has the shape of an index. -/
theorem hasIndexShape_of_isNumeral {digits : List Char} (h : IsNumeral digits) :
    HasIndexShape ('[' :: (digits ++ [']'])) digits := by
  refine ⟨⟨h.ne_nil, fun c hc => ?_⟩, .inl rfl⟩
  rw [isDecimalDigit, decimalDigit?_of_isDigit (h.isDigit c hc)]
  rfl

/-- A segment has the shape of an index with one run of digits only. -/
theorem HasIndexShape.unique {segment digits others : List Char} (h : HasIndexShape segment digits)
    (h' : HasIndexShape segment others) : digits = others :=
  Option.some.inj ((indexDigits?_eq_some_iff.2 h).symm.trans (indexDigits?_eq_some_iff.2 h'))

/-- A segment is the text of the step that it is read as, unless it is an index in another form. -/
theorem Spells.eq_text_iff {segment : List Char} {step : Step} (h : Spells segment step) :
    segment = step.text.toList ↔ ∀ i, Spells segment (.index i) → IsWrittenIndex segment := by
  cases h with
  | @index digits hshape hshort =>
    rw [Step.toList_text_index, ← digitsValue_eq_ofDigits hshape.1.2]
    constructor
    · exact fun htext _ _ => ⟨_, htext, isNumeral_toDigits _⟩
    · intro hwritten
      obtain ⟨others, rfl, hnumeral⟩ := hwritten _ (.index hshape hshort)
      obtain rfl := hshape.unique (hasIndexShape_of_isNumeral hnumeral)
      rw [hnumeral.toDigits_digitsValue]
  | key hnone _ _ =>
    refine iff_of_true String.toList_ofList.symm fun i hindex => ?_
    cases hindex with
    | index hshape _ => exact absurd hshape (hnone _)

/-- An index that is read from a segment is not too long to be read again when it is written. -/
theorem Spells.length_toDigits_le {segment : List Char} {i : Nat}
    (h : Spells segment (.index i)) : (Nat.toDigits 10 i).length ≤ digitLimit := by
  cases h with
  | @index digits hshape hshort =>
    have hvalues : ∀ d ∈ digits.reverse.filterMap decimalDigit?, d < 10 := by
      intro d hd
      obtain ⟨c, -, hc⟩ := List.mem_filterMap.1 hd
      exact decimalDigit?_lt hc
    have hlength : (digits.reverse.filterMap decimalDigit?).length ≤ digits.length :=
      (List.length_filterMap_le _ _).trans_eq List.length_reverse
    have hbelow : Nat.ofDigits 10 (digits.reverse.filterMap decimalDigit?) < 10 ^ digits.length :=
      (Nat.ofDigits_lt_base_pow_length (by omega) hvalues).trans_le
        (Nat.pow_le_pow_right (by omega) hlength)
    have hpos : 0 < digits.length := List.length_pos_iff.2 hshape.1.1
    exact ((Nat.length_toDigits_le_iff (by omega) hpos).2 hbelow).trans hshort

/-! ## Texts -/

/-- A text is determined by its segments. -/
theorem eq_of_segments_eq {s t : String} (h : segments s = segments t) : s = t := by
  have hjoined := congrArg (List.intercalate ['.']) h
  rw [segments, segments, List.intercalate_splitOn, List.intercalate_splitOn] at hjoined
  exact String.toList_injective hjoined

/-- A path that is read has no dots in the texts of its steps. -/
theorem isDotFree_of_parse {text : String} {p : Path} (h : parse text = .ok p) : p.IsDotFree := by
  intro s hs
  cases s with
  | key name => exact (isReadableName_of_parse h hs).dot_notMem
  | index i => exact Step.dot_notMem_text_index i

/-- The indices of a path that is read are not too long to be read again. -/
theorem length_toDigits_le_of_parse {text : String} {p : Path} (h : parse text = .ok p) {i : Nat}
    (hi : Step.index i ∈ p) : (Nat.toDigits 10 i).length ≤ digitLimit := by
  obtain ⟨segment, -, hindex⟩ := exists_segment_of_parse h hi
  exact (readSegment_eq_ok_iff.1 hindex).length_toDigits_le

/-- Segments are the texts of the steps that they are read as, if every index among them is in its
written form. -/
theorem eq_texts_iff {pieces : List (List Char)} {p : Path} (h : List.Forall₂ Spells pieces p) :
    pieces = p.texts ↔
      ∀ segment ∈ pieces, ∀ i, Spells segment (.index i) → IsWrittenIndex segment := by
  induction h with
  | nil => exact iff_of_true rfl fun _ hs => nomatch hs
  | cons hstep _ ih =>
    rw [texts, List.map_cons, List.cons.injEq, ← texts, hstep.eq_text_iff, ih,
      List.forall_mem_cons]

/-- The text of a path that was read is read as the same path. It is the text that the path was read
from exactly if each segment of this that is an index is a numeral in ASCII digits without
superfluous zeros, in brackets and with no line feed after them. -/
theorem parse_normalizes {text : String} {p : Path} (h : parse text = .ok p) :
    parse p.render = .ok p ∧
      (p.render = text ↔ ∀ segment ∈ segments text, ∀ i, Spells segment (.index i) →
        IsWrittenIndex segment) := by
  refine ⟨(parse_render_iff p fun i hi => length_toDigits_le_of_parse h hi).2 fun name hname =>
    isReadableName_of_parse h hname, ?_⟩
  rcases parse_eq_ok_iff_spells.1 h with ⟨rfl, rfl⟩ | ⟨-, hspells⟩
  · -- The root has no index, and the empty text is not read segment by segment.
    refine iff_of_true rfl fun segment hsegment i hindex => ?_
    obtain rfl := List.mem_singleton.1 hsegment
    cases hindex with
    | index hshape _ => exact absurd hshape (by rintro ⟨-, h | h⟩ <;> cases h)
  · have hne : p ≠ [] := by
      rintro rfl
      exact List.splitOn_ne_nil _ _ (List.forall₂_nil_right_iff.1 hspells)
    have hsegments : segments p.render = p.texts := (isDotFree_of_parse h).segments_render hne
    rw [← eq_texts_iff hspells, ← hsegments]
    exact ⟨fun hsame => by rw [hsame], fun hsame => (eq_of_segments_eq hsame).symm⟩

/-- An index of another script with a line feed, one with zeros in front, and one in its written
form beside a key that is digits. -/
theorem parse_normalizes_mixedText :
    parse "[٣]\n.[007].[10].7" = .ok [.index 3, .index 7, .index 10, .key "7"] ∧
    parse "[3].[7].[10].7" = .ok [.index 3, .index 7, .index 10, .key "7"] ∧
    render [.index 3, .index 7, .index 10, .key "7"] ≠ "[٣]\n.[007].[10].7" := by
  have hread : parse "[٣]\n.[007].[10].7" = .ok [.index 3, .index 7, .index 10, .key "7"] := by
    decide +kernel
  obtain ⟨hagain, hsame⟩ := parse_normalizes hread
  have hrender : render [.index 3, .index 7, .index 10, .key "7"] = "[3].[7].[10].7" := by
    decide +kernel
  refine ⟨hread, hrender ▸ hagain, fun h => ?_⟩
  -- The second segment has two superfluous zeros.
  have hspells : Spells ['[', '0', '0', '7', ']'] (.index 7) :=
    readSegment_eq_ok_iff.1 (by decide +kernel)
  obtain ⟨digits, hsegment, hnumeral⟩ := hsame.1 h _ (by decide +kernel) 7 hspells
  have hdigits : digits ++ [']'] = ['0', '0', '7'] ++ [']'] := (List.cons.inj hsegment).2.symm
  obtain rfl := List.append_cancel_right hdigits
  exact absurd (hnumeral.eq_of_head rfl) (by decide)

end Path

end TreeMatch
