import TreeMatch.Proofs.Grammar

/-!
# Paths that are read back from their text

`Path.render` writes a path and `Path.parse` reads it, segment by segment. An index comes back from
its text because its digits are read as the number that they were written from
(`readSegment_text_index`). A key comes back exactly if its name has no dot and is neither empty,
nor in brackets, nor an index with a line feed after it (`IsReadableName`). The main statement is
that a path comes back exactly if all its keys do (`parse_render_iff`). In one direction the
segments of the text are the texts of the steps. The other direction does not look at the text at
all, because every key that is read, from whatever text, has a name that comes back.
-/

namespace TreeMatch

/-! ## Digits -/

/-- An ASCII digit counts as much as its distance from zero. -/
theorem decimalDigit?_of_isDigit {c : Char} (h : c.isDigit = true) :
    decimalDigit? c = some (c.toNat - '0'.toNat) := by
  have hbounds : 48 ≤ c.toNat ∧ c.toNat ≤ 57 := Char.isDigit_iff_toNat.1 h
  have hfirst : digitZeros.find? (fun z => z ≤ c.toNat && c.toNat < z + 10) = some 0x30 := by
    rw [digitZeros, List.find?_cons_of_pos]
    simp only [Bool.and_eq_true, decide_eq_true_eq]
    omega
  rw [decimalDigit?, hfirst]
  rfl

/-- The digits that an index is written with are ASCII digits. -/
theorem isDigit_of_mem_toDigits {i : Nat} {c : Char} (h : c ∈ Nat.toDigits 10 i) :
    c.isDigit = true :=
  Nat.isDigit_of_mem_toDigits (by omega) (by omega) h

/-- An index is written with decimal digits. -/
theorem isDigits_toDigits (i : Nat) : IsDigits (Nat.toDigits 10 i) := by
  refine ⟨Nat.toDigits_ne_nil, fun c hc => ?_⟩
  rw [isDecimalDigit, decimalDigit?_of_isDigit (isDigit_of_mem_toDigits hc)]
  rfl

/-- The digits that an index is written with are read as the index. -/
theorem digitsValue_toDigits (i : Nat) : digitsValue (Nat.toDigits 10 i) = i := by
  have hvalues : ∀ cs : List Char, (∀ c ∈ cs, c.isDigit = true) → ∀ n,
      cs.foldl (fun n c => 10 * n + (decimalDigit? c).getD 0) n = Nat.ofDigitChars 10 cs n := by
    intro cs
    induction cs with
    | nil => exact fun _ n => Nat.ofDigitChars_nil.symm
    | cons c cs ih =>
      intro hcs n
      rw [List.foldl_cons, Nat.ofDigitChars_cons,
        decimalDigit?_of_isDigit (hcs c List.mem_cons_self), Option.getD_some]
      exact ih (fun d hd => hcs d (List.mem_cons_of_mem _ hd)) _
  rw [digitsValue, hvalues _ (fun c hc => isDigit_of_mem_toDigits hc),
    Nat.ofDigitChars_ten_toDigits]

namespace Path

/-! ## Segments -/

/-- The text of an index is read as the index, unless it has too many digits. -/
theorem readSegment_text_index {i : Nat} (h : (Nat.toDigits 10 i).length ≤ digitLimit) :
    readSegment (Step.index i).text.toList = .ok (.index i) := by
  have hshape : HasIndexShape (Step.index i).text.toList (Nat.toDigits 10 i) :=
    ⟨isDigits_toDigits i, .inl (Step.toList_text_index i)⟩
  rw [readSegment_of_hasIndexShape hshape, if_neg (Nat.not_lt.2 h), digitsValue_toDigits]

/-- A segment is read as a key if it is not empty, has not the shape of an index and does not stand
in brackets. The name of the key is the segment as it is. -/
theorem readSegment_eq_key_iff {segment : List Char} {name : String} :
    readSegment segment = .ok (.key name) ↔ String.ofList segment = name ∧ segment ≠ [] ∧
      ¬ IsInBrackets segment ∧ ∀ digits, ¬ HasIndexShape segment digits := by
  rw [readSegment_eq_ok_iff]
  constructor
  · rintro (- | ⟨hnone, hbrackets, hempty⟩)
    exact ⟨rfl, hempty, hbrackets, hnone⟩
  · rintro ⟨rfl, hempty, hbrackets, hnone⟩
    exact .key hnone hbrackets hempty

end Path

/-! ## Names of keys -/

/-- A name that is read back as the key of this name. -/
structure IsReadableName (name : String) : Prop where
  /-- The name is not empty. -/
  ne_empty : name ≠ ""
  /-- The name has no dot. -/
  dot_notMem : '.' ∉ name.toList
  /-- The name does not begin and end with a bracket. -/
  not_bracketed : ¬ (name.toList.head? = some '[' ∧ name.toList.getLast? = some ']')
  /-- The name is not digits in brackets and a line feed. -/
  not_index_line : ∀ digits, IsDigits digits → name.toList ≠ '[' :: (digits ++ [']', '\n'])

/-- A name is readable if it is one segment and this is read as the key. -/
theorem isReadableName_iff {name : String} :
    IsReadableName name ↔ '.' ∉ name.toList ∧ Path.readSegment name.toList = .ok (.key name) := by
  rw [Path.readSegment_eq_key_iff]
  constructor
  · intro h
    refine ⟨h.dot_notMem, String.ofList_toList, mt String.toList_eq_nil_iff.1 h.ne_empty,
      h.not_bracketed, ?_⟩
    -- An index without a line feed would be bracketed.
    rintro digits ⟨hall, hname | hname⟩
    · refine h.not_bracketed ⟨by rw [hname]; rfl, ?_⟩
      rw [hname, ← List.cons_append, List.getLast?_concat]
    · exact h.not_index_line digits hall hname
  · rintro ⟨hdot, -, hne, hnot, hindex⟩
    exact ⟨mt String.toList_eq_nil_iff.2 hne, hdot, hnot, fun digits hall hname =>
      hindex digits ⟨hall, .inr hname⟩⟩

instance (name : String) : Decidable (IsReadableName name) :=
  decidable_of_iff _ isReadableName_iff.symm

namespace Path

/-- Every step of a path that is read is read from a segment. -/
theorem exists_segment_of_parse {text : String} {p : Path} (h : parse text = .ok p) {s : Step}
    (hs : s ∈ p) : ∃ segment ∈ segments text, readSegment segment = .ok s := by
  rcases parse_eq_ok_iff.1 h with ⟨-, rfl⟩ | ⟨-, hsteps⟩
  · exact nomatch hs
  · have hread : Except.ok s ∈ (segments text).map readSegment := by
      rw [hsteps]
      exact List.mem_map_of_mem hs
    exact List.mem_map.1 hread

/-- The keys of a path that is read have readable names. -/
theorem isReadableName_of_parse {text : String} {p : Path} (h : parse text = .ok p) {name : String}
    (hname : Step.key name ∈ p) : IsReadableName name := by
  obtain ⟨segment, hsegment, hkey⟩ := exists_segment_of_parse h hname
  have hsame : segment = name.toList := by
    rw [← (readSegment_eq_key_iff.1 hkey).1, String.toList_ofList]
  rw [isReadableName_iff, ← hsame]
  exact ⟨dot_notMem_of_mem_segments hsegment, hkey⟩

/-- A path comes back from its text exactly if the names of its keys are readable. For any other
path the text is refused or read as another path. -/
theorem parse_render_iff (p : Path)
    (h : ∀ i, Step.index i ∈ p → (Nat.toDigits 10 i).length ≤ digitLimit) :
    parse p.render = .ok p ↔ ∀ name, Step.key name ∈ p → IsReadableName name := by
  refine ⟨fun hread name hname => isReadableName_of_parse hread hname, fun hnames => ?_⟩
  have hsteps : ∀ s ∈ p, '.' ∉ s.text.toList ∧ readSegment s.text.toList = .ok s := by
    intro s hs
    cases s with
    | key name => exact isReadableName_iff.1 (hnames name hs)
    | index i => exact ⟨Step.dot_notMem_text_index i, readSegment_text_index (h i hs)⟩
  by_cases hp : p = []
  · exact parse_eq_ok_iff.2 (.inl ⟨by rw [hp]; rfl, hp⟩)
  · have hsegments : segments p.render = p.texts :=
      IsDotFree.segments_render (fun s hs => (hsteps s hs).1) hp
    have hread : (segments p.render).map readSegment = p.map .ok := by
      rw [hsegments, texts, List.map_map]
      exact List.map_congr_left fun s hs => (hsteps s hs).2
    refine parse_eq_ok_iff.2 (.inr ⟨fun hempty => ?_, hread⟩)
    -- The empty text has one segment, and this is not read as a step.
    rw [hempty] at hread
    have hrefused : readSegment [] = .error .emptySegment := rfl
    obtain ⟨step, _, -, hstep, -⟩ := List.map_eq_cons_iff.1 hread.symm
    cases hstep.trans hrefused

/-- A path with keys that only resemble indices. -/
def bracketPath : Path := [.key "[0", .index 10, .key "[1]x", .key "2]"]

/-- A path with a key that is an index but for the line feed after it. -/
def indexLinePath : Path := [.index 10, .key "[٣]\n"]

/-- Keys that only resemble indices come back. A key that is an index and a line feed does not,
since it is read as the index. -/
theorem parse_render_bracketPath : parse bracketPath.render = .ok bracketPath ∧
    parse indexLinePath.render ≠ .ok indexLinePath := by
  have hshort : ∀ i, i = 10 → (Nat.toDigits 10 i).length ≤ digitLimit := by
    rintro i rfl
    decide
  constructor
  · refine (parse_render_iff bracketPath fun i hi =>
      hshort i (by simpa [bracketPath] using hi)).2 ?_
    intro name hname
    have hnames : name = "[0" ∨ name = "[1]x" ∨ name = "2]" := by
      simpa [bracketPath] using hname
    rcases hnames with rfl | rfl | rfl
    · decide +kernel
    · decide +kernel
    · decide +kernel
  · refine mt (parse_render_iff indexLinePath fun i hi =>
      hshort i (by simpa [indexLinePath] using hi)).1 fun h => ?_
    have hline : ¬ IsReadableName "[٣]\n" := by decide +kernel
    exact hline (h _ (by simp [indexLinePath]))

end Path

end TreeMatch
