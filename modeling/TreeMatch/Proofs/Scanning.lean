import Mathlib
import TreeMatch.Proofs.Keeping
import TreeMatch.Proofs.JsonReading
import TreeMatch.Yaml.BlockText
import TreeMatch.Yaml.FlowText
import TreeMatch.Yaml.PlainText
import TreeMatch.Yaml.Property

/-!
# What a scanner of YAML may complain about

A scanner that fails says in general that the text is no document. Two of them say more: the one for
the numbers of a version refuses too many digits, and the one for escapes a number beyond the last
code point. A scanner stands before an end of the text all along (`At`), so that the digits in
question stand in the text (`TextFault`); `Keeps` says so of a scanner, and is proved of each of
them from those that it is put together of.
-/

namespace TreeMatch.Yaml

open Std.Do

set_option mvcgen.warning false

/-- A fault that may be found in a text before there are tokens of it. -/
inductive TextFault (text : List Char) : Fault → Prop
  /-- The text is no document. -/
  | malformed : TextFault text .malformed
  /-- A number in a version has more digits than are read. -/
  | number {n : Nat} (h : HasLongRun text n) : TextFault text (.number (.tooManyDigits n))
  /-- The digits of an escape write a number beyond the last code point. -/
  | codePoint {c : Char} {digits : List Char} {n : Nat} (h : c :: digits <:+: text)
      (hc : Scan.escapeWidth? c = some digits.length) (hdigits : hexValue? digits = some n)
      (hn : 0x110000 ≤ n) : TextFault text (.noCodePoint n)

/-- A cursor stands before an end of a text. -/
structure Cursor.At (text : List Char) (c : Cursor) : Prop where
  /-- What is left is an end of the text. -/
  suffix : c.rest <:+ text

namespace Cursor

/-- A character is passed at the front. -/
theorem next_suffix (c : Cursor) : c.next.rest <:+ c.rest := by
  unfold next
  split
  · exact List.suffix_refl _
  · rename_i x rest h
    rw [h]
    split
    · exact List.suffix_cons x rest
    · split
      · exact List.suffix_cons x rest
      · exact List.suffix_cons x rest

/-- What is left after the first character is passed. -/
theorem next_rest {c : Cursor} {x : Char} {rest : List Char} (h : c.rest = x :: rest) :
    c.next.rest = rest := by
  unfold next
  rw [h]
  dsimp only
  split_ifs <;> rfl

/-- Several characters are passed at the front. -/
theorem skip_suffix (c : Cursor) (n : Nat) : (c.skip n).rest <:+ c.rest := by
  induction n generalizing c with
  | zero => exact List.suffix_refl _
  | succ n ih => exact (ih c.next).trans c.next_suffix

/-- A cursor that passes characters still stands before an end of the text. -/
theorem At.skip {text : List Char} {c : Cursor} (h : At text c) (n : Nat) : At text (c.skip n) :=
  ⟨(c.skip_suffix n).trans h.suffix⟩

end Cursor

namespace Scan

/-- A scanner keeps before an end of the text, and fails only with what may be found there. -/
abbrev Keeps {α : Type} (text : List Char) (s : Scan α) : Prop :=
  Yaml.Keeps (Cursor.At text) (TextFault text) s

variable (text : List Char)

/-! ## Steps of a scanner -/

/-- A scanner passes characters at the front of what is left. -/
@[spec]
theorem skip_keeps (n : Nat) : Keeps text (skip n) := by
  mvcgen [skip] with exact Cursor.At.skip ‹_› n

/-- Looking at a character passes none. -/
@[spec]
theorem peek_keeps (k : Nat) : Keeps text (peek k) := by
  mvcgen [peek]

/-- What is no document is not read on. -/
theorem fail_stops {α : Type} :
    ⦃⌜True⌝⦄ (fail : Scan α) ⦃post⟨fun _ _ => ⌜False⌝, fun f => ⌜TextFault text f⌝⟩⦄ :=
  throw_stops .malformed

/-- That a text is no document may be said anywhere. -/
@[spec]
theorem fail_keeps {α : Type} : Keeps text (fail : Scan α) := throw_keeps .malformed

/-- The run that is taken stands in the text. -/
theorem takeWhile_run (p : Char → Bool) :
    ⦃fun c => ⌜c.At text⌝⦄ takeWhile p
    ⦃post⟨fun run c => ⌜c.At text ∧ run <:+: text ∧ run.all p⌝, fun f => ⌜TextFault text f⌝⟩⦄ := by
  mvcgen [takeWhile, skip, -skip_keeps]
  rename_i c h run _
  exact ⟨h.skip _, (List.takeWhile_prefix p).isInfix.trans h.suffix.isInfix, List.all_takeWhile⟩

/-- A scanner that takes a run stands behind it. -/
@[spec]
theorem takeWhile_keeps (p : Char → Bool) : Keeps text (takeWhile p) := by
  mvcgen [takeWhile]

/-- It does not matter whether what was scanned is needed. -/
@[spec]
theorem discard_keeps {α : Type} {s : Scan α} (h : Keeps text s) : Keeps text (discard s) :=
  h.discard

/-- Spaces are a run that is not needed. -/
@[spec]
theorem skipSpaces_keeps : Keeps text skipSpaces := by
  mvcgen [skipSpaces]

/-- A character that is expected is looked at before it is passed. -/
@[spec]
theorem expect_keeps (p : Char → Bool) : Keeps text (expect p) := by
  mvcgen [expect]

/-- A line break is one character or two at the front, or none. -/
@[spec]
theorem lineBreak_keeps : Keeps text lineBreak := by
  mvcgen [lineBreak]

/-- At the end of a line there are spaces, a comment and a line break. -/
@[spec]
theorem restOfLine_keeps : Keeps text restOfLine := by
  mvcgen [restOfLine]

/-! ## Plain scalars -/

/-- The line breaks within a plain scalar are passed one by one. -/
@[spec]
theorem plainBreaks_keeps (fuel : Nat) : Keeps text (plainBreaks fuel) := by
  induction fuel with
  | zero => mvcgen [plainBreaks]
  | succ fuel ih => mvcgen [plainBreaks, ih]

/-- Between two runs of a plain scalar there are spaces, or line breaks. -/
@[spec]
theorem plainSpaces_keeps (fuel : Nat) : Keeps text (plainSpaces fuel) := by
  mvcgen [plainSpaces]

/-- The runs of a plain scalar are passed with what stands between them. -/
@[spec]
theorem plainRuns_keeps (inFlow : Bool) (indent : Int) (before : List Char) (afterBreak : Bool)
    (fuel : Nat) : Keeps text (plainRuns inFlow indent before afterBreak fuel) := by
  induction fuel generalizing before afterBreak with
  | zero => mvcgen [plainRuns]
  | succ fuel ih => mvcgen [plainRuns, ih]

/-- A plain scalar is passed run by run from its first one on. -/
@[spec]
theorem plainText_keeps (inFlow : Bool) (indent : Int) : Keeps text (plainText inFlow indent) := by
  mvcgen [plainText]

/-! ## Scalars in quotes -/

/-- The line breaks in quotes are passed one by one, with the blanks before each. -/
@[spec]
theorem foldedBreaks_keeps (fuel : Nat) : Keeps text (foldedBreaks fuel) := by
  induction fuel with
  | zero => mvcgen [foldedBreaks]
  | succ fuel ih => mvcgen [foldedBreaks, ih]

/-- Between two words in quotes there are blanks, or line breaks. -/
@[spec]
theorem flowSpaces_keeps (fuel : Nat) : Keeps text (flowSpaces fuel) := by
  mvcgen [flowSpaces]

/-- A number that is beyond the last code point has no character. -/
@[spec]
theorem codePointChar_spec (n : Nat) :
    ⦃⌜True⌝⦄ codePointChar n
    ⦃post⟨fun _ => ⌜True⌝, fun f => ⌜f = .noCodePoint n ∧ 0x110000 ≤ n⌝⟩⦄ := by
  intro _
  unfold codePointChar
  split_ifs with hlast hsurrogate
  · exact ⟨rfl, hlast⟩
  · trivial
  · trivial

/-- The digits of an escape stand in the text after the letter that says how many there are. -/
theorem textFault_of_digits {c : Cursor} {width n : Nat} (h : c.At text)
    (hwidth : escapeWidth? (c.peek 0) = some width)
    (hlength : ¬ ((c.skip 1).rest.take width).length < width)
    (hdigits : hexValue? ((c.skip 1).rest.take width) = some n) (hn : 0x110000 ≤ n) :
    TextFault text (.noCodePoint n) := by
  cases hrest : c.rest with
  | nil =>
    rw [Cursor.peek, hrest] at hwidth
    exact nomatch hwidth
  | cons x rest =>
    rw [Cursor.peek, hrest] at hwidth
    have hskip : (c.skip 1).rest = rest := Cursor.next_rest hrest
    rw [hskip] at hlength hdigits
    have hfull : (rest.take width).length = width :=
      Nat.le_antisymm (List.length_take_le _ _) (Nat.le_of_not_lt hlength)
    have hinfix : x :: rest.take width <:+: text := by
      have hprefix : x :: rest.take width <+: x :: rest :=
        List.cons_prefix_cons.2 ⟨rfl, List.take_prefix _ _⟩
      exact hprefix.isInfix.trans (hrest ▸ h.suffix.isInfix)
    exact .codePoint hinfix (hfull.symm ▸ hwidth) hdigits hn

/-- An escape fails with a fault of its own only if its digits name no code point. -/
@[spec]
theorem escape_keeps (fuel : Nat) : Keeps text (escape fuel) := by
  mvcgen [escape, peek, skip, fail_stops, -peek_keeps, -skip_keeps, -fail_keeps] with
    try exact False.elim
  all_goals try grind [Cursor.At.skip]
  -- What is left is the one fault of its own: the digits name no code point.
  rintro rfl hn
  exact textFault_of_digits text (Cursor.At.skip ‹_› 1) ‹_› ‹_› ‹_› hn

/-- The characters of a word in quotes are passed one by one or escape by escape. -/
@[spec]
theorem flowWord_keeps (double : Bool) (fuel : Nat) : Keeps text (flowWord double fuel) := by
  induction fuel with
  | zero => mvcgen [flowWord]
  | succ fuel ih => mvcgen [flowWord, ih]

/-- The words in quotes are passed with what stands between them. -/
@[spec]
theorem flowWords_keeps (quote : Char) (fuel : Nat) : Keeps text (flowWords quote fuel) := by
  induction fuel with
  | zero => mvcgen [flowWords]
  | succ fuel ih => mvcgen [flowWords, ih]

/-- A scalar in quotes is its words between the two quotes. -/
@[spec]
theorem flowText_keeps : Keeps text flowText := by
  mvcgen [flowText]

/-! ## Block scalars -/

/-- The sign of a block scalar is one character or none. -/
@[spec]
theorem chompingSign_keeps : Keeps text chompingSign := by
  mvcgen [chompingSign]

/-- The digit of a block scalar is one character or none. -/
@[spec]
theorem indentDigit_keeps : Keeps text indentDigit := by
  mvcgen [indentDigit]

/-- The sign and the digit of a block scalar stand in either order. -/
@[spec]
theorem blockHeader_keeps : Keeps text blockHeader := by
  mvcgen [blockHeader]

/-- The empty lines that a block scalar begins with are passed one by one. -/
@[spec]
theorem leadingLines_keeps (greatest fuel : Nat) : Keeps text (leadingLines greatest fuel) := by
  induction fuel generalizing greatest with
  | zero => mvcgen [leadingLines]
  | succ fuel ih => mvcgen [leadingLines, ih]

/-- The spaces of an indentation are passed one by one. -/
@[spec]
theorem indentTo_keeps (indent fuel : Nat) : Keeps text (indentTo indent fuel) := by
  induction fuel with
  | zero => mvcgen [indentTo]
  | succ fuel ih => mvcgen [indentTo, ih]

/-- The empty lines within a block scalar are passed one by one. -/
@[spec]
theorem blockBreaks_keeps (indent fuel : Nat) : Keeps text (blockBreaks indent fuel) := by
  induction fuel with
  | zero => mvcgen [blockBreaks]
  | succ fuel ih => mvcgen [blockBreaks, ih]

/-- Whether a line has content is said without passing anything. -/
@[spec]
theorem atContent_keeps (indent : Nat) : Keeps text (atContent indent) := by
  mvcgen [atContent]

/-- The lines of a block scalar are passed with the empty lines after each. -/
@[spec]
theorem blockLines_keeps (folded : Bool) (indent : Nat) (breaks : List Char) (fuel : Nat) :
    Keeps text (blockLines folded indent breaks fuel) := by
  induction fuel generalizing breaks with
  | zero => mvcgen [blockLines]
  | succ fuel ih => mvcgen [blockLines, ih]

/-- A block scalar is its header, the rest of that line, and the lines below. -/
@[spec]
theorem blockText_keeps (parentIndent : Int) : Keeps text (blockText parentIndent) := by
  mvcgen [blockText]

/-! ## Anchors, tags and directives -/

/-- The name of an anchor is a run of characters after its mark. -/
@[spec]
theorem anchorName_keeps : Keeps text anchorName := by
  mvcgen [anchorName]

/-- Bytes in percent escapes are malformed, if they are not read. -/
theorem eq_malformed_of_escapedBytes {cs : List Char} {f : Fault}
    (h : escapedBytes cs = .error f) : f = .malformed := by
  fun_induction escapedBytes cs with
  | case1 a b rest hnone => exact (Except.error.inj h).symm
  | case2 a b rest n hsome ih =>
    rcases exists_of_bind_eq_error h with h | ⟨_, h⟩
    · exact ih h
    · exact nomatch h
  | case3 => exact (Except.error.inj h).symm
  | case4 => exact nomatch h

/-- So is a resource identifier. -/
theorem eq_malformed_of_unescapeUri {fuel : Nat} {cs : List Char} {f : Fault}
    (h : unescapeUri fuel cs = .error f) : f = .malformed := by
  induction fuel generalizing cs with
  | zero => exact nomatch h
  | succ fuel ih =>
    unfold unescapeUri at h
    split at h
    · exact nomatch h
    · rcases exists_of_bind_eq_error h with h | ⟨⟨bytes, rest⟩, h⟩
      · exact eq_malformed_of_escapedBytes h
      · dsimp only at h
        split at h
        · exact (Except.error.inj h).symm
        · rcases exists_of_bind_eq_error h with h | ⟨_, h⟩
          · exact ih h
          · exact nomatch h
    · rcases exists_of_bind_eq_error h with h | ⟨_, h⟩
      · exact ih h
      · exact nomatch h

/-- A resource identifier that is resolved is not read from the text any more. -/
@[spec]
theorem unescapeUri_spec (fuel : Nat) (cs : List Char) :
    ⦃⌜True⌝⦄ unescapeUri fuel cs ⦃post⟨fun _ => ⌜True⌝, fun f => ⌜f = .malformed⌝⟩⦄ := by
  intro _
  cases h : unescapeUri fuel cs with
  | error f => exact eq_malformed_of_unescapeUri h
  | ok cs => trivial

/-- The characters of a resource identifier are a run that is resolved then. -/
@[spec]
theorem uri_keeps : Keeps text uri := by
  mvcgen [uri] with (rintro rfl; exact .malformed)

/-- A tag handle is a name between its marks, or one mark alone. -/
@[spec]
theorem tagHandle_keeps : Keeps text tagHandle := by
  mvcgen [tagHandle]

/-- A tag is a resource identifier, perhaps behind a handle or between brackets. -/
@[spec]
theorem tag_keeps : Keeps text tag := by
  mvcgen [tag]

/-- A number in a version is a run of digits, which may be too many. -/
@[spec]
theorem versionNumber_keeps : Keeps text versionNumber := by
  mvcgen [versionNumber, takeWhile_run, fail_stops, throw_stops, -takeWhile_keeps, -fail_keeps,
    -Spec.throw_MonadExcept] with grind [HasLongRun, TextFault.number]

/-- A version is two numbers with a point between them. -/
@[spec]
theorem version_keeps : Keeps text version := by
  mvcgen [version]

/-- A directive for a tag is a handle and the text it stands for. -/
@[spec]
theorem tagShorthand_keeps : Keeps text tagShorthand := by
  mvcgen [tagShorthand]

/-- A directive is its name, what it says, and the rest of the line. -/
@[spec]
theorem directive_keeps : Keeps text directive := by
  mvcgen [directive]

end Scan

end TreeMatch.Yaml
