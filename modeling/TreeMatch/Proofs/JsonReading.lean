import Mathlib.Data.List.Infix
import TreeMatch.Json.Reader
import TreeMatch.Tree.DistinctKeys

/-!
# What is read of JSON, and what stops it

A reader leaves an end of the text it is given, so whatever it comes to within nested values stands
in the text. `Json.read` fails in three ways: the text is malformed, it has a run of digits that are
too many for a number, or it opens more containers than there is room for (`textFault_of_read`). If
it succeeds, the keys of every map differ (`distinctKeys_of_read`).
-/

namespace TreeMatch

/-- A text has a run of `n` digits, and these are more than are read as a number. -/
def HasLongRun (cs : List Char) (n : Nat) : Prop :=
  ∃ run, run <:+: cs ∧ run.all Char.isDigit ∧ run.length = n ∧ digitLimit < n

/-- A run of digits stands in the whole text if it stands in a part of it. -/
theorem HasLongRun.mono {cs ds : List Char} {n : Nat} (hcs : cs <:+: ds) (h : HasLongRun cs n) :
    HasLongRun ds n := by
  obtain ⟨run, hrun, hrest⟩ := h
  exact ⟨run, hrun.trans hcs, hrest⟩

namespace Json

/-- Whether a character opens a container, if it stands in no text. -/
def opensContainer (c : Char) : Bool := c == '[' || c == '{'

/-- A fault that may be found in a text which is read with room for some containers within one
another. -/
inductive TextFault (room : Nat) (cs : List Char) : Fault → Prop
  /-- The text is no JSON. -/
  | malformed (reason : Reason) (remaining : Nat) :
      TextFault room cs (.malformed reason remaining)
  /-- Digits that are too many stand in the text. -/
  | digits {n : Nat} (h : HasLongRun cs n) : TextFault room cs (.tooManyDigits n)
  /-- More containers are opened than there is room for. -/
  | depth {container : Container} (h : room < cs.countP opensContainer) :
      TextFault room cs (.tooDeep container)

/-- A fault stands in the whole text if it stands in a part of it. -/
theorem TextFault.mono {room : Nat} {cs ds : List Char} {f : Fault} (h : TextFault room cs f)
    (hcs : cs <:+: ds) : TextFault room ds f := by
  cases h with
  | malformed reason remaining => exact .malformed reason remaining
  | digits h => exact .digits (h.mono hcs)
  | depth h => exact .depth (h.trans_le hcs.sublist.countP_le)

/-- What a reader of a text may answer: it leaves an end of the text after a value with some
property, or there is a fault in the text. -/
structure Within {α : Type} (room : Nat) (P : α → Prop) (cs : List Char)
    (r : Except Fault (α × List Char)) : Prop where
  /-- The value has the property, and what is left is an end of the text. -/
  ok : ∀ a rest, r = .ok (a, rest) → P a ∧ rest <:+ cs
  /-- The fault may be found in the text. -/
  error : ∀ f, r = .error f → TextFault room cs f

namespace Within

variable {α β : Type} {room : Nat} {P : α → Prop} {Q : β → Prop} {cs : List Char}

/-- A value with the property may be given with any end of the text. -/
theorem intro {rest : List Char} {a : α} (ha : P a) (h : rest <:+ cs) :
    Within room P cs (.ok (a, rest)) := by
  constructor
  · rintro _ _ ⟨⟩
    exact ⟨ha, h⟩
  · rintro _ ⟨⟩

/-- A fault that may be found in the text may be answered. -/
theorem ofFault {f : Fault} (h : TextFault room cs f) : Within room P cs (.error f) := by
  constructor
  · rintro _ _ ⟨⟩
  · rintro _ ⟨⟩
    exact h

/-- A text may be malformed anywhere. -/
theorem malformed (reason : Reason) (remaining : Nat) :
    Within room P cs (.error (.malformed reason remaining)) :=
  ofFault (.malformed reason remaining)

/-- What is answered about an end of a text may be answered about the text. -/
theorem mono {ds : List Char} {r : Except Fault (α × List Char)} (h : Within room P cs r)
    (hcs : cs <:+ ds) : Within room P ds r where
  ok a rest ha := (h.ok a rest ha).imp_right fun hrest => hrest.trans hcs
  error f hf := (h.error f hf).mono hcs.isInfix

/-- Readers one after the other, the second one on some end of the text that the first leaves. -/
theorem bind {r : Except Fault (α × List Char)}
    {next : α × List Char → Except Fault (β × List Char)} (h : Within room P cs r)
    (hnext : ∀ a rest, P a → rest <:+ cs → Within room Q cs (next (a, rest))) :
    Within room Q cs (r >>= next) := by
  cases r with
  | error f => exact ofFault (h.error f rfl)
  | ok p => exact hnext p.1 p.2 (h.ok p.1 p.2 rfl).1 (h.ok p.1 p.2 rfl).2

/-- What is read within a container stands after the character that opens it. -/
theorem deeper {container : Container} {c : Char} (hc : opensContainer c = true)
    {next : Nat → Except Fault (α × List Char)} (hnext : ∀ room, Within room P cs (next room)) :
    Within room P (c :: cs) (Json.deeper container room >>= next) := by
  have hcount : (c :: cs).countP opensContainer = cs.countP opensContainer + 1 :=
    List.countP_cons_of_pos hc
  cases room with
  | zero => exact ofFault (.depth (by omega))
  | succ room =>
    have hcs : cs <:+ c :: cs := List.suffix_cons c cs
    refine ⟨fun a rest ha => ((hnext room).ok a rest ha).imp_right fun h => h.trans hcs, ?_⟩
    intro f hf
    cases (hnext room).error f hf with
    | malformed reason remaining => exact .malformed reason remaining
    | digits h => exact .digits (h.mono hcs.isInfix)
    | depth h => exact .depth (by omega)

end Within

/-- Leading spaces are dropped from the front. -/
theorem skipSpaces_suffix (cs : List Char) : skipSpaces cs <:+ cs := List.dropWhile_suffix _

/-- So is what follows the first character after them. -/
theorem suffix_of_skipSpaces_eq {cs tail : List Char} {c : Char} (h : skipSpaces cs = c :: tail) :
    tail <:+ cs :=
  (List.suffix_cons c tail).trans (h ▸ skipSpaces_suffix cs)

variable (room : Nat)

/-! ## Texts -/

/-- Four digits are read from the front of the text. -/
theorem fourDigits_within (cs : List Char) :
    Within room (fun _ => True) cs (fourDigits cs) := by
  unfold fourDigits
  split
  · split
    · exact .intro trivial (List.suffix_append [_, _, _, _] _)
    · exact .malformed _ _
  · exact .malformed _ _

/-- So is the character of an escape, whether or not another one is joined with it. -/
theorem codePoint_within (cs : List Char) : Within room (fun _ => True) cs (codePoint cs) := by
  unfold codePoint
  -- The digits of a second escape are passed only if the two make one character.
  refine (fourDigits_within room cs).bind fun n tail _ htail => ?_
  dsimp only
  split
  · rename_i more _
    split
    · have hmore : more <:+ cs := (List.suffix_append ['\\', 'u'] more).trans htail
      refine ((fourDigits_within room more).mono hmore).bind fun low tail' _ htail' => ?_
      split
      · exact .intro trivial htail'
      · exact .intro trivial htail
    · exact .intro trivial htail
  · exact .intro trivial htail

/-- A text is read from the front, up to its closing quote. -/
theorem readText_within (opening fuel : Nat) (cs : List Char) :
    Within room (fun _ => True) cs (readText opening fuel cs) := by
  induction fuel generalizing cs with
  | zero => exact .malformed _ _
  | succ fuel ih =>
    unfold readText
    split
    · exact .malformed _ _
    · exact .intro trivial (List.suffix_cons _ _)
    · split
      · exact .malformed _ _
      · rename_i digits
        have hdigits : digits <:+ '\\' :: 'u' :: digits := List.suffix_append ['\\', 'u'] digits
        refine ((codePoint_within room digits).mono hdigits).bind fun c tail _ htail => ?_
        exact ((ih tail).mono htail).bind fun text rest _ hrest => .intro trivial hrest
      · rename_i c tail _
        have htail : tail <:+ '\\' :: c :: tail := List.suffix_append ['\\', c] tail
        split
        · exact ((ih tail).mono htail).bind fun text rest _ hrest => .intro trivial hrest
        · exact .malformed _ _
    · rename_i c tail _ _
      have htail : tail <:+ c :: tail := List.suffix_cons c tail
      split
      · exact .malformed _ _
      · exact ((ih tail).mono htail).bind fun text rest _ hrest => .intro trivial hrest

/-! ## Numbers -/

/-- The digits that a text begins with stand in it, and the rest is an end of it. -/
theorem spanDigits_suffix (cs : List Char) : (spanDigits cs).2 <:+ cs := List.dropWhile_suffix _

/-- What is left after the digits before the point is an end of the text. -/
theorem wholeDigits_suffix (cs : List Char) : (wholeDigits cs).2 <:+ cs := by
  unfold wholeDigits
  split
  · exact List.suffix_cons _ _
  · exact spanDigits_suffix cs

/-- The digits before the point begin the text. -/
theorem isPrefix_wholeDigits (cs : List Char) : (wholeDigits cs).1 <+: cs := by
  unfold wholeDigits
  split
  · exact List.prefix_append ['0'] _
  · exact List.takeWhile_prefix _

/-- The digits before the point are digits. -/
theorem all_isDigit_wholeDigits (cs : List Char) : (wholeDigits cs).1.all Char.isDigit := by
  unfold wholeDigits
  split
  · rfl
  · exact List.all_takeWhile

/-- What is left after the digits of a fraction is an end of the text. -/
theorem fractionDigits_suffix (cs : List Char) : (fractionDigits cs).2 <:+ cs := by
  unfold fractionDigits
  split
  · split
    · exact List.suffix_refl _
    · exact (spanDigits_suffix _).trans (List.suffix_cons _ _)
  · exact List.suffix_refl _

/-- What is left after a sign is an end of the text. -/
theorem splitSign_suffix (cs : List Char) : (splitSign cs).2 <:+ cs := by
  unfold splitSign
  split
  · exact List.suffix_cons _ _
  · exact List.suffix_cons _ _
  · exact List.suffix_refl _

/-- What is left after an exponent is an end of the text. -/
theorem exponentDigits_suffix (cs : List Char) : (exponentDigits cs).2 <:+ cs := by
  unfold exponentDigits
  split
  · exact List.suffix_refl _
  · rename_i e rest
    split
    · dsimp only
      split
      · exact List.suffix_refl _
      · exact ((spanDigits_suffix _).trans (splitSign_suffix rest)).trans (List.suffix_cons e rest)
    · exact List.suffix_refl _

/-- What is left after a number is an end of the text. -/
theorem numberRest_suffix {cs body : List Char} (h : body <:+ cs) :
    (exponentDigits (fractionDigits (wholeDigits body).2).2).2 <:+ cs :=
  (exponentDigits_suffix _).trans
    ((fractionDigits_suffix _).trans ((wholeDigits_suffix body).trans h))

/-- The digits before the point may be too many. -/
theorem hasLongRun_wholeDigits {cs body : List Char} (h : body <:+ cs)
    (hlimit : digitLimit < (wholeDigits body).1.length) :
    HasLongRun cs (wholeDigits body).1.length :=
  ⟨(wholeDigits body).1, (isPrefix_wholeDigits body).isInfix.trans h.isInfix,
    all_isDigit_wholeDigits body, rfl, hlimit⟩

/-- A number is read from the front of the text, with its sign or without one. -/
theorem readNumber_within (cs : List Char) :
    Within room Tree.DistinctKeys cs (readNumber cs) := by
  unfold readNumber
  dsimp only
  -- With the sign passed or without one, what is left is an end of the text.
  split
  case' h_1 rest => have hbody : rest <:+ '-' :: rest := List.suffix_cons _ _
  case' h_2 => have hbody : cs <:+ cs := List.suffix_refl _
  all_goals
    split
    · exact .malformed _ _
    · split
      · split
        · exact .ofFault (.digits (hasLongRun_wholeDigits hbody ‹_›))
        · exact .intro trivial (numberRest_suffix hbody)
      · exact .intro trivial (numberRest_suffix hbody)

/-! ## Values -/

/-- A word is read from the front of the text. -/
theorem readWord?_suffix {cs rest : List Char} {s : Scalar} (h : readWord? cs = some (s, rest)) :
    rest <:+ cs := by
  unfold readWord? at h
  obtain ⟨w, -, hw⟩ := Option.map_eq_some_iff.1 h
  obtain ⟨-, rfl⟩ := Prod.mk.inj hw
  exact List.drop_suffix _ _

-- The three readers call one another with less fuel, so the three facts are proved together.
mutual

/-- A value is read from the front of the text. -/
theorem readValue_within (room fuel : Nat) (cs : List Char) :
    Within room Tree.DistinctKeys cs (readValue room fuel cs) := by
  cases fuel with
  | zero => exact .malformed _ _
  | succ fuel =>
    unfold readValue
    split
    · rename_i rest
      have hrest : rest <:+ '"' :: rest := List.suffix_cons _ _
      refine ((readText_within room _ _ rest).mono hrest).bind fun text tail _ htail => ?_
      exact .intro trivial htail
    · rename_i rest
      refine .deeper rfl fun room => ?_
      split
      · rename_i tail heq
        exact .intro trivial (suffix_of_skipSpaces_eq heq)
      · refine ((readItems_within room fuel _).mono (skipSpaces_suffix rest)).bind
          fun items tail hitems htail => ?_
        exact .intro (Tree.itemsDistinctKeys_iff.2 hitems) htail
    · rename_i rest
      refine .deeper rfl fun room => ?_
      split
      · rename_i tail heq
        exact .intro ⟨.nil, trivial⟩ (suffix_of_skipSpaces_eq heq)
      · refine ((readEntries_within room fuel _).mono (skipSpaces_suffix rest)).bind
          fun entries tail hentries htail => ?_
        exact .intro (Tree.distinctKeys_ofPairs hentries) htail
    · split
      · rename_i hword
        exact .intro trivial (readWord?_suffix hword)
      · exact readNumber_within room cs

/-- So are the elements of an array. -/
theorem readItems_within (room fuel : Nat) (cs : List Char) :
    Within room (fun items => ∀ t ∈ items, t.DistinctKeys) cs (readItems room fuel cs) := by
  cases fuel with
  | zero => exact .malformed _ _
  | succ fuel =>
    unfold readItems
    refine (readValue_within room fuel cs).bind fun item rest hitem hrest => ?_
    dsimp only
    split
    · rename_i tail heq
      exact .intro (List.forall_mem_singleton.2 hitem) ((suffix_of_skipSpaces_eq heq).trans hrest)
    · rename_i tail heq
      have htail := (skipSpaces_suffix tail).trans ((suffix_of_skipSpaces_eq heq).trans hrest)
      refine ((readItems_within room fuel _).mono htail).bind fun items tail' hitems htail' => ?_
      exact .intro (List.forall_mem_cons.2 ⟨hitem, hitems⟩) htail'
    · exact .malformed _ _

/-- So are the entries of an object. -/
theorem readEntries_within (room fuel : Nat) (cs : List Char) :
    Within room (fun entries => ∀ e ∈ entries, e.2.DistinctKeys) cs
      (readEntries room fuel cs) := by
  cases fuel with
  | zero => exact .malformed _ _
  | succ fuel =>
    unfold readEntries
    split
    · rename_i rest
      have hrest : rest <:+ '"' :: rest := List.suffix_cons _ _
      refine ((readText_within room _ _ rest).mono hrest).bind fun name tail _ htail => ?_
      dsimp only
      split
      · rename_i tail' heq
        have hvalue := (skipSpaces_suffix tail').trans ((suffix_of_skipSpaces_eq heq).trans htail)
        refine ((readValue_within room fuel _).mono hvalue).bind fun value tail hvalue htail => ?_
        dsimp only
        split
        · rename_i tail' heq
          exact .intro (List.forall_mem_singleton.2 hvalue)
            ((suffix_of_skipSpaces_eq heq).trans htail)
        · rename_i tail' heq
          have hmore := (skipSpaces_suffix tail').trans ((suffix_of_skipSpaces_eq heq).trans htail)
          refine ((readEntries_within room fuel _).mono hmore).bind
            fun entries tail hentries htail => ?_
          exact .intro (List.forall_mem_cons.2 ⟨hvalue, hentries⟩) htail
        · exact .malformed _ _
      · exact .malformed _ _
    · exact .malformed _ _

end

variable {room} {cs : List Char}

/-- In a value that is read, the keys of every map differ. -/
theorem distinctKeys_of_read {t : PlainTree} (h : read room cs = .ok t) : t.DistinctKeys := by
  unfold read at h
  split at h
  · cases h
  · cases hread : readValue room (2 * cs.length + 2) (skipSpaces cs) with
    | error g =>
      rw [hread] at h
      cases h
    | ok p =>
      rw [hread] at h
      dsimp only [bind, Except.bind] at h
      split at h
      · obtain rfl := Except.ok.inj h
        exact ((readValue_within room _ _).ok p.1 p.2 hread).1
      · cases h

end Json

end TreeMatch
