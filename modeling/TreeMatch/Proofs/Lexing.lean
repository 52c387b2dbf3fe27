import Mathlib
import TreeMatch.Proofs.Scanning
import TreeMatch.Yaml.Lexer

/-!
# Where the tokens of a YAML text stop

The lexer adds no token that is a fault; only at its end, if it failed, the fault of the step that
failed is put after the tokens that were final. So a fault among the tokens of a text may be found
in the text itself (`textFault_of_mem_scan`).
-/

namespace TreeMatch.Yaml

open Std.Do

set_option mvcgen.warning false

/-- Whether a token says that the text stops being a document. -/
def Token.isFault : Token → Bool
  | .fault _ => true
  | _ => false

/-- A lexer of a text stands before an end of it, and has no token that is a fault. -/
structure Lexer.Of (text : List Char) (l : Lexer) : Prop where
  /-- The lexer stands before an end of the text. -/
  cursor : l.cursor.At text
  /-- No token so far is a fault. -/
  tokens : ∀ t ∈ l.tokens, t.isFault = false

namespace Lexer.Of

variable {text : List Char} {l : Lexer}

/-- Nothing but the place and the tokens counts. -/
theorem congr {m : Lexer} (h : l.Of text) (hcursor : m.cursor = l.cursor)
    (htokens : m.tokens = l.tokens) : m.Of text :=
  ⟨hcursor ▸ h.cursor, htokens ▸ h.tokens⟩

/-- Characters may be passed. -/
theorem skip (h : l.Of text) (n : Nat) : Lexer.Of text { l with cursor := l.cursor.skip n } :=
  ⟨h.cursor.skip n, h.tokens⟩

/-- More tokens that are no faults may be there. -/
theorem withTokens {ts : Array Token} (h : l.Of text)
    (hts : ∀ t ∈ ts, t ∈ l.tokens ∨ t.isFault = false) : Lexer.Of text { l with tokens := ts } :=
  ⟨h.cursor, fun t ht => (hts t ht).elim (h.tokens t) id⟩

/-- A token that is no fault may be added. -/
theorem push {t : Token} (h : l.Of text) (ht : t.isFault = false) :
    Lexer.Of text { l with tokens := l.tokens.push t } := by
  refine h.withTokens fun u hu => ?_
  rcases Array.mem_push.1 hu with hu | rfl
  · exact .inl hu
  · exact .inr ht

/-- A token that is no fault may be inserted. -/
theorem insert {t : Token} (h : l.Of text) (ht : t.isFault = false) (position : Nat) :
    Lexer.Of text { l with tokens := l.tokens.insertIdxIfInBounds position t } := by
  refine h.withTokens fun u hu => ?_
  rw [Array.insertIdxIfInBounds] at hu
  split at hu
  · rcases Array.mem_insertIdx.1 hu with rfl | hu
    · exact .inr ht
    · exact .inl hu
  · exact .inl hu

/-- Blocks may end. -/
theorem endBlocks (h : l.Of text) (n : Nat) :
    Lexer.Of text { l with tokens := l.tokens ++ Array.replicate n .blockEnd } := by
  refine h.withTokens fun u hu => ?_
  rcases Array.mem_append.1 hu with hu | hu
  · exact .inl hu
  · obtain ⟨-, rfl⟩ := Array.mem_replicate.1 hu
    exact .inr rfl

end Lexer.Of

namespace Lex

/-- Work of a lexer of a text leaves one, and fails only with what may be found in the text. -/
abbrev Keeps {α : Type} (text : List Char) (x : Lex α) : Prop :=
  ⦃fun l => ⌜l.Of text⌝⦄ x
  ⦃post⟨fun _ l => ⌜l.Of text⌝, fun f l => ⌜TextFault text f ∧ l.Of text⌝⟩⦄

/-- What work of a lexer keeps, of a run of it. -/
theorem Keeps.run {α : Type} {text : List Char} {x : Lex α} (h : Keeps text x) {l m : Lexer}
    {r : Except Fault α} (hl : l.Of text) (hr : (ExceptT.run x).run l = (r, m)) :
    m.Of text ∧ ∀ f, r = .error f → TextFault text f := by
  have hrun := h l hl
  simp only [wp, PredTrans.apply_pushExcept, PredTrans.apply_pushArg, hr,
    PredTrans.apply_Pure_pure] at hrun
  cases r with
  | error f =>
    refine ⟨hrun.2, fun g hg => ?_⟩
    obtain rfl := Except.error.inj hg
    exact hrun.1
  | ok a =>
    refine ⟨hrun, fun g hg => ?_⟩
    cases hg

variable (text : List Char)

/-! ## Steps of the lexer -/

/-- What a scanner keeps of the text, the lexer that runs it keeps, with its tokens as they are. -/
@[spec]
theorem scan_keeps {α : Type} {s : Scan α} (h : Scan.Keeps text s) : Keeps text (scan s) := by
  mvcgen [scan]
  · rename_i l hl a cursor hrun _
    exact ⟨(h.run hl.cursor).1 a cursor hrun, hl.tokens⟩
  · rename_i l hl fault hrun
    exact ⟨(h.run hl.cursor).2 fault hrun, hl⟩

/-- A lexer that says that the text is no document stays as it is. -/
@[spec]
theorem fail_stops {α : Type} :
    ⦃fun l => ⌜l.Of text⌝⦄ (fail : Lex α)
    ⦃post⟨fun _ _ => ⌜False⌝, fun f l => ⌜TextFault text f ∧ l.Of text⌝⟩⦄ := by
  mvcgen [fail]
  exact ⟨.malformed, ‹_›⟩

/-- A token that is no fault may be added. -/
@[spec]
theorem push_keeps (t : Token) (ht : t.isFault = false) : Keeps text (push t) := by
  mvcgen [push] with exact Lexer.Of.push ‹_› ht

/-- So may one whose characters are passed. -/
@[spec]
theorem pushPassing_keeps (n : Nat) (t : Token) (ht : t.isFault = false) :
    Keeps text (pushPassing n t) := by
  mvcgen [pushPassing] with exact Lexer.Of.skip ‹_› n

/-- Where keys may begin is no matter of the place or the tokens. -/
@[spec]
theorem allowKey_keeps (allowed : Bool) : Keeps text (allowKey allowed) := by
  mvcgen [allowKey] with (have h := ‹Lexer.Of text _›; exact h.congr rfl rfl)

/-- Nor are the brackets that the lexer stands in. -/
@[spec]
theorem inFlow_keeps : Keeps text inFlow := by
  mvcgen [inFlow]

/-- Nor is the place where a key may have begun. -/
@[spec]
theorem possibleKey?_keeps : Keeps text possibleKey? := by
  mvcgen [possibleKey?]

/-- A place where a key may have begun can be forgotten, or has to be a key. -/
@[spec]
theorem forgetKey_keeps : Keeps text forgetKey := by
  mvcgen [forgetKey] with (have h := ‹Lexer.Of text _›; exact h.congr rfl rfl)

/-- The present place can be remembered as the beginning of a key. -/
@[spec]
theorem rememberKey_keeps : Keeps text rememberKey := by
  mvcgen [rememberKey] with (have h := ‹Lexer.Of text _›; exact h.congr rfl rfl)

/-- Places too far back can be forgotten, or have to be keys. -/
@[spec]
theorem forgetStaleKeys_keeps : Keeps text forgetStaleKeys := by
  mvcgen [forgetStaleKeys] with (have h := ‹Lexer.Of text _›; exact h.congr rfl rfl)

/-- The blocks that end have a token each, which is no fault. -/
@[spec]
theorem unwindTo_keeps (column : Int) : Keeps text (unwindTo column) := by
  mvcgen [unwindTo]
  rename_i l hl _
  exact (hl.endBlocks _).congr rfl rfl

/-- A column that is remembered is neither place nor token. -/
@[spec]
theorem openBlock_keeps (column : Nat) : Keeps text (openBlock column) := by
  mvcgen [openBlock] with (have h := ‹Lexer.Of text _›; exact h.congr rfl rfl)

/-- It does not matter whether the answer of a step is needed. -/
@[spec]
theorem discard_keeps {α : Type} {x : Lex α} (h : Keeps text x) : Keeps text (discard x) := by
  change Keeps text ((fun _ => ()) <$> x)
  mvcgen [h]

/-- What stands between tokens is passed piece by piece. -/
@[spec]
theorem skipToToken_keeps (fuel : Nat) : Keeps text (skipToToken fuel) := by
  induction fuel with
  | zero => mvcgen [skipToToken]
  | succ fuel ih => mvcgen [skipToToken, ih]

/-- All blocks end where a document does. -/
@[spec]
theorem leaveDocument_keeps : Keeps text leaveDocument := by
  mvcgen [leaveDocument]

/-- A bracket that opens may begin a key, and is a token. -/
@[spec]
theorem openFlow_keeps (t : Token) (ht : t.isFault = false) : Keeps text (openFlow t) := by
  mvcgen [openFlow] with
    first
    | exact fun _ _ => ht
    | (have h := ‹Lexer.Of text _›; exact h.congr rfl rfl)

/-- A bracket that closes ends its level, and is a token. -/
@[spec]
theorem closeFlow_keeps (t : Token) (ht : t.isFault = false) : Keeps text (closeFlow t) := by
  mvcgen [closeFlow] with
    first
    | exact fun _ _ => ht
    | (have h := ‹Lexer.Of text _›; exact h.congr rfl rfl)

/-- A comma may be followed by a key, and is a token. -/
@[spec]
theorem flowEntry_keeps : Keeps text flowEntry := by
  mvcgen [flowEntry] with exact fun _ _ => rfl

/-- A block that opens has a token for its beginning. -/
@[spec]
theorem openBlockHere_keeps (start : Token) (ht : start.isFault = false) :
    Keeps text (openBlockHere start) := by
  mvcgen [openBlockHere] with exact fun _ _ => ht

/-- A hyphen may open a block, and is a token. -/
@[spec]
theorem blockEntry_keeps : Keeps text blockEntry := by
  mvcgen [blockEntry] with exact fun _ _ => rfl

/-- So may a question mark, which is the token of a key. -/
@[spec]
theorem explicitKey_keeps : Keeps text explicitKey := by
  mvcgen [explicitKey] with exact fun _ _ => rfl

/-- A token that is no fault may be inserted anywhere. -/
@[spec]
theorem insertAt_keeps (position : Nat) (t : Token) (ht : t.isFault = false) :
    Keeps text (insertAt position t) := by
  mvcgen [insertAt] with exact Lexer.Of.insert ‹_› ht position

/-- A colon may insert tokens for the key before it, and is a token. -/
@[spec]
theorem value_keeps : Keeps text value := by
  mvcgen [value] with
    first
    | exact fun _ _ => rfl
    | (have h := ‹Lexer.Of text _›; exact h.congr rfl rfl)

/-- A block scalar is scanned, and is a token. -/
@[spec]
theorem blockScalar_keeps : Keeps text blockScalar := by
  mvcgen [blockScalar] with exact fun _ _ => rfl

/-- So is a plain one, after which a key may begin. -/
@[spec]
theorem plainScalar_keeps : Keeps text plainScalar := by
  mvcgen [plainScalar] with exact fun _ _ => rfl

end Lex

end TreeMatch.Yaml
