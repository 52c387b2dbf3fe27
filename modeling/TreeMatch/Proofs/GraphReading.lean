import Mathlib
import TreeMatch.Proofs.Lexing
import TreeMatch.Yaml.Graph.Reader

/-!
# Why a YAML text has no graph

The readers of nodes only ever pass tokens, and fail where the tokens are no document, where the
next one is a fault, or where there is no room for another collection. A collection is read after a
token that may begin one, so there are then more of these tokens than there is room for. If there is
no graph of a text, the fault may therefore be found in the text itself (`readFault_of_read`).
-/

namespace TreeMatch.Yaml

open Std.Do

set_option mvcgen.warning false

/-- Whether a token may begin a collection. A hyphen does where a sequence is not indented, and a
key does where it stands among the elements in brackets. -/
def Token.opens : Token → Bool
  | .blockSequenceStart | .blockMappingStart | .flowSequenceStart | .flowMappingStart => true
  | .blockEntry | .key => true
  | _ => false

/-- A fault that may be found in a text whose graph is read with room for some collections within
one another. -/
inductive ReadFault (text : List Char) (room : Nat) : Fault → Prop
  /-- There is a fault in the text before there are tokens of it. -/
  | lexeme {f : Fault} (h : TextFault text f) : ReadFault text room f
  /-- More tokens may begin collections than there is room for. -/
  | depth (h : room < (Token.scan text).countP Token.opens) : ReadFault text room .tooDeep

namespace Graph

/-- The faults among the tokens that are left may be found in the text, and the tokens that may
begin collections and are not left any more have taken all the room that is missing. -/
structure Reading.Of (text : List Char) (room : Nat) (r : Reading) : Prop where
  /-- Every fault may be found in the text. -/
  faults : ∀ f, .fault f ∈ r.tokens → TextFault text f
  /-- All room that is missing was taken. -/
  taken : room + r.tokens.countP Token.opens ≤ r.room + (Token.scan text).countP Token.opens

namespace Reading.Of

variable {text : List Char} {room : Nat} {r s : Reading}

/-- Nothing but the tokens and the room counts. -/
theorem congr (h : r.Of text room) (htokens : s.tokens = r.tokens) (hroom : s.room = r.room) :
    s.Of text room :=
  ⟨htokens ▸ h.faults, by rw [htokens, hroom]; exact h.taken⟩

/-- Tokens may be passed. -/
theorem drop (h : r.Of text room) (n : Nat) :
    Of text room { r with tokens := r.tokens.drop n } where
  faults f hf := h.faults f (List.mem_of_mem_drop hf)
  taken := by
    have hcount := (List.drop_sublist n r.tokens).countP_le (p := Token.opens)
    have htaken := h.taken
    dsimp only
    omega

/-- One level deeper there is room for one less. -/
theorem enter {n : Nat} (h : r.Of text (room + 1)) (hr : r.room = n + 1) :
    Of text room { r with room := n } where
  faults := h.faults
  taken := by
    have htaken := h.taken
    dsimp only
    omega

/-- Room that was taken may be given back. -/
theorem leave (h : r.Of text room) : Of text room { r with room := r.room + 1 } where
  faults := h.faults
  taken := h.taken.trans (by dsimp only; omega)

/-- If no room is left, then more tokens may begin collections than there was room for. -/
theorem readFault (h : r.Of text (room + 1)) (hr : r.room = 0) : ReadFault text room .tooDeep := by
  have htaken := h.taken
  exact .depth (by omega)

end Reading.Of

/-- A reader stands before a token. -/
structure Reading.Before (text : List Char) (room : Nat) (t : Token) (r : Reading) : Prop extends
    r.Of text room where
  /-- The token is the next one. -/
  next : ∃ rest, r.tokens = t :: rest

/-- After a token that may begin a collection there has to be room for one more. -/
theorem Reading.Before.opened {text : List Char} {room : Nat} {t : Token} {r : Reading}
    (h : r.Before text room t) (ht : t.opens = true) :
    Reading.Of text (room + 1) { r with tokens := r.tokens.drop 1 } where
  faults := (h.drop 1).faults
  taken := by
    obtain ⟨rest, hr⟩ := h.next
    have htaken := h.taken
    rw [hr, List.countP_cons_of_pos ht] at htaken
    rw [hr, List.drop_one, List.tail_cons]
    dsimp only
    omega

/-- A reader keeps to the tokens of a text, and fails only with what may be found in it. -/
abbrev Keeps {α : Type} (text : List Char) (room : Nat) (x : Read α) : Prop :=
  Yaml.Keeps (Reading.Of text room) (ReadFault text room) x

variable (text : List Char) (room : Nat)

/-! ## Steps of a reader -/

/-- That tokens are no document may be said anywhere. -/
@[spec]
theorem fail_keeps {α : Type} : Keeps text room (fail : Read α) :=
  throw_keeps (.lexeme .malformed)

/-- Nothing is read on then. -/
theorem fail_stops {α : Type} :
    ⦃⌜True⌝⦄ (fail : Read α)
    ⦃post⟨fun _ _ => ⌜False⌝, fun f => ⌜ReadFault text room f⌝⟩⦄ :=
  throw_stops (.lexeme .malformed)

/-- A token that comes next is none of the faults, which may be found in the text. -/
theorem peek_before :
    ⦃fun r => ⌜r.Of text room⌝⦄ peek
    ⦃post⟨fun t r => ⌜r.Before text room t⌝, fun f => ⌜ReadFault text room f⌝⟩⦄ := by
  mvcgen [peek, fail_stops, throw_stops, -fail_keeps, -Spec.throw_MonadExcept] with
    try exact False.elim
  · rename_i r h f rest hr
    exact .lexeme (h.faults f (hr ▸ List.mem_cons_self))
  · rename_i r h t rest _ hr
    exact ⟨h, rest, hr⟩

/-- Looking at the next token passes none. -/
@[spec]
theorem peek_keeps : Keeps text room peek := by
  have hpeek := peek_before text room
  mvcgen [hpeek] with exact Reading.Before.toOf

/-- A token may be passed. -/
@[spec]
theorem pass_keeps : Keeps text room pass := by
  mvcgen [pass]
  rename_i r h _
  exact h.drop 1

/-- Telling the kind of the next token passes none. -/
@[spec]
theorem at?_keeps (p : Token → Bool) : Keeps text room (at? p) := by
  mvcgen [at?]

/-- A tag may have a handle that stands for nothing. -/
@[spec]
theorem fullTag_keeps (t : TagText) : Keeps text room (fullTag t) := by
  mvcgen [fullTag]

/-- A tag and an anchor are passed in either order. -/
@[spec]
theorem properties_keeps : Keeps text room properties := by
  mvcgen [properties]

/-- An anchor that is defined already is refused. -/
@[spec]
theorem checkNew_keeps (anchor : Option String) : Keeps text room (checkNew anchor) := by
  mvcgen [checkNew]

/-- A node is no matter of the tokens or the room. -/
@[spec]
theorem add_keeps (anchor : Option String) (n : Node) : Keeps text room (add anchor n) := by
  mvcgen [add]
  rename_i r h _ _
  exact h.congr rfl rfl

/-- What is read one level deeper has less room, and there has to be some. -/
theorem deeper_opened {α : Type} {x : Read α} (h : Keeps text room x) :
    ⦃fun r => ⌜r.Of text (room + 1)⌝⦄ deeper x
    ⦃post⟨fun _ r => ⌜r.Of text room⌝, fun f => ⌜ReadFault text room f⌝⟩⦄ := by
  mvcgen [deeper, h, throw_stops, -Spec.throw_MonadExcept] with try exact False.elim
  · exact Reading.Of.readFault ‹_› ‹_›
  · exact Reading.Of.enter ‹_› ‹_›
  · exact Reading.Of.leave ‹_›

/-- The elements of a sequence are read one level deeper than its node. -/
theorem addSequence_opened (tag anchor : Option String) {items : Read (List Nat)}
    (h : Keeps text room items) :
    ⦃fun r => ⌜r.Of text (room + 1)⌝⦄ addSequence tag anchor items
    ⦃post⟨fun _ r => ⌜r.Of text room⌝, fun f => ⌜ReadFault text room f⌝⟩⦄ := by
  have hitems := deeper_opened text room h
  mvcgen [addSequence, add, hitems, -add_keeps] with
    (have h := ‹Reading.Of text _ _›; exact h.congr rfl rfl)

/-- So are the entries of a mapping. -/
theorem addMapping_opened (tag anchor : Option String) {entries : Read (List (Nat × Nat))}
    (h : Keeps text room entries) :
    ⦃fun r => ⌜r.Of text (room + 1)⌝⦄ addMapping tag anchor entries
    ⦃post⟨fun _ r => ⌜r.Of text room⌝, fun f => ⌜ReadFault text room f⌝⟩⦄ := by
  have hentries := deeper_opened text room h
  mvcgen [addMapping, add, hentries, -add_keeps] with
    (have h := ‹Reading.Of text _ _›; exact h.congr rfl rfl)

/-- A scalar is one node. -/
@[spec]
theorem addScalar_keeps (tag anchor : Option String) (s : String) (plain : Bool) :
    Keeps text room (addScalar tag anchor s plain) := by
  mvcgen [addScalar]

/-- So is what stands for something left out. -/
@[spec]
theorem addOmitted_keeps : Keeps text room addOmitted := by
  mvcgen [addOmitted]

/-- A node may be left out after its tag or anchor only. -/
@[spec]
theorem addBare_keeps (tag anchor : Option String) : Keeps text room (addBare tag anchor) := by
  mvcgen [addBare]

/-- An anchor may name nothing. -/
@[spec]
theorem resolve_keeps (name : String) : Keeps text room (resolve name) := by
  mvcgen [resolve]

/-- A comma is passed, or missing. -/
@[spec]
theorem passComma_keeps (first : Bool) : Keeps text room (passComma first) := by
  mvcgen [passComma]

/-! ## Nodes -/

/-- All readers with some fuel keep to the tokens of a text, whatever room there is. -/
structure ReadersKeep (fuel : Nat) : Prop where
  node : ∀ room block flat, Keeps text room (readNode block flat fuel)
  part : ∀ room block flat ends, Keeps text room (readPart block flat ends fuel)
  valuePart : ∀ room block ends, Keeps text room (readValuePart block ends fuel)
  blockItems : ∀ room, Keeps text room (readBlockItems fuel)
  flatItems : ∀ room, Keeps text room (readFlatItems fuel)
  blockEntries : ∀ room, Keeps text room (readBlockEntries fuel)
  flowItems : ∀ room first, Keeps text room (readFlowItems first fuel)
  flowEntries : ∀ room first, Keeps text room (readFlowEntries first fuel)

/-- A hyphen may begin a collection. -/
theorem opens_of_isBlockEntry {flat : Bool} {t : Token} (h : (flat && isBlockEntry t) = true) :
    t.opens = true := by
  obtain ⟨-, ht⟩ := Bool.and_eq_true_iff.1 h
  unfold isBlockEntry at ht
  split at ht
  · rfl
  · cases ht

/-- Without fuel they read nothing. -/
theorem readersKeep_zero : ReadersKeep text 0 where
  node _ _ _ := by mvcgen [readNode]
  part _ _ _ _ := by mvcgen [readPart]
  valuePart _ _ _ := by mvcgen [readValuePart]
  blockItems _ := by mvcgen [readBlockItems]
  flatItems _ := by mvcgen [readFlatItems]
  blockEntries _ := by mvcgen [readBlockEntries]
  flowItems _ _ := by mvcgen [readFlowItems]
  flowEntries _ _ := by mvcgen [readFlowEntries]

/-- With more fuel they read what the others read with less. -/
theorem ReadersKeep.succ {fuel : Nat} (h : ReadersKeep text fuel) :
    ReadersKeep text (fuel + 1) where
  node room block flat := by
    have hflat := fun tag anchor => addSequence_opened text room tag anchor (h.flatItems room)
    have hitems := fun tag anchor =>
      addSequence_opened text room tag anchor (h.flowItems room true)
    have hentries := fun tag anchor =>
      addMapping_opened text room tag anchor (h.flowEntries room true)
    have hblock := fun tag anchor => addSequence_opened text room tag anchor (h.blockItems room)
    have hmapping := fun tag anchor =>
      addMapping_opened text room tag anchor (h.blockEntries room)
    mvcgen [readNode, peek_before, checkNew, fail_stops, pass, hflat, hitems, hentries, hblock,
      hmapping, -peek_keeps, -checkNew_keeps, -fail_keeps, -pass_keeps] with
      first
      | exact False.elim
      | (subst_vars
         have h := ‹Reading.Before text _ _ _›
         first
         | exact h.opened rfl
         | exact h.opened (opens_of_isBlockEntry ‹_›)
         | exact h.toOf
         | exact h.drop 1)
  part room block flat ends := by
    have hnode := h.node room block flat
    mvcgen [readPart, hnode]
  valuePart room block ends := by
    have hpart := h.part room block block ends
    mvcgen [readValuePart, hpart]
  blockItems room := by
    have hpart := h.part room true false endsBlockItem
    have hrest := h.blockItems room
    mvcgen [readBlockItems, hpart, hrest]
  flatItems room := by
    have hpart := h.part room true false endsFlatItem
    have hrest := h.flatItems room
    mvcgen [readFlatItems, hpart, hrest]
  blockEntries room := by
    have hkey := h.part room true true endsBlockPart
    have hvalue := h.valuePart room true endsBlockPart
    have hrest := h.blockEntries room
    mvcgen [readBlockEntries, hkey, hvalue, hrest]
  flowItems room first := by
    have hkey := h.part room false false endsFlowKey
    have hvalue := h.valuePart room false endsFlowValue
    have hnode := h.node room false false
    have hrest := h.flowItems room false
    have hentry : Keeps text room (do
        let k ← readPart false false endsFlowKey fuel
        return [(k, ← readValuePart false endsFlowValue fuel)]) := by
      mvcgen [hkey, hvalue]
    have hpair := addMapping_opened text room none none hentry
    mvcgen [readFlowItems, peek_before, pass, hpair, hnode, hrest, -peek_keeps, -pass_keeps] with
      (have h := ‹Reading.Before text _ _ _›
       first
       | exact h.opened rfl
       | exact h.toOf
       | exact h.drop 1)
  flowEntries room first := by
    have hkey := h.part room false false endsFlowKey
    have hvalue := h.valuePart room false endsFlowValue
    have hnode := h.node room false false
    have hrest := h.flowEntries room false
    mvcgen [readFlowEntries, hkey, hvalue, hnode, hrest]

/-- Whatever their fuel is, they keep to the tokens of a text. -/
theorem readersKeep (fuel : Nat) : ReadersKeep text fuel := by
  induction fuel with
  | zero => exact readersKeep_zero text
  | succ fuel ih => exact ih.succ

/-- So does the reader of a node. -/
@[spec]
theorem readNode_keeps (block flat : Bool) (fuel : Nat) :
    Keeps text room (readNode block flat fuel) :=
  (readersKeep text fuel).node room block flat

/-- So does the one that knows what a node may be left out before. -/
@[spec]
theorem readPart_keeps (block flat : Bool) (ends : Token → Bool) (fuel : Nat) :
    Keeps text room (readPart block flat ends fuel) :=
  (readersKeep text fuel).part room block flat ends

/-! ## Documents -/

/-- The directives before a document are passed one by one. -/
@[spec]
theorem readDirectives_keeps (versioned : Bool) (handles : List (String × String)) (fuel : Nat) :
    Keeps text room (readDirectives versioned handles fuel) := by
  induction fuel generalizing versioned handles with
  | zero => mvcgen [readDirectives]
  | succ fuel ih => mvcgen [readDirectives, ih]

/-- So are the marks after it. -/
@[spec]
theorem passDocumentEnds_keeps (fuel : Nat) : Keeps text room (passDocumentEnds fuel) := by
  induction fuel with
  | zero => mvcgen [passDocumentEnds]
  | succ fuel ih => mvcgen [passDocumentEnds, ih]

/-- A document is a node after its directives. -/
@[spec]
theorem readDocument_keeps (fuel : Nat) : Keeps text room (readDocument fuel) := by
  mvcgen [readDocument] with (have h := ‹Reading.Of text _ _›; exact h.congr rfl rfl)

/-- It does not matter whether what was read is needed. -/
@[spec]
theorem discard_keeps {α : Type} {x : Read α} (h : Keeps text room x) :
    Keeps text room (discard x) :=
  h.discard

variable {text room}

end Graph

end TreeMatch.Yaml
