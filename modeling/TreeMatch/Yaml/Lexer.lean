import TreeMatch.Yaml.BlockText
import TreeMatch.Yaml.FlowText
import TreeMatch.Yaml.PlainText
import TreeMatch.Yaml.Property

/-!
# From text to tokens

The lexer turns a text into tokens. Outside of brackets, indentation opens and closes blocks. A
scalar may turn out to be a key only when a colon follows it, on the same line and within 1024
characters; so the places where a key may have begun are remembered, one for each level of brackets,
and the colon inserts the mark of the key, and if need be that of a block mapping, there. A token is
final once nothing can be inserted before it any more; a fault hides the tokens that are not.
-/

namespace TreeMatch.Yaml

/-- A place where a key may have begun. -/
structure PossibleKey where
  /-- The number of tokens before it. -/
  position : Nat
  /-- Whether a key has to begin here, because of the indentation. -/
  required : Bool
  /-- The number of characters before it. -/
  index : Nat
  /-- Its line. -/
  line : Nat
  /-- Its column. -/
  column : Nat

/-- The state of the lexer. -/
structure Lexer where
  /-- Where the lexer stands. -/
  cursor : Cursor
  /-- The number of brackets that are open. -/
  depth : Nat
  /-- The column of the innermost block; -1 outside of all of them. -/
  indent : Int
  /-- The columns of the blocks around it, innermost first. -/
  outer : List Int
  /-- Whether a key may begin here. -/
  keyAllowed : Bool
  /-- Where keys may have begun, by level of brackets. -/
  possibleKeys : List (Nat × PossibleKey)
  /-- The tokens so far. -/
  tokens : Array Token

/-- The lexer before a text. -/
def Lexer.start (cs : List Char) : Lexer := ⟨.start cs, 0, -1, [], true, [], #[]⟩

/-- Whether a place is on another line than the lexer, or more than 1024 characters back. -/
def Lexer.isStale (l : Lexer) (k : PossibleKey) : Bool :=
  k.line != l.cursor.line || 1024 < l.cursor.index - k.index

/-- The number of tokens that are final. One in front of which a key may still turn out to begin is
not, nor are those after it. -/
def Lexer.finalCount (l : Lexer) : Nat :=
  ((l.possibleKeys.map (·.2)).filter (!l.isStale ·)).foldl (fun n k => min n k.position)
    l.tokens.size

/-- Work of the lexer, which may fail. What it did before a fault is kept. -/
abbrev Lex := ExceptT Fault (StateM Lexer)

namespace Lex

/-- The text is no document. -/
def fail {α : Type} : Lex α := throw .malformed

/-- Runs a scanner where the lexer stands. -/
def scan {α : Type} (s : Scan α) : Lex α := do
  match s.run (← get).cursor with
  | .ok (a, cursor) =>
    modify ({ · with cursor })
    return a
  | .error fault => throw fault

/-- Adds a token. -/
def push (t : Token) : Lex Unit := modify fun l => { l with tokens := l.tokens.push t }

/-- Passes some characters and adds a token for them. -/
def pushPassing (n : Nat) (t : Token) : Lex Unit := do
  modify fun l => { l with cursor := l.cursor.skip n }
  push t

/-- Says whether a key may begin at the next token. -/
def allowKey (allowed : Bool) : Lex Unit := modify ({ · with keyAllowed := allowed })

/-- Whether the lexer stands within brackets. -/
def inFlow : Lex Bool := return (← get).depth != 0

/-- The possible key at this level of brackets. -/
def possibleKey? : Lex (Option PossibleKey) := return (← get).possibleKeys.lookup (← get).depth

/-- Forgets the possible key at this level of brackets; a required one must not be forgotten. -/
def forgetKey : Lex Unit := do
  if (← possibleKey?).any (·.required) then fail
  modify fun l => { l with possibleKeys := l.possibleKeys.filter (·.1 != l.depth) }

/-- Remembers that a key may begin here. -/
def rememberKey : Lex Unit := do
  if (← get).keyAllowed then
    forgetKey
    modify fun l =>
      let required := l.depth == 0 && l.indent == l.cursor.column
      let key := ⟨l.tokens.size, required, l.cursor.index, l.cursor.line, l.cursor.column⟩
      { l with possibleKeys := (l.depth, key) :: l.possibleKeys }

/-- Forgets the possible keys on other lines and more than 1024 characters back. -/
def forgetStaleKeys : Lex Unit := do
  let l ← get
  if l.possibleKeys.any fun e => l.isStale e.2 && e.2.required then fail
  set { l with possibleKeys := l.possibleKeys.filter fun e => !l.isStale e.2 }

/-- The blocks that end where the indentation returns to a column: the columns that remain,
innermost first, and the number of blocks that end. -/
def unwound (column : Int) (indent : Int) : List Int → Int × List Int × Nat
  | [] => (indent, [], 0)
  | next :: outer =>
    if column < indent then
      let (indent, outer, n) := unwound column next outer
      (indent, outer, n + 1)
    else (indent, next :: outer, 0)

/-- Closes the blocks that are indented more than a column. -/
def unwindTo (column : Int) : Lex Unit := do
  if !(← inFlow) then
    modify fun l =>
      let (indent, outer, n) := unwound column l.indent l.outer
      { l with
        indent, outer
        tokens := l.tokens ++ Array.replicate n Token.blockEnd }

/-- Opens a block at a column if it is indented more than the innermost one, and says whether it
did. -/
def openBlock (column : Nat) : Lex Bool := do
  let l ← get
  if l.indent < column then
    set { l with indent := (column : Int), outer := l.indent :: l.outer }
    return true
  else return false

/-- Passes spaces, comments and line breaks up to the next token. Outside of brackets a key may
begin after a line break. -/
def skipToToken : Nat → Lex Unit
  | 0 => return
  | fuel + 1 => do
    if (← get).cursor.index == 0 && (← get).cursor.peek 0 == '\uFEFF' then scan (Scan.skip 1)
    scan Scan.skipSpaces
    if (← get).cursor.peek 0 == '#' then discard (scan (Scan.takeWhile (!isBreakOrEnd ·)))
    let found ← scan Scan.lineBreak
    if !found.isEmpty then
      if !(← inFlow) then allowKey true
      skipToToken fuel

/-- Ends all blocks before a token that stands between documents. -/
def leaveDocument : Lex Unit := do
  unwindTo (-1)
  forgetKey
  allowKey false

/-- Begins a collection in brackets. -/
def openFlow (t : Token) : Lex Unit := do
  rememberKey
  modify fun l => { l with depth := l.depth + 1 }
  allowKey true
  pushPassing 1 t

/-- Ends a collection in brackets. -/
def closeFlow (t : Token) : Lex Unit := do
  forgetKey
  if !(← inFlow) then fail
  modify fun l => { l with depth := l.depth - 1 }
  allowKey false
  pushPassing 1 t

/-- A comma. -/
def flowEntry : Lex Unit := do
  allowKey true
  forgetKey
  pushPassing 1 .flowEntry

/-- Opens a block for a mark that stands here, outside of brackets, where a key could begin. -/
def openBlockHere (start : Token) : Lex Unit := do
  if !(← inFlow) then
    if !(← get).keyAllowed then fail
    if ← openBlock (← get).cursor.column then push start

/-- A hyphen before an element. -/
def blockEntry : Lex Unit := do
  openBlockHere .blockSequenceStart
  allowKey true
  forgetKey
  pushPassing 1 .blockEntry

/-- A question mark before a key. -/
def explicitKey : Lex Unit := do
  openBlockHere .blockMappingStart
  allowKey !(← inFlow)
  forgetKey
  pushPassing 1 .key

/-- Inserts a token before a position. -/
def insertAt (position : Nat) (t : Token) : Lex Unit :=
  modify fun l => { l with tokens := l.tokens.insertIdxIfInBounds position t }

/-- A colon. If a key may have begun at this level, it did; otherwise the colon stands for an empty
key as well. -/
def value : Lex Unit := do
  match ← possibleKey? with
  | some k =>
    modify fun l => { l with possibleKeys := l.possibleKeys.filter (·.1 != l.depth) }
    insertAt k.position .key
    if !(← inFlow) then
      if ← openBlock k.column then insertAt k.position .blockMappingStart
    allowKey false
  | none =>
    openBlockHere .blockMappingStart
    allowKey !(← inFlow)
    forgetKey
  pushPassing 1 .value

/-- A token in front of which a key may begin. -/
def keyed (t : Lex Token) : Lex Unit := do
  rememberKey
  allowKey false
  push (← t)

/-- A block scalar. -/
def blockScalar : Lex Unit := do
  allowKey true
  forgetKey
  push (.scalar (← scan (Scan.blockText (← get).indent)) false)

/-- A plain scalar. A key may begin after it if it ended at a line break. -/
def plainScalar : Lex Unit := do
  rememberKey
  allowKey false
  let (text, broke) ← scan (Scan.plainText (← inFlow) ((← get).indent + 1))
  if broke then allowKey true
  push (.scalar text true)

/-- Whether a plain scalar begins here. -/
def beginsPlain (inFlow : Bool) (c : Cursor) : Bool :=
  let x := c.peek 0
  !(isBlankOrEnd x || isOneOf "-?:,[]\x7b\x7d#&*!|>'\"%@\x60" x) ||
    (!isBlankOrEnd (c.peek 1) && (x == '-' || (!inFlow && isOneOf "?:" x)))

/-- The next token, after the space before it; says whether the text is over. -/
def step : Lex Bool := do
  skipToToken ((← get).cursor.left + 1)
  forgetStaleKeys
  let cursor := (← get).cursor
  unwindTo cursor.column
  let inFlow ← inFlow
  let next := cursor.peek 1
  let atLineStart := cursor.column == 0
  match cursor.peek 0 with
  | '\x00' =>
    unwindTo (-1)
    forgetKey
    push .streamEnd
    return true
  | '[' => openFlow .flowSequenceStart
  | '{' => openFlow .flowMappingStart
  | ']' => closeFlow .flowSequenceEnd
  | '}' => closeFlow .flowMappingEnd
  | ',' => flowEntry
  | '*' => keyed (return .alias (← scan Scan.anchorName))
  | '&' => keyed (return .anchor (← scan Scan.anchorName))
  | '!' => keyed (return .tag (← scan Scan.tag))
  | '\'' | '"' => keyed (return .scalar (← scan Scan.flowText) false)
  | c =>
    if c == '%' && atLineStart then
      leaveDocument
      push (.directive (← scan Scan.directive))
    else if c == '-' && atLineStart && cursor.atSeparator then
      leaveDocument
      pushPassing 3 .documentStart
    else if c == '.' && atLineStart && cursor.atSeparator then
      leaveDocument
      pushPassing 3 .documentEnd
    else if c == '-' && isBlankOrEnd next then blockEntry
    else if c == '?' && (inFlow || isBlankOrEnd next) then explicitKey
    else if c == ':' && (inFlow || isBlankOrEnd next) then value
    else if (c == '|' || c == '>') && !inFlow then blockScalar
    else if beginsPlain inFlow cursor then plainScalar
    else fail
  return false

end Lex

/-- The tokens of a text, from where a lexer stands. Every step but the last one passes a character.
At a fault the tokens are kept that were final before, and the last token says what it is. -/
def Lexer.toEnd : Nat → Lexer → List Token
  | 0, l => l.tokens.toList ++ [.fault .malformed]
  | fuel + 1, l =>
    let count := l.finalCount
    match (ExceptT.run Lex.step).run l with
    | (.ok true, l) => l.tokens.toList
    | (.ok false, l) => l.toEnd fuel
    | (.error f, l) => l.tokens.toList.take count ++ [.fault f]

/-- The tokens of a text. Where the text stops being a document, the last token says so. -/
def Token.scan (cs : List Char) : List Token :=
  if cs.all isDocumentChar then (Lexer.start cs).toEnd (cs.length + 2) else [.fault .malformed]

end TreeMatch.Yaml
