import TreeMatch.Yaml.Graph.Basic
import TreeMatch.Yaml.Lexer

/-!
# Reading node graphs

`Graph.read` builds the graph of a text from its tokens by descending along the grammar: every
function reads one production, leaves the tokens after it and gives the place of its node. An anchor
names a node from where it begins, so it may be referred to within the node. An anchor is defined
once, and before it is referred to. A text holds one document at most.

A collection is read one level deeper than it stands, and there is only so much room for levels
within one another. Besides, the functions count down a fuel; at least every second call takes a
token.
-/

namespace TreeMatch.Yaml.Graph

/-- What is left of the tokens, and what is known about the document. -/
structure Reading where
  /-- The tokens that are left. -/
  tokens : List Token
  /-- What the tag handles stand for. -/
  handles : List (String × String)
  /-- The places of the nodes that anchors name. -/
  anchors : List (String × Nat)
  /-- The nodes so far. -/
  nodes : Array Node
  /-- The room for collections within the present one. -/
  room : Nat

/-- Work on tokens, which may fail. -/
abbrev Read := StateT Reading (Except Fault)

/-- The tokens are no document. -/
def fail {α : Type} : Read α := throw .malformed

/-- The next token. -/
def peek : Read Token := do
  match (← get).tokens with
  | .fault f :: _ => throw f
  | t :: _ => return t
  | [] => fail

/-- Passes a token. -/
def pass : Read Unit := modify fun r => { r with tokens := r.tokens.drop 1 }

/-- Whether the next token is of some kind. -/
def at? (p : Token → Bool) : Read Bool := return p (← peek)

/-- The whole tag that a tag text stands for. -/
def fullTag (t : TagText) : Read String := do
  match t.handle with
  | none => return t.suffix
  | some handle =>
    match (← get).handles.lookup handle with
    | some stem => return stem ++ t.suffix
    | none => fail

/-- The tag and the anchor before a node, in either order. -/
def properties : Read (Option String × Option String) := do
  match ← peek with
  | .anchor name =>
    pass
    match ← peek with
    | .tag t =>
      pass
      return (some (← fullTag t), some name)
    | _ => return (none, some name)
  | .tag t =>
    pass
    match ← peek with
    | .anchor name =>
      pass
      return (some (← fullTag t), some name)
    | _ => return (some (← fullTag t), none)
  | _ => return (none, none)

/-- The tag of a collection, given what is written before it. -/
def collectionTag (kind : String) : Option String → String
  | none | some "!" => coreTag kind
  | some t => t

/-- The tag of a scalar, given what is written before it. -/
def scalarTag (text : String) (plain : Bool) : Option String → String
  | none => if plain then Scalar.plainTag text else coreTag "str"
  | some "!" => Scalar.plainTag text
  | some t => t

/-- Fails if an anchor names a node already. -/
def checkNew (anchor : Option String) : Read Unit := do
  if let some name := anchor then
    if ((← get).anchors.lookup name).isSome then fail

/-- Adds a node, which an anchor may name. -/
def add (anchor : Option String) (n : Node) : Read Nat := do
  let i := (← get).nodes.size
  modify fun r => { r with
    nodes := r.nodes.push n
    anchors := (anchor.map (·, i)).toList ++ r.anchors }
  return i

/-- Reads one level deeper, if there is room for it. -/
def deeper {α : Type} (read : Read α) : Read α := do
  match (← get).room with
  | 0 => throw .tooDeep
  | room + 1 =>
    modify ({ · with room })
    let a ← read
    modify fun r => { r with room := r.room + 1 }
    return a

/-- Adds a sequence whose elements are read after it. -/
def addSequence (tag anchor : Option String) (items : Read (List Nat)) : Read Nat := do
  let i ← add anchor ⟨collectionTag "seq" tag, .sequence []⟩
  let found ← deeper items
  modify fun r => { r with nodes := r.nodes.modify i ({ · with content := .sequence found }) }
  return i

/-- Adds a mapping whose entries are read after it. -/
def addMapping (tag anchor : Option String) (entries : Read (List (Nat × Nat))) : Read Nat := do
  let i ← add anchor ⟨collectionTag "map" tag, .mapping []⟩
  let found ← deeper entries
  modify fun r => { r with nodes := r.nodes.modify i ({ · with content := .mapping found }) }
  return i

/-- Adds a scalar. -/
def addScalar (tag anchor : Option String) (text : String) (plain : Bool) : Read Nat :=
  add anchor ⟨scalarTag text plain tag, .scalar text⟩

/-- Adds what stands for something left out. -/
def addOmitted : Read Nat := add none .omitted

/-- Adds a node that is left out after its tag or anchor. -/
def addBare (tag anchor : Option String) : Read Nat :=
  if tag.isNone && anchor.isNone then fail else addScalar tag anchor "" true

/-- The node that an anchor names. -/
def resolve (name : String) : Read Nat := do
  match (← get).anchors.lookup name with
  | some i => return i
  | none => fail

/-- Tokens before which an element of a block sequence is left out. -/
def endsBlockItem : Token → Bool
  | .blockEntry | .blockEnd => true
  | _ => false

/-- Tokens before which a key or a value of a block mapping is left out. -/
def endsBlockPart : Token → Bool
  | .key | .value | .blockEnd => true
  | _ => false

/-- Tokens before which an element of a sequence that is not indented is left out. -/
def endsFlatItem (t : Token) : Bool := endsBlockItem t || endsBlockPart t

/-- Tokens before which a key in brackets is left out. -/
def endsFlowKey : Token → Bool
  | .value | .flowEntry | .flowSequenceEnd | .flowMappingEnd => true
  | _ => false

/-- Tokens before which a value in brackets is left out. -/
def endsFlowValue : Token → Bool
  | .flowEntry | .flowSequenceEnd | .flowMappingEnd => true
  | _ => false

/-- Whether a token is a hyphen before an element. -/
def isBlockEntry : Token → Bool
  | .blockEntry => true
  | _ => false

/-- Whether a token is a colon before a value. -/
def isValue : Token → Bool
  | .value => true
  | _ => false

/-- Passes the comma before every element in brackets but the first. -/
def passComma (first : Bool) : Read Unit := do
  if !first then
    match ← peek with
    | .flowEntry => pass
    | _ => fail

mutual

/-- A node. In a block there may be indented collections, after a key also a sequence that is not
indented. -/
def readNode (block flat : Bool) : Nat → Read Nat
  | 0 => fail
  | fuel + 1 => do
    if let .alias name ← peek then
      pass
      return ← resolve name
    let (tag, anchor) ← properties
    let next ← peek
    checkNew anchor
    if flat && isBlockEntry next then
      pass
      return ← addSequence tag anchor (readFlatItems fuel)
    match next with
    | .scalar text plain =>
      pass
      addScalar tag anchor text plain
    | .flowSequenceStart =>
      pass
      addSequence tag anchor (readFlowItems true fuel)
    | .flowMappingStart =>
      pass
      addMapping tag anchor (readFlowEntries true fuel)
    | .blockSequenceStart =>
      if !block then addBare tag anchor
      else
        pass
        addSequence tag anchor (readBlockItems fuel)
    | .blockMappingStart =>
      if !block then addBare tag anchor
      else
        pass
        addMapping tag anchor (readBlockEntries fuel)
    | _ => addBare tag anchor

/-- A node, unless the next token shows that it is left out. -/
def readPart (block flat : Bool) (ends : Token → Bool) : Nat → Read Nat
  | 0 => fail
  | fuel + 1 => do
    if ← at? ends then return ← addOmitted
    readNode block flat fuel

/-- A value after its colon, or nothing. -/
def readValuePart (block : Bool) (ends : Token → Bool) : Nat → Read Nat
  | 0 => fail
  | fuel + 1 => do
    if !(← at? isValue) then return ← addOmitted
    pass
    readPart block block ends fuel

/-- The elements of a block sequence. -/
def readBlockItems : Nat → Read (List Nat)
  | 0 => fail
  | fuel + 1 => do
    match ← peek with
    | .blockEntry =>
      pass
      let item ← readPart true false endsBlockItem fuel
      return item :: (← readBlockItems fuel)
    | .blockEnd =>
      pass
      return []
    | _ => fail

/-- The elements of a sequence that is indented no more than the key before it. The first hyphen was
passed. -/
def readFlatItems : Nat → Read (List Nat)
  | 0 => fail
  | fuel + 1 => do
    let item ← readPart true false endsFlatItem fuel
    match ← peek with
    | .blockEntry =>
      pass
      return item :: (← readFlatItems fuel)
    | _ => return [item]

/-- The entries of a block mapping. -/
def readBlockEntries : Nat → Read (List (Nat × Nat))
  | 0 => fail
  | fuel + 1 => do
    match ← peek with
    | .key =>
      pass
      let k ← readPart true true endsBlockPart fuel
      let v ← readValuePart true endsBlockPart fuel
      return (k, v) :: (← readBlockEntries fuel)
    | .blockEnd =>
      pass
      return []
    | _ => fail

/-- The elements of a sequence in brackets. An element with a colon is a mapping of one entry. -/
def readFlowItems (first : Bool) : Nat → Read (List Nat)
  | 0 => fail
  | fuel + 1 => do
    if let .flowSequenceEnd ← peek then
      pass
      return []
    passComma first
    match ← peek with
    | .key =>
      pass
      let i ← addMapping none none do
        let k ← readPart false false endsFlowKey fuel
        return [(k, ← readValuePart false endsFlowValue fuel)]
      return i :: (← readFlowItems false fuel)
    | .flowSequenceEnd =>
      pass
      return []
    | _ =>
      let item ← readNode false false fuel
      return item :: (← readFlowItems false fuel)

/-- The entries of a mapping in braces. An entry without a colon has no value. -/
def readFlowEntries (first : Bool) : Nat → Read (List (Nat × Nat))
  | 0 => fail
  | fuel + 1 => do
    if let .flowMappingEnd ← peek then
      pass
      return []
    passComma first
    match ← peek with
    | .key =>
      pass
      let k ← readPart false false endsFlowKey fuel
      let v ← readValuePart false endsFlowValue fuel
      return (k, v) :: (← readFlowEntries false fuel)
    | .flowMappingEnd =>
      pass
      return []
    | _ =>
      let k ← readNode false false fuel
      return (k, ← addOmitted) :: (← readFlowEntries false fuel)

end

/-- The handles that need no directive. -/
def usualHandles : List (String × String) := [("!", "!"), ("!!", coreTag "")]

/-- The directives before a document: at most one version, which must be 1, and each handle once. -/
def readDirectives (versioned : Bool) (handles : List (String × String)) :
    Nat → Read (List (String × String))
  | 0 => fail
  | fuel + 1 => do
    match ← peek with
    | .directive d =>
      pass
      match d with
      | .version major _ =>
        if versioned || major != 1 then fail
        readDirectives true handles fuel
      | .tag handle stem =>
        if (handles.lookup handle).isSome then fail
        readDirectives versioned ((handle, stem) :: handles) fuel
      | .other => readDirectives versioned handles fuel
    | _ => return handles

/-- Passes the marks after a document. -/
def passDocumentEnds : Nat → Read Unit
  | 0 => fail
  | fuel + 1 => do
    if let .documentEnd ← peek then
      pass
      passDocumentEnds fuel

/-- Whether a token stands between documents. -/
def isBetweenDocuments : Token → Bool
  | .directive _ | .documentStart | .documentEnd | .streamEnd => true
  | _ => false

/-- The document of a text, if it has one. -/
def readDocument (fuel : Nat) : Read (Option Nat) := do
  match ← peek with
  | .streamEnd => return none
  | .directive _ | .documentStart =>
    let handles ← readDirectives false [] fuel
    modify fun r => { r with handles := handles ++ usualHandles }
    match ← peek with
    | .documentStart => pass
    | _ => fail
    return some (← readPart true false isBetweenDocuments fuel)
  | _ => return some (← readNode true false fuel)

/-- The document of a text, after which nothing may follow. -/
def readStream (fuel : Nat) : Read (Option Graph) := do
  let root ← readDocument fuel
  passDocumentEnds fuel
  match ← peek with
  | .streamEnd =>
    let nodes := (← get).nodes
    return root.map fun i => ⟨nodes, i⟩
  | _ =>
    discard (readDirectives false [] fuel)
    fail

/-- The graph that tokens write, if there is a document, with room for some collections within one
another. -/
def ofTokens (room : Nat) (tokens : List Token) : Except Fault (Option Graph) :=
  (readStream (4 * tokens.length + 8)).run' ⟨tokens, usualHandles, [], #[], room⟩

/-- Reads the graph of a text, if there is a document. -/
def read (room : Nat) (cs : List Char) : Except Fault (Option Graph) :=
  ofTokens room (Token.scan cs)

end TreeMatch.Yaml.Graph
