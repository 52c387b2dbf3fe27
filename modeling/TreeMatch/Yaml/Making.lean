import TreeMatch.Yaml.Graph.Merge
import TreeMatch.Yaml.Scalar

/-!
# Making values of nodes

The tag of a node says what value it stands for. Scalars are made where they are met. A collection
is met empty, and filled after all collections that were met before it; so the outer ones are filled
first, level by level, and a document with several faults has the one that is met first. In a
mapping, the entries that merge keys bring in come before its own, which win; a repeated key keeps
its place and takes the last value.

A node is made once, however often it occurs. NaN as a key is the same as itself only if it was made
once, or written by the word for it.
-/

namespace TreeMatch.Yaml

/-- The kinds of collections. -/
inductive Collection where
  /-- A map. -/
  | map
  /-- The keys of a map. -/
  | set
  /-- A list. -/
  | list
  /-- A list of pairs, each written as a mapping of one entry. -/
  | pairs
deriving DecidableEq, Repr

/-- The kind of collection that a tag names. -/
def Collection.ofTag? (tag : String) : Option Collection :=
  ([("map", .map), ("set", .set), ("seq", .list), ("omap", .pairs), ("pairs", .pairs)].map
    fun e : String × Collection => (coreTag e.1, e.2)).lookup tag

/-- Where a scalar comes from: a node, or the word for NaN. -/
inductive Source where
  /-- The node at a place. -/
  | node (i : Nat)
  /-- The word for NaN. -/
  | nanWord
deriving DecidableEq, Repr

/-- A scalar that was made, with its source. -/
structure SourcedScalar where
  /-- The scalar. -/
  value : TreeMatch.Scalar
  /-- Where it comes from. -/
  source : Source
deriving DecidableEq, Repr

/-- Whether two scalars are one key: they are equal, or come from one source. -/
def SourcedScalar.same (a b : SourcedScalar) : Bool := a.value.same b.value || a.source == b.source

/-- What was made of a node; other nodes go by their places. -/
inductive Part where
  /-- A scalar. -/
  | scalar (s : SourcedScalar)
  /-- A collection that is not filled yet. -/
  | empty (kind : Collection)
  /-- A list. -/
  | list (items : List Nat)
  /-- A list of pairs. -/
  | pairs (items : List (Nat × Nat))
  /-- A map. -/
  | map (entries : List (SourcedScalar × Nat))
  /-- A set. -/
  | set (keys : List SourcedScalar)

/-- A document that is being made. -/
structure Making where
  /-- The nodes. -/
  graph : Graph
  /-- The number of merge keys at first. -/
  mergeCount : Nat
  /-- What there is room for. -/
  room : Room
  /-- What was made of each node so far. -/
  parts : Array (Option Part)
  /-- The collections that were met and are not filled yet, last one first. -/
  unfilled : List Nat

/-- Work on a document, which may fail. -/
abbrev Make := StateT Making (Except Fault)

namespace Make

/-- No value can be made of the document. -/
def fail {α : Type} : Make α := throw .malformed

/-- Notes what was made of the node at a place. -/
def note (i : Nat) (p : Part) : Make Unit :=
  modify fun m => { m with parts := m.parts.setIfInBounds i (some p) }

/-- Makes the scalar at a place. A point in time has to be a scalar itself, while other kinds accept
a mapping with the key `=`. -/
def scalar (i : Nat) : Make SourcedScalar := do
  let m ← get
  let g := m.graph
  match Scalar.reader? (g.tag i) with
  | none => fail
  | some read =>
    match g.text? m.room.texts i with
    | .error f => throw f
    | .ok none => fail
    | .ok (some text) =>
      if g.tag i == coreTag "timestamp" && g.isMapping i then throw .notText
      match read text with
      | .error f => throw f
      | .ok value =>
        let isWord := value == .float .nan && Scalar.isNanWord text
        return ⟨value, if isWord then .nanWord else .node i⟩

/-- Meets the node at a place: what was made of it, or is made of it now. -/
def meet (i : Nat) : Make Part := do
  let m ← get
  match m.parts.getD i none with
  | some p => return p
  | none =>
    let p ← match Collection.ofTag? (m.graph.tag i) with
      | some kind =>
        modify fun m => { m with unfilled := i :: m.unfilled }
        pure (.empty kind)
      | none => pure (.scalar (← scalar i))
    note i p
    return p

/-- Adds an entry to a map; only scalars are keys. -/
def addEntry (es : List (SourcedScalar × Nat)) (e : Nat × Nat) :
    Make (List (SourcedScalar × Nat)) := do
  match ← meet e.1 with
  | .scalar k =>
    discard (meet e.2)
    return Assoc.set SourcedScalar.same k e.2 es
  | _ => fail

/-- Merges the mapping at a place and makes the entries of a map of it. -/
def mapEntries (i : Nat) : Make (List (SourcedScalar × Nat)) := do
  let m ← get
  match m.graph.merge m.mergeCount m.room.merges i with
  | .error f => throw f
  | .ok graph =>
    set { m with graph }
    (graph.entries i).foldlM addEntry []

/-- The places of the elements of a sequence. -/
def sequenceItems (i : Nat) : Make (List Nat) := do
  match ((← get).graph.node i).content with
  | .sequence items => return items
  | _ => fail

/-- Makes the pair that is written as a mapping of one entry. -/
def pair (i : Nat) : Make (Nat × Nat) := do
  match ((← get).graph.node i).content with
  | .mapping [e] =>
    discard (meet e.1)
    discard (meet e.2)
    return e
  | _ => fail

/-- Fills the collection at a place. -/
def fill (i : Nat) : Make Unit := do
  match (← get).parts.getD i none with
  | some (.empty .map) => note i (.map (← mapEntries i))
  | some (.empty .set) => note i (.set ((← mapEntries i).map (·.1)))
  | some (.empty .list) =>
    let items ← sequenceItems i
    items.forM (discard <| meet ·)
    note i (.list items)
  | some (.empty .pairs) => note i (.pairs (← (← sequenceItems i).mapM pair))
  | _ => return

/-- Fills all collections, level by level. Every level but the last one has a collection that was
not met before, which bounds the fuel. -/
def fillAll : Nat → Make Unit
  | 0 => fail
  | fuel + 1 => do
    let level := (← get).unfilled.reverse
    if level.isEmpty then return
    modify ({ · with unfilled := [] })
    level.forM fill
    fillAll fuel

end Make

end TreeMatch.Yaml
