import TreeMatch.Yaml.Fault
import TreeMatch.Yaml.Tag

/-!
# Node graphs

A document as a graph of tagged nodes. A node goes by its place in the graph, so a reference to an
anchor is the very node that the anchor names: what happens to a node is seen wherever it occurs,
and a node may occur within itself.
-/

namespace TreeMatch.Yaml

/-- What a node holds; other nodes go by their places. -/
inductive Content where
  /-- A text. -/
  | scalar (text : String)
  /-- The elements of a sequence. -/
  | sequence (items : List Nat)
  /-- The keys and values of a mapping, in order. -/
  | mapping (entries : List (Nat × Nat))
deriving DecidableEq, Repr

/-- A node. -/
structure Node where
  /-- What kind of value the node stands for. -/
  tag : String
  /-- What the node holds. -/
  content : Content
deriving DecidableEq, Repr

/-- The scalar that stands for something left out. -/
def Node.omitted : Node := ⟨coreTag "null", .scalar ""⟩

/-- The nodes of a document. -/
structure Graph where
  /-- The nodes; each goes by its place. -/
  nodes : Array Node
  /-- The node that holds all the others. -/
  root : Nat
deriving DecidableEq, Repr

namespace Graph

/-- The node at a place. -/
def node (g : Graph) (i : Nat) : Node := g.nodes.getD i .omitted

/-- The tag of the node at a place. -/
def tag (g : Graph) (i : Nat) : String := (g.node i).tag

/-- The keys and values at a place, none if there is no mapping. -/
def entries (g : Graph) (i : Nat) : List (Nat × Nat) :=
  match (g.node i).content with
  | .mapping es => es
  | _ => []

/-- Whether there is a mapping at a place. -/
def isMapping (g : Graph) (i : Nat) : Bool :=
  match (g.node i).content with
  | .mapping _ => true
  | _ => false

/-- The graph with other contents at a place. -/
def setContent (g : Graph) (i : Nat) (content : Content) : Graph :=
  { g with nodes := g.nodes.modify i ({ · with content }) }

/-- The graph with another tag at a place. -/
def setTag (g : Graph) (i : Nat) (tag : String) : Graph :=
  { g with nodes := g.nodes.modify i ({ · with tag }) }

/-- Whether a key is the scalar `=`, which stands for the value of a whole mapping. -/
def isValueKey (g : Graph) (i : Nat) : Bool := g.tag i == coreTag "value"

/-- The text at a place where a scalar is needed, if there is one. A mapping stands for the value
under its first key `=`, which may be such a mapping again, or this one; there is room for some of
them one after the other. -/
def text? (g : Graph) (room i : Nat) : Except Fault (Option String) :=
  match (g.node i).content with
  | .scalar text => .ok (some text)
  | .sequence _ => .ok none
  | .mapping es =>
    match es.find? fun e => g.isValueKey e.1, room with
    | none, _ => .ok none
    | some _, 0 => .error .tooDeep
    | some e, room + 1 => g.text? room e.2
termination_by structural room

end Graph

end TreeMatch.Yaml
