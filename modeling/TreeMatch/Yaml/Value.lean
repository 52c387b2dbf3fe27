import TreeMatch.Tree.Endless
import TreeMatch.Tree.Lookup
import TreeMatch.Tree.SetOrder
import TreeMatch.Tree.Walk
import TreeMatch.Yaml.Graph.Reader
import TreeMatch.Yaml.Making

/-!
# Values of documents

`Yaml.read` turns a text into a value. The value of a node is put together from what was made of it
and of the nodes within it. A value is a tree, so a node that occurs in several places is copied to
each of them. A container that holds itself has no finite tree; it is cut by a mark where it would
come again. `Yaml.readAlong` gives the same value for a document without such containers, and
otherwise one in which all paths of another tree can be followed before anything is cut.
-/

namespace TreeMatch.Yaml

namespace SourcedScalar

/-- The scalar as a key. -/
def toKey (s : SourcedScalar) : Key := .scalar s.value

/-- The scalar as a member of a set. -/
def toMember (s : SourcedScalar) : Member :=
  if s.source == .nanWord then .nan else .scalar s.value

end SourcedScalar

/-- What has a value of its own. -/
inductive Origin where
  /-- The node at a place. -/
  | node (i : Nat)
  /-- A pair of the list of pairs at a place, by its index. -/
  | pair (i n : Nat)
deriving DecidableEq, Repr

/-- A value, with origins instead of the values within it. -/
inductive Layer where
  /-- A leaf. -/
  | leaf (t : DocumentTree)
  /-- A list. -/
  | list (items : List Origin)
  /-- A tuple. -/
  | tuple (items : List Origin)
  /-- A map. -/
  | map (entries : List (Key × Origin))

namespace Making

/-- The value of an origin down to the values within it. -/
def layer (m : Making) : Origin → Layer
  | .pair i n =>
    match m.parts.getD i none with
    | some (.pairs items) =>
      .tuple ((items[n]?.map fun e => [.node e.1, .node e.2]).getD [])
    | _ => .leaf .null
  | .node i =>
    match m.parts.getD i none with
    | none | some (.empty _) => .leaf .null
    | some (.scalar s) => .leaf (.scalar s.value)
    | some (.set keys) => .leaf (.set (Member.arrange (keys.map (·.toMember))))
    | some (.list items) => .list (items.map .node)
    | some (.pairs items) => .list ((List.range items.length).map (.pair i))
    | some (.map es) => .map (es.map fun e => (e.1.toKey, .node e.2))

/-- The value of an origin, cut where one of the origins around it would come again. No origin is
within itself, which bounds the fuel. -/
def valueWithin (m : Making) : Nat → List Origin → Origin → DocumentTree
  | 0, _, _ => .null
  | fuel + 1, outer, origin =>
    let inner := m.valueWithin fuel (origin :: outer)
    match m.layer origin, outer.contains origin with
    | .leaf t, _ => t
    | .list items, false => .list (items.map inner)
    | .list _, true => .check .list
    | .tuple items, false => .tuple (items.map inner)
    | .tuple _, true => .check .tuple
    | .map es, false => .map (es.map fun e => (e.1, inner e.2))
    | .map _, true => .check .map

/-- The value of an origin within others. A pair stands in a list, so that there are no more than
two origins for a node on a path. -/
def value (m : Making) (outer : List Origin) (origin : Origin) : DocumentTree :=
  m.valueWithin (2 * m.graph.nodes.size + 2) outer origin

/-- The value of an origin, cut nowhere on a path of `shape`, whose longest path bounds the fuel. -/
def valueAlong (m : Making) : Nat → DocumentTree → Origin → DocumentTree
  | 0, _, origin => m.value [] origin
  | fuel + 1, shape, origin =>
    let inner (step : Step) (part : Origin) : DocumentTree :=
      match shape.child? step with
      | some shape => m.valueAlong fuel shape part
      | none => m.value [origin] part
    match m.layer origin with
    | .leaf t => t
    | .list items => .list (items.mapIdx fun n => inner (.index n))
    | .tuple items => .tuple (items.mapIdx fun n => inner (.index n))
    | .map es => .map (es.map fun e => (e.1, inner (.key e.1.text) e.2))

end Making

/-- The value of a document, cut nowhere on a path of `shape`. -/
def Graph.toValue (g : Graph) (room : Room) (shape : DocumentTree) : Except Fault DocumentTree := do
  let make : Make Unit := do
    discard (Make.meet g.root)
    Make.fillAll (g.nodes.size + 2)
  let (_, made) ← make.run ⟨g, g.mergeCount, room, Array.replicate g.nodes.size none, []⟩
  return made.valueAlong shape.depth shape (.node g.root)

/-- Reads a text as a value that is cut nowhere on a path of `shape`; a text without a document is
the absent value. -/
def readAlong (room : Room) (shape : DocumentTree) (cs : List Char) :
    Except Fault DocumentTree := do
  match ← Graph.read room.collections cs with
  | none => return .null
  | some g => g.toValue room shape

/-- Reads a text as a value; a text without a document is the absent value. -/
def read (room : Room) (cs : List Char) : Except Fault DocumentTree := readAlong room .null cs

end TreeMatch.Yaml
