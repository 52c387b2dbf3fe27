/-!
# Paths

A path leads from the root of a tree to one of its nodes: a list of steps, each the name of a map
key or the index of a sequence element. Two paths concatenate with `++`, one path is above another
when it is an initial segment `<+:` of it. `Path.render` writes a path as its steps with dots
between them, an index in brackets; the text of a path does not always determine it, because a key
may look like an index or contain a dot.
-/

namespace TreeMatch

/-- One step from a node to a child. -/
inductive Step where
  /-- To the entry of a map under a key of this name. -/
  | key (name : String)
  /-- To the element of a sequence at this index. -/
  | index (i : Nat)
deriving DecidableEq, Repr, Inhabited

/-- The steps from the root to a node. -/
abbrev Path := List Step

/-- Which kind of container a step leads into. -/
inductive StepKind where
  /-- Maps. -/
  | map
  /-- Sequences. -/
  | sequence
deriving DecidableEq, Repr

namespace Step

/-- The kind of container that the step leads into. -/
def kind : Step → StepKind
  | .key _ => .map
  | .index _ => .sequence

/-- The text of a step: the name of a key, or an index in brackets. -/
def text : Step → String
  | .key name => name
  | .index i => "[" ++ toString i ++ "]"

/-- The step to an index that may be negative; a negative index is refused and given back. -/
def ofIndex (i : Int) : Except Int Step :=
  if 0 ≤ i then .ok (.index i.toNat) else .error i

end Step

/-- What a step of the kind is called. -/
def StepKind.description : StepKind → String
  | .map => "map key"
  | .sequence => "sequence index"

namespace Path

/-- The path without steps, which leads to the root. -/
def root : Path := []

/-- The text of a path. -/
def render (p : Path) : String := ".".intercalate (p.map Step.text)

/-- The path to a child. -/
def extend (p : Path) (s : Step) : Path := p ++ [s]

end Path

example : Path.render [.key "items", .index 0, .key "name"] = "items.[0].name" := by decide +kernel

end TreeMatch
