import TreeMatch.Path.Basic
import TreeMatch.Tree.Writable

/-!
# Walking a tree

`Tree.visit` reports every leaf of a tree to an observer exactly once, from left to right, with the
path that leads to it. Maps and sequences with contents are descended into and not reported;
scalars, sets, checks and empty containers are leaves. The observer acts in any monad, so that it
may stop the walk; the walk itself fails before the first key that is not written. `Tree.leaves` is
the list of all leaves, and what a walk reports if all keys can be written.
-/

namespace TreeMatch

/-- A leaf as a walk reports it. -/
structure Leaf (α : Type u) where
  /-- The path to the leaf. -/
  path : Path
  /-- The leaf itself. -/
  node : Tree α

/-- The shape of the leaf. -/
def Leaf.kind {α : Type u} (l : Leaf α) : Kind := l.node.kind

namespace Tree

variable {α : Type u}

section Visit

variable {m : Type → Type v} [Monad m] (observe : Leaf α → m Unit)

mutual

/-- Reports every leaf below a node that stands at `path`. -/
def visit (path : Path) : Tree α → ExceptT WriteFault m Unit
  | .scalar s => observe ⟨path, .scalar s⟩
  | .set ms => observe ⟨path, .set ms⟩
  | .check c => observe ⟨path, .check c⟩
  | .list [] => observe ⟨path, .list []⟩
  | .list (x :: xs) => visitItems path 0 (x :: xs)
  | .tuple [] => observe ⟨path, .tuple []⟩
  | .tuple (x :: xs) => visitItems path 0 (x :: xs)
  | .map [] => observe ⟨path, .map []⟩
  | .map (e :: es) => visitEntries path (e :: es)
termination_by structural t => t

/-- Reports every leaf below the elements of a sequence at `path`, the first of them at index `i`.
-/
def visitItems (path : Path) (i : Nat) : List (Tree α) → ExceptT WriteFault m Unit
  | [] => pure ()
  | x :: xs => do
    visit (path.extend (.index i)) x
    visitItems path (i + 1) xs
termination_by structural ts => ts

/-- Reports every leaf below the entries of a map at `path`. -/
def visitEntries (path : Path) : List (Key × Tree α) → ExceptT WriteFault m Unit
  | [] => pure ()
  | (k, x) :: es => do
    let name ← ExceptT.mk (pure k.name)
    visit (path.extend (.key name)) x
    visitEntries path es
termination_by structural es => es

end

end Visit

mutual

/-- The leaves below a node that stands at `path`, from left to right. -/
def leavesFrom (path : Path) : Tree α → List (Leaf α)
  | .scalar s => [⟨path, .scalar s⟩]
  | .set ms => [⟨path, .set ms⟩]
  | .check c => [⟨path, .check c⟩]
  | .list [] => [⟨path, .list []⟩]
  | .list (x :: xs) => itemLeaves path 0 (x :: xs)
  | .tuple [] => [⟨path, .tuple []⟩]
  | .tuple (x :: xs) => itemLeaves path 0 (x :: xs)
  | .map [] => [⟨path, .map []⟩]
  | .map (e :: es) => entryLeaves path (e :: es)
termination_by structural t => t

/-- The leaves below the elements of a sequence, the first of which has index `i`. -/
def itemLeaves (path : Path) (i : Nat) : List (Tree α) → List (Leaf α)
  | [] => []
  | x :: xs => leavesFrom (path.extend (.index i)) x ++ itemLeaves path (i + 1) xs
termination_by structural ts => ts

/-- The leaves below the entries of a map. -/
def entryLeaves (path : Path) : List (Key × Tree α) → List (Leaf α)
  | [] => []
  | (k, x) :: es => leavesFrom (path.extend (.key k.text)) x ++ entryLeaves path es
termination_by structural es => es

end

/-- The leaves of a tree, from left to right. -/
def leaves (t : Tree α) : List (Leaf α) := leavesFrom Path.root t

/-- The length of the longest path to a leaf. -/
def depth (t : Tree α) : Nat := t.leaves.foldl (fun n l => max n l.path.length) 0

end Tree

/-- What a walk that is cut short has seen: the leaves up to the limit, in order, and how many more
may come. -/
structure Trace (α : Type u) where
  /-- The leaves seen so far. -/
  seen : List (Leaf α)
  /-- After how many more leaves the observer stops the walk; `none` never stops it. -/
  remaining : Option Nat

/-- An observer that records every leaf, and stops the walk right after the leaf with which the
number of remaining ones is used up. -/
def recordLeaf {α : Type} (l : Leaf α) : ExceptT Unit (StateM (Trace α)) Unit := do
  let trace ← get
  match trace.remaining with
  | none => set ({ trace with seen := trace.seen ++ [l] } : Trace α)
  | some n =>
    set ({ seen := trace.seen ++ [l], remaining := some (n - 1) } : Trace α)
    if n = 1 then throw ()

/-- How a walk ends. -/
inductive WalkEnd where
  /-- All leaves were seen. -/
  | done
  /-- The observer stopped it. -/
  | stopped
  /-- A key is not written. -/
  | failed (fault : WriteFault)
deriving DecidableEq, Repr

/-- Walks with an observer that stops after `limit` leaves: the leaves that it has seen, and how the
walk ended. -/
def Tree.walkUpTo {α : Type} (limit : Option Nat) (path : Path) (t : Tree α) :
    List (Leaf α) × WalkEnd :=
  let (result, trace) := (t.visit recordLeaf path).run.run ⟨[], limit⟩
  (trace.seen,
    match result with
    | .ok (.ok _) => .done
    | .ok (.error fault) => .failed fault
    | .error _ => .stopped)

end TreeMatch
