import TreeMatch.Path.Basic
import TreeMatch.Tree.Writable

/-!
# Lookup

`Tree.lookup` follows a path down a tree. A key step enters a map only, and there the entry whose
key is exactly that text; failing that the other keys are written one by one, up to the first that
has that name. An index step enters a sequence only. A step into the wrong kind of container, like a
missing entry, leads nowhere. A key that has to be written on the way but is not is a fault.
`Tree.lookup?` tells where a path leads as if all keys could be written.
-/

namespace TreeMatch

namespace Tree

variable {α : Type u}

/-- The first entry under a key that is no text and has a name. -/
def otherEntry (name : String) : List (Key × Tree α) → Except WriteFault (Option (Tree α))
  | [] => .ok none
  | (k, x) :: es =>
    if k.str?.isSome then otherEntry name es
    else
      match k.name with
      | .ok text => if text == name then .ok (some x) else otherEntry name es
      | .error fault => .error fault

/-- The entry under a name: an exact text key first, then the first other key with this name. -/
def entry (entries : List (Key × Tree α)) (name : String) : Except WriteFault (Option (Tree α)) :=
  match entries.find? (fun e => e.1.str? == some name) with
  | some e => .ok (some e.2)
  | none => otherEntry name entries

/-- The child that a step leads to. -/
def child : Tree α → Step → Except WriteFault (Option (Tree α))
  | .map entries, .key name => entry entries name
  | .list items, .index i => .ok items[i]?
  | .tuple items, .index i => .ok items[i]?
  | _, _ => .ok none

/-- The node that a path leads to. -/
def lookup (t : Tree α) : Path → Except WriteFault (Option (Tree α))
  | [] => .ok (some t)
  | s :: p => do
    match ← t.child s with
    | some x => x.lookup p
    | none => return none

/-- The entry under a name, as if all keys could be written. -/
def entry? (entries : List (Key × Tree α)) (name : String) : Option (Tree α) :=
  match entries.find? (fun e => e.1.str? == some name) with
  | some e => some e.2
  | none => (entries.find? fun e => e.1.str?.isNone && e.1.text == name).map (·.2)

/-- The child that a step leads to, as if all keys could be written. -/
def child? : Tree α → Step → Option (Tree α)
  | .map entries, .key name => entry? entries name
  | .list items, .index i => items[i]?
  | .tuple items, .index i => items[i]?
  | _, _ => none

/-- The node that a path leads to, as if all keys could be written. -/
def lookup? (t : Tree α) : Path → Option (Tree α)
  | [] => some t
  | s :: p => (t.child? s).bind (·.lookup? p)

end Tree

end TreeMatch
