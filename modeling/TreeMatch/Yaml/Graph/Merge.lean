import TreeMatch.Yaml.Graph.Basic

/-!
# Merge keys

A merge key brings the entries of other mappings into a mapping. `Graph.merge` puts them in front of
the mapping's own entries, in the order of the merge keys; of several mappings under one merge key
the last one comes first, so that later entries, which win, are those of the earlier mappings. The
mappings that are brought in are merged on their way, and stay so. The scalar `=` becomes a text
where it is a key of a merged mapping.
-/

namespace TreeMatch.Yaml.Graph

/-- Whether an entry brings in others. -/
def isMerge (g : Graph) (e : Nat × Nat) : Bool := g.tag e.1 == coreTag "merge"

/-- The number of entries that bring in others. -/
def mergeCount (g : Graph) : Nat :=
  (List.range g.nodes.size).foldl (fun n i => n + (g.entries i).countP g.isMerge) 0

/-- The graph in which the scalars `=` among some keys are texts. -/
def plainKeys (g : Graph) (es : List (Nat × Nat)) : Graph :=
  es.foldl (fun g e => if g.isValueKey e.1 then g.setTag e.1 (coreTag "str") else g) g

/-- The graph in which the mapping at a place is merged, given the entries that its merge keys have
brought in so far. A merge key may stand before nothing but mappings; each of these is merged on the
way, for which there is less room. Every step takes a merge key away and none ever comes back, which
bounds the fuel. -/
def mergeFrom (brought : List (Nat × Nat)) (i : Nat) : Nat → Nat → Graph → Except Fault Graph
  | 0, _, _ => .error .malformed
  | _ + 1, 0, _ => .error .tooDeep
  | fuel + 1, room + 1, g =>
    match (g.entries i).span (!g.isMerge ·) with
    | (own, []) =>
      let all := brought ++ own
      .ok ((g.setContent i (.mapping all)).plainKeys all)
    | (own, (_, v) :: rest) =>
      let g := g.setContent i (.mapping (own ++ rest))
      match (g.node v).content with
      | .scalar _ => .error .malformed
      | .mapping _ => do
        let g ← mergeFrom [] v fuel room g
        mergeFrom (brought ++ g.entries v) i fuel (room + 1) g
      | .sequence items => do
        let bring (state : Graph × List (Nat × Nat)) (item : Nat) :
            Except Fault (Graph × List (Nat × Nat)) :=
          if !state.1.isMapping item then .error .malformed
          else (mergeFrom [] item fuel room state.1).map fun g => (g, g.entries item ++ state.2)
        let (g, found) ← items.foldlM bring (g, [])
        mergeFrom (brought ++ found) i fuel (room + 1) g

/-- The graph in which the mapping at a place is merged, if a graph with no more than `count` merge
keys has a mapping there. -/
def merge (g : Graph) (count room i : Nat) : Except Fault Graph :=
  if g.isMapping i then mergeFrom [] i (count + 1) room g else .error .malformed

end TreeMatch.Yaml.Graph
