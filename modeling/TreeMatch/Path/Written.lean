import TreeMatch.Path.Basic
import TreeMatch.Text.Quoted

/-!
# Paths and steps in brief

How paths and steps are shown where the value itself is meant and not its text.
-/

namespace TreeMatch

/-- The short name of a kind of step. -/
def StepKind.name : StepKind → String
  | .map => "map"
  | .sequence => "slice"

/-- A step with all its fields. -/
def Step.written : Step → String
  | .key name =>
    "PathComponent(kind=<ComponentKind.MAP_KEY: 'map'>, key=" ++ quoted name ++ ", index=None)"
  | .index i =>
    "PathComponent(kind=<ComponentKind.SLICE_INDEX: 'slice'>, key=None, index=" ++ toString i ++ ")"

/-- A path by its text. -/
def Path.written (p : Path) : String := "Path(" ++ quoted p.render ++ ")"

end TreeMatch
