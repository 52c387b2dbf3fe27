import TreeMatch.Assoc
import TreeMatch.Outcome
import TreeMatch.Tree.Basic

/-!
# Reports

A report holds the outcomes of an evaluation under the texts of their paths, in the order in which
the texts were first recorded. Recording under a text again keeps its place and replaces the
outcome, so the last one wins. Every stored outcome carries the path it was recorded at.
-/

namespace TreeMatch

/-- Outcomes by the text of their path, in the order of first recording. -/
structure Report where
  /-- The texts with their outcomes. -/
  entries : List (String × Outcome)
deriving DecidableEq, Repr

namespace Report

/-- The report without outcomes. -/
def empty : Report := ⟨[]⟩

instance : EmptyCollection Report := ⟨empty⟩

/-- Records an outcome at a path. The outcome is moved to the path, whatever path it carries. -/
def record (r : Report) (path : Path) (o : Outcome) : Report :=
  ⟨Assoc.set (· == ·) path.render { o with path := path } r.entries⟩

/-- The stored outcomes, in order. -/
def outcomes (r : Report) : List Outcome := r.entries.map (·.2)

/-- The paths of the stored outcomes with the outcomes, in order. -/
def eachResult (r : Report) : List (Path × Outcome) := r.outcomes.map fun o => (o.path, o)

/-- Records every outcome of another report at its path. -/
def merge (r other : Report) : Report :=
  other.eachResult.foldl (fun r e => r.record e.1 e.2) r

/-- Whether no stored outcome failed. -/
def succeeded (r : Report) : Bool := r.outcomes.all (·.valid)

/-- The outcome under a text. -/
def get? (r : Report) (text : String) : Option Outcome := r.entries.lookup text

/-- Whether there is an outcome under a text. -/
def contains (r : Report) (text : String) : Bool := (r.get? text).isSome

/-- Whether a value is the text of a path with an outcome. -/
def mentions (r : Report) : Value → Bool
  | .scalar (.str text) => r.contains text
  | _ => false

/-- The texts of the paths, in order. -/
def paths (r : Report) : List String := r.entries.map (·.1)

/-- The failed outcomes, in order. -/
def failures (r : Report) : List Outcome := r.outcomes.filter (!·.valid)

/-- The report of the failed outcomes alone. -/
def detailedErrors (r : Report) : Report :=
  r.failures.foldl (fun e o => e.record o.path o) empty

/-- The number of texts. -/
def size (r : Report) : Nat := r.entries.length

/-- What a report says as a whole. -/
structure Overview where
  /-- Whether nothing failed. -/
  valid : Bool
  /-- The number of texts. -/
  checked : Nat
  /-- The number of failures. -/
  failed : Nat
  /-- The texts with their outcomes. -/
  fields : List (String × Outcome)
deriving DecidableEq, Repr

/-- The report as a whole. -/
def overview (r : Report) : Overview := ⟨r.succeeded, r.size, r.failures.length, r.entries⟩

/-- The report in brief. -/
def summary (r : Report) : String :=
  "Results(" ++ toString r.size ++ " checked, " ++
    (if r.succeeded then "valid" else toString r.failures.length ++ " failed") ++ ")"

end Report

end TreeMatch
