import TreeMatch.Check.Basic
import TreeMatch.Coverage
import TreeMatch.Log.Line
import TreeMatch.Report.Basic
import TreeMatch.Tree.Lookup
import TreeMatch.Tree.Walk

/-!
# Validators

A validator evaluates a data value and answers with a report. A list of checks looks each of its
paths up in the value and ignores everything else; a single check is applied to the whole value; a
strict validator adds a failure for every leaf of the value that its inner validator left uncovered;
and a composition merges the reports of several validators. Evaluation stops at a check that gives
up, and at a key that is not written where a path or a walk comes to it.
-/

namespace TreeMatch

/-- A check at a path. -/
structure PathCheck where
  /-- Where the check applies. -/
  path : Path
  /-- The check. -/
  check : Check

namespace PathCheck

/-- Runs the check on what its path leads to; where that is nothing, the check is given the absent
value. -/
def run (c : PathCheck) (actual : Value) : Except CheckFault Outcome :=
  match actual.lookup c.path with
  | .ok (some value) => c.check.run c.path value true
  | .ok none => c.check.run c.path .null false
  | .error fault => .error (.unwritable fault)

end PathCheck

/-- How a data value is evaluated. -/
inductive Validator where
  /-- Every check at its path. -/
  | checks (checks : List PathCheck)
  /-- One check of the whole value. -/
  | predicate (check : Check)
  /-- An inner validator, and a failure for every leaf that it leaves uncovered. -/
  | strict (inner : Validator)
  /-- Several validators, one after the other. -/
  | compose (parts : List Validator)

/-- The report of checks, each recorded at its path, added to a report. -/
def Report.addChecks (r : Report) (actual : Value) : List PathCheck → Except CheckFault Report
  | [] => .ok r
  | c :: cs =>
    match c.run actual with
    | .ok o => (r.record c.path o).addChecks actual cs
    | .error fault => .error fault

/-- An observer that collects the paths of the leaves that are not covered. -/
def CoveredPaths.collect (c : CoveredPaths) (l : Leaf Label) : StateM (List Path) Unit := do
  if !c.covers l.path then modify (· ++ [l.path])

/-- Walks a value for the paths of the leaves that a report does not cover, in the order of the
walk. -/
def Report.findUncovered (r : Report) (actual : Value) : Except WriteFault (List Path) :=
  let (walked, paths) :=
    (actual.visit (CoveredPaths.ofList r.paths).collect Path.root).run.run []
  walked.map fun _ => paths

/-- A report with a failure for every one of some paths. -/
def Report.addUnexpected (r : Report) (paths : List Path) : Report :=
  paths.foldl (fun r p => r.record p (.unexpectedField p)) r

/-- The union of reports, later ones winning. -/
def Report.mergeAll (rs : List Report) : Report := rs.foldl Report.merge .empty

namespace Validator

mutual

/-- The report on a data value, or the first fault. -/
def evaluate (actual : Value) : Validator → Except CheckFault Report
  | .checks cs => Report.empty.addChecks actual cs
  | .predicate c => (c.run Path.root actual true).map fun o => Report.empty.record Path.root o
  | .strict inner => do
    let r ← evaluate actual inner
    let paths ← (r.findUncovered actual).mapError .unwritable
    return r.addUnexpected paths
  | .compose parts => (evaluateAll actual parts).map Report.mergeAll
termination_by structural v => v

/-- The reports of several validators, or the first fault among them. -/
def evaluateAll (actual : Value) : List Validator → Except CheckFault (List Report)
  | [] => .ok []
  | v :: vs =>
    match evaluate actual v with
    | .error fault => .error fault
    | .ok r => (evaluateAll actual vs).map (r :: ·)
termination_by structural vs => vs

end

/-- The line about leaves that a strict validator found uncovered. -/
def unexpectedLine (paths : List Path) : LogLine :=
  ⟨.debug, .validators,
    "Strict validation found " ++ toString paths.length ++ " unexpected field(s): " ++
      ", ".intercalate (paths.map Path.render)⟩

mutual

/-- The lines that an evaluation logs: one for each strict validator that found uncovered leaves, in
order, up to the first fault. -/
def logLines (actual : Value) : Validator → List LogLine
  | .checks _ => []
  | .predicate _ => []
  | .strict inner =>
    logLines actual inner ++
      match evaluate actual inner with
      | .error _ => []
      | .ok r =>
        match r.findUncovered actual with
        | .error _ | .ok [] => []
        | .ok paths => [unexpectedLine paths]
  | .compose parts => allLogLines actual parts
termination_by structural v => v

/-- The lines that the evaluation of several validators logs. -/
def allLogLines (actual : Value) : List Validator → List LogLine
  | [] => []
  | v :: vs =>
    logLines actual v ++
      match evaluate actual v with
      | .error _ => []
      | .ok _ => allLogLines actual vs
termination_by structural vs => vs

end

/-- The validator in brief. -/
def description : Validator → String
  | .checks cs => "SchemaValidator(" ++ toString cs.length ++ " checks)"
  | .predicate c => "PredicateValidator(" ++ quoted c.name ++ ")"
  | .strict inner => "StrictValidator(" ++ inner.description ++ ")"
  | .compose parts => "ComposedValidator(" ++ toString parts.length ++ " validators)"

end Validator

end TreeMatch
