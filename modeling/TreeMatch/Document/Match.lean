import TreeMatch.Schema.Compile
import TreeMatch.Tree.Endless

/-!
# Matching one document against another

One document is the schema, another one the data. Neither has checks in it, so the schema compiles
to comparisons alone, and a match can fail to give a report for three reasons: the schema is not
compiled, because it is a scalar or a set or something in it is not written; something in the data
is not written where it has to be; or data that has no end would have to be walked.
-/

namespace TreeMatch

/-- A document to be matched against another one. -/
structure Matching where
  /-- The document that serves as the schema. -/
  schema : PlainTree
  /-- The data. -/
  actual : DocumentTree
  /-- Whether the data may hold no more than the schema does. -/
  strict : Bool

/-- Why there is no report on a match. -/
inductive MatchFault where
  /-- The schema is not compiled. -/
  | compile (fault : CompileFault)
  /-- A check gave up, or something is not written. -/
  | check (fault : CheckFault)
  /-- The data has no end. -/
  | endless
deriving DecidableEq, Repr

namespace Matching

/-- The schema, as one whose leaves could be checks. -/
def tree (m : Matching) : Schema := .ofPlain m.schema

/-- The data, as a value that could hold labels. -/
def value (m : Matching) : Value := .ofDocument m.actual

/-- The validator of the match. -/
def validator (m : Matching) : Except CompileFault Validator :=
  m.tree.compile.map fun v => if m.strict then .strict v else v

/-- Whether the data is walked for leaves that the schema does not cover. -/
def isClosed (m : Matching) : Bool := m.strict || m.schema.kind.isSequence

/-- Whether evaluating the data comes to an end. -/
def ends (m : Matching) : Bool := !m.isClosed || m.actual.finite?.isSome

/-- The report on the data, or why there is none. -/
def report (m : Matching) : Except MatchFault Report := do
  let v ← m.validator.mapError .compile
  let r ← (v.evaluate m.value).mapError .check
  if m.ends then return r else throw .endless

/-- The lines that a match logs. -/
def logLines (m : Matching) : List LogLine :=
  m.tree.mustCompileLines ++
    match m.validator with
    | .ok v => if m.ends then v.logLines m.value else []
    | .error _ => []

end Matching

end TreeMatch
