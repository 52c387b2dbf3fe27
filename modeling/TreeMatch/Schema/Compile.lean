import TreeMatch.Schema.Error
import TreeMatch.Validator

/-!
# Compiling schemas

A schema is flattened into the list of its leaves with their paths: a check stands for itself, any
other leaf for the check of being equal to it. A map compiles to a validator of these checks, which
ignores what the schema does not mention. A sequence compiles to a strict one, because otherwise a
longer sequence would match. A check compiles to a validator of the whole value. A scalar or a set
is no schema. The name of a comparison says what is expected, so that a schema with a value or a key
that is not written is not compiled.
-/

namespace TreeMatch

/-- Why a value is not compiled. -/
inductive CompileFault where
  /-- It is no schema. -/
  | notSchema (error : SchemaError)
  /-- A value or a key in it is not written. -/
  | unwritable (fault : WriteFault)
deriving DecidableEq, Repr

namespace Schema

/-- The check that a leaf of a schema stands for. -/
def leafCheck : Schema → Except WriteFault Check
  | .check c => .ok c
  | leaf => Check.equals leaf.labels

/-- An observer that collects the checks of leaves. -/
def collect (l : Leaf Check) : StateT (List PathCheck) (Except WriteFault) Unit := do
  let c ← leafCheck l.node
  modify (· ++ [⟨l.path, c⟩])

/-- The checks of a schema with their paths, from left to right. -/
def flatten (s : Schema) : Except WriteFault (List PathCheck) := do
  let (walked, checks) ← (s.visit collect Path.root).run.run []
  walked
  return checks

/-- The validator that a schema stands for. -/
def compile (s : Schema) : Except CompileFault Validator :=
  match s with
  | .map _ => (s.flatten.map Validator.checks).mapError .unwritable
  | .list _ | .tuple _ => (s.flatten.map fun cs => .strict (.checks cs)).mapError .unwritable
  | .check c => .ok (.predicate c)
  | .scalar _ | .set _ =>
    match s.labels.write with
    | .ok written => .error (.notSchema ⟨written, s.typeName⟩)
    | .error fault => .error (.unwritable fault)

/-- The lines that a compilation logs. -/
def compileLines (s : Schema) : List LogLine :=
  match s, s.flatten with
  | .map _, .ok cs =>
    [⟨.debug, .schemas, "Compiled map schema into " ++ toString cs.length ++ " checks"⟩]
  | .list _, .ok cs | .tuple _, .ok cs =>
    [⟨.debug, .schemas, "Compiled sequence schema into " ++ toString cs.length ++ " strict checks"⟩]
  | _, _ => []

/-- The lines that a compilation logs when its failure is not expected. -/
def mustCompileLines (s : Schema) : List LogLine :=
  s.compileLines ++
    match s.compile with
    | .error (.notSchema e) => [⟨.error, .schemas, "Schema compilation failed: " ++ e.message⟩]
    | _ => []

end Schema

/-- The result of a compilation as a value: at most one of a validator and an error, or neither. -/
structure Compilation where
  /-- The validator, if there is one. -/
  validator : Option Validator
  /-- The reason why there is none. -/
  error : Option Diagnostic

namespace Compilation

/-- The result of compiling a schema, unless something in it is not written. -/
def ofSchema (s : Schema) : Except WriteFault Compilation :=
  match s.compile with
  | .ok v => .ok ⟨some v, none⟩
  | .error (.notSchema e) => .ok ⟨none, some e.diagnostic⟩
  | .error (.unwritable fault) => .error fault

/-- Whether there is no error. -/
def isOk (c : Compilation) : Bool := c.error.isNone

/-- The validator; an error comes first, and a result that holds neither is an error as well. -/
def unwrap (c : Compilation) : Except Diagnostic Validator :=
  match c.error, c.validator with
  | some e, _ => .error e
  | none, some v => .ok v
  | none, none => .error (Diagnostic.plain "CompileResult holds neither a validator nor an error")

end Compilation

end TreeMatch
