import TreeMatch.Diagnostic.Basic

/-!
# Values that are no schema
-/

namespace TreeMatch

/-- A scalar or a set was given as a schema. -/
structure SchemaError where
  /-- The value as text. -/
  written : String
  /-- The name of its type. -/
  typeName : String
deriving DecidableEq, Repr

namespace SchemaError

/-- The short message. -/
def message (e : SchemaError) : String :=
  "Cannot compile definition from " ++ e.written ++ " (" ++ e.typeName ++
    "). Expected one of 'dict', 'list' or 'IsDef'"

/-- The error with all that is said about it. -/
def diagnostic (e : SchemaError) : Diagnostic :=
  .make (.schema (some e.typeName)) e.message [] none

end SchemaError

end TreeMatch
