/-!
# Log lines

What the library reports about its own work while it runs: a severity, the part of the library that
speaks, and a message.
-/

namespace TreeMatch

/-- The severity of a line of the library itself. -/
inductive Severity where
  /-- Details of normal work. -/
  | debug
  /-- Something that is passed over. -/
  | warning
  /-- A failure that the caller hears of as well. -/
  | error
deriving DecidableEq, Repr

/-- A part of the library that logs. -/
inductive LogSource where
  /-- Compiling schemas. -/
  | schemas
  /-- Evaluating values. -/
  | validators
  /-- Loading documents. -/
  | documents
  /-- Reading an environment file. -/
  | environmentFile
deriving DecidableEq, Repr

/-- The name of the logger of a part. -/
def LogSource.logger : LogSource → String
  | .schemas => "lookslike.lib.compiler"
  | .validators => "lookslike.lib.validators"
  | .documents => "lookslike.lib.documents"
  | .environmentFile => "dotenv.main"

/-- A line that the library logs. -/
structure LogLine where
  /-- Its severity. -/
  severity : Severity
  /-- The part that speaks. -/
  source : LogSource
  /-- The text. -/
  message : String
deriving DecidableEq, Repr

end TreeMatch
