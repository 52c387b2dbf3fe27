import TreeMatch.Diagnostic.Cause
import TreeMatch.Json.Writer
import TreeMatch.Log.Line
import TreeMatch.Log.Template

/-!
# Log records

A record is what a logger hands on: its name, a level, a template with arguments, and perhaps a
failure and attributes of its own. It becomes one line for reading or one of JSON. The time of a
line is a parameter. Attributes called `name` and `levelname` replace those of the record; other
names that every record has are left out of the JSON line, and what remains stands under `extra`.
-/

namespace TreeMatch

/-- The formats of a line. -/
inductive LineFormat where
  /-- For reading. -/
  | console
  /-- JSON. -/
  | json
deriving DecidableEq, Repr

/-- A record. -/
structure LogRecord where
  /-- The name of the logger. -/
  logger : String
  /-- The level. -/
  level : Int
  /-- The template of the message. -/
  template : String
  /-- What the template is filled in with; without arguments it is taken as it is. -/
  arguments : List Value
  /-- The failure that the record tells of, if any. -/
  failure : Option Cause
  /-- The attributes that were set on it, in order. -/
  attributes : List (String × Value)

/-- Why a record does not become a line. -/
inductive RecordFault where
  /-- The template cannot be filled in. -/
  | template (fault : TemplateFault)
  /-- A map among the attributes has a key that JSON has no text for. -/
  | key (fault : Json.KeyFault)
deriving DecidableEq, Repr

/-- What is said about a fault. -/
def RecordFault.message : RecordFault → String
  | .template f => f.message
  | .key f => f.message

/-- The names of levels. -/
def levelNames : List (Int × String) :=
  [(50, "CRITICAL"), (40, "ERROR"), (30, "WARNING"), (20, "INFO"), (10, "DEBUG"), (0, "NOTSET")]

/-- The name of a level; one without a name goes by its number. -/
def levelName (level : Int) : String :=
  (levelNames.lookup level).getD ("Level " ++ toString level)

/-- The level of a line of the library itself. -/
def Severity.level : Severity → Int
  | .debug => 10
  | .warning => 30
  | .error => 40

/-- The line as a record. -/
def LogLine.record (l : LogLine) : LogRecord :=
  ⟨l.source.logger, l.severity.level, l.message, [], none, []⟩

namespace LogRecord

/-- The names of the attributes that every record has. -/
def ownAttributes : List String :=
  ["name", "msg", "args", "levelname", "levelno", "pathname", "filename", "module", "exc_info",
    "exc_text", "stack_info", "lineno", "funcName", "created", "msecs", "relativeCreated", "thread",
    "threadName", "processName", "process", "message", "asctime"]

/-- The message: the template with its arguments. -/
def message (r : LogRecord) : Except TemplateFault String :=
  if r.arguments.isEmpty then .ok r.template else Template.fill r.template r.arguments

/-- The value that an attribute was set to, if it was. -/
def set? (r : LogRecord) (name : String) : Option Value :=
  (Assoc.ofPairs (· == ·) r.attributes).lookup name

/-- The name that the record goes by. -/
def shownName (r : LogRecord) : Value := (r.set? "name").getD (.str r.logger)

/-- The name of the level that the record goes by. -/
def shownLevel (r : LogRecord) : Value := (r.set? "levelname").getD (.str (levelName r.level))

/-- The attributes beyond those that every record has. -/
def extra (r : LogRecord) : List (String × Value) :=
  (Assoc.ofPairs (· == ·) r.attributes).filter fun a => !ownAttributes.contains a.1

/-- Named values as a map. -/
def named (entries : List (String × Value)) : Value :=
  .map (entries.map fun e => (.scalar (.str e.1), e.2))

/-- The record as the object that its JSON line shows. -/
def jsonObject (time : String) (r : LogRecord) (message : String) : Value :=
  named <|
    [("timestamp", .str time), ("level", r.shownLevel), ("logger", r.shownName),
      ("message", .str message)] ++
    (r.failure.map fun c => ("exception", Tree.str c.line)).toList ++
    (if r.extra.isEmpty then [] else [("extra", named r.extra)])

/-- The record as a line of JSON. -/
def jsonLine (time : String) (r : LogRecord) : Except RecordFault String := do
  let message ← r.message.mapError .template
  (Json.write (r.jsonObject time message)).mapError .key

/-- The record as a line for reading; a failure takes a line of its own. -/
def consoleLine (time : String) (r : LogRecord) : Except RecordFault String := do
  let message ← r.message.mapError .template
  let head := time ++ " [" ++ r.shownLevel.text ++ "] " ++ r.shownName.text ++ ": " ++ message
  return match r.failure with
    | none => head
    | some c => (if head.endsWith "\n" then head else head ++ "\n") ++ c.line

/-- The record as a line. -/
def line (format : LineFormat) (time : String) (r : LogRecord) : Except RecordFault String :=
  match format with
  | .console => r.consoleLine time
  | .json => r.jsonLine time

end LogRecord

end TreeMatch
