import TreeMatch.Diagnostic.Basic
import TreeMatch.Document.Disk
import TreeMatch.Json.Reader
import TreeMatch.Log.Line
import TreeMatch.Text.Utf8
import TreeMatch.Yaml.Value

/-!
# Loading documents

A document is a file in UTF-8 whose suffix says whether it is JSON or YAML. `load` answers with the
value that it holds, or with what went wrong; `loadAlong` cuts a value that holds itself beyond the
paths of another tree. Most faults are reported as diagnostics about the document; some come through
as they are: a path with the character NUL, bytes that are no UTF-8, a whole number with too many
digits, a tagged scalar that does not write what its tag promises, and more levels within one
another than the call stack has room for. How many these are depends on where a document is loaded
from, and so the room for them is given.
-/

namespace TreeMatch

/-- Why a document is not loaded. -/
inductive LoadFault where
  /-- The suffix is not that of a known kind of document. -/
  | unsupported (location : Location)
  /-- The path holds the character NUL. -/
  | nulInPath
  /-- The file cannot be read. -/
  | unreadable (location : Location) (fault : DiskFault)
  /-- The bytes are no UTF-8. -/
  | notUtf8 (fault : Utf8Fault)
  /-- The text is no JSON; the message says what is wrong and where. -/
  | notJson (location : Location) (message : String)
  /-- The text is no YAML. -/
  | notYaml (location : Location)
  /-- A whole number in JSON has too many digits. -/
  | number (fault : NumberFault)
  /-- A scalar in YAML does not write what its tag promises. -/
  | scalar (fault : Yaml.Fault)
  /-- There is no room for all levels of the document; the message says where. -/
  | tooDeep (message : String)
deriving DecidableEq, Repr

/-- What the call stack has room for where a document is loaded. -/
structure Room where
  /-- Containers of JSON within one another. -/
  json : Nat
  /-- The levels of YAML. -/
  yaml : Yaml.Room

/-- A kind of document. -/
inductive DocumentKind where
  /-- JSON. -/
  | json
  /-- YAML. -/
  | yaml
deriving DecidableEq, Repr

namespace Document

/-- The kind of document that a suffix stands for. -/
def kindOf? (suffix : String) : Option DocumentKind :=
  if suffix = ".json" then some .json
  else if suffix = ".yaml" ∨ suffix = ".yml" then some .yaml
  else none

/-- Decodes the text of a document. -/
def decode (room : Room) (shape : DocumentTree) (kind : DocumentKind) (location : Location)
    (text : List Char) : Except LoadFault DocumentTree :=
  match kind with
  | .json =>
    match Json.read room.json text with
    | .ok v => .ok (.ofPlain v)
    | .error (.malformed reason remaining) =>
      .error (.notJson location (reason.message text remaining))
    | .error (.tooManyDigits count) => .error (.number (.tooManyDigits count))
    | .error (.tooDeep container) => .error (.tooDeep container.depthMessage)
  | .yaml =>
    match Yaml.readAlong room.yaml shape text with
    | .ok v => .ok v
    | .error .malformed => .error (.notYaml location)
    | .error .tooDeep => .error (.tooDeep endlessMessage)
    | .error fault => .error (.scalar fault)

/-- Loads the document at a path; its value is cut nowhere on a path of `shape`. -/
def loadAlong (room : Room) (shape : DocumentTree) (disk : Disk) (path : String) :
    Except LoadFault DocumentTree :=
  let location := Location.ofText path
  match kindOf? location.suffix with
  | none => .error (.unsupported location)
  | some kind =>
    if path.toList.contains '\x00' then .error .nulInPath
    else
      match disk.read location with
      | .error f => .error (.unreadable location f)
      | .ok bytes =>
        match Utf8.decode bytes with
        | .error f => .error (.notUtf8 f)
        | .ok text => decode room shape kind location (universalNewlines text)

/-- Loads the document at a path. -/
def load (room : Room) (disk : Disk) (path : String) : Except LoadFault DocumentTree :=
  loadAlong room .null disk path

/-- The lines that loading a document logs: one, if it succeeds. -/
def loadLines (room : Room) (disk : Disk) (path : String) : List LogLine :=
  match load room disk path with
  | .error _ => []
  | .ok _ =>
    let location := Location.ofText path
    [⟨.debug, .documents,
      "Loaded " ++ String.ofList (location.suffix.toList.dropWhile (· == '.')) ++
        " document from " ++ location.text⟩]

end Document

/-- What is said about bytes that are no UTF-8. -/
def Utf8Fault.message (f : Utf8Fault) : String :=
  let what := match f.bytes with
    | [b] =>
      "can't decode byte 0x" ++ String.ofList (hexText 2 b.toNat) ++ " in position " ++
        toString f.position
    | bs =>
      "can't decode bytes in position " ++ toString f.position ++ "-" ++
        toString (f.position + bs.length - 1)
  let why := match f.reason with
    | .invalidStart => "invalid start byte"
    | .invalidContinuation => "invalid continuation byte"
    | .unexpectedEnd => "unexpected end of data"
  "'utf-8' codec " ++ what ++ ": " ++ why

namespace LoadFault

/-- The cause of a failure to read YAML; its message is not reported. -/
def yamlCause : Cause := ⟨"YAMLError", ""⟩

/-- What is said about a fault: a bare message, or a diagnostic. -/
def explain : LoadFault → String ⊕ Diagnostic
  | .unsupported l =>
    let what := if l.suffix.isEmpty then l.name else l.suffix
    .inr (.make (.document (some l.text) none) ("Unsupported document type '" ++ what ++ "'") []
      (some "Use a .json, .yaml or .yml file"))
  | .unreadable l f =>
    .inr (.make (.document (some l.text) (some (f.cause l.text))) "Could not read document" [] none)
  | .notJson l message =>
    .inr (.make (.document (some l.text) (some ⟨"JSONDecodeError", message⟩))
      "Could not decode document" [] none)
  | .notYaml l =>
    .inr (.make (.document (some l.text) (some yamlCause)) "Could not decode document" [] none)
  | .nulInPath => .inl "embedded null byte"
  | .notUtf8 f => .inl f.message
  | .number f => .inl f.message
  | .scalar f => .inl f.message
  | .tooDeep message => .inl message

end LoadFault

end TreeMatch
