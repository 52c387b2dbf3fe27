import TreeMatch.Document.Disk
import TreeMatch.Log.Record
import TreeMatch.Settings.Basic

/-!
# Log sessions

A session has a least level and handlers that write the records reaching that level: to an output,
and perhaps to a file as well. Setting it up opens the file first, then removes the handlers there
are, then checks the name of the level, and only then takes the new level and handlers. A setup that
fails says how far it got by the session it leaves.
-/

namespace TreeMatch

/-- Where a handler writes. -/
inductive LogTarget where
  /-- To the output. -/
  | output
  /-- At the end of a file. -/
  | file (names : List String)
deriving DecidableEq, Repr

/-- What writes records. -/
structure LogHandler where
  /-- Where it writes. -/
  target : LogTarget
  /-- The format of its lines. -/
  format : LineFormat
deriving DecidableEq, Repr

/-- Why a session is not set up. -/
inductive SetupFault where
  /-- The path of the file holds the character NUL. -/
  | nulInPath
  /-- The file cannot be opened. -/
  | unwritable (names : List String) (fault : DiskFault)
  /-- There is no level of this name. -/
  | unknownLevel (name : String)
deriving DecidableEq, Repr

/-- What is said about a fault. -/
def SetupFault.message : SetupFault → String
  | .nulInPath => "embedded null byte"
  | .unwritable names f => (f.cause ("/".intercalate names)).message
  | .unknownLevel name => "Unknown level: " ++ quoted ("Level " ++ name)

/-- The state of logging. -/
structure LogSession where
  /-- The least level that is written. -/
  level : Int
  /-- The handlers, in the order in which they write. -/
  handlers : List LogHandler
  /-- The files. -/
  disk : Disk
  /-- What was written to the output. -/
  output : String

namespace LogSession

/-- The session before any setup. -/
def initial : LogSession := ⟨30, [], .empty, ""⟩

/-- The levels that a name stands for. -/
def levelsByName : List (String × Int) :=
  [("CRITICAL", 50), ("FATAL", 50), ("ERROR", 40), ("WARN", 30), ("WARNING", 30), ("INFO", 20),
    ("DEBUG", 10), ("NOTSET", 0)]

/-- Opens the file of a setup, if it has one; an empty path is none. -/
def openFile (s : LogSession) :
    Option String → Except SetupFault (LogSession × List LogTarget)
  | none | some "" => .ok (s, [])
  | some path =>
    if path.toList.contains '\x00' then .error .nulInPath
    else
      let names := Disk.normalNames (.ofText path)
      match s.disk.openToAppend names with
      | .error f => .error (.unwritable names f)
      | .ok disk => .ok ({ s with disk }, [.file names])

/-- Sets the session up, with the name of a level in any case, a format, and a file to write to as
well. -/
def setup (s : LogSession) (level : String) (format : LineFormat) (file : Option String) :
    LogSession × Option SetupFault :=
  match s.openFile file with
  | .error f => (s, some f)
  | .ok (s, targets) =>
    let name := Text.upper level
    match levelsByName.lookup name with
    | none => ({ s with handlers := [] }, some (.unknownLevel name))
    | some level =>
      ({ s with level, handlers := (.output :: targets).map (⟨·, format⟩) }, none)

/-- Sets the session up as settings say. -/
def setupFrom (s : LogSession) (settings : Settings) : LogSession × Option SetupFault :=
  s.setup settings.logLevel (if settings.logFormat = "json" then .json else .console)
    settings.logFile

/-- One handler writes a record; a record that does not become a line is passed over. -/
def write (time : String) (r : LogRecord) (s : LogSession) (h : LogHandler) : LogSession :=
  match r.line h.format time with
  | .error _ => s
  | .ok line =>
    let text := line ++ "\n"
    match h.target with
    | .output => { s with output := s.output ++ text }
    | .file names => { s with disk := s.disk.append names text.toUTF8.toList }

/-- Logs a record: one whose level is positive and reaches the least one goes to every handler. -/
def log (s : LogSession) (time : String) (r : LogRecord) : LogSession :=
  if 0 < r.level ∧ s.level ≤ r.level then s.handlers.foldl (write time r) s else s

/-- Logs lines of the library itself. -/
def logLines (s : LogSession) (time : String) (lines : List LogLine) : LogSession :=
  lines.foldl (fun s l => s.log time l.record) s

/-- The name that a logger goes by; the one without a name is the root. -/
def loggerName (name : String) : String := if name.isEmpty then "root" else name

end LogSession

end TreeMatch
