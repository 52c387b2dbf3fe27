import TreeMatch.Log.Line
import TreeMatch.Settings.EnvFile
import TreeMatch.Text.CaseMap
import TreeMatch.Text.Quoted

/-!
# Settings

Settings drive logging alone: the least level, the format of lines, and a file to write to. A value
that is given directly wins over one of the environment, that over one of an environment file, and
that over the default. Variables carry a common beginning and are matched without case; of several
that match, the last one counts. Levels and formats are checked without case and kept in their usual
form.
-/

namespace TreeMatch

/-- The settings. -/
structure Settings where
  /-- The name of the least level. -/
  logLevel : String
  /-- The name of the format of lines. -/
  logFormat : String
  /-- The file to write to as well. -/
  logFile : Option String
deriving DecidableEq, Repr

/-- A setting. -/
inductive SettingName where
  /-- The least level. -/
  | logLevel
  /-- The format of lines. -/
  | logFormat
  /-- The file to write to. -/
  | logFile
deriving DecidableEq, Repr

/-- The name of a setting. -/
def SettingName.text : SettingName → String
  | .logLevel => "log_level"
  | .logFormat => "log_format"
  | .logFile => "log_file"

/-- Why a setting is refused. -/
inductive SettingFault where
  /-- It is no text. -/
  | notText
  /-- It is none of the known words. -/
  | unknown (known : List String)
deriving DecidableEq, Repr

/-- The name of the kind of fault. -/
def SettingFault.kind : SettingFault → String
  | .notText => "string_type"
  | .unknown _ => "value_error"

/-- What is said about the fault of a setting. -/
def SettingFault.message (name : SettingName) : SettingFault → String
  | .notText => "Input should be a valid string"
  | .unknown known =>
    "Value error, " ++ name.text ++ " must be one of: [" ++
      ", ".intercalate (known.map quoted) ++ "]"

/-- A value that is given directly: a text, nothing, or something that is no text. -/
inductive Given where
  /-- A text. -/
  | text (s : String)
  /-- Nothing. -/
  | null
  /-- Something else. -/
  | other
deriving DecidableEq, Repr

/-- Where settings come from. A name that is repeated in one source keeps its place and takes its
last value. -/
structure SettingSources where
  /-- Values given directly, by the name of the setting. -/
  given : List (String × Given)
  /-- The variables of the environment, in order. -/
  environment : List (String × String)
  /-- The text of the environment file, if there is one. -/
  file : Option String

namespace Settings

/-- The names of levels that settings may have. -/
def levels : List String := ["DEBUG", "INFO", "WARNING", "ERROR", "CRITICAL"]

/-- The names of formats that settings may have. -/
def formats : List String := ["json", "console", "text"]

/-- What the names of variables begin with. -/
def variableStem : String := "LOOKSLIKE_"

/-- The default of a setting. -/
def default : SettingName → Given
  | .logLevel => .text "WARNING"
  | .logFormat => .text "console"
  | .logFile => .null

/-- The value of the last variable that names a setting. -/
def variableNamed? {β : Type} (assignments : List (String × β)) (name : SettingName) : Option β :=
  let wanted := Text.lower (variableStem ++ name.text)
  (assignments.reverse.find? fun v => Text.lower v.1 == wanted).map (·.2)

/-- The value of a setting, from the first source that has one. -/
def find (sources : SettingSources) (name : SettingName) : Given :=
  let environment := Assoc.ofPairs (· == ·) sources.environment
  let fromFile := sources.file.bind fun text =>
    (variableNamed? (EnvFile.read environment text) name).join
  ((Assoc.ofPairs (· == ·) sources.given).lookup name.text).getD <|
    ((variableNamed? environment name).or fromFile).elim (default name) .text

/-- Checks a value that has to be one of some words, in the form that `normal` gives it. -/
def checkWord (normal : String → String) (known : List String) : Given → Except SettingFault String
  | .text s => if known.contains (normal s) then .ok (normal s) else .error (.unknown known)
  | _ => .error .notText

/-- Checks a value that may be missing. -/
def checkFile : Given → Except SettingFault (Option String)
  | .text s => .ok (some s)
  | .null => .ok none
  | .other => .error .notText

/-- The fault of a setting, if it has one. -/
def faultOf {β : Type} (name : SettingName) :
    Except SettingFault β → List (SettingName × SettingFault)
  | .ok _ => []
  | .error f => [(name, f)]

/-- The settings of some sources, or everything that is wrong with them in the order of the
settings. -/
def load (sources : SettingSources) : Except (List (SettingName × SettingFault)) Settings :=
  let level := checkWord Text.upper levels (find sources .logLevel)
  let format := checkWord Text.lower formats (find sources .logFormat)
  let file := checkFile (find sources .logFile)
  match level, format, file with
  | .ok logLevel, .ok logFormat, .ok logFile => .ok { logLevel, logFormat, logFile }
  | _, _, _ =>
    .error (faultOf .logLevel level ++ faultOf .logFormat format ++ faultOf .logFile file)

/-- The lines that loading settings logs: one for each part of the environment file that cannot be
read, whatever becomes of the settings. -/
def loadLines (sources : SettingSources) : List LogLine :=
  (sources.file.elim [] EnvFile.faultyLines).map fun line =>
    ⟨.warning, .environmentFile,
      "python-dotenv could not parse statement starting at line " ++ toString line⟩

end Settings

end TreeMatch
