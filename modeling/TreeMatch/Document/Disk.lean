import TreeMatch.Assoc
import TreeMatch.Diagnostic.Cause
import TreeMatch.Document.Location

/-!
# The working directory

The files and directories below the working directory, as a value. A path is followed name by name:
a step goes through directories only, and a step up from the working directory leaves what is known,
so that nothing is found there.
-/

namespace TreeMatch

/-- A file or a directory. -/
inductive DiskNode where
  /-- A file with its bytes. -/
  | file (bytes : List UInt8)
  /-- A directory. -/
  | directory
deriving DecidableEq, Repr

/-- Why a file cannot be opened. -/
inductive DiskFault where
  /-- There is no such file. -/
  | notFound
  /-- It is a directory. -/
  | isDirectory
  /-- The path goes through a file. -/
  | notDirectory
  /-- A name, or the whole path, is too long. -/
  | nameTooLong
deriving DecidableEq, Repr

namespace DiskFault

/-- The number and the text of a fault. -/
def description : DiskFault → Nat × String
  | .notFound => (2, "No such file or directory")
  | .isDirectory => (21, "Is a directory")
  | .notDirectory => (20, "Not a directory")
  | .nameTooLong => (36, "File name too long")

/-- The name of the kind of fault. -/
def kind : DiskFault → String
  | .notFound => "FileNotFoundError"
  | .isDirectory => "IsADirectoryError"
  | .notDirectory => "NotADirectoryError"
  | .nameTooLong => "OSError"

/-- The fault of opening a path. -/
def cause (f : DiskFault) (path : String) : Cause :=
  ⟨f.kind, "[Errno " ++ toString f.description.1 ++ "] " ++ f.description.2 ++ ": " ++ quoted path⟩

end DiskFault

/-- Files and directories by the names that lead to them from the working directory. -/
structure Disk where
  /-- The names with what they lead to. -/
  entries : List (List String × DiskNode)

namespace Disk

/-- The empty directory. -/
def empty : Disk := ⟨[]⟩

/-- What some names lead to. -/
def node? (d : Disk) (names : List String) : Option DiskNode :=
  if names.isEmpty then some .directory else d.entries.lookup names

/-- Puts a file or a directory at a place. -/
def put (d : Disk) (names : List String) (n : DiskNode) : Disk :=
  ⟨Assoc.set (· == ·) names n d.entries⟩

/-- Makes the directories that lead to a place, as far as there is nothing yet. -/
def makeParents (d : Disk) (names : List String) : Disk :=
  ((List.range names.length).map names.take).foldl
    (fun d ns => if (d.node? ns).isNone then d.put ns .directory else d) d

/-- Writes a file, with the directories that lead to it. -/
def writeFile (d : Disk) (names : List String) (bytes : List UInt8) : Disk :=
  (d.makeParents names).put names (.file bytes)

/-- Makes a directory, with those that lead to it. -/
def makeDirectory (d : Disk) (names : List String) : Disk :=
  (d.makeParents names).put names .directory

/-- The greatest number of bytes in a name. -/
def greatestName : Nat := 255

/-- The greatest number of bytes in a path. -/
def greatestPath : Nat := 4095

/-- Follows names from a directory, which is `none` outside of what is known. The last name may lead
to nothing yet. -/
def follow (d : Disk) (here : Option (List String)) :
    List String → Except DiskFault (Option (List String))
  | [] => .ok here
  | name :: rest =>
    if greatestName < name.utf8ByteSize then .error .nameTooLong
    else
      match here with
      | none => if name = ".." then d.follow none rest else .error .notFound
      | some names =>
        if name = ".." then
          d.follow (if names.isEmpty then none else some names.dropLast) rest
        else
          let next := names ++ [name]
          match d.node? next, rest with
          | _, [] => .ok (some next)
          | some .directory, _ => d.follow (some next) rest
          | some (.file _), _ => .error .notDirectory
          | none, _ => .error .notFound

/-- The place that a path leads to. -/
def locate (d : Disk) (l : Location) : Except DiskFault (List String) :=
  if greatestPath < l.text.utf8ByteSize then .error .nameTooLong
  else
    match d.follow (if l.root.isEmpty then some [] else none) l.names with
    | .error f => .error f
    | .ok (some names) => .ok names
    | .ok none => .error .isDirectory

/-- The bytes of the file at a path. -/
def read (d : Disk) (l : Location) : Except DiskFault (List UInt8) :=
  match d.locate l with
  | .error f => .error f
  | .ok names =>
    match d.node? names with
    | some (.file bytes) => .ok bytes
    | some .directory => .error .isDirectory
    | none => .error .notFound

/-- The names of a path from the working directory, with steps up taken from the names themselves. A
step up from the working directory keeps its name, which leads nowhere. -/
def normalNames (l : Location) : List String :=
  l.names.foldl (fun names name =>
    if name = ".." ∧ !names.isEmpty then names.dropLast else names ++ [name]) []

/-- Opens a file to write at its end; a file that is not there yet is made. -/
def openToAppend (d : Disk) (names : List String) : Except DiskFault Disk :=
  match d.follow (some []) names with
  | .error f => .error f
  | .ok _ =>
    match d.node? names with
    | some (.file _) => .ok d
    | some .directory => .error .isDirectory
    | none => .ok (d.put names (.file []))

/-- Writes at the end of a file. -/
def append (d : Disk) (names : List String) (bytes : List UInt8) : Disk :=
  match d.node? names with
  | some (.file before) => d.put names (.file (before ++ bytes))
  | _ => d.put names (.file bytes)

/-- The files of the working directory itself, with their bytes, by name. -/
def files (d : Disk) : List (String × List UInt8) :=
  (d.entries.filterMap fun e =>
    match e with
    | ([name], .file bytes) => some (name, bytes)
    | _ => none).mergeSort fun a b => a.1 ≤ b.1

end Disk

end TreeMatch
