import TreeMatch.Diagnostic.Basic

/-!
# Requests for diagnostics

A diagnostic built from fields that may be missing or null. A field that the class of errors does
not have is refused, and so are null details where the subject has details to add.
-/

namespace TreeMatch

/-- A class of errors. -/
inductive ErrorClass where
  /-- Errors about nothing in particular. -/
  | general
  /-- Errors about schemas. -/
  | schema
  /-- Errors about paths. -/
  | path
  /-- Errors about documents. -/
  | document
deriving DecidableEq, Repr

/-- A field that may be missing, null, or have a value. -/
abbrev Field (α : Type) := Option (Option α)

/-- The fields of a diagnostic. -/
structure DiagnosticRequest where
  /-- The class of errors. -/
  errorClass : ErrorClass
  /-- The short message. -/
  message : String
  /-- The named details. -/
  details : Field (List (String × Value))
  /-- The suggestion. -/
  suggestion : Field String
  /-- The type given as a schema. -/
  receivedType : Field String
  /-- The text that is no path. -/
  pathText : Field String
  /-- The path of a document. -/
  documentPath : Field String
  /-- The cause of a failure to read a document. -/
  cause : Field Cause

/-- Why a request is refused. -/
inductive RequestFault where
  /-- The class of errors has no field of this name. -/
  | foreignField (name : String)
  /-- The details are null, but the subject has some to add. -/
  | nullDetails
deriving DecidableEq, Repr

namespace DiagnosticRequest

/-- The subject of the request. -/
def subject (r : DiagnosticRequest) : Subject :=
  match r.errorClass with
  | .general => .general
  | .schema => .schema r.receivedType.join
  | .path => .path r.pathText.join
  | .document => .document r.documentPath.join r.cause.join

/-- The fields beyond those of all classes, by name: whether each is given, and to which class it
belongs. -/
def specialFields (r : DiagnosticRequest) : List (String × Bool × ErrorClass) :=
  [("received_type", r.receivedType.isSome, .schema), ("path_string", r.pathText.isSome, .path),
    ("path", r.documentPath.isSome, .document), ("cause", r.cause.isSome, .document)]

/-- The first field given that the class of errors does not have. -/
def foreignField? (r : DiagnosticRequest) : Option String :=
  (r.specialFields.find? fun f => f.2.1 && f.2.2 != r.errorClass).map (·.1)

/-- The diagnostic that is asked for. -/
def build (r : DiagnosticRequest) : Except RequestFault Diagnostic :=
  if r.details.any (·.isNone) && !r.subject.ownDetails.isEmpty then .error .nullDetails
  else
    match r.foreignField? with
    | some name => .error (.foreignField name)
    | none => .ok (.make r.subject r.message (r.details.join.getD []) r.suggestion.join)

end DiagnosticRequest

end TreeMatch
