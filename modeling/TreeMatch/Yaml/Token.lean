import TreeMatch.Yaml.Fault

/-!
# Tokens of YAML

The marks and scalars of a document, with the block structure that indentation expresses made
explicit by marks of its own.
-/

namespace TreeMatch.Yaml

/-- What a line that begins with a percent sign says. -/
inductive Directive where
  /-- The version of the language. -/
  | version (major minor : Nat)
  /-- What a tag handle stands for. -/
  | tag (handle stem : String)
  /-- Anything else, which is ignored. -/
  | other

/-- A tag as it is written: a handle, if it has one, and the rest. -/
structure TagText where
  /-- The handle. -/
  handle : Option String
  /-- What follows the handle. -/
  suffix : String

/-- A token. -/
inductive Token where
  /-- A directive. -/
  | directive (d : Directive)
  /-- Three hyphens before a document. -/
  | documentStart
  /-- Three dots after a document. -/
  | documentEnd
  /-- The end of the text. -/
  | streamEnd
  /-- The indentation of a block sequence begins. -/
  | blockSequenceStart
  /-- The indentation of a block mapping begins. -/
  | blockMappingStart
  /-- The indentation of a block ends. -/
  | blockEnd
  /-- An opening bracket. -/
  | flowSequenceStart
  /-- A closing bracket. -/
  | flowSequenceEnd
  /-- An opening brace. -/
  | flowMappingStart
  /-- A closing brace. -/
  | flowMappingEnd
  /-- A hyphen before an element. -/
  | blockEntry
  /-- A comma. -/
  | flowEntry
  /-- A key follows, whether a question mark says so or the colon after it. -/
  | key
  /-- A colon before a value. -/
  | value
  /-- A reference to an anchor. -/
  | alias (name : String)
  /-- A name for the node that follows. -/
  | anchor (name : String)
  /-- A tag for the node that follows. -/
  | tag (t : TagText)
  /-- A scalar; a plain one is written without quotes or indicators. -/
  | scalar (text : String) (plain : Bool)
  /-- Here the text stops being a document. -/
  | fault (f : Fault)

end TreeMatch.Yaml
