import TreeMatch.Text.Base64
import TreeMatch.Text.CaseMap
import TreeMatch.Tree.Basic
import TreeMatch.Yaml.Tag

/-!
# Values of scalars

The tag of a scalar says what kind of value its text writes; `Scalar.reader?` tells how it is read.
A tag may promise what the text does not keep, which is a fault of its own for every kind.
-/

namespace TreeMatch.Yaml

namespace Scalar

/-- A text without its underscores. -/
def ungrouped (text : String) : List Char := text.toList.filter (· != '_')

/-- Whole numbers of base 60 as one number, least place first. -/
def base60Integer (places : List Int) : Int := places.foldr (fun d n => d + 60 * n) 0

/-- The whole number that a scalar writes. -/
def integer (text : String) : Except Fault Int := do
  let cs := ungrouped text
  if cs.isEmpty then throw .emptyNumber
  let (negative, body) := splitSign cs
  let read (base : Nat) (cs : List Char) : Except Fault Int :=
    (readInteger base (String.ofList cs)).mapError .number
  let n ←
    match body with
    | [] => throw .emptyNumber
    | ['0'] => pure 0
    | '0' :: 'b' :: rest => read 2 rest
    | '0' :: 'x' :: rest => read 16 rest
    | '0' :: _ => read 8 body
    | _ =>
      if body.contains ':' then
        return signedBy negative (base60Integer (← (body.splitOn ':').mapM (read 10)).reverse)
      else read 10 body
  return signedBy negative n
where
  /-- The number, or its opposite. -/
  signedBy (negative : Bool) (n : Int) : Int := if negative then -n else n

/-- Numbers of base 60 as one number, least place first, in floating point arithmetic. -/
def base60Float (total : Binary64) (base : Int) : List Binary64 → Except Fault Binary64
  | [] => .ok total
  | x :: rest =>
    match Binary64.ofInt base with
    | .infinite _ => .error (.number .beyondRange)
    | b => base60Float (total.add (x.mul b)) (60 * base) rest

/-- The floating point number that a scalar writes. -/
def float (text : String) : Except Fault Binary64 := do
  let cs := (Text.lower (String.ofList (ungrouped text))).toList
  if cs.isEmpty then throw .emptyNumber
  let (negative, body) := splitSign cs
  let read (cs : List Char) : Except Fault Binary64 :=
    (readBinary64 (String.ofList cs)).mapError .number
  let x ←
    match String.ofList body with
    | ".inf" => pure (.infinite false)
    | ".nan" => pure .nan
    | _ =>
      if body.contains ':' then
        base60Float (.zero false) 1 (← (body.splitOn ':').mapM read).reverse
      else read body
  return if negative then x.neg else x

/-- Whether a scalar writes NaN by the word for it. -/
def isNanWord (text : String) : Bool :=
  (splitSign (Text.lower (String.ofList (ungrouped text))).toList).2 == ".nan".toList

/-- The truth value that a scalar writes. -/
def truth (text : String) : Except Fault Bool :=
  let word := Text.lower text
  if ["yes", "true", "on"].contains word then .ok true
  else if ["no", "false", "off"].contains word then .ok false
  else .error (.unknownTruthValue word)

/-- The point in time that a scalar writes. -/
def moment (text : String) : Except Fault Moment :=
  match Timestamp.parse? (withoutFinalBreak text.toList) with
  | none => .error .notTimestamp
  | some m => (m.check.mapError Fault.moment).map fun _ => m

/-- The bytes that a scalar writes in ASCII. -/
def binary (text : String) : Except Fault (List UInt8) :=
  if text.toList.any (0x80 ≤ ·.toNat) then .error .malformed
  else
    match Base64.decode? text.toList with
    | some bytes => .ok bytes
    | none => .error .malformed

/-- How the text of a scalar with a tag is read; `none` if the tag is not that of a scalar. -/
def reader? (tag : String) : Option (String → Except Fault TreeMatch.Scalar) :=
  if tag == coreTag "null" then some fun _ => .ok .null
  else if tag == coreTag "bool" then some fun text => (truth text).map .bool
  else if tag == coreTag "int" then some fun text => (integer text).map .int
  else if tag == coreTag "float" then some fun text => (float text).map .float
  else if tag == coreTag "binary" then some fun text => (binary text).map .bytes
  else if tag == coreTag "timestamp" then some fun text => (moment text).map .moment
  else if tag == coreTag "str" then some fun text => .ok (.str text)
  else none

end Scalar

end TreeMatch.Yaml
