import Spellcraft.Diagnostic
import Spellcraft.Json
import Spellcraft.Value

/-! # Decoding values

A value is decoded from JSON or from a tag, either as a kind that is asked for
(`Kind.decodeText`, `Kind.decodeTag`) or as the kind that its form suggests
(`Value.ofJson`, `Value.ofTag`). Every error names the parameter.
-/

namespace Spellcraft

inductive DecodeError where
  /-- The text is not JSON. -/
  | malformedText
  /-- The text is JSON, but not an object. -/
  | notAnObject (found : String)
  /-- A value does not have the expected form. -/
  | mismatch (key expected found : String)
  /-- An integer does not fit 32 bits. -/
  | outOfRange (key literal : String)
  /-- A tag stands for no parameter value. -/
  | unsupportedTag (key kind : String)
  /-- The bytes are not an encoded compound. -/
  | malformedBytes
  deriving DecidableEq

instance : Diagnostic DecodeError where
  code
    | .malformedText => "DECODE_SYNTAX"
    | .notAnObject _ => "DECODE_NOT_AN_OBJECT"
    | .mismatch .. => "DECODE_FIELD"
    | .outOfRange .. => "DECODE_INTEGER_OUT_OF_RANGE"
    | .unsupportedTag .. => "DECODE_UNSUPPORTED_TAG"
    | .malformedBytes => "DECODE_ENCODING"
  message
    | .malformedText => "invalid parameter text: not a JSON text"
    | .notAnObject found => "parameter text must be an object, found " ++ found
    | .mismatch key expected found =>
      "parameter '" ++ key ++ "': expected " ++ expected ++ ", found " ++ found
    | .outOfRange key literal =>
      "parameter '" ++ key ++ "': integer " ++ literal ++ " is out of range"
    | .unsupportedTag key kind =>
      "parameter '" ++ key ++ "': unsupported tag kind " ++ kind
    | .malformedBytes => "tag encoding failed: not an encoded compound"
  severity _ := .validation

/-! ## As a given kind -/

namespace Json

def toDouble? : Json → Option Binary64
  | .number n => some n.toDouble
  | _ => none

def toString? : Json → Option String
  | .string s => some s
  | _ => none

def toBool? : Json → Option Bool
  | .bool b => some b
  | _ => none

end Json

def Vec3.ofJson (key : String) (json : Json) : Except DecodeError Vec3 :=
  match json with
  | .array [x, y, z] =>
    match x.toDouble?, y.toDouble?, z.toDouble? with
    | some x, some y, some z => .ok ⟨x, y, z⟩
    | _, _, _ => .error (.mismatch key Kind.vec3.displayName "non-numeric component")
  | other => .error (.mismatch key Kind.vec3.displayName other.kindName)

namespace Kind

def decodeText (kind : Kind) (key : String) (json : Json) : Except DecodeError Value :=
  let orMismatch (decoded : Option Value) : Except DecodeError Value :=
    match decoded with
    | some value => .ok value
    | none => .error (.mismatch key kind.displayName json.kindName)
  match kind with
  | .int => orMismatch (json.toDouble?.map fun x => .int x.toInt32)
  | .float => orMismatch (json.toDouble?.map fun x => .float x.narrow)
  | .double => orMismatch (json.toDouble?.map .double)
  | .boolean => orMismatch (json.toBool?.map .boolean)
  | .string => orMismatch (json.toString?.map .string)
  | .vec3 => (Vec3.ofJson key json).map .vec3
  | .uuid => orMismatch ((json.toString?.bind Uuid.parse?).map .uuid)
  | .entitySelector => orMismatch (json.toString?.map .entitySelector)
  | .dimension => orMismatch (json.toString?.map .dimension)

def ofTag? (kind : Kind) (tag : Tag) : Option Value :=
  match kind, tag with
  | .int, tag => tag.number?.map fun x => .int x.toInt32
  | .float, tag => tag.number?.map fun x => .float x.narrow
  | .double, tag => tag.number?.map .double
  | .boolean, .byte b => some (.boolean (b != 0))
  | .string, .string s => some (.string s)
  | .vec3, .compound entries => (Vec3.ofCompound? entries).map .vec3
  | .uuid, .compound entries => (Compound.uuid? entries Compound.uuidKey).map .uuid
  | .entitySelector, .string s => some (.entitySelector s)
  | .dimension, .string s => some (.dimension s)
  | _, _ => none

def decodeTag (kind : Kind) (key : String) (tag : Tag) : Except DecodeError Value :=
  match kind.ofTag? tag with
  | some value => .ok value
  | none => .error (.mismatch key kind.displayName tag.kindName)

end Kind

/-! ## By form -/

namespace Value

def ofText (s : String) : Value :=
  match Uuid.parse? s with
  | some u => .uuid u
  | none => .string s

def intOfNumber? : Json.Number → Option Int32
  | .integer i =>
    if -2147483648 ≤ i ∧ i ≤ 2147483647 then some (Int32.ofInt i) else none
  | .real x =>
    if (Binary.ofInt .double (-2147483648)).le x && x.le (Binary.ofInt .double 2147483647) then
      some x.toInt32
    else none

/-- Decodes a JSON value by its form; `literal` is the value as written. A number with a decimal
    point is a double, any other number an integer. -/
def ofJson (key : String) (json : Json) (literal : List Char) : Except DecodeError Value :=
  match json with
  | .number n =>
    if literal.contains '.' then .ok (.double n.toDouble)
    else
      match intOfNumber? n with
      | some i => .ok (.int i)
      | none => .error (.outOfRange key (String.ofList literal))
  | .bool b => .ok (.boolean b)
  | .string s => .ok (ofText s)
  | .array _ => Kind.vec3.decodeText key json
  | .null | .object _ =>
    .error (.mismatch key "number, boolean, string or 3-element array" json.kindName)

/-- The value that a compound stands for: a position if it has three numeric coordinates, an id
    if it holds an id and nothing else, or else itself. -/
def ofCompound (entries : Compound) : Value :=
  match Vec3.ofCompound? entries with
  | some v => .vec3 v
  | none =>
    match entries with
    | [_] =>
      match Compound.uuid? entries Compound.uuidKey with
      | some u => .uuid u
      | none => .compound entries
    | _ => .compound entries

def ofTag (key : String) (tag : Tag) : Except DecodeError Value :=
  match tag with
  | .int v => .ok (.int v)
  | .float v => .ok (.float v)
  | .double v => .ok (.double v)
  | .string s => .ok (.string s)
  | .byte b => .ok (.boolean (b != 0))
  | .compound entries => .ok (ofCompound entries)
  | .long _ | .intArray _ => .error (.unsupportedTag key tag.kindName)

end Value

end Spellcraft
