import Spellcraft.Tag
import Spellcraft.Text.Blank

/-! # Kinds and values of parameters

A schema field declares one of nine kinds; a parameter holds a dynamically typed value.

* `Kind.isValid` says which values a field of a kind accepts;
* `Kind.normalize` turns an accepted value into the one form that the kind stores;
* `Value.toTag?` is the stored form of a value.

Numbers are accepted by every numeric kind and by truth values, ids also as canonical text, and
the three text kinds take the text of anything.
-/

namespace Spellcraft

inductive Kind where
  | int
  | float
  | double
  | string
  | boolean
  | vec3
  | uuid
  | entitySelector
  | dimension
  deriving DecidableEq

namespace Kind

def all : List Kind :=
  [.int, .float, .double, .string, .boolean, .vec3, .uuid, .entitySelector, .dimension]

def name : Kind → String
  | .int => "int"
  | .float => "float"
  | .double => "double"
  | .string => "string"
  | .boolean => "boolean"
  | .vec3 => "vec3"
  | .uuid => "uuid"
  | .entitySelector => "entity_selector"
  | .dimension => "dimension"

def displayName : Kind → String
  | .int => "integer"
  | .float => "float"
  | .double => "double"
  | .string => "string"
  | .boolean => "boolean"
  | .vec3 => "3D vector"
  | .uuid => "entity UUID"
  | .entitySelector => "entity selector"
  | .dimension => "dimension"

def ofName? (text : String) : Option Kind :=
  all.find? fun kind => kind.name == asciiLower text

end Kind

inductive Value where
  | int (value : Int32)
  | float (value : Binary32)
  | double (value : Binary64)
  | boolean (value : Bool)
  | string (value : String)
  | vec3 (value : Vec3)
  | uuid (value : Uuid)
  | entitySelector (value : String)
  | dimension (value : String)
  /-- A compound that is passed through without being understood. -/
  | compound (entries : Compound)

namespace Value

def kind? : Value → Option Kind
  | .int _ => some .int
  | .float _ => some .float
  | .double _ => some .double
  | .boolean _ => some .boolean
  | .string _ => some .string
  | .vec3 _ => some .vec3
  | .uuid _ => some .uuid
  | .entitySelector _ => some .entitySelector
  | .dimension _ => some .dimension
  | .compound _ => none

def isNumeric : Value → Bool
  | .int _ | .float _ | .double _ => true
  | _ => false

/-! ## Typed views -/

def toDouble? : Value → Option Binary64
  | .int v => some (Binary.ofInt .double v.toInt)
  | .float v => some v.widen
  | .double v => some v
  | _ => none

/-- A number as a 32-bit integer, truncated and clamped. -/
def toInt? : Value → Option Int32
  | .int v => some v
  | other => other.toDouble?.map Binary.toInt32

def toFloat? (v : Value) : Option Binary32 := v.toDouble?.map Binary.narrow

def toBool? : Value → Option Bool
  | .boolean b => some b
  | _ => none

def toString? : Value → Option String
  | .string s | .entitySelector s | .dimension s => some s
  | _ => none

def toVec3? : Value → Option Vec3
  | .vec3 v => some v
  | _ => none

def toUuid? : Value → Option Uuid
  | .uuid u => some u
  | .string s => Uuid.parse? s
  | _ => none

/-! ## Text and tags -/

/-- The text of a value. Of a compound only the names are shown. -/
def text : Value → String
  | .int v => toString v.toInt
  | .float v => v.text
  | .double v => v.text
  | .boolean b => if b then "true" else "false"
  | .string s | .entitySelector s | .dimension s => s
  | .vec3 v => v.text
  | .uuid u => u.text
  | .compound entries => "\x7b" ++ ", ".intercalate (Entries.keys entries) ++ "\x7d"

/-- The stored form of a value. A compound is not stored, and the kinds of text are not told
    apart. -/
def toTag? : Value → Option Tag
  | .int v => some (.int v)
  | .float v => some (.float v)
  | .double v => some (.double v)
  | .boolean b => some (.ofBool b)
  | .string s | .entitySelector s | .dimension s => some (.string s)
  | .vec3 v => some (.compound v.toCompound)
  | .uuid u => some (.compound (Compound.ofUuid u))
  | .compound _ => none

end Value

namespace Kind

def isValid (kind : Kind) (value : Value) : Bool :=
  match kind with
  | .int | .float | .double => value.isNumeric
  | .boolean => value.toBool?.isSome || value.isNumeric
  | .vec3 => value.toVec3?.isSome
  | .uuid => value.toUuid?.isSome
  | .string | .entitySelector | .dimension => true

def normalize (kind : Kind) (value : Value) : Option Value :=
  match kind with
  | .int => value.toInt?.map .int
  | .float => value.toFloat?.map .float
  | .double => value.toDouble?.map .double
  | .boolean =>
    match value with
    | .boolean b => some (.boolean b)
    | other => other.toDouble?.map fun x => .boolean (x.toInt32 != 0)
  | .vec3 => value.toVec3?.map .vec3
  | .uuid => value.toUuid?.map .uuid
  | .string => some (.string value.text)
  | .entitySelector => some (.entitySelector value.text)
  | .dimension => some (.dimension value.text)

theorem normalize_isSome (kind : Kind) (value : Value) :
    (kind.normalize value).isSome = kind.isValid value := by
  cases kind <;> cases value <;>
    simp [normalize, isValid, Value.isNumeric, Value.toInt?, Value.toFloat?, Value.toDouble?,
      Value.toBool?, Value.toVec3?, Value.toUuid?]

end Kind

end Spellcraft
