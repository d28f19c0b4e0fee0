import Spellcraft.Record
import Spellcraft.Uuid

/-! # Tags

Spell parameters are stored and sent as a tree of tags. A *compound* is a record of named tags
in insertion order; it also carries the two structured values:

* a position is a compound of the three doubles `x`, `y` and `z`;
* a unique id is a compound whose single entry `value` holds four 32-bit words.
-/

namespace Spellcraft

/-- A tag: one primitive value, or a compound of named tags. -/
inductive Tag where
  | byte (value : Int8)
  | int (value : Int32)
  | long (value : Int64)
  | float (value : Binary32)
  | double (value : Binary64)
  | string (value : String)
  | intArray (words : List Int32)
  | compound (entries : List (String × Tag))

abbrev Compound := Entries Tag

namespace Tag

def typeId : Tag → Nat
  | .byte _ => 1
  | .int _ => 3
  | .long _ => 4
  | .float _ => 5
  | .double _ => 6
  | .string _ => 8
  | .compound _ => 10
  | .intArray _ => 11

def kindName : Tag → String
  | .byte _ => "byte"
  | .int _ => "int"
  | .long _ => "long"
  | .float _ => "float"
  | .double _ => "double"
  | .string _ => "string"
  | .compound _ => "compound"
  | .intArray _ => "int_array"

def number? : Tag → Option Binary64
  | .byte v => some (Binary.ofInt .double v.toInt)
  | .int v => some (Binary.ofInt .double v.toInt)
  | .long v => some (Binary.ofInt .double v.toInt)
  | .float v => some v.widen
  | .double v => some v
  | .string _ | .intArray _ | .compound _ => none

def ofBool (b : Bool) : Tag := .byte (if b then 1 else 0)

def ofUuid (u : Uuid) : Tag := .intArray u.words

def uuid? : Tag → Option Uuid
  | .intArray words => Uuid.ofWords? words
  | _ => none

end Tag

namespace Compound

def uuidKey : String := "value"

def number? (c : Compound) (key : String) : Option Binary64 :=
  (Entries.find? c key).bind Tag.number?

def uuid? (c : Compound) (key : String) : Option Uuid :=
  (Entries.find? c key).bind Tag.uuid?

def ofUuid (u : Uuid) : Compound := [(uuidKey, .ofUuid u)]

end Compound

structure Vec3 where
  x : Binary64
  y : Binary64
  z : Binary64
  deriving DecidableEq

namespace Vec3

/-- Reads a compound whose entries `x`, `y` and `z` are all numeric. -/
def ofCompound? (c : Compound) : Option Vec3 := do
  return ⟨← Compound.number? c "x", ← Compound.number? c "y", ← Compound.number? c "z"⟩

def toCompound (v : Vec3) : Compound :=
  [("x", .double v.x), ("y", .double v.y), ("z", .double v.z)]

def text (v : Vec3) : String :=
  "(" ++ v.x.text ++ ", " ++ v.y.text ++ ", " ++ v.z.text ++ ")"

/-- The distance from the origin, each operation rounded in turn. -/
def length (v : Vec3) : Binary64 :=
  (v.x * v.x + v.y * v.y + v.z * v.z).sqrt

end Vec3

end Spellcraft
