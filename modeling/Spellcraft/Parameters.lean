import Spellcraft.Tag.Bytes
import Spellcraft.Value.Decode

/-! # Parameters of a cast

A cast takes named values, in order and without repetition. They are decoded from text
(`Parameters.ofText`), from tags (`Parameters.ofCompound`) or from bytes, and written back as
tags or bytes.

Parameters that came out of schema validation say so, until they are changed.
-/

namespace Spellcraft

/-- Named values, and whether they are the unchanged result of a validation. -/
structure Parameters where
  values : Record Value
  validated : Bool := false

namespace Parameters

def empty : Parameters := ⟨Record.empty, false⟩

instance : Inhabited Parameters := ⟨empty⟩
instance : EmptyCollection Parameters := ⟨empty⟩

def ofList (pairs : List (String × Value)) : Parameters := ⟨Record.ofList pairs, false⟩

def ofValidated (values : Record Value) : Parameters := ⟨values, true⟩

def entries (p : Parameters) : Entries Value := p.values.entries

def keys (p : Parameters) : List String := p.values.keys

def find? (p : Parameters) (key : String) : Option Value := p.values.find? key

theorem find?_ofList_singleton (key : String) (value : Value) :
    (ofList [(key, value)]).find? key = some value :=
  Entries.find?_put_self [] key value

/-- Writes a value, which makes the parameters unvalidated. -/
def put (p : Parameters) (key : String) (value : Value) : Parameters :=
  ⟨p.values.put key value, false⟩

/-! ## Typed lookups -/

def getInt (p : Parameters) (key : String) (default : Int32) : Int32 :=
  ((p.find? key).bind Value.toInt?).getD default

def getFloat (p : Parameters) (key : String) (default : Binary32) : Binary32 :=
  ((p.find? key).bind Value.toFloat?).getD default

def getDouble (p : Parameters) (key : String) (default : Binary64) : Binary64 :=
  ((p.find? key).bind Value.toDouble?).getD default

def bool? (p : Parameters) (key : String) : Option Bool := (p.find? key).bind Value.toBool?

def getString (p : Parameters) (key : String) (default : String) : String :=
  ((p.find? key).bind Value.toString?).getD default

def vec3? (p : Parameters) (key : String) : Option Vec3 := (p.find? key).bind Value.toVec3?

def uuid? (p : Parameters) (key : String) : Option Uuid := (p.find? key).bind Value.toUuid?

/-! ## Text -/

def decodeRaw (key : String) (raw : List Char) : Except DecodeError Value :=
  match Json.parse? raw with
  | some json => Value.ofJson key json raw
  | none => .error .malformedText

def decodeAll {α : Type} (decode : String → α → Except DecodeError Value) :
    List (String × α) → Except DecodeError (List (String × Value))
  | [] => .ok []
  | (key, raw) :: rest =>
    match decode key raw with
    | .error e => .error e
    | .ok value =>
      match decodeAll decode rest with
      | .error e => .error e
      | .ok values => .ok ((key, value) :: values)

/-- Decodes parameter text: nothing, or a JSON object. Where a name is repeated, only its last
    value is looked at. -/
def ofText (text : String) : Except DecodeError Parameters :=
  if isBlankText text then .ok empty
  else
    match Json.splitObject text.toList with
    | some members =>
      match decodeAll decodeRaw (Entries.ofList members) with
      | .ok values => .ok (ofList values)
      | .error e => .error e
    | none =>
      match Json.parse? text.toList with
      | some root => .error (.notAnObject root.kindName)
      | none => .error .malformedText

/-! ## Tags and bytes -/

def ofCompound (c : Compound) : Except DecodeError Parameters :=
  match decodeAll Value.ofTag c with
  | .ok values => .ok (ofList values)
  | .error e => .error e

def toCompound (p : Parameters) : Compound := (p.values.filterMap Value.toTag?).entries

def ofBytes (bytes : List UInt8) : Except DecodeError Parameters :=
  match Compound.ofBytes? bytes with
  | some c => ofCompound c
  | none => .error .malformedBytes

def toBytes (p : Parameters) : List UInt8 := Compound.toBytes p.toCompound

end Parameters

end Spellcraft
