import Spellcraft.Tag

/-! # Tags as bytes

A compound is written little endian, without padding:

* a fixed-width number takes its own width;
* a text, a list and a compound start with their length as eight bytes;
* a tag starts with the number of its variant as four bytes, counted in the order byte, int,
  long, float, double, string, int array, compound.

Readers return the value and the bytes that follow it, so whatever comes after a compound is
not looked at. Reading fails on missing bytes, an unknown variant and text that is not UTF-8.
-/

namespace Spellcraft

/-! ## Writing -/

def littleEndian : Nat → Nat → List UInt8
  | 0, _ => []
  | count + 1, n => UInt8.ofNat n :: littleEndian count (n / 256)

def textBytes (s : String) : List UInt8 :=
  littleEndian 8 s.toUTF8.data.toList.length ++ s.toUTF8.data.toList

mutual

def Tag.toBytes : Tag → List UInt8
  | .byte v => littleEndian 4 0 ++ littleEndian 1 v.toUInt8.toNat
  | .int v => littleEndian 4 1 ++ littleEndian 4 v.toUInt32.toNat
  | .long v => littleEndian 4 2 ++ littleEndian 8 v.toUInt64.toNat
  | .float v => littleEndian 4 3 ++ littleEndian 4 v.bits
  | .double v => littleEndian 4 4 ++ littleEndian 8 v.bits
  | .string s => littleEndian 4 5 ++ textBytes s
  | .intArray words =>
    littleEndian 4 6 ++ littleEndian 8 words.length
      ++ words.flatMap fun w => littleEndian 4 w.toUInt32.toNat
  -- a compound inside a tag carries its own length like any other
  | .compound entries =>
    littleEndian 4 7 ++ (littleEndian 8 entries.length ++ Compound.entryBytes entries)

def Compound.entryBytes : List (String × Tag) → List UInt8
  | [] => []
  | (key, tag) :: rest => textBytes key ++ tag.toBytes ++ Compound.entryBytes rest

end

def Compound.toBytes (c : Compound) : List UInt8 :=
  littleEndian 8 c.length ++ Compound.entryBytes c

/-! ## Reading -/

abbrev ByteReader (α : Type) := List UInt8 → Option (α × List UInt8)

namespace ByteReader

def littleEndian : Nat → ByteReader Nat
  | 0, bytes => some (0, bytes)
  | _ + 1, [] => none
  | count + 1, b :: bytes =>
    match littleEndian count bytes with
    | some (n, rest) => some (b.toNat + 256 * n, rest)
    | none => none

def take (count : Nat) : ByteReader (List UInt8) := fun bytes =>
  if count ≤ bytes.length then some (bytes.take count, bytes.drop count) else none

def text : ByteReader String := fun bytes =>
  match littleEndian 8 bytes with
  | none => none
  | some (count, bytes) =>
    match take count bytes with
    | none => none
    | some (raw, rest) =>
      match String.fromUTF8? (ByteArray.mk raw.toArray) with
      | some s => some (s, rest)
      | none => none

def many {α : Type} (item : ByteReader α) : Nat → ByteReader (List α)
  | 0, bytes => some ([], bytes)
  | count + 1, bytes =>
    match item bytes with
    | none => none
    | some (a, bytes) =>
      match many item count bytes with
      | some (as, rest) => some (a :: as, rest)
      | none => none

def int32 : ByteReader Int32 := fun bytes =>
  match littleEndian 4 bytes with
  | some (n, rest) => some ((UInt32.ofNat n).toInt32, rest)
  | none => none

def counted {α : Type} (item : ByteReader α) : ByteReader (List α) := fun bytes =>
  match littleEndian 8 bytes with
  | some (count, bytes) => many item count bytes
  | none => none

def entry {α : Type} (item : ByteReader α) : ByteReader (String × α) := fun bytes =>
  match text bytes with
  | none => none
  | some (key, bytes) =>
    match item bytes with
    | some (a, rest) => some ((key, a), rest)
    | none => none

def map {α β : Type} (g : α → β) (reader : ByteReader α) : ByteReader β := fun bytes =>
  match reader bytes with
  | some (a, rest) => some (g a, rest)
  | none => none

/-- Reads the content of a tag of the given variant; `nested` reads the tags inside a compound. -/
def content (nested : ByteReader Tag) (variant : Nat) : ByteReader Tag :=
  match variant with
  | 0 => map (fun n => .byte (UInt8.ofNat n).toInt8) (littleEndian 1)
  | 1 => map .int int32
  | 2 => map (fun n => .long (UInt64.ofNat n).toInt64) (littleEndian 8)
  | 3 => map (fun n => .float (Binary.ofBits .single n)) (littleEndian 4)
  | 4 => map (fun n => .double (Binary.ofBits .double n)) (littleEndian 8)
  | 5 => map .string text
  | 6 => map .intArray (counted int32)
  | 7 => map (fun pairs => .compound (Entries.ofList pairs)) (counted (entry nested))
  | _ => fun _ => none

def tag : Nat → ByteReader Tag
  | 0 => fun _ => none
  | depth + 1 => fun bytes =>
    match littleEndian 4 bytes with
    | some (variant, bytes) => content (tag depth) variant bytes
    | none => none

end ByteReader

/-- Reads a compound off the front of some bytes. Every level of nesting takes at least four
    bytes, so the number of bytes bounds the depth. -/
def Compound.ofBytes? (bytes : List UInt8) : Option Compound :=
  match ByteReader.counted (ByteReader.entry (ByteReader.tag bytes.length)) bytes with
  | some (pairs, _) => some (Entries.ofList pairs)
  | none => none

end Spellcraft
