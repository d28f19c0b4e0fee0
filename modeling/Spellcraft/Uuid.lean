import Spellcraft.Number.Decimal

/-! # Unique ids

A unique id is a 128-bit number with two written forms:

* canonical text — 32 hexadecimal digits in groups of 8, 4, 4, 4 and 12, joined by hyphens;
  either case is read, small letters are written;
* four 32-bit words, the most significant first, which is how tags store it.
-/

namespace Spellcraft

structure Uuid where
  value : Nat
  isLt : value < 0x100000000000000000000000000000000
  deriving DecidableEq

namespace Uuid

@[ext] theorem ext {a b : Uuid} (h : a.value = b.value) : a = b := by
  cases a; cases b; cases h; rfl

def nil : Uuid := ⟨0, by decide⟩

instance : Inhabited Uuid := ⟨nil⟩

def ofNat (n : Nat) : Uuid :=
  ⟨n % 0x100000000000000000000000000000000, Nat.mod_lt _ (by decide)⟩

/-! ## Words -/

def words (u : Uuid) : List Int32 :=
  [u.value >>> 96, u.value >>> 64, u.value >>> 32, u.value].map
    fun n => (UInt32.ofNat n).toInt32

def ofWords? : List Int32 → Option Uuid
  | [a, b, c, d] =>
    some (ofNat ((a.toUInt32.toNat <<< 96) + (b.toUInt32.toNat <<< 64)
      + (c.toUInt32.toNat <<< 32) + d.toUInt32.toNat))
  | _ => none

/-! ## Canonical text -/

def hexDigit (n : Nat) : Char :=
  if n < 10 then Char.ofNat (48 + n) else Char.ofNat (87 + n)

def hexDigits : Nat → Nat → List Char
  | 0, _ => []
  | count + 1, n => hexDigits count (n / 16) ++ [hexDigit (n % 16)]

def text (u : Uuid) : String :=
  String.ofList (hexDigits 8 (u.value >>> 96) ++ '-' :: hexDigits 4 (u.value >>> 80) ++
    '-' :: hexDigits 4 (u.value >>> 64) ++ '-' :: hexDigits 4 (u.value >>> 48) ++
    '-' :: hexDigits 12 u.value)

def readHex : Nat → Nat → List Char → Option (Nat × List Char)
  | 0, n, cs => some (n, cs)
  | _ + 1, _, [] => none
  | count + 1, n, c :: cs =>
    match digitValue? 16 c with
    | some d => readHex count (n * 16 + d) cs
    | none => none

/-- Reads groups of hexadecimal digits of the given lengths, joined by hyphens, to the end. -/
def readGroups : List Nat → Nat → List Char → Option Nat
  | [], n, [] => some n
  | [], _, _ :: _ => none
  | count :: rest, n, cs =>
    match readHex count n cs with
    | none => none
    | some (n, cs) =>
      match rest, cs with
      | [], _ => readGroups [] n cs
      | next :: more, '-' :: cs => readGroups (next :: more) n cs
      | _ :: _, _ => none

def parse? (text : String) : Option Uuid :=
  (readGroups [8, 4, 4, 4, 12] 0 text.toList).map ofNat

/-! ## Other written forms -/

def parseDigits? (cs : List Char) : Option Uuid := (readGroups [32] 0 cs).map ofNat

/-- Reads canonical text, or the digits alone, or canonical text in braces or after `urn:uuid:`. -/
def parseAny? (text : String) : Option Uuid :=
  let cs := text.toList
  match parse? text, parseDigits? cs, cs with
  | some u, _, _ => some u
  | none, some u, _ => some u
  | none, none, '\x7b' :: inner =>
    if inner.getLast? = some '\x7d' then parse? (String.ofList inner.dropLast) else none
  | none, none, 'u' :: 'r' :: 'n' :: ':' :: 'u' :: 'u' :: 'i' :: 'd' :: ':' :: inner =>
    parse? (String.ofList inner)
  | none, none, _ => none

end Uuid

end Spellcraft
