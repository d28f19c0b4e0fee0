import Spellcraft.Text.Reader
import Spellcraft.Number.Decimal

/-! # JSON numbers

A number literal is an optional minus, whole digits without a leading zero, and optionally a
fraction and an exponent. Its value is

* an integer, if it has neither fraction nor exponent and fits 64 bits, signed or unsigned;
* otherwise a double. The leading digits that fit 64 bits make the significand, all further
  digits only move the decimal point; the significand is rounded to a double and then
  multiplied or divided by a power of ten, itself rounded to a double.

The last rule is close to, but not always, the double nearest to the literal. A literal too
large for a double has no value. Minus zero is a double, since no integer is negative zero.
-/

namespace Spellcraft.Json

structure NumberLiteral where
  negative : Bool
  whole : List Char
  fraction : Option (List Char)
  exponent : Option (Bool × List Char)

inductive Number where
  | integer (value : Int)
  | real (value : Binary64)
  deriving DecidableEq

namespace NumberLiteral

/-! ## Reading -/

def readDigits : Reader (List Char) := fun cs =>
  match cs.takeWhile isDigit with
  | [] => none
  | digits => some (digits, cs.dropWhile isDigit)

def readWhole : Reader (List Char) := fun cs =>
  match readDigits cs with
  | some ('0' :: _ :: _, _) => none
  | other => other

def readFraction : Reader (Option (List Char)) := fun
  | '.' :: cs =>
    match readDigits cs with
    | some (digits, rest) => some (some digits, rest)
    | none => none
  | cs => some (none, cs)

def readSignedDigits : Reader (Bool × List Char) := fun cs =>
  let (negative, cs) := match cs with
    | '-' :: cs => (true, cs)
    | '+' :: cs => (false, cs)
    | cs => (false, cs)
  match readDigits cs with
  | some (digits, rest) => some ((negative, digits), rest)
  | none => none

def readExponent : Reader (Option (Bool × List Char)) := fun
  | c :: cs =>
    if c = 'e' ∨ c = 'E' then
      match readSignedDigits cs with
      | some (e, rest) => some (some e, rest)
      | none => none
    else some (none, c :: cs)
  | [] => some (none, [])

def read : Reader NumberLiteral := fun cs =>
  let (negative, cs) := match cs with
    | '-' :: cs => (true, cs)
    | cs => (false, cs)
  match readWhole cs with
  | none => none
  | some (whole, cs) =>
    match readFraction cs with
    | none => none
    | some (fraction, cs) =>
      match readExponent cs with
      | none => none
      | some (exponent, cs) => some (⟨negative, whole, fraction, exponent⟩, cs)

/-! ## Value -/

/-- Appends digits to a significand as long as it fits 64 bits, and returns the digits left. -/
def takeDigits (significand : Nat) : List Char → Nat × List Char
  | [] => (significand, [])
  | c :: cs =>
    let next := significand * 10 + (c.toNat - 48)
    if fits64 next then takeDigits next cs else (significand, c :: cs)

def tenTo (n : Nat) : Binary64 := Binary.ofRatio .double false (Nat.pow 10 n) 1

/-- Scales a double by a power of ten, in steps that have a power in range. Two steps down take
    every significand to zero, so `steps = 3` answers all of them. -/
def scale (x : Binary64) (exponent : Int) : Nat → Option Binary64
  | 0 => some x
  | steps + 1 =>
    if exponent.natAbs ≤ 308 then
      if 0 ≤ exponent then
        let product := x * tenTo exponent.natAbs
        if product.isInfinite then none else some product
      else some (x / tenTo exponent.natAbs)
    else if x.units = 0 then some x
    else if 0 ≤ exponent then none
    else scale (x / tenTo 308) (exponent + 308) steps

def writtenExponent (l : NumberLiteral) : Int :=
  match l.exponent with
  | some (true, digits) => -(digitsValue 10 digits : Int)
  | some (false, digits) => digitsValue 10 digits
  | none => 0

def real? (l : NumberLiteral) : Option Binary64 :=
  let (significand, dropped) := takeDigits 0 l.whole
  -- a fraction still adds digits that fit, even where whole digits were dropped
  let digits := l.fraction.getD []
  let (significand, ignored) := takeDigits significand digits
  let point : Int := (dropped.length : Int) - ((digits.length - ignored.length : Nat) : Int)
  match scale (Binary.ofInt .double significand) (point + l.writtenExponent) 3 with
  | some x => some (if l.negative then -x else x)
  | none => none

def integer (l : NumberLiteral) : Int :=
  let n : Int := digitsValue 10 l.whole
  if l.negative then -n else n

def isInteger (l : NumberLiteral) : Bool := l.fraction.isNone && l.exponent.isNone

def value? (l : NumberLiteral) : Option Number :=
  if l.isInteger && fits64 l.integer && !(l.negative && l.integer == 0) then
    some (.integer l.integer)
  -- minus zero and integers beyond 64 bits are doubles like all the rest
  else l.real?.map .real

end NumberLiteral

namespace Number

def toDouble : Number → Binary64
  | .integer i => Binary.ofInt .double i
  | .real x => x

def toInt32 : Number → Int32
  | .integer i => clamp32 i
  | .real x => x.toInt32

end Number

end Spellcraft.Json
