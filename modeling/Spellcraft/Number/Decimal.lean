import Spellcraft.Number.Binary

/-! # Decimal text of binary numbers

Reading: a decimal `digits · 10^exponent` is rounded once, exactly (`Binary.ofDecimal`).

Writing comes in two forms, both positional, never with an exponent:

* `Binary.text` — the fewest digits that read back as the same number, and of those the nearest;
  an exact tie goes up;
* `Binary.textTenths` — one digit after the point, exact ties to the even digit.

The shortest digits are searched on decimal grids, coarsest first. If a point of a grid lies
between the midpoints to the two neighbouring numbers, one of the two grid points around the
number does, so only those two are looked at.
-/

namespace Spellcraft

/-! ## Digits -/

def digitValue? (base : Nat) (c : Char) : Option Nat :=
  let n := c.toNat
  let digit :=
    if 48 ≤ n ∧ n ≤ 57 then some (n - 48)
    else if 97 ≤ n ∧ n ≤ 122 then some (n - 87)
    else if 65 ≤ n ∧ n ≤ 90 then some (n - 55)
    else none
  digit.filter (· < base)

def isDigit (c : Char) : Bool := 48 ≤ c.toNat && c.toNat ≤ 57

/-- The natural number that digit characters of a base write; other characters are skipped. -/
def digitsValue (base : Nat) (cs : List Char) : Nat :=
  cs.foldl (fun n c => match digitValue? base c with
    | some d => n * base + d
    | none => n) 0

def decimalDigits (n : Nat) : List Char := Nat.toDigits 10 n

/-! ## Reading -/

namespace Binary

/-- The number nearest to `digits · 10^exponent`. Exponents so large or small that every number
    of a known length overflows or vanishes are answered without forming the power. -/
def ofDecimal (f : BinaryFormat) (negative : Bool) (digits : Nat) (exponent : Int) : Binary f :=
  if digits = 0 then ofMagnitude f negative 0
  else
    let lead := exponent + (decimalDigits digits).length
    -- the value lies between 10^(lead - 1) and 10^lead
    if 400 < lead then infinite f negative
    else if lead < -400 then ofMagnitude f negative 0
    else if 0 ≤ exponent then ofRatio f negative (digits * Nat.pow 10 exponent.toNat) 1
    else ofRatio f negative digits (Nat.pow 10 (-exponent).toNat)

end Binary

/-! ## Writing -/

structure Decimal where
  digits : Nat
  exponent : Int
  deriving DecidableEq

namespace Decimal

def text (d : Decimal) : String :=
  let digits := decimalDigits d.digits
  if 0 ≤ d.exponent then
    String.ofList (digits ++ List.replicate d.exponent.toNat '0')
  else
    let places := (-d.exponent).toNat
    let padded := List.replicate (places + 1 - digits.length) '0' ++ digits
    let whole := padded.length - places
    String.ofList (padded.take whole ++ '.' :: padded.drop whole)

end Decimal

/-- A positive value `num / den` and the two bounds `low / den`, `high / den` of the reals that
    round to it; `closed` tells whether the bounds themselves do. -/
structure RoundingInterval where
  low : Nat
  num : Nat
  high : Nat
  den : Nat
  closed : Bool

namespace RoundingInterval

def scale (r : RoundingInterval) (power : Int) : RoundingInterval :=
  if 0 ≤ power then
    let p := Nat.pow 10 power.toNat
    { r with low := r.low * p, num := r.num * p, high := r.high * p }
  else { r with den := r.den * Nat.pow 10 (-power).toNat }

def contains (r : RoundingInterval) (n : Nat) : Bool :=
  let v := n * r.den
  if r.closed then r.low ≤ v && v ≤ r.high else r.low < v && v < r.high

/-- The point of the integer grid inside the interval that is nearest to the value, if one of
    the two around the value is inside. -/
def gridPoint? (r : RoundingInterval) : Option Nat :=
  let below := r.num / r.den
  let above := below + 1
  match r.contains below && below != 0, r.contains above with
  -- both are inside: the nearer one, or the upper one of a tie
  | true, true => if 2 * r.num < (below + above) * r.den then some below else some above
  | true, false => some below
  | false, true => some above
  | false, false => none

def leadingExponent (r : RoundingInterval) : Int :=
  ((decimalDigits (r.num * Nat.pow 10 400 / r.den)).length : Int) - 401

def search (r : RoundingInterval) : Nat → Int → Decimal
  | 0, exponent => ⟨(r.scale (-exponent)).num / (r.scale (-exponent)).den, exponent⟩
  | fuel + 1, exponent =>
    match (r.scale (-exponent)).gridPoint? with
    | some n => ⟨n, exponent⟩
    | none => search r fuel (exponent - 1)

/-- The shortest decimal in the interval, starting with one digit more than the value has before
    its leading digit, since rounding up may carry. -/
def shortest (r : RoundingInterval) : Decimal :=
  r.search 18 (r.leadingExponent + 1)

end RoundingInterval

namespace Binary

variable {f : BinaryFormat}

/-- The reals that round to a positive finite number: up to the midpoints to its neighbours,
    which belong to it if its last bit is even. -/
def roundingInterval (x : Binary f) : RoundingInterval where
  low := f.units (x.magnitude - 1) + x.units
  num := 2 * x.units
  high := x.units + f.units (x.magnitude + 1)
  den := 2 * f.one
  closed := x.magnitude % 2 = 0

def signed (x : Binary f) (text : String) : String :=
  if x.negative then "-" ++ text else text

def text (x : Binary f) : String :=
  if x.isNaN then "NaN"
  else if x.isInfinite then x.signed "inf"
  else if x.units = 0 then x.signed "0"
  else x.signed x.roundingInterval.shortest.text

def textTenths (x : Binary f) : String :=
  if x.isNaN then "NaN"
  else if x.isInfinite then x.signed "inf"
  else x.signed (Decimal.text ⟨roundHalfEven (x.units * 10) f.one, -1⟩)

end Binary

end Spellcraft
