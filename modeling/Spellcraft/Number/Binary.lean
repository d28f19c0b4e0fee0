import Spellcraft.Number.Clamp
import Spellcraft.Number.Rounding

/-! # Binary floating-point numbers

A number of a binary interchange format is kept as its bits, so that every NaN payload and
both zeros stay apart. Arithmetic is exact integer arithmetic followed by one rounding:

* a *unit* is the smallest positive number of the format, and every finite number is a whole
  number of units (`BinaryFormat.units`), so sums and comparisons happen on integers;
* `BinaryFormat.round` takes a quotient of units to the bits of the nearest number, a half
  going to the even neighbour and everything too large to infinity.

The two formats in use are `Binary64` and `Binary32`.
-/

namespace Spellcraft

/-- A binary interchange format: bits of the significand, the leading one included, and bits of
    the exponent field. -/
structure BinaryFormat where
  precision : Nat
  exponentBits : Nat
  deriving DecidableEq

namespace BinaryFormat

def double : BinaryFormat := ⟨53, 11⟩

def single : BinaryFormat := ⟨24, 8⟩

variable (f : BinaryFormat)

/-- What one step of the exponent field adds to the bits. -/
def step : Nat := Nat.pow 2 (f.precision - 1)

/-- The bits of positive infinity; larger magnitudes are NaNs. -/
def infinity : Nat := (Nat.pow 2 f.exponentBits - 1) * f.step

def signWeight : Nat := Nat.pow 2 f.exponentBits * f.step

def one : Nat := Nat.pow 2 (Nat.pow 2 (f.exponentBits - 1) + f.precision - 3)

/-- The value of a magnitude, in units: a zero exponent field counts units directly, any other
    field restores the leading bit and doubles per step. -/
def units (magnitude : Nat) : Nat :=
  let field := magnitude / f.step
  if field = 0 then magnitude
  else (magnitude % f.step + f.step) * Nat.pow 2 (field - 1)

/-- The magnitude nearest to `num / den` units. The shift drops the bits beyond the precision;
    rounding up past a power of two carries into the exponent field by itself. -/
def round (num den : Nat) : Nat :=
  let shift := (num / den).log2 + 1 - f.precision
  -- a magnitude is its field times a step plus the significand, whose leading bit counts as a step
  min (shift * f.step + roundHalfEven num (den * Nat.pow 2 shift)) f.infinity

end BinaryFormat

structure Binary (f : BinaryFormat) where
  bits : Nat
  isLt : bits < 2 * f.signWeight
  deriving DecidableEq

abbrev Binary64 := Binary .double

abbrev Binary32 := Binary .single

namespace Binary

variable {f g : BinaryFormat}

theorem signWeight_pos (f : BinaryFormat) : 0 < f.signWeight :=
  Nat.mul_pos (Nat.two_pow_pos _) (Nat.two_pow_pos _)

def ofBits (f : BinaryFormat) (n : Nat) : Binary f :=
  ⟨n % (2 * f.signWeight), Nat.mod_lt _ (by have := signWeight_pos f; omega)⟩

theorem ofBits_bits (x : Binary f) : ofBits f x.bits = x := by
  cases x with
  | mk bits isLt => simp [ofBits, Nat.mod_eq_of_lt isLt]

def ofMagnitude (f : BinaryFormat) (negative : Bool) (magnitude : Nat) : Binary f :=
  ofBits f (cond negative f.signWeight 0 + magnitude)

def negative (x : Binary f) : Bool := f.signWeight ≤ x.bits

def magnitude (x : Binary f) : Nat := x.bits % f.signWeight

def isNaN (x : Binary f) : Bool := f.infinity < x.magnitude

def isInfinite (x : Binary f) : Bool := x.magnitude = f.infinity

/-- The absolute value in units. For an infinity this is the power of two that follows the
    largest finite number, so order on `value` is the order of numbers. -/
def units (x : Binary f) : Nat := f.units x.magnitude

def value (x : Binary f) : Int := if x.negative then -(x.units : Int) else x.units

def zero (f : BinaryFormat) : Binary f := ofBits f 0

instance : Inhabited (Binary f) := ⟨zero f⟩

def nan (f : BinaryFormat) : Binary f := ofBits f (f.infinity + f.step / 2)

def infinite (f : BinaryFormat) (negative : Bool) : Binary f :=
  ofMagnitude f negative f.infinity

def ofUnits (f : BinaryFormat) (negative : Bool) (num den : Nat) : Binary f :=
  ofMagnitude f negative (f.round num den)

def ofRatio (f : BinaryFormat) (negative : Bool) (num den : Nat) : Binary f :=
  ofUnits f negative (num * f.one) den

def ofInt (f : BinaryFormat) (i : Int) : Binary f :=
  ofRatio f (i < 0) i.natAbs 1

/-- The integer part, rounding toward zero; an infinity counts as the power of two that
    follows the largest finite number, a NaN as zero. -/
def truncate (x : Binary f) : Int :=
  if x.isNaN then 0
  else if x.negative then -((x.units / f.one : Nat) : Int)
  else ((x.units / f.one : Nat) : Int)

/-- The nearest integer, a half going away from zero; a NaN counts as zero. -/
def nearest (x : Binary f) : Int :=
  if x.isNaN then 0
  else if x.negative then -(roundHalfUp x.units f.one : Int)
  else (roundHalfUp x.units f.one : Int)

def toInt32 (x : Binary f) : Int32 := clamp32 x.truncate

def roundInt32 (x : Binary f) : Int32 := clamp32 x.nearest

/-! ## Between formats -/

/-- A NaN in another format: the sign and the leading payload bits stay, and it becomes quiet. -/
def convertNaN (g : BinaryFormat) (x : Binary f) : Binary g :=
  let payload := x.magnitude % f.step * g.step / f.step
  -- the leading payload bit marks a NaN as quiet
  let quiet := if payload < g.step / 2 then payload + g.step / 2 else payload
  ofMagnitude g x.negative (g.infinity + quiet)

def convert (g : BinaryFormat) (x : Binary f) : Binary g :=
  if x.isNaN then x.convertNaN g
  else if x.isInfinite then infinite g x.negative
  else ofUnits g x.negative (x.units * g.one) f.one

def widen (x : Binary32) : Binary64 := x.convert .double

def narrow (x : Binary64) : Binary32 := x.convert .single

/-! ## Order and arithmetic -/

def lt (x y : Binary f) : Bool :=
  !x.isNaN && !y.isNaN && decide (x.value < y.value)

def le (x y : Binary f) : Bool :=
  !x.isNaN && !y.isNaN && decide (x.value ≤ y.value)

/-- Sum. Opposite infinities have none; an exact zero is negative only if both terms are. -/
def add (x y : Binary f) : Binary f :=
  if x.isNaN || y.isNaN then nan f
  else if x.isInfinite then
    if y.isInfinite && x.negative != y.negative then nan f else x
  else if y.isInfinite then y
  else
    let sum := x.value + y.value
    -- a sum of units is exact, so only its size can need rounding
    if sum = 0 then ofMagnitude f (x.negative && y.negative) 0
    else ofUnits f (sum < 0) sum.natAbs 1

def mul (x y : Binary f) : Binary f :=
  let negative := x.negative != y.negative
  if x.isNaN || y.isNaN then nan f
  else if x.isInfinite || y.isInfinite then
    if x.units = 0 || y.units = 0 then nan f else infinite f negative
  else ofUnits f negative (x.units * y.units) f.one

def div (x y : Binary f) : Binary f :=
  let negative := x.negative != y.negative
  if x.isNaN || y.isNaN then nan f
  else if x.isInfinite then
    if y.isInfinite then nan f else infinite f negative
  else if y.isInfinite then ofMagnitude f negative 0
  else if y.units = 0 then
    if x.units = 0 then nan f else infinite f negative
  else ofUnits f negative (x.units * f.one) y.units

/-- Square root. One extra bit below the integer root tells an inexact root from an exact one,
    which is all that rounding needs. -/
def sqrt (x : Binary f) : Binary f :=
  if x.isNaN then nan f
  else if x.units = 0 then x
  else if x.negative then nan f
  else if x.isInfinite then x
  else
    let square := x.units * f.one
    let root := floorSqrt square
    let inexact := if root * root = square then 0 else 1
    ofUnits f false (2 * root + inexact) 2

def neg (x : Binary f) : Binary f := ofMagnitude f (!x.negative) x.magnitude

instance : Add (Binary f) := ⟨add⟩
instance : Mul (Binary f) := ⟨mul⟩
instance : Div (Binary f) := ⟨div⟩
instance : Neg (Binary f) := ⟨neg⟩

end Binary

end Spellcraft
