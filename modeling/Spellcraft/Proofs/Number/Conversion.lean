import Mathlib.Algebra.Group.Nat.Defs
import Spellcraft.Number.Binary

/-! # Conversion between the two formats

Every single-precision number is a double, so widening loses nothing and narrowing gives the
number back. What is to be shown is that the arithmetic of units and magnitudes agrees: a
magnitude is determined by its units (`BinaryFormat.round_units`), and the units of a
single-precision magnitude are those of a double (`BinaryFormat.exists_units`).

The exception are NaNs that are not quiet: widening makes them quiet. Narrowing never gives one
(`Binary.quiet_narrow`), so what was narrowed once is not among the exceptions.
-/

namespace Spellcraft

theorem roundHalfEven_mul_mul (num den : Nat) {c : Nat} (positive : 0 < c) :
    roundHalfEven (num * c) (den * c) = roundHalfEven num den := by
  unfold roundHalfEven
  rw [Nat.mul_div_mul_right _ _ positive, Nat.mul_mod_mul_right, ← Nat.mul_assoc]
  simp only [Nat.mul_lt_mul_right positive]

namespace BinaryFormat

variable {f : BinaryFormat}

theorem step_pos : 0 < f.step := Nat.two_pow_pos _

theorem one_pos : 0 < f.one := Nat.two_pow_pos _

theorem infinity_lt_signWeight : f.infinity < f.signWeight :=
  Nat.mul_lt_mul_of_pos_right (Nat.sub_lt (Nat.two_pow_pos _) Nat.one_pos) step_pos

/-- An exact quotient is rounded like the integer that it is. -/
theorem round_mul (q : Nat) {den : Nat} (positive : 0 < den) :
    f.round (q * den) den = f.round q 1 := by
  unfold round
  rw [Nat.mul_div_cancel _ positive, Nat.div_one]
  dsimp only
  rw [Nat.one_mul, Nat.mul_comm den, roundHalfEven_mul_mul _ _ positive]

/-! ## Units and magnitudes -/

theorem units_of_lt {m : Nat} (small : m < f.step) : f.units m = m := by
  unfold units
  rw [Nat.div_eq_of_lt small]
  rfl

theorem units_of_field (s : Nat) {r : Nat} (small : r < f.step) :
    f.units ((s + 1) * f.step + r) = (r + f.step) * Nat.pow 2 s := by
  have field : ((s + 1) * f.step + r) / f.step = s + 1 := by
    rw [Nat.mul_comm, Nat.mul_add_div step_pos, Nat.div_eq_of_lt small, Nat.add_zero]
  have rest : ((s + 1) * f.step + r) % f.step = r := by
    rw [Nat.mul_comm, Nat.mul_add_mod, Nat.mod_eq_of_lt small]
  simp only [units, field, rest, Nat.add_one_ne_zero, if_false, Nat.add_sub_cancel]

theorem magnitude_cases (f : BinaryFormat) (m : Nat) :
    m < f.step ∨ ∃ s r, r < f.step ∧ m = (s + 1) * f.step + r := by
  by_cases small : m < f.step
  · exact .inl small
  · have field : 0 < m / f.step := Nat.div_pos (Nat.le_of_not_lt small) step_pos
    refine .inr ⟨m / f.step - 1, m % f.step, Nat.mod_lt _ step_pos, ?_⟩
    rw [Nat.sub_add_cancel field, Nat.div_add_mod']

theorem exists_step (precise : 0 < f.precision) : ∃ p, f.precision = p + 1 ∧ f.step = 2 ^ p := by
  obtain ⟨p, width⟩ := Nat.exists_eq_add_one_of_ne_zero (Nat.ne_of_gt precise)
  refine ⟨p, width, ?_⟩
  rw [step, width]
  rfl

theorem round_units (precise : 0 < f.precision) {m : Nat} (bounded : m ≤ f.infinity) :
    f.round (f.units m) 1 = m := by
  obtain ⟨p, width, stepEq⟩ := exists_step precise
  rcases magnitude_cases f m with small | ⟨s, r, small, split⟩
  · have shift : m.log2 + 1 - f.precision = 0 := by
      by_cases zero : m = 0
      · subst zero
        rw [Nat.log2_zero]
        omega
      · have := (Nat.log2_lt zero).mpr (stepEq ▸ small)
        omega
    rw [units_of_lt small, round, Nat.div_one, shift]
    simpa using Nat.min_eq_left bounded
  · subst split
    -- the significand has its leading bit at `p`, and the power moves it up by `s`
    have log : ((r + f.step) * 2 ^ s).log2 = p + s := by
      have low : 2 ^ (p + s) ≤ (r + f.step) * 2 ^ s := by
        rw [Nat.pow_add]
        exact Nat.mul_le_mul_right _ (by omega)
      have high : (r + f.step) * 2 ^ s < 2 ^ (p + s + 1) := by
        rw [show p + s + 1 = p + 1 + s by omega, Nat.pow_add, Nat.pow_succ]
        exact Nat.mul_lt_mul_of_pos_right (by omega) (Nat.two_pow_pos s)
      have nonzero : (r + f.step) * 2 ^ s ≠ 0 := by
        have := Nat.two_pow_pos (p + s)
        omega
      exact (Nat.log2_eq_iff nonzero).mpr ⟨low, high⟩
    have shift : ((r + f.step) * 2 ^ s).log2 + 1 - f.precision = s := by omega
    rw [units_of_field s small, round, Nat.div_one, Nat.pow_eq, shift, Nat.one_mul, Nat.pow_eq,
      roundHalfEven_mul_right (Nat.two_pow_pos s)]
    rw [Nat.add_mul, Nat.one_mul] at bounded ⊢
    omega

/-- A product of a short number and a power of two counts the units of some magnitude. -/
theorem exists_units (precise : 0 < f.precision) {j t : Nat} (short : j < 2 * f.step)
    (high : f.precision ≤ t + 1) :
    ∃ m, m < (t + 2) * f.step ∧ f.units m = j * Nat.pow 2 t := by
  obtain ⟨p, width, stepEq⟩ := exists_step precise
  by_cases zero : j = 0
  · subst zero
    refine ⟨0, Nat.mul_pos (by omega) step_pos, ?_⟩
    rw [units_of_lt step_pos, Nat.zero_mul]
  · have lower : 2 ^ j.log2 ≤ j := Nat.log2_self_le zero
    have upper : j < 2 ^ (j.log2 + 1) := Nat.lt_log2_self
    have bits : j.log2 ≤ p := by
      have : j.log2 < p + 1 := (Nat.log2_lt zero).mpr (by rw [Nat.pow_succ]; omega)
      omega
    -- the significand takes as many bits from the power as it lacks
    obtain ⟨d, lack⟩ := Nat.exists_eq_add_of_le bits
    obtain ⟨s, rest⟩ := Nat.exists_eq_add_of_le (show d ≤ t by omega)
    have least : f.step ≤ j * 2 ^ d := by
      rw [stepEq, lack, Nat.pow_add]
      exact Nat.mul_le_mul_right _ lower
    have most : j * 2 ^ d < 2 * f.step := by
      rw [stepEq, ← Nat.pow_succ', lack, show (j.log2 + d).succ = j.log2 + 1 + d by omega,
        Nat.pow_add]
      exact Nat.mul_lt_mul_of_pos_right upper (Nat.two_pow_pos d)
    refine ⟨(s + 1) * f.step + (j * 2 ^ d - f.step), ?_, ?_⟩
    · have fields : (s + 2) * f.step ≤ (t + 2) * f.step := Nat.mul_le_mul_right _ (by omega)
      rw [Nat.add_mul] at fields ⊢
      omega
    · rw [units_of_field s (by omega), Nat.sub_add_cancel least, Nat.pow_eq, Nat.pow_eq, rest,
        Nat.mul_assoc, ← Nat.pow_add]

/-! ## The two formats -/

theorem single_step : single.step = 0x800000 := rfl

theorem single_infinity : single.infinity = 0x7F800000 := rfl

theorem single_signWeight : single.signWeight = 0x80000000 := rfl

theorem double_step : double.step = 0x10000000000000 := rfl

theorem double_infinity : double.infinity = 0x7FF0000000000000 := rfl

theorem double_signWeight : double.signWeight = 0x8000000000000000 := rfl

theorem exists_gap : ∃ gap, double.precision ≤ gap ∧ gap ≤ 1000 ∧
    double.one = Nat.pow 2 gap * single.one := by
  -- the gap stays a variable, so that its power is never computed
  obtain ⟨gap, gapEq⟩ : ∃ gap, gap = 925 := ⟨925, rfl⟩
  have exponents : Nat.pow 2 (double.exponentBits - 1) + double.precision - 3 =
      gap + (Nat.pow 2 (single.exponentBits - 1) + single.precision - 3) := by
    rw [gapEq]
    decide
  refine ⟨gap, by rw [gapEq]; decide, by rw [gapEq]; decide, ?_⟩
  rw [one, exponents]
  exact Nat.pow_add ..

/-- The units of a finite single-precision magnitude are those of a finite double. -/
theorem exists_widened {m gap : Nat} (wide : double.precision ≤ gap) (bounded : gap ≤ 1000)
    (finite : m < single.infinity) :
    ∃ m', m' < double.infinity ∧ double.units m' = single.units m * Nat.pow 2 gap := by
  have precise : 0 < double.precision := by decide
  rcases magnitude_cases single m with small | ⟨s, r, small, split⟩
  · -- a subnormal number, which has room for its units in the wider fraction
    have short : m < 2 * double.step := by
      rw [single_step] at small
      rw [double_step]
      omega
    obtain ⟨m', below, same⟩ := exists_units precise short (Nat.le_add_right_of_le wide)
    refine ⟨m', ?_, ?_⟩
    · rw [double_step] at below
      rw [double_infinity]
      omega
    · rw [same, units_of_lt small]
  · subst split
    have fields : s + 1 < 255 := by
      rw [single_infinity, single_step] at finite
      omega
    have short : r + single.step < 2 * double.step := by
      rw [single_step] at small ⊢
      rw [double_step]
      omega
    have high : double.precision ≤ s + gap + 1 := by omega
    obtain ⟨m', below, same⟩ := exists_units precise short high
    refine ⟨m', ?_, ?_⟩
    · rw [double_step] at below
      rw [double_infinity]
      omega
    · rw [same, units_of_field s small, Nat.pow_eq, Nat.pow_eq, Nat.pow_eq, Nat.pow_add,
        Nat.mul_assoc]

end BinaryFormat

namespace Binary

open BinaryFormat

variable {f : BinaryFormat}

/-! ## Sign and magnitude -/

theorem magnitude_lt (x : Binary f) : x.magnitude < f.signWeight :=
  Nat.mod_lt _ (signWeight_pos f)

theorem bits_ofMagnitude {m : Nat} (negative : Bool) (bounded : m < f.signWeight) :
    (ofMagnitude f negative m).bits = cond negative f.signWeight 0 + m := by
  refine Nat.mod_eq_of_lt ?_
  cases negative with
  | false => simp only [cond_false]; omega
  | true => simp only [cond_true]; omega

theorem negative_ofMagnitude {m : Nat} (negative : Bool) (bounded : m < f.signWeight) :
    (ofMagnitude f negative m).negative = negative := by
  unfold Binary.negative
  rw [bits_ofMagnitude negative bounded]
  cases negative with
  | false => simpa using bounded
  | true => simp

theorem magnitude_ofMagnitude {m : Nat} (negative : Bool) (bounded : m < f.signWeight) :
    (ofMagnitude f negative m).magnitude = m := by
  unfold magnitude
  rw [bits_ofMagnitude negative bounded]
  cases negative with
  | false => simpa using Nat.mod_eq_of_lt bounded
  | true => simpa using Nat.mod_eq_of_lt bounded

theorem ofMagnitude_self (x : Binary f) : ofMagnitude f x.negative x.magnitude = x := by
  have split : cond (decide (f.signWeight ≤ x.bits)) f.signWeight 0 + x.bits % f.signWeight =
      x.bits := by
    have bounded := x.isLt
    by_cases large : f.signWeight ≤ x.bits
    · have rest : x.bits % f.signWeight = x.bits - f.signWeight := by
        rw [Nat.mod_eq_sub_mod large, Nat.mod_eq_of_lt (by omega)]
      simp only [large, decide_true, cond_true]
      omega
    · have rest : x.bits % f.signWeight = x.bits := Nat.mod_eq_of_lt (Nat.lt_of_not_le large)
      simp only [large, decide_false, cond_false]
      omega
  unfold ofMagnitude Binary.negative magnitude
  rw [split]
  exact ofBits_bits x

/-! ## Widening and narrowing -/

/-- A NaN whose leading payload bit is set. -/
def Quiet (x : Binary f) : Prop := x.isNaN = true → f.step / 2 ≤ x.magnitude % f.step

theorem round_le (f : BinaryFormat) (num den : Nat) : f.round num den ≤ f.infinity :=
  Nat.min_le_right ..

theorem quiet_narrow (y : Binary64) : y.narrow.Quiet := by
  intro nan
  unfold narrow convert at nan ⊢
  split at nan
  · next given =>
    rw [if_pos given]
    unfold convertNaN
    dsimp only
    have payload : y.magnitude % double.step * single.step / double.step < single.step := by
      have := Nat.mod_lt y.magnitude (step_pos (f := double))
      rw [single_step]
      rw [double_step] at this ⊢
      omega
    generalize y.magnitude % double.step * single.step / double.step = p at payload
    -- a payload without its leading bit gets that bit
    have quieted : (if p < single.step / 2 then p + single.step / 2 else p) < single.step ∧
        single.step / 2 ≤ if p < single.step / 2 then p + single.step / 2 else p := by
      rw [single_step] at payload ⊢
      split <;> omega
    rw [magnitude_ofMagnitude _ (by
      rw [single_infinity, single_signWeight, single_step] at *
      omega)]
    rw [single_infinity, single_step] at *
    omega
  · next given =>
    -- infinities stay infinities, and rounding goes no further than these
    exfalso
    split at nan
    · simp only [infinite, isNaN, magnitude_ofMagnitude _ infinity_lt_signWeight,
        decide_eq_true_eq] at nan
      exact Nat.lt_irrefl _ nan
    · have bounded := round_le single (y.units * single.one) double.one
      have fits := Nat.lt_of_le_of_lt bounded infinity_lt_signWeight
      rw [isNaN, ofUnits, magnitude_ofMagnitude _ fits, decide_eq_true_eq] at nan
      omega

theorem narrow_widen_of_nan {x : Binary32} (nan : x.isNaN = true) (quiet : x.Quiet) :
    x.widen.narrow = x := by
  have high : single.infinity < x.magnitude := of_decide_eq_true nan
  have low := x.magnitude_lt
  have leading := quiet nan
  rw [single_infinity] at high
  rw [single_signWeight] at low
  rw [single_step] at leading
  -- the payload moves up by the 29 bits that a double has more
  generalize payloadEq : (x.magnitude - single.infinity) * 0x20000000 = payload
  rw [single_infinity] at payloadEq
  have up : x.magnitude % single.step * double.step / single.step = payload := by
    rw [single_step, double_step]
    omega
  have stays : ¬ payload < double.step / 2 := by
    rw [double_step]
    omega
  have fits : double.infinity + payload < double.signWeight := by
    rw [double_infinity, double_signWeight]
    omega
  have wide : x.widen = ofMagnitude .double x.negative (double.infinity + payload) := by
    rw [widen, convert, if_pos nan, convertNaN, up, if_neg stays]
  have wideNaN : x.widen.isNaN = true := by
    rw [wide, isNaN, magnitude_ofMagnitude _ fits, decide_eq_true_eq]
    omega
  have down : (double.infinity + payload) % double.step * single.step / double.step =
      x.magnitude - single.infinity := by
    rw [double_infinity, double_step, single_step, single_infinity]
    omega
  have still : ¬ x.magnitude - single.infinity < single.step / 2 := by
    rw [single_infinity, single_step]
    omega
  have whole : single.infinity + (x.magnitude - single.infinity) = x.magnitude := by
    rw [single_infinity]
    omega
  calc x.widen.narrow
      = ofMagnitude .single x.negative x.magnitude := by
        rw [narrow, convert, if_pos wideNaN, convertNaN, wide, negative_ofMagnitude _ fits,
          magnitude_ofMagnitude _ fits, down, if_neg still, whole]
    _ = x := ofMagnitude_self x

/-- A finite number becomes the double of the same value, and that becomes the number again. -/
theorem narrow_widen_of_finite {x : Binary32} (finite : x.magnitude < single.infinity) :
    x.widen.narrow = x := by
  obtain ⟨gap, wide, bounded, ones⟩ := exists_gap
  obtain ⟨m, below, same⟩ := exists_widened wide bounded finite
  have fits : m < double.signWeight := Nat.lt_trans below infinity_lt_signWeight
  -- widening finds `m`, since the units of `m` are an exact quotient
  have widened : x.widen = ofMagnitude .double x.negative m := by
    have rounded : double.round (x.units * double.one) single.one = m := by
      rw [ones, ← Nat.mul_assoc, round_mul _ BinaryFormat.one_pos, units, ← same,
        round_units (by decide) (Nat.le_of_lt below)]
    rw [widen, convert, if_neg (by simp [isNaN]; omega), if_neg (by simp [isInfinite]; omega),
      ofUnits, rounded]
  have narrowed : single.round (double.units m * single.one) double.one = x.magnitude := by
    rw [same, Nat.mul_assoc, ← ones, round_mul _ BinaryFormat.one_pos,
      round_units (by decide) (Nat.le_of_lt finite)]
  calc x.widen.narrow
      = ofMagnitude .single x.negative x.magnitude := by
        rw [widened, narrow, convert, isNaN, isInfinite, units, magnitude_ofMagnitude _ fits,
          negative_ofMagnitude _ fits, if_neg (by simp; omega), if_neg (by simp; omega), ofUnits,
          narrowed]
    _ = x := ofMagnitude_self x

/-- Widening loses nothing but the noise of a NaN. -/
theorem narrow_widen {x : Binary32} (quiet : x.Quiet) : x.widen.narrow = x := by
  rcases Nat.lt_trichotomy x.magnitude single.infinity with finite | infinite | nan
  · exact narrow_widen_of_finite finite
  · have wide : x.widen = .infinite .double x.negative := by
      rw [widen, convert, if_neg (by simp [isNaN, infinite]),
        if_pos (by simp [isInfinite, infinite])]
    rw [wide, narrow, convert, Binary.infinite, isNaN, isInfinite,
      magnitude_ofMagnitude _ infinity_lt_signWeight, negative_ofMagnitude _ infinity_lt_signWeight,
      if_neg (by simp), if_pos (by simp), Binary.infinite, ← infinite]
    exact ofMagnitude_self x
  · exact narrow_widen_of_nan (decide_eq_true nan) quiet

end Binary

end Spellcraft
