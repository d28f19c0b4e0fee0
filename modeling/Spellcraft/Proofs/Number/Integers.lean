import Spellcraft.Proofs.Number.Conversion

/-! # Integers as doubles

Integers of less than 54 bits are doubles, so the conversion rounds nothing. Products and quotients
of such numbers are rounded only if they are not such integers themselves.
-/

namespace Spellcraft

namespace BinaryFormat

/-- A short number is some finite magnitude's count of ones. -/
theorem exists_double {n : Nat} (short : n < 2 * double.step) :
    ∃ m, m < double.infinity ∧ double.units m = n * double.one := by
  -- the exponent of one stays a variable, so that its power is never computed
  obtain ⟨t, exponent⟩ : ∃ t, t = 1074 := ⟨1074, rfl⟩
  have exponents : Nat.pow 2 (double.exponentBits - 1) + double.precision - 3 = t := by
    rw [exponent]
    decide
  have one_eq : double.one = Nat.pow 2 t := by rw [one, exponents]
  have high : double.precision ≤ t + 1 := by
    rw [exponent]
    decide
  obtain ⟨m, bounded, same⟩ := exists_units (by decide) short high
  refine ⟨m, ?_, by rw [same, one_eq]⟩
  rw [exponent, double_step] at bounded
  rw [double_infinity]
  omega

end BinaryFormat

namespace Binary

open BinaryFormat

/-- An integer that is a double. -/
def Short (i : Int) : Prop := i.natAbs < 2 * double.step

theorem short_toInt (n : Int32) : Short n.toInt := by
  have low := n.le_toInt
  have high := n.toInt_lt
  unfold Short
  rw [double_step]
  omega

theorem signed_natAbs (i : Int) :
    (if decide (i < 0) = true then -(i.natAbs : Int) else (i.natAbs : Int)) = i := by
  by_cases below : i < 0
  · rw [decide_eq_true below, if_pos rfl]
    omega
  · rw [decide_eq_false below, if_neg Bool.false_ne_true]
    omega

/-- A double that is an integer: finite, with the sign of the integer, and as many ones. -/
structure Counts (x : Binary64) (i : Int) : Prop where
  finite : x.magnitude < double.infinity
  negative : x.negative = decide (i < 0)
  units : x.units = i.natAbs * double.one

namespace Counts

variable {x y : Binary64} {i j : Int}

theorem isNaN (counts : Counts x i) : x.isNaN = false := by
  simpa [Binary.isNaN] using Nat.le_of_lt counts.finite

theorem isInfinite (counts : Counts x i) : x.isInfinite = false := by
  simpa [Binary.isInfinite] using Nat.ne_of_lt counts.finite

theorem nearest (counts : Counts x i) : x.nearest = i := by
  unfold Binary.nearest
  rw [counts.isNaN, counts.negative, counts.units, roundHalfUp_mul_right BinaryFormat.one_pos]
  exact signed_natAbs i

theorem truncate (counts : Counts x i) : x.truncate = i := by
  unfold Binary.truncate
  rw [counts.isNaN, counts.negative, counts.units, Nat.mul_div_cancel _ BinaryFormat.one_pos]
  exact signed_natAbs i

theorem value (counts : Counts x i) : x.value = i * (double.one : Int) := by
  have size : (x.units : Int) = i.natAbs * (double.one : Int) := by
    rw [counts.units, Int.natCast_mul]
  unfold Binary.value
  rw [counts.negative, size, ← Int.neg_mul, ← ite_mul, signed_natAbs]

theorem dvd_units (counts : Counts x i) : double.one ∣ x.units :=
  ⟨i.natAbs, counts.units.trans (Nat.mul_comm _ _)⟩

theorem ofInt (short : Short i) : Counts (ofInt .double i) i := by
  obtain ⟨m, finite, units⟩ := exists_double short
  have fits : m < double.signWeight := Nat.lt_trans finite infinity_lt_signWeight
  have same : Binary.ofInt .double i = ofMagnitude .double (decide (i < 0)) m := by
    rw [Binary.ofInt, ofRatio, ofUnits, ← units,
      round_units (by decide) (Nat.le_of_lt finite)]
  rw [same]
  exact ⟨by rwa [magnitude_ofMagnitude _ fits], negative_ofMagnitude _ fits,
    by rw [Binary.units, magnitude_ofMagnitude _ fits, units]⟩

theorem mul (one : Counts x i) (other : Counts y j) (natural : 0 ≤ i) (natural' : 0 ≤ j) :
    x * y = Binary.ofInt .double (i * j) := by
  change Binary.mul x y = _
  have product : x.units * y.units = (i * j).natAbs * double.one * double.one := by
    rw [one.units, other.units, Int.natAbs_mul, Nat.mul_mul_mul_comm,
      Nat.mul_assoc (i.natAbs * j.natAbs)]
  have sign : (x.negative != y.negative) = decide (i * j < 0) := by
    have positive := Int.mul_nonneg natural natural'
    rw [one.negative, other.negative, decide_eq_false (by omega), decide_eq_false (by omega),
      decide_eq_false (by omega)]
    rfl
  unfold Binary.mul
  rw [one.isNaN, other.isNaN, one.isInfinite, other.isInfinite, sign, product]
  change ofUnits .double _ _ _ = ofUnits .double _ _ _
  rw [ofUnits, ofUnits, round_mul _ BinaryFormat.one_pos]

theorem div_self (counts : Counts x i) (positive : 0 < i) :
    x / x = Binary.ofInt .double 1 := by
  change Binary.div x x = _
  have some : 0 < x.units := by
    rw [counts.units]
    exact Nat.mul_pos (by omega) BinaryFormat.one_pos
  have sign : (x.negative != x.negative) = decide ((1 : Int) < 0) := bne_self_eq_false _
  have quotient : double.round (x.units * double.one) x.units =
      double.round (Int.natAbs 1 * double.one) 1 := by
    rw [Nat.mul_comm x.units, round_mul _ some, Int.natAbs_one, Nat.one_mul]
  unfold Binary.div
  simp only [counts.isNaN, counts.isInfinite, Bool.or_false, Bool.false_eq_true, if_false,
    Nat.ne_of_gt some, sign]
  rw [ofUnits, quotient, Binary.ofInt, ofRatio, ofUnits]

end Counts

/-! ## Integer parts -/

theorem toInt32_ofInt (n : Int32) : (Binary.ofInt .double n.toInt).toInt32 = n := by
  rw [toInt32, (Counts.ofInt (short_toInt n)).truncate, clamp32_toInt]

theorem not_isNaN_of_le {x y : Binary64} (below : x.le y = true) :
    x.isNaN = false ∧ y.isNaN = false ∧ x.value ≤ y.value := by
  simpa [le, and_assoc] using below

theorem truncate_mem {x : Binary64} {low high : Int} (shortLow : Short low)
    (shortHigh : Short high) (atLeast : (ofInt .double low).le x = true)
    (atMost : x.le (ofInt .double high) = true) : low ≤ x.truncate ∧ x.truncate ≤ high := by
  obtain ⟨-, number, lower⟩ := not_isNaN_of_le atLeast
  obtain ⟨-, -, upper⟩ := not_isNaN_of_le atMost
  rw [(Counts.ofInt shortLow).value] at lower
  rw [(Counts.ofInt shortHigh).value] at upper
  have positive : (0 : Int) < double.one := Int.natCast_pos.mpr BinaryFormat.one_pos
  unfold value at lower upper
  unfold truncate
  rw [number, if_neg Bool.false_ne_true, Int.natCast_ediv]
  -- one stays a variable, so that its power is never computed
  generalize (double.one : Int) = one at positive lower upper ⊢
  generalize (x.units : Int) = units at lower upper ⊢
  split
  · next negative =>
    rw [if_pos negative] at lower upper
    have most : units / one ≤ -low :=
      Int.ediv_le_of_le_mul positive (by rw [Int.neg_mul]; omega)
    have least : -high ≤ units / one :=
      Int.le_ediv_of_mul_le positive (by rw [Int.neg_mul]; omega)
    omega
  · next natural =>
    rw [if_neg natural] at lower upper
    exact ⟨Int.le_ediv_of_mul_le positive lower, Int.ediv_le_of_le_mul positive upper⟩

theorem eq_zero_of_units {x : Binary64} (none : x.units = 0) :
    x = ofMagnitude .double x.negative 0 := by
  have magnitude : x.magnitude = 0 := by
    rcases magnitude_cases double x.magnitude with small | ⟨s, r, small, split⟩
    · rwa [Binary.units, units_of_lt small] at none
    · rw [Binary.units, split, units_of_field s small] at none
      have some : 0 < (r + double.step) * Nat.pow 2 s :=
        Nat.mul_pos (Nat.add_pos_right r step_pos) (Nat.two_pow_pos s)
      omega
  rw [← magnitude, ofMagnitude_self]

theorem eq_of_units {x y : Binary64} (number : x.isNaN = false) (number' : y.isNaN = false)
    (sign : x.negative = y.negative) (same : x.units = y.units) : x = y := by
  have magnitudes : x.magnitude = y.magnitude := by
    simp only [isNaN, decide_eq_false_iff_not, Nat.not_lt] at number number'
    rw [← round_units (by decide) number, ← round_units (by decide) number']
    exact congrArg (double.round · 1) same
  rw [← ofMagnitude_self x, sign, magnitudes, ofMagnitude_self]

end Binary

end Spellcraft
