import Mathlib.Order.Monotone.Basic
import Mathlib.Tactic.Ring
import Spellcraft.Proofs.Number.Integers

/-! # Rounding keeps order

Of two quotients the larger one is never rounded to the smaller number, since magnitudes are in the
order of the numbers that they stand for. So whatever is a number itself bounds what is rounded to
it from either side (`BinaryFormat.le_round`, `BinaryFormat.round_le_of_le`). How far rounding can
go is said for whole numbers of units.

* `BinaryFormat.round_cases` — the significand and the exponent that a quotient is rounded to;
* `BinaryFormat.round_mono`, `BinaryFormat.units_mono` — rounding and counting units keep order;
* `BinaryFormat.error_round` — rounding is off by one part in twice a step;
* `Binary.value_ofInt_mono` — integers are converted in their order;
* `Binary.Near` — what natural numbers are converted to, and when a product of two such numbers is
  too large.
-/

namespace Spellcraft

/-! ## Quotients -/

theorem roundHalfEven_cases (num den : Nat) :
    roundHalfEven num den = num / den ∧ 2 * (num % den) ≤ den ∨
      roundHalfEven num den = num / den + 1 ∧ den ≤ 2 * (num % den) := by
  simp only [roundHalfEven]
  by_cases below : 2 * (num % den) < den
  · exact .inl ⟨if_pos below, by omega⟩
  · by_cases above : den < 2 * (num % den)
    · exact .inr ⟨by simp [below, above], by omega⟩
    · by_cases even : num / den % 2 = 0
      · exact .inl ⟨by simp [below, above, even], by omega⟩
      · exact .inr ⟨by simp [below, above, even], by omega⟩

theorem roundHalfEven_mono {num num' : Nat} (den : Nat) (le : num ≤ num') :
    roundHalfEven num den ≤ roundHalfEven num' den := by
  rcases Nat.eq_or_lt_of_le le with rfl | lt
  · exact Nat.le_refl _
  · have here := roundHalfEven_cases num den
    have there := roundHalfEven_cases num' den
    have quotients : num / den ≤ num' / den := Nat.div_le_div_right le
    by_cases same : num / den = num' / den
    · -- within one quotient the remainders are in order, and at most one of them is a half
      have whole := Nat.div_add_mod num den
      have whole' := Nat.div_add_mod num' den
      rw [same] at whole
      omega
    · omega

theorem roundHalfEven_le {num den k : Nat} (below : num < k * den) :
    roundHalfEven num den ≤ k := by
  have quotient : num / den < k := Nat.div_lt_of_lt_mul (Nat.mul_comm k den ▸ below)
  have here := roundHalfEven_cases num den
  omega

theorem le_roundHalfEven {num den k : Nat} (positive : 0 < den) (above : k * den ≤ num) :
    k ≤ roundHalfEven num den := by
  have quotient : k ≤ num / den := (Nat.le_div_iff_mul_le positive).mpr above
  have here := roundHalfEven_cases num den
  omega

/-- Rounding is off by half a divisor at most. -/
theorem error_roundHalfEven (num : Nat) {den : Nat} (positive : 0 < den) :
    2 * (roundHalfEven num den * den) ≤ 2 * num + den ∧
      2 * num ≤ 2 * (roundHalfEven num den * den) + den := by
  have whole := Nat.div_add_mod' num den
  have rest := Nat.mod_lt num positive
  rcases roundHalfEven_cases num den with ⟨down, near⟩ | ⟨up, near⟩
  · rw [down]
    omega
  · rw [up, Nat.add_mul]
    omega

namespace BinaryFormat

variable {f : BinaryFormat}

/-! ## Significands -/

/-- A significand with its exponent counts what it says, also when it carries into the next
    exponent. -/
theorem units_significand {s r : Nat} (most : r ≤ 2 * f.step) (least : s = 0 ∨ f.step ≤ r) :
    f.units (s * f.step + r) = r * 2 ^ s := by
  by_cases small : r < f.step
  · have none : s = 0 := by omega
    subst none
    simp [units_of_lt small]
  · obtain ⟨rest, rfl⟩ := Nat.exists_eq_add_of_le (Nat.le_of_not_lt small)
    by_cases carry : rest = f.step
    · have next := units_of_field (f := f) (s + 1) step_pos
      have split : s * f.step + (f.step + rest) = (s + 1 + 1) * f.step + 0 := by
        rw [carry, Nat.add_mul, Nat.add_mul]
        omega
      rw [split, next, carry, Nat.pow_eq, Nat.pow_succ', ← Nat.mul_assoc]
      congr 1
      omega
    · have here := units_of_field (f := f) s (show rest < f.step by omega)
      have split : s * f.step + (f.step + rest) = (s + 1) * f.step + rest := by
        rw [Nat.add_mul]
        omega
      rw [split, here, Nat.add_comm, Nat.pow_eq]

/-- Every magnitude is a significand with an exponent. -/
theorem exists_significand (f : BinaryFormat) (m : Nat) :
    ∃ s r, m = s * f.step + r ∧ r < 2 * f.step ∧ (s = 0 ∨ f.step ≤ r) := by
  rcases magnitude_cases f m with small | ⟨s, r, small, split⟩
  · exact ⟨0, m, by omega, by omega, .inl rfl⟩
  · exact ⟨s, f.step + r, by rw [split, Nat.add_mul]; omega, by omega, .inr (by omega)⟩

theorem units_strictMono (f : BinaryFormat) : StrictMono f.units := by
  refine strictMono_nat_of_lt_succ fun m => ?_
  obtain ⟨s, r, rfl, most, least⟩ := exists_significand f m
  rw [units_significand (by omega) least, Nat.add_assoc,
    units_significand (by omega) (least.imp_right (Nat.le_add_right_of_le ·))]
  exact Nat.mul_lt_mul_of_pos_right (Nat.lt_succ_self r) (Nat.two_pow_pos s)

theorem units_mono {m m' : Nat} (le : m ≤ m') : f.units m ≤ f.units m' :=
  (units_strictMono f).monotone le

/-! ## Rounding -/

/-- A quotient is rounded to a significand with the one exponent that leaves it all its bits. -/
theorem round_cases (precise : 0 < f.precision) (num : Nat) {den : Nat} (positive : 0 < den) :
    ∃ s, f.round num den =
        min (s * f.step + roundHalfEven num (den * 2 ^ s)) f.infinity ∧
      num < 2 * f.step * (den * 2 ^ s) ∧ (s = 0 ∨ f.step * (den * 2 ^ s) ≤ num) := by
  obtain ⟨p, width, stepEq⟩ := exists_step precise
  have whole := Nat.div_add_mod num den
  have rest := Nat.mod_lt num positive
  obtain ⟨s, shift⟩ : ∃ s, s = (num / den).log2 + 1 - f.precision := ⟨_, rfl⟩
  -- `s` is what the quotient has in bits beyond the precision, so it is cut between two powers
  refine ⟨s, by rw [shift]; rfl, ?_, ?_⟩
  · have bits : num / den < 2 ^ ((num / den).log2 + 1) := Nat.lt_log2_self
    have room : 2 ^ ((num / den).log2 + 1) ≤ 2 ^ (p + 1 + s) :=
      Nat.pow_le_pow_right (by decide) (by omega)
    have above : den * (num / den + 1) ≤ den * 2 ^ (p + 1 + s) :=
      Nat.mul_le_mul_left den (by omega)
    rw [stepEq, ← Nat.pow_succ', Nat.mul_left_comm, ← Nat.pow_add, Nat.succ_eq_add_one]
    rw [Nat.mul_add] at above
    omega
  · by_cases none : s = 0
    · exact .inl none
    · right
      have some : num / den ≠ 0 := by
        intro zero
        rw [zero, Nat.log2_zero] at shift
        omega
      have bits : 2 ^ (num / den).log2 ≤ num / den := Nat.log2_self_le some
      have exponent : p + s = (num / den).log2 := by omega
      have below := Nat.mul_le_mul_left den bits
      rw [stepEq, Nat.mul_left_comm, ← Nat.pow_add, exponent]
      omega

theorem round_mono (precise : 0 < f.precision) {num num' den : Nat} (positive : 0 < den)
    (le : num ≤ num') : f.round num den ≤ f.round num' den := by
  obtain ⟨s, rounded, most, least⟩ := round_cases precise num positive
  obtain ⟨s', rounded', most', least'⟩ := round_cases precise num' positive
  suffices s * f.step + roundHalfEven num (den * 2 ^ s) ≤
      s' * f.step + roundHalfEven num' (den * 2 ^ s') by
    rw [rounded, rounded']
    omega
  rcases Nat.lt_trichotomy s s' with less | rfl | greater
  · -- the significand of the smaller quotient may carry once, and the larger one starts there
    have small : roundHalfEven num (den * 2 ^ s) ≤ 2 * f.step := roundHalfEven_le most
    have large : f.step ≤ roundHalfEven num' (den * 2 ^ s') :=
      le_roundHalfEven (Nat.mul_pos positive (Nat.two_pow_pos s')) (least'.resolve_left (by omega))
    have exponents : (s + 1) * f.step ≤ s' * f.step := Nat.mul_le_mul_right _ less
    rw [Nat.add_mul] at exponents
    omega
  · exact Nat.add_le_add_left (roundHalfEven_mono _ le) _
  · -- a larger exponent belongs to a larger quotient
    have apart : 2 * f.step * (den * 2 ^ s') ≤ f.step * (den * 2 ^ s) :=
      calc 2 * f.step * (den * 2 ^ s')
          = f.step * (den * 2 ^ (s' + 1)) := by ring
        _ ≤ f.step * (den * 2 ^ s) := Nat.mul_le_mul_left _
            (Nat.mul_le_mul_left _ (Nat.pow_le_pow_right (by decide) greater))
    have low := least.resolve_left (by omega)
    omega

theorem round_units_mul (precise : 0 < f.precision) {m den : Nat} (positive : 0 < den)
    (bounded : m ≤ f.infinity) : f.round (f.units m * den) den = m := by
  rw [round_mul _ positive, round_units precise bounded]

theorem le_round (precise : 0 < f.precision) {m num den : Nat} (positive : 0 < den)
    (bounded : m ≤ f.infinity) (le : f.units m * den ≤ num) : m ≤ f.round num den :=
  calc m = f.round (f.units m * den) den := (round_units_mul precise positive bounded).symm
    _ ≤ f.round num den := round_mono precise positive le

theorem round_le_of_le (precise : 0 < f.precision) {m num den : Nat} (positive : 0 < den)
    (bounded : m ≤ f.infinity) (le : num ≤ f.units m * den) : f.round num den ≤ m :=
  calc f.round num den ≤ f.round (f.units m * den) den := round_mono precise positive le
    _ = m := round_units_mul precise positive bounded

/-- Rounding a number of units is off by one part in twice a step at most, unless it overflows. -/
theorem error_round (precise : 0 < f.precision) {num : Nat}
    (finite : f.round num 1 < f.infinity) :
    2 * f.step * f.units (f.round num 1) ≤ 2 * f.step * num + num ∧
      2 * f.step * num ≤ 2 * f.step * f.units (f.round num 1) + num := by
  obtain ⟨s, rounded, most, least⟩ := round_cases precise num Nat.one_pos
  rw [Nat.one_mul] at rounded most least
  have positive := Nat.two_pow_pos s
  -- the significand is what the quotient was rounded to, and nothing else is lost
  have significand := units_significand (f := f) (roundHalfEven_le most)
    (least.imp_right (le_roundHalfEven positive ·))
  obtain ⟨above, below⟩ := error_roundHalfEven num positive
  rw [rounded, Nat.min_eq_left (by omega), significand]
  generalize roundHalfEven num (2 ^ s) * 2 ^ s = x at above below
  rcases least with rfl | least
  · have same : x = num := by omega
    rw [same]
    omega
  · have above' := Nat.mul_le_mul_left f.step above
    have below' := Nat.mul_le_mul_left f.step below
    simp only [Nat.mul_add, Nat.mul_left_comm f.step 2, ← Nat.mul_assoc] at above' below' ⊢
    omega

end BinaryFormat

namespace Binary

open BinaryFormat

/-! ## Integers -/

theorem magnitude_ofInt (i : Int) :
    (ofInt .double i).magnitude = double.round (i.natAbs * double.one) 1 :=
  magnitude_ofMagnitude _ (Nat.lt_of_le_of_lt (round_le ..) infinity_lt_signWeight)

theorem negative_ofInt (i : Int) : (ofInt .double i).negative = decide (i < 0) :=
  negative_ofMagnitude _ (Nat.lt_of_le_of_lt (round_le ..) infinity_lt_signWeight)

theorem isNaN_ofInt (i : Int) : (ofInt .double i).isNaN = false := by
  rw [isNaN, magnitude_ofInt]
  exact decide_eq_false (Nat.not_lt.mpr (round_le ..))

theorem value_ofInt_mono {i j : Int} (le : i ≤ j) :
    (ofInt .double i).value ≤ (ofInt .double j).value := by
  have absolute {m n : Nat} (le : m ≤ n) : double.units (double.round (m * double.one) 1) ≤
      double.units (double.round (n * double.one) 1) :=
    units_mono (round_mono (by decide) Nat.one_pos (Nat.mul_le_mul_right _ le))
  unfold value units
  rw [negative_ofInt, negative_ofInt, magnitude_ofInt, magnitude_ofInt]
  by_cases negative : i < 0
  · by_cases negative' : j < 0
    · have reversed := absolute (show j.natAbs ≤ i.natAbs by omega)
      simp only [negative, negative', decide_true, if_true]
      omega
    · simp only [negative, negative', decide_true, decide_false, if_true, if_false,
        Bool.false_eq_true]
      omega
  · have ordered := absolute (show i.natAbs ≤ j.natAbs by omega)
    have natural : ¬ j < 0 := by omega
    simp only [negative, natural, decide_false, if_false, Bool.false_eq_true]
    omega

/-- An integer that is rounded does not get past a short one. -/
theorem value_ofInt_le_iff {i j : Int} (short : Short i) (short' : Short (i + 1)) :
    (ofInt .double j).value ≤ i * (double.one : Int) ↔ j ≤ i := by
  constructor
  · intro below
    by_contra above
    have next := value_ofInt_mono (show i + 1 ≤ j by omega)
    have positive : (0 : Int) < double.one := Int.natCast_pos.mpr BinaryFormat.one_pos
    rw [(Counts.ofInt short').value, Int.add_mul] at next
    omega
  · intro below
    rw [← (Counts.ofInt short).value]
    exact value_ofInt_mono below

theorem le_value_ofInt_iff {i j : Int} (short : Short i) (short' : Short (i - 1)) :
    i * (double.one : Int) ≤ (ofInt .double j).value ↔ i ≤ j := by
  constructor
  · intro above
    by_contra below
    have previous := value_ofInt_mono (show j ≤ i - 1 by omega)
    have positive : (0 : Int) < double.one := Int.natCast_pos.mpr BinaryFormat.one_pos
    rw [(Counts.ofInt short').value, Int.sub_mul] at previous
    omega
  · intro above
    rw [← (Counts.ofInt short).value]
    exact value_ofInt_mono above

theorem units_neg (x : Binary64) : (-x).units = x.units := by
  change (Binary.neg x).units = _
  rw [Binary.units, neg, magnitude_ofMagnitude _ x.magnitude_lt, Binary.units]

theorem negative_neg (x : Binary64) : (-x).negative = !x.negative :=
  negative_ofMagnitude _ x.magnitude_lt

theorem isNaN_neg (x : Binary64) : (-x).isNaN = x.isNaN := by
  change (Binary.neg x).isNaN = _
  rw [isNaN, neg, magnitude_ofMagnitude _ x.magnitude_lt, isNaN]

/-! ## Products -/

/-- A number that a natural number was rounded to: finite, and off by one part in `2 ^ 53` at
    most. -/
structure Near (x : Binary64) (n : Nat) : Prop where
  finite : x.magnitude < double.infinity
  natural : x.negative = false
  least : 0x1FFFFFFFFFFFFF * (n * double.one) ≤ 0x20000000000000 * x.units
  most : 0x20000000000000 * x.units ≤ 0x20000000000001 * (n * double.one)

theorem near_ofInt {n : Nat} (bounded : n ≤ 10 ^ 308) : Near (ofInt .double n) n := by
  have enough : 10 ^ 308 * double.one ≤ double.units (double.infinity - 1) := by decide +kernel
  have num : n * double.one ≤ double.units (double.infinity - 1) * 1 := by
    have scaled := Nat.mul_le_mul_right double.one bounded
    omega
  have finite : double.round (n * double.one) 1 < double.infinity := by
    have rounded := round_le_of_le (by decide) Nat.one_pos (Nat.sub_le _ 1) num
    rw [double_infinity] at rounded ⊢
    omega
  obtain ⟨above, below⟩ := error_round (by decide) finite
  have magnitude : (ofInt .double n).magnitude = double.round (n * double.one) 1 :=
    magnitude_ofInt n
  rw [double_step, ← magnitude] at above below
  refine ⟨magnitude ▸ finite, by rw [negative_ofInt]; exact decide_eq_false (by omega), ?_, ?_⟩
  · rw [Binary.units]
    omega
  · rw [Binary.units]
    omega

namespace Near

variable {x y : Binary64} {a b : Nat} (near : Near x a) (near' : Near y b)

include near near'

/-- A product of such numbers is rounded once. -/
theorem mul : x * y = ofUnits .double false (x.units * y.units) double.one := by
  have number {z : Binary64} (finite : z.magnitude < double.infinity) :
      z.isNaN = false ∧ z.isInfinite = false :=
    ⟨decide_eq_false (Nat.not_lt_of_gt finite), decide_eq_false (Nat.ne_of_lt finite)⟩
  change Binary.mul x y = _
  simp only [Binary.mul, number near.finite, number near'.finite, near.natural, near'.natural]
  rfl

theorem magnitude_mul : (x * y).magnitude = double.round (x.units * y.units) double.one := by
  rw [near.mul near']
  exact magnitude_ofMagnitude _ (Nat.lt_of_le_of_lt (round_le ..) infinity_lt_signWeight)

theorem negative_mul : (x * y).negative = false := by
  rw [near.mul near']
  exact negative_ofMagnitude _ (Nat.lt_of_le_of_lt (round_le ..) infinity_lt_signWeight)

theorem isNaN_mul : (x * y).isNaN = false := by
  rw [isNaN, near.magnitude_mul near']
  exact decide_eq_false (Nat.not_lt.mpr (round_le ..))

theorem least_mul : 0x1FFFFFFFFFFFFF ^ 2 * (a * b * (double.one * double.one)) ≤
    0x20000000000000 ^ 2 * (x.units * y.units) := by
  have product := Nat.mul_le_mul near.least near'.least
  generalize double.one = one at product ⊢
  calc 0x1FFFFFFFFFFFFF ^ 2 * (a * b * (one * one))
      = 0x1FFFFFFFFFFFFF * (a * one) * (0x1FFFFFFFFFFFFF * (b * one)) := by ring
    _ ≤ 0x20000000000000 * x.units * (0x20000000000000 * y.units) := product
    _ = 0x20000000000000 ^ 2 * (x.units * y.units) := by ring

theorem most_mul : 0x20000000000000 ^ 2 * (x.units * y.units) ≤
    0x20000000000001 ^ 2 * (a * b * (double.one * double.one)) := by
  have product := Nat.mul_le_mul near.most near'.most
  generalize double.one = one at product ⊢
  calc 0x20000000000000 ^ 2 * (x.units * y.units)
      = 0x20000000000000 * x.units * (0x20000000000000 * y.units) := by ring
    _ ≤ 0x20000000000001 * (a * one) * (0x20000000000001 * (b * one)) := product
    _ = 0x20000000000001 ^ 2 * (a * b * (one * one)) := by ring

/-- A product is too large from a little more than `2 ^ 1024` on. -/
theorem isInfinite_mul_of_le (large : 2 ^ 1024 + 3 * 2 ^ 971 ≤ a * b) :
    (x * y).isInfinite = true := by
  have threshold : 0x20000000000000 ^ 2 * double.units double.infinity ≤
      0x1FFFFFFFFFFFFF ^ 2 * ((2 ^ 1024 + 3 * 2 ^ 971) * double.one) := by
    decide +kernel
  have product := near.least_mul near'
  have reached : double.units double.infinity * double.one ≤ x.units * y.units := by
    generalize double.one = one at threshold product ⊢
    have scaled := Nat.mul_le_mul_right (one * one) large
    have bound := Nat.mul_le_mul_right one threshold
    simp only [Nat.mul_assoc] at scaled bound product ⊢
    omega
  rw [isInfinite, near.magnitude_mul near']
  exact decide_eq_true (Nat.le_antisymm (round_le ..)
    (le_round (by decide) BinaryFormat.one_pos (Nat.le_refl _) reached))

theorem isInfinite_mul_of_lt (small : a * b < 2 ^ 1024 - 2 ^ 973) :
    (x * y).isInfinite = false := by
  have threshold : 0x20000000000001 ^ 2 * ((2 ^ 1024 - 2 ^ 973) * double.one) ≤
      0x20000000000000 ^ 2 * double.units (double.infinity - 1) := by
    decide +kernel
  have product := near.most_mul near'
  have kept : x.units * y.units ≤ double.units (double.infinity - 1) * double.one := by
    generalize double.one = one at threshold product ⊢
    have scaled := Nat.mul_le_mul_right (one * one) (Nat.le_of_lt small)
    have bound := Nat.mul_le_mul_right one threshold
    simp only [Nat.mul_assoc] at scaled bound product ⊢
    omega
  have rounded := round_le_of_le (by decide) BinaryFormat.one_pos (Nat.sub_le _ 1) kept
  rw [isInfinite, near.magnitude_mul near']
  refine decide_eq_false (Nat.ne_of_lt ?_)
  rw [double_infinity] at rounded ⊢
  omega

theorem units_mul_of_le (large : 0x400000000 ≤ a * b) :
    0x100000000 * double.one ≤ (x * y).units := by
  obtain ⟨m, below, units⟩ := exists_double (n := 0x100000000) (by rw [double_step]; decide)
  have product := near.least_mul near'
  have reached : double.units m * double.one ≤ x.units * y.units := by
    rw [units]
    generalize double.one = one at product ⊢
    have scaled := Nat.mul_le_mul_right (one * one) large
    simp only [Nat.mul_assoc] at scaled product ⊢
    omega
  rw [← units, Binary.units, near.magnitude_mul near']
  exact units_mono (le_round (by decide) BinaryFormat.one_pos (Nat.le_of_lt below) reached)

end Near

end Binary

end Spellcraft
