/-! # Rounding a quotient of natural numbers

A quotient is rounded to the nearest integer in two ways that differ only on exact halves:

* `roundHalfEven` — a half goes to the even neighbour (arithmetic and fixed-place text);
* `roundHalfUp` — a half goes away from zero (ticks).

`floorSqrt` is the integer square root, digit by digit in base four.
-/

namespace Spellcraft

def roundHalfEven (num den : Nat) : Nat :=
  let low := num / den
  let rest := 2 * (num % den)
  if rest < den then low
  else if den < rest then low + 1
  else if low % 2 = 0 then low
  else low + 1

def roundHalfUp (num den : Nat) : Nat :=
  (2 * num + den) / (2 * den)

theorem roundHalfEven_mul_right {q den : Nat} (h : 0 < den) :
    roundHalfEven (q * den) den = q := by
  simp [roundHalfEven, Nat.mul_div_cancel _ h, h]

@[simp] theorem roundHalfEven_one (n : Nat) : roundHalfEven n 1 = n := by
  have h : roundHalfEven (n * 1) 1 = n := roundHalfEven_mul_right (by decide)
  rwa [Nat.mul_one] at h

theorem roundHalfUp_mul_right {q den : Nat} (h : 0 < den) :
    roundHalfUp (q * den) den = q := by
  unfold roundHalfUp
  rw [show 2 * (q * den) + den = den + 2 * den * q by rw [Nat.mul_comm q den, Nat.mul_assoc]; omega,
    Nat.add_mul_div_left _ _ (by omega), Nat.div_eq_of_lt (by omega), Nat.zero_add]

/-- The leading `digits` base-four digits' worth of the square root of `n`. -/
def sqrtDigits : Nat → Nat → Nat
  | 0, _ => 0
  | digits + 1, n =>
    let root := 2 * sqrtDigits digits (n / 4)
    if (root + 1) * (root + 1) ≤ n then root + 1 else root

def floorSqrt (n : Nat) : Nat :=
  sqrtDigits (n.log2 / 2 + 1) n

end Spellcraft
