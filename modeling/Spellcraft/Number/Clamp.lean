/-! # Clamped 32-bit integers

Mana, power and durations are signed 32-bit integers. A computed value that does not fit is
replaced by the nearer end of the range, never wrapped:

* `clamp32` — the nearest 32-bit integer to an integer;
* `satAdd`, `satSub`, `satMul` — exact arithmetic followed by `clamp32`.

Numbers in texts may be wider: `fits64` and `fits128` say which integers a reader takes.

The small lemmas give the value of a clamped integer as a `max`/`min`, which is the form that
linear arithmetic can use. Clamping keeps the order, and so does clamped arithmetic (`clamp32_mono`,
`satAdd_mono`, `satMul_mono`, `satMul_anti`).
-/

namespace Spellcraft

def clamp32 (i : Int) : Int32 :=
  if i < -2147483648 then Int32.minValue
  else if 2147483647 < i then Int32.maxValue
  else Int32.ofInt i

theorem toInt_clamp32 (i : Int) :
    (clamp32 i).toInt = max (-2147483648) (min i 2147483647) := by
  unfold clamp32
  split
  · have : Int32.minValue.toInt = -2147483648 := by decide
    omega
  · split
    · have : Int32.maxValue.toInt = 2147483647 := by decide
      omega
    · rw [Int32.toInt_ofInt_of_le (by omega) (by omega)]
      omega

theorem toInt_clamp32_of_mem {i : Int} (h₁ : -2147483648 ≤ i) (h₂ : i ≤ 2147483647) :
    (clamp32 i).toInt = i := by
  rw [toInt_clamp32]; omega

@[simp] theorem clamp32_toInt (n : Int32) : clamp32 n.toInt = n := by
  apply Int32.toInt_inj.1
  have h₁ := n.le_toInt
  have h₂ := n.toInt_lt
  rw [toInt_clamp32]; omega

theorem clamp32_mono {i j : Int} (le : i ≤ j) : clamp32 i ≤ clamp32 j := by
  rw [Int32.le_iff_toInt_le, toInt_clamp32, toInt_clamp32]
  omega

def satAdd (a b : Int32) : Int32 := clamp32 (a.toInt + b.toInt)

def satSub (a b : Int32) : Int32 := clamp32 (a.toInt - b.toInt)

def satMul (a b : Int32) : Int32 := clamp32 (a.toInt * b.toInt)

theorem toInt_satAdd (a b : Int32) :
    (satAdd a b).toInt = max (-2147483648) (min (a.toInt + b.toInt) 2147483647) :=
  toInt_clamp32 _

theorem toInt_satSub (a b : Int32) :
    (satSub a b).toInt = max (-2147483648) (min (a.toInt - b.toInt) 2147483647) :=
  toInt_clamp32 _

theorem toInt_satMul (a b : Int32) :
    (satMul a b).toInt = max (-2147483648) (min (a.toInt * b.toInt) 2147483647) :=
  toInt_clamp32 _

theorem satAdd_mono (a : Int32) {b b' : Int32} (le : b ≤ b') : satAdd a b ≤ satAdd a b' :=
  clamp32_mono (Int.add_le_add_left (Int32.le_iff_toInt_le.1 le) _)

theorem satMul_mono {a b b' : Int32} (sign : 0 ≤ a) (le : b ≤ b') : satMul a b ≤ satMul a b' :=
  clamp32_mono
    (Int.mul_le_mul_of_nonneg_left (Int32.le_iff_toInt_le.1 le) (Int32.le_iff_toInt_le.1 sign))

theorem satMul_anti {a b b' : Int32} (sign : a ≤ 0) (le : b ≤ b') : satMul a b' ≤ satMul a b :=
  clamp32_mono
    (Int.mul_le_mul_of_nonpos_left (Int32.le_iff_toInt_le.1 sign) (Int32.le_iff_toInt_le.1 le))

def larger (a b : Int32) : Int32 := if a < b then b else a

theorem toInt_larger (a b : Int32) : (larger a b).toInt = max a.toInt b.toInt := by
  unfold larger
  split
  · next h => have := Int32.lt_iff_toInt_lt.1 h; omega
  · next h => have := mt Int32.lt_iff_toInt_lt.2 h; omega

/-! ## Wider integers -/

def fits64 (i : Int) : Bool := -0x8000000000000000 ≤ i && i < 0x10000000000000000

def fits128 (i : Int) : Bool :=
  -0x80000000000000000000000000000000 ≤ i && i < 0x100000000000000000000000000000000

end Spellcraft
