import Mathlib.Data.List.TakeWhile
import Spellcraft.Proofs.Number.Order
import Spellcraft.Proofs.Parameters.FieldText

/-! # Integer literals

An integer literal has digits and maybe a minus. Its number is the integer that it writes, as long
as this fits 64 bits; otherwise, and for minus zero, it is a double: the leading digits that fit,
scaled by a power of ten for the ones that were dropped.

* `IntegerLiteral.read_text`, `IntegerLiteral.exists_of_read` — these are the literals that are read
  without a fraction and an exponent;
* `NumberLiteral.Leads` — how far the leading digits stand for all of them;
* `IntegerLiteral.number?_eq` — the number of a literal;
* `IntegerLiteral.real?_of_not_fits` — beyond 64 bits this is one product, unless it is too large;
* `IntegerLiteral.real?_of_small`, `IntegerLiteral.real?_of_large` — when it is too large.
-/

namespace Spellcraft.Json

open Binary BinaryFormat

/-- An integer literal: digits that do not start with a zero, or a single zero, after a minus or
    not. -/
structure IntegerLiteral where
  negative : Bool
  digits : List Char
  nonempty : digits ≠ []
  decimal : ∀ c ∈ digits, isDigit c = true
  leading : digits.head? = some '0' → digits = ['0']

namespace NumberLiteral

/-! ## Digits that fit -/

def appendDigits (n : Nat) (cs : List Char) : Nat :=
  cs.foldl (fun n c => n * 10 + (c.toNat - 48)) n

theorem digitsValue_eq {cs : List Char} (decimal : ∀ c ∈ cs, isDigit c = true) :
    digitsValue 10 cs = appendDigits 0 cs := by
  unfold digitsValue appendDigits
  generalize 0 = n
  induction cs generalizing n with
  | nil => rfl
  | cons c cs ih =>
    have digit := decimal c List.mem_cons_self
    simp only [isDigit, Bool.and_eq_true, decide_eq_true_eq] at digit
    have value : digitValue? 10 c = some (c.toNat - 48) := by
      simp only [digitValue?, digit, and_self, if_true, Option.filter_some]
      simp
      omega
    simp only [List.foldl_cons, value]
    exact ih (fun c member => decimal c (List.mem_cons_of_mem _ member)) _

/-- A significand stands for a longer number, some digits of which were dropped because it had no
    room for one more. -/
structure Leads (significand dropped total : Nat) : Prop where
  fits : significand < 0x10000000000000000
  low : significand * 10 ^ dropped ≤ total
  high : total < (significand + 1) * 10 ^ dropped
  full : dropped ≠ 0 → 0x10000000000000000 ≤ significand * 10 + 9

theorem appendDigits_bounds (n : Nat) {cs : List Char} (decimal : ∀ c ∈ cs, isDigit c = true) :
    n * 10 ^ cs.length ≤ appendDigits n cs ∧ appendDigits n cs < (n + 1) * 10 ^ cs.length := by
  induction cs generalizing n with
  | nil => simp [appendDigits]
  | cons c cs ih =>
    have digit := decimal c List.mem_cons_self
    simp only [isDigit, Bool.and_eq_true, decide_eq_true_eq] at digit
    obtain ⟨low, high⟩ := ih (n * 10 + (c.toNat - 48)) fun c member =>
      decimal c (List.mem_cons_of_mem _ member)
    have below : n * 10 * 10 ^ cs.length ≤ (n * 10 + (c.toNat - 48)) * 10 ^ cs.length :=
      Nat.mul_le_mul_right _ (by omega)
    have above : (n * 10 + (c.toNat - 48) + 1) * 10 ^ cs.length ≤
        (n + 1) * 10 * 10 ^ cs.length := Nat.mul_le_mul_right _ (by omega)
    rw [List.length_cons, Nat.pow_succ', ← Nat.mul_assoc, ← Nat.mul_assoc]
    exact ⟨Nat.le_trans below low, Nat.lt_of_lt_of_le high above⟩

theorem leads_takeDigits {n : Nat} (fits : n < 0x10000000000000000) {cs : List Char}
    (decimal : ∀ c ∈ cs, isDigit c = true) :
    Leads (takeDigits n cs).1 (takeDigits n cs).2.length (appendDigits n cs) := by
  induction cs generalizing n with
  | nil => exact ⟨fits, by simp [takeDigits, appendDigits], by simp [takeDigits, appendDigits],
      by simp [takeDigits]⟩
  | cons c cs ih =>
    have digit := decimal c List.mem_cons_self
    simp only [isDigit, Bool.and_eq_true, decide_eq_true_eq] at digit
    rw [takeDigits]
    split
    · next more =>
      simp only [fits64, Bool.and_eq_true, decide_eq_true_eq] at more
      exact ih (by omega) fun c member => decimal c (List.mem_cons_of_mem _ member)
    · next full =>
      simp only [fits64, Bool.and_eq_true, decide_eq_true_eq, not_and_or] at full
      obtain ⟨low, high⟩ := appendDigits_bounds n decimal
      exact ⟨fits, low, high, fun _ => by omega⟩

/-! ## Scaling -/

theorem tenTo_eq (n : Nat) : tenTo n = Binary.ofInt .double (10 ^ n : Nat) := by
  have natural : decide (((10 ^ n : Nat) : Int) < 0) = false :=
    decide_eq_false (Int.not_lt.mpr (Int.natCast_nonneg _))
  rw [tenTo, Binary.ofInt, natural]
  rfl

theorem scale_up {x : Binary64} (some : 0 < x.units) (count steps : Nat) :
    scale x count (steps + 1) =
      if count ≤ 308 ∧ (x * tenTo count).isInfinite = false then .some (x * tenTo count)
      else none := by
  rw [scale]
  by_cases inRange : count ≤ 308
  · cases infinite : (x * tenTo count).isInfinite <;> simp [inRange, infinite]
  · simp [inRange, Nat.ne_of_gt some]

end NumberLiteral

namespace IntegerLiteral

variable (l : IntegerLiteral)

def text : List Char := if l.negative then '-' :: l.digits else l.digits

def magnitude : Nat := digitsValue 10 l.digits

def value : Int := if l.negative then -(l.magnitude : Int) else l.magnitude

def parts : NumberLiteral := ⟨l.negative, l.digits, none, none⟩

theorem readWhole_digits : NumberLiteral.readWhole l.digits = some (l.digits, []) := by
  have all : l.digits.takeWhile isDigit = l.digits := List.takeWhile_eq_self_iff.mpr l.decimal
  have nothing : l.digits.dropWhile isDigit = [] := List.dropWhile_eq_nil_iff.mpr l.decimal
  have read : NumberLiteral.readDigits l.digits = some (l.digits, []) := by
    unfold NumberLiteral.readDigits
    rw [all, nothing]
    split
    · next none => exact absurd none l.nonempty
    · rfl
  unfold NumberLiteral.readWhole
  rw [read]
  split
  · next zeros =>
    -- only a single zero may come first
    simp only [Option.some.injEq, Prod.mk.injEq] at zeros
    have single := l.leading (by rw [zeros.1]; rfl)
    rw [zeros.1] at single
    cases single
  · rfl

theorem read_text : NumberLiteral.read l.text = some (l.parts, []) := by
  have unsigned (negative : Bool) : NumberLiteral.readUnsigned negative l.digits =
      some (⟨negative, l.digits, none, none⟩, []) := by
    rw [NumberLiteral.readUnsigned, readWhole_digits]
    rfl
  unfold text parts
  cases negative : l.negative with
  | true => exact (NumberLiteral.read_minus _).trans (unsigned true)
  | false =>
    refine (NumberLiteral.read_of_head fun minus => ?_).trans (unsigned false)
    exact absurd (l.decimal '-' (List.mem_of_mem_head? minus)) (by decide)

theorem digits_of_readWhole {cs digits : List Char}
    (read : NumberLiteral.readWhole cs = some (digits, [])) :
    digits = cs ∧ cs ≠ [] ∧ (∀ c ∈ cs, isDigit c = true) ∧
      (cs.head? = some '0' → cs = ['0']) := by
  have parted := List.takeWhile_append_dropWhile (p := isDigit) (l := cs)
  unfold NumberLiteral.readWhole at read
  split at read
  · cases read
  · next regular =>
    -- all of the text is digits, since nothing is left over
    unfold NumberLiteral.readDigits at read regular
    split at read
    · cases read
    · next some =>
      obtain ⟨taken, left⟩ := Prod.mk.inj (Option.some.inj read)
      rw [left, List.append_nil] at parted
      rw [parted] at taken regular some
      refine ⟨taken.symm, some, List.takeWhile_eq_self_iff.mp parted, fun zero => ?_⟩
      obtain ⟨rest, rfl⟩ := List.head?_eq_some_iff.mp zero
      cases rest with
      | nil => rfl
      | cons c rest => exact absurd rfl (regular c rest _)

theorem rest_of_readFraction {cs rest : List Char}
    (read : NumberLiteral.readFraction cs = some (none, rest)) : rest = cs := by
  unfold NumberLiteral.readFraction at read
  split at read
  · split at read <;> cases read
  · cases read
    rfl

theorem rest_of_readExponent {cs rest : List Char}
    (read : NumberLiteral.readExponent cs = some (none, rest)) : rest = cs := by
  unfold NumberLiteral.readExponent at read
  split at read
  · split at read
    · split at read <;> cases read
    · cases read
      rfl
  · cases read
    rfl

/-- Whatever is read as a number without a fraction and an exponent is an integer literal. -/
theorem exists_of_read {cs : List Char} {parts : NumberLiteral}
    (read : NumberLiteral.read cs = some (parts, [])) (integer : parts.isInteger = true) :
    ∃ l : IntegerLiteral, l.text = cs ∧ l.parts = parts := by
  have unsigned {negative : Bool} {cs : List Char}
      (read : NumberLiteral.readUnsigned negative cs = some (parts, [])) :
      ∃ l : IntegerLiteral, l.negative = negative ∧ l.digits = cs ∧ l.parts = parts := by
    simp only [NumberLiteral.readUnsigned, Option.bind_eq_some_iff, Option.map_eq_some_iff] at read
    obtain ⟨⟨digits, _⟩, whole, ⟨fraction, _⟩, point, ⟨exponent, _⟩, letter, same⟩ := read
    cases same
    simp only [NumberLiteral.isInteger, Bool.and_eq_true, Option.isNone_iff_eq_none] at integer
    obtain ⟨rfl, rfl⟩ := integer
    obtain rfl := rest_of_readFraction point
    obtain rfl := rest_of_readExponent letter
    obtain ⟨rfl, nonempty, decimal, leading⟩ := digits_of_readWhole whole
    exact ⟨⟨negative, digits, nonempty, decimal, leading⟩, rfl, rfl, rfl⟩
  by_cases minus : cs.head? = some '-'
  · obtain ⟨cs, rfl⟩ := List.head?_eq_some_iff.mp minus
    rw [NumberLiteral.read_minus] at read
    obtain ⟨l, negative, rfl, parts⟩ := unsigned read
    exact ⟨l, by rw [text, negative]; rfl, parts⟩
  · rw [NumberLiteral.read_of_head minus] at read
    obtain ⟨l, natural, rfl, parts⟩ := unsigned read
    exact ⟨l, by rw [text, natural]; rfl, parts⟩

theorem no_point : '.' ∉ l.text := by
  have digits : '.' ∉ l.digits := fun point => absurd (l.decimal '.' point) (by decide)
  unfold text
  split
  · simpa using digits
  · exact digits

/-! ## Whole numbers -/

def number? : Option Number := l.parts.value?

theorem number?_eq : l.number? =
    if fits64 l.value = true ∧ ¬ (l.negative = true ∧ l.value = 0) then some (.integer l.value)
    else l.parts.real?.map .real := by
  have integer : l.parts.integer = l.value := rfl
  unfold number? NumberLiteral.value?
  have form : l.parts.isInteger = true := rfl
  have sign : l.parts.negative = l.negative := rfl
  rw [integer, form, sign]
  cases l.negative <;> simp

/-! ## Numbers beyond 64 bits -/

def significand : Nat := (NumberLiteral.takeDigits 0 l.digits).1

def dropped : Nat := (NumberLiteral.takeDigits 0 l.digits).2.length

theorem leads : NumberLiteral.Leads l.significand l.dropped l.magnitude := by
  rw [magnitude, NumberLiteral.digitsValue_eq l.decimal]
  exact NumberLiteral.leads_takeDigits (by decide) l.decimal

theorem real?_eq : l.parts.real? =
    (NumberLiteral.scale (.ofInt .double l.significand) l.dropped 3).map
      fun x => if l.negative then -x else x := by
  unfold NumberLiteral.real? significand dropped
  simp only [parts, NumberLiteral.writtenExponent]
  rcases NumberLiteral.takeDigits 0 l.digits with ⟨significand, dropped⟩
  -- there are no digits of a fraction, so the point stays behind the dropped digits
  simp only [Option.getD_none, NumberLiteral.takeDigits, List.length_nil, Nat.sub_zero,
    Int.natCast_zero, Int.sub_zero, Int.add_zero]
  cases NumberLiteral.scale (.ofInt .double significand) dropped.length 3 <;> rfl

theorem number?_minus_zero (negative : l.negative = true) (zero : l.value = 0) :
    l.number? = some (.real (-.zero .double)) := by
  obtain ⟨-, low, -, full⟩ := l.leads
  have none : l.magnitude = 0 := by simpa [value, negative] using zero
  have some : 0 < 10 ^ l.dropped := Nat.pow_pos (by decide)
  -- nothing but zeros is read, and no digit was dropped for want of room
  have nothing : l.significand = 0 := by
    rcases Nat.eq_zero_or_pos l.significand with nothing | positive
    · exact nothing
    · have product := Nat.mul_pos positive some
      omega
  have all : l.dropped = 0 := by omega
  rw [number?_eq, if_neg (fun both => both.2 ⟨negative, zero⟩), real?_eq, nothing, all, negative]
  decide +kernel

theorem magnitude_of_not_fits (beyond : fits64 l.value = false) :
    0x8000000000000000 ≤ l.magnitude := by
  unfold fits64 value at beyond
  simp only [Bool.and_eq_false_iff, decide_eq_false_iff_not] at beyond
  split at beyond <;> omega

theorem near_significand : Near (.ofInt .double l.significand) l.significand := by
  have room : 0x10000000000000000 ≤ 10 ^ 308 := by decide +kernel
  exact near_ofInt (Nat.le_trans (Nat.le_of_lt l.leads.fits) room)

theorem near_tenTo {n : Nat} (inRange : n ≤ 308) : Near (NumberLiteral.tenTo n) (10 ^ n) := by
  have power (k : Nat) (le : n ≤ k) : 10 ^ n ≤ 10 ^ k := Nat.pow_le_pow_right (by decide) le
  rw [NumberLiteral.tenTo_eq]
  exact near_ofInt (power 308 inRange)

def scaled : Binary64 := .ofInt .double l.significand * NumberLiteral.tenTo l.dropped

section

variable {l} (beyond : fits64 l.value = false)

include beyond

theorem significand_of_not_fits : 0x1000000000000000 ≤ l.significand := by
  obtain ⟨-, -, high, full⟩ := l.leads
  have large := l.magnitude_of_not_fits beyond
  by_cases all : l.dropped = 0
  · rw [all] at high
    omega
  · have := full all
    omega

/-- Integers beyond 64 bits are one product, or they are too large. -/
theorem real?_of_not_fits : l.parts.real? =
    if l.dropped ≤ 308 ∧ l.scaled.isInfinite = false then
      some (if l.negative then -l.scaled else l.scaled)
    else none := by
  have positive : 0 < (Binary.ofInt .double l.significand).units := by
    have least := l.near_significand.least
    have large := significand_of_not_fits beyond
    have some : 0 < l.significand * double.one := Nat.mul_pos (by omega) BinaryFormat.one_pos
    omega
  rw [real?_eq, NumberLiteral.scale_up positive]
  by_cases fits : l.dropped ≤ 308 ∧ l.scaled.isInfinite = false
  · rw [if_pos fits]
    exact congrArg _ (if_pos fits)
  · rw [if_neg fits]
    exact congrArg _ (if_neg fits)

theorem units_of_real? {x : Binary64} (read : l.parts.real? = some x) :
    0x100000000 * double.one ≤ x.units := by
  rw [real?_of_not_fits beyond, Option.ite_none_right_eq_some] at read
  obtain ⟨⟨inRange, -⟩, same⟩ := read
  have large := significand_of_not_fits beyond
  have product : l.significand * 1 ≤ l.significand * 10 ^ l.dropped :=
    Nat.mul_le_mul_left _ (Nat.pow_pos (by decide))
  have units : 0x100000000 * double.one ≤ l.scaled.units :=
    l.near_significand.units_mul_of_le (near_tenTo inRange) (by omega)
  cases same
  split
  · rwa [units_neg]
  · exact units

theorem real?_of_small (small : l.magnitude < 2 ^ 1024 - 2 ^ 973) : l.parts.real? ≠ none := by
  have low := l.leads.low
  have large := significand_of_not_fits beyond
  have product : 1 * 10 ^ l.dropped ≤ l.significand * 10 ^ l.dropped :=
    Nat.mul_le_mul_right _ (by omega)
  have inRange : l.dropped ≤ 308 := by
    by_contra more
    have power (k : Nat) (less : k ≤ l.dropped) : 10 ^ k ≤ 10 ^ l.dropped :=
      Nat.pow_le_pow_right (by decide) less
    have := power 309 (by omega)
    omega
  have finite : l.scaled.isInfinite = false :=
    l.near_significand.isInfinite_mul_of_lt (near_tenTo inRange) (Nat.lt_of_le_of_lt low small)
  rw [real?_of_not_fits beyond, if_pos ⟨inRange, finite⟩]
  exact Option.some_ne_none _

theorem real?_of_large (large : 2 ^ 1024 + 2 ^ 973 ≤ l.magnitude) : l.parts.real? = none := by
  have high := l.leads.high
  have some := significand_of_not_fits beyond
  rw [real?_of_not_fits beyond, if_neg]
  rintro ⟨inRange, finite⟩
  -- the dropped digits are less than one part in `2 ^ 60`
  have product : 2 ^ 1024 + 3 * 2 ^ 971 ≤ l.significand * 10 ^ l.dropped := by
    have close : 0x1000000000000000 * (l.significand + 1) * 10 ^ l.dropped ≤
        0x1000000000000001 * l.significand * 10 ^ l.dropped :=
      Nat.mul_le_mul_right _ (by omega)
    rw [Nat.mul_assoc, Nat.mul_assoc] at close
    omega
  have infinite := l.near_significand.isInfinite_mul_of_le (near_tenTo inRange) product
  change l.scaled.isInfinite = true at infinite
  rw [finite] at infinite
  cases infinite

end

end IntegerLiteral

end Spellcraft.Json
