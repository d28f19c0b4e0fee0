import Spellcraft.Proofs.Number.Integers
import Spellcraft.Proofs.Parameters.FieldText

/-! # Numbers in parameter text

A number in parameter text is decoded before the kind of its field is known: with a decimal point
as a double, else as a 32-bit integer. A kind can also decode the number itself. The two ways are
compared for the numeric kinds: they differ exactly where a number is written without a decimal
point and is no integer, for then the part behind the point is lost first.

* `Value.intOfNumber?_eq` — an integer is the integer part of the number, and nothing is clamped;
* `Kind.normalize_int`, `Kind.normalize_double` — a field takes a number as the double that it is;
* `Parameters.normalize_numberText` — the comparison.
-/

namespace Spellcraft

open Binary BinaryFormat

/-! ## Integer parts -/

namespace Json.Number

def truncated : Number → Int
  | .integer i => i
  | .real x => x.truncate

/-- Whether the number is an integer; minus zero is one. -/
def IsWhole : Number → Prop
  | .integer _ => True
  | .real x => double.one ∣ x.units

end Json.Number

namespace Value

variable {n : Json.Number} {x : Binary64} {i : Int32}

theorem intOfNumber?_real (read : intOfNumber? (.real x) = some i) :
    x.isNaN = false ∧ i.toInt = x.truncate := by
  rw [intOfNumber?, Option.ite_none_right_eq_some, Bool.and_eq_true, Option.some_inj] at read
  obtain ⟨⟨atLeast, atMost⟩, rfl⟩ := read
  have low : Short (-2147483648) := by unfold Short; rw [double_step]; decide
  have high : Short 2147483647 := by unfold Short; rw [double_step]; decide
  obtain ⟨above, below⟩ := truncate_mem low high atLeast atMost
  exact ⟨(not_isNaN_of_le atMost).1, toInt_clamp32_of_mem above below⟩

/-- A number that is decoded as an integer lies in the range, so nothing is clamped. -/
theorem intOfNumber?_eq (read : intOfNumber? n = some i) : i.toInt = n.truncated := by
  cases n with
  | integer j =>
    rw [intOfNumber?, Option.ite_none_right_eq_some, Option.some_inj] at read
    obtain ⟨range, rfl⟩ := read
    exact Int32.toInt_ofInt_of_le range.1 (Int.lt_add_one_of_le range.2)
  | real x => exact (intOfNumber?_real read).2

theorem truncate_of_intOfNumber? (read : intOfNumber? n = some i) :
    n.toDouble.truncate = i.toInt := by
  cases n with
  | integer j =>
    have same : i.toInt = j := intOfNumber?_eq read
    rw [Json.Number.toDouble, ← same, (Counts.ofInt (short_toInt i)).truncate]
  | real x => exact (intOfNumber?_real read).2.symm

/-- A double that is an integer is decoded as what it is, but for the sign of a zero. -/
theorem intOfNumber?_whole (read : intOfNumber? (.real x) = some i)
    (whole : BinaryFormat.double.one ∣ x.units) :
    x = Binary.ofInt .double i.toInt ∨
      x.units = 0 ∧ (Binary.ofInt .double i.toInt).units = 0 := by
  obtain ⟨number, same⟩ := intOfNumber?_real read
  have counts := Counts.ofInt (short_toInt i)
  obtain ⟨k, units⟩ := whole
  have size : i.toInt = if x.negative then -(k : Int) else k := by
    rw [same, Binary.truncate, number, units, Nat.mul_div_cancel_left _ BinaryFormat.one_pos]
    rfl
  -- the number of ones is the absolute value, so only the sign of a zero can be lost
  have absolute : i.toInt.natAbs = k := by
    rw [size]
    split <;> omega
  rw [counts.units, absolute, units]
  by_cases zero : k = 0
  · exact .inr ⟨by rw [zero, Nat.mul_zero], by rw [zero, Nat.zero_mul]⟩
  · left
    have sign : x.negative = (Binary.ofInt .double i.toInt).negative := by
      rw [counts.negative, size]
      cases x.negative
      · simp
      · simpa using Nat.pos_of_ne_zero zero
    apply eq_of_units number counts.isNaN sign
    rw [counts.units, absolute, units, Nat.mul_comm]

end Value

/-! ## Fields of numeric kinds -/

def Kind.numeric : List Kind := [.int, .float, .double]

namespace Kind

variable {kind : Kind}

theorem cases_of_numeric (numeric : kind ∈ Kind.numeric) :
    kind = .int ∨ kind = .float ∨ kind = .double := by
  simpa [Kind.numeric] using numeric

def ofDouble (kind : Kind) (x : Binary64) : Value :=
  match kind with
  | .int => .int x.toInt32
  | .float => .float x.narrow
  | _ => .double x

theorem decodeText_number (numeric : kind ∈ Kind.numeric) (key : String) (n : Json.Number) :
    kind.decodeText key (.number n) = .ok (kind.ofDouble n.toDouble) := by
  rcases cases_of_numeric numeric with rfl | rfl | rfl <;> rfl

theorem normalize_double (numeric : kind ∈ Kind.numeric) (x : Binary64) :
    kind.normalize (.double x) = some (kind.ofDouble x) := by
  rcases cases_of_numeric numeric with rfl | rfl | rfl <;> rfl

theorem normalize_int (numeric : kind ∈ Kind.numeric) (i : Int32) :
    kind.normalize (.int i) = some (kind.ofDouble (Binary.ofInt .double i.toInt)) := by
  rcases cases_of_numeric numeric with rfl | rfl | rfl
  · simp only [normalize, Value.toInt?, ofDouble, Option.map_some, toInt32_ofInt]
  · rfl
  · rfl

end Kind

/-- Equality of values as a comparison has it: the two zeros are equal. -/
inductive Value.Equal : Value → Value → Prop where
  | refl (v : Value) : Equal v v
  | float {x y : Binary32} (none : x.units = 0) (none' : y.units = 0) : Equal (.float x) (.float y)
  | double {x y : Binary64} (none : x.units = 0) (none' : y.units = 0) :
      Equal (.double x) (.double y)

theorem Value.Equal.of_double {x y : Binary64} (equal : Equal (.double x) (.double y)) :
    x = y ∨ x.units = 0 ∧ y.units = 0 := by
  cases equal with
  | refl => exact .inl rfl
  | double none none' => exact .inr ⟨none, none'⟩

theorem Kind.ofDouble_equal {kind : Kind} (numeric : kind ∈ Kind.numeric) {x y : Binary64}
    (none : x.units = 0) (none' : y.units = 0) : (kind.ofDouble x).Equal (kind.ofDouble y) := by
  have zero {x : Binary64} (none : x.units = 0) : x.toInt32 = 0 ∧ x.narrow.units = 0 := by
    rw [eq_zero_of_units none]
    cases x.negative <;> decide +kernel
  rcases Kind.cases_of_numeric numeric with rfl | rfl | rfl
  · simp only [Kind.ofDouble, (zero none).1, (zero none').1]
    exact .refl _
  · exact .float (zero none).2 (zero none').2
  · exact .double none none'

/-- How the value that a field of a numeric kind stores compares with what the kind decodes of the
    number of a literal. -/
structure Json.Number.Comparison (n : Number) (kind : Kind) (key : String) (literal : List Char)
    (stored decoded : Value) : Prop where
  same : kind = .int ∨ '.' ∈ literal → stored = decoded
  truncated : '.' ∉ literal → kind.decodeText key (.number (.integer n.truncated)) = .ok stored
  whole : n.IsWhole → stored.Equal decoded
  onlyWhole : kind = .double → stored.Equal decoded → '.' ∈ literal ∨ n.IsWhole

namespace Json.Number

variable {n : Number} {kind : Kind} {key : String} {literal : List Char}

theorem Comparison.of_point (point : '.' ∈ literal) (value : Value) :
    n.Comparison kind key literal value value where
  same _ := rfl
  truncated noPoint := absurd point noPoint
  whole _ := .refl _
  onlyWhole _ _ := .inl point

/-- A number without a decimal point is compared with its integer part. -/
theorem Comparison.of_int (numeric : kind ∈ Kind.numeric) (noPoint : '.' ∉ literal) {i : Int32}
    (read : Value.intOfNumber? n = some i) :
    n.Comparison kind key literal (kind.ofDouble (Binary.ofInt .double i.toInt))
      (kind.ofDouble n.toDouble) where
  same := by
    rintro (rfl | point)
    · have part := Value.truncate_of_intOfNumber? read
      have short := (Counts.ofInt (short_toInt i)).truncate
      simp only [Kind.ofDouble, Binary.toInt32, part, short]
    · exact absurd point noPoint
  truncated _ := by
    rw [Kind.decodeText_number numeric, ← Value.intOfNumber?_eq read]
    rfl
  whole whole := by
    cases n with
    | integer j =>
      have same : i.toInt = j := Value.intOfNumber?_eq read
      rw [same]
      exact .refl _
    | real x =>
      obtain same | ⟨none, none'⟩ := Value.intOfNumber?_whole read whole
      · rw [toDouble, ← same]
        exact .refl _
      · exact Kind.ofDouble_equal numeric none' none
  onlyWhole := by
    rintro rfl equal
    right
    cases n with
    | integer j => trivial
    | real x =>
      obtain same | ⟨-, none⟩ := Value.Equal.of_double equal
      · have ones := (Counts.ofInt (short_toInt i)).dvd_units
        rw [same] at ones
        exact ones
      · exact Nat.dvd_of_mod_eq_zero (by rw [toDouble] at none; rw [none, Nat.zero_mod])

end Json.Number

/-! ## Text of one number field -/

section

variable {text key : String} {literal : List Char} {parts : Json.NumberLiteral}
  {n : Json.Number} {p : Parameters} {value : Value}

theorem Value.ofJson_double (key : String) (n : Json.Number) (point : '.' ∈ literal) :
    ofJson key (.number n) literal = .ok (.double n.toDouble) := by
  rw [ofJson, if_pos (List.contains_iff_mem.mpr point)]

theorem Value.ofJson_int (key : String) (noPoint : '.' ∉ literal) {i : Int32}
    (read : intOfNumber? n = some i) : ofJson key (.number n) literal = .ok (.int i) := by
  rw [ofJson, if_neg (mt List.contains_iff_mem.mp noPoint), read]

theorem Value.int_of_ofJson (noPoint : '.' ∉ literal)
    (decoded : ofJson key (.number n) literal = .ok value) :
    ∃ i, intOfNumber? n = some i ∧ value = .int i := by
  rw [ofJson, if_neg (mt List.contains_iff_mem.mp noPoint)] at decoded
  cases read : intOfNumber? n with
  | none => rw [read] at decoded; cases decoded
  | some i =>
    rw [read] at decoded
    cases decoded
    exact ⟨i, rfl, rfl⟩

namespace Parameters

theorem ofText_number (field : Json.IsField text key literal)
    (parsed : Json.parse? literal = some (.number n))
    (form : Value.ofJson key (.number n) literal = .ok value) :
    ofText text = .ok (ofList [(key, value)]) := by
  rw [ofText_of_isField field, decodeRaw, parsed]
  dsimp only
  rw [form]
  rfl

/-- Where the text of one number field is decoded, its literal has a number. -/
theorem number_of_ofText (written : Json.NumberLiteral.read literal = some (parts, []))
    (field : Json.IsField text key literal) (decoded : ofText text = .ok p)
    (found : p.find? key = some value) :
    ∃ n, Json.parse? literal = some (.number n) ∧
      Value.ofJson key (.number n) literal = .ok value := by
  have parsed := Json.parse?_number written
  cases number : parts.value? with
  | none =>
    rw [number] at parsed
    rw [ofText_of_isField field, decodeRaw, parsed] at decoded
    cases decoded
  | some n =>
    rw [number] at parsed
    refine ⟨n, parsed, ?_⟩
    cases form : Value.ofJson key (.number n) literal with
    | error e =>
      rw [ofText_of_isField field, decodeRaw, parsed] at decoded
      dsimp only [Option.map_some] at decoded
      rw [form] at decoded
      cases decoded
    | ok v =>
      rw [ofText_number field parsed form] at decoded
      cases decoded
      rw [find?_ofList_singleton] at found
      cases found
      rfl

/-- Whenever the text of one number field is decoded, a field of a numeric kind stores what the
    kind itself decodes of the number, if the kind is the 32-bit integers, if the literal has a
    decimal point, or if its number is an integer; minus zero may lose its sign. Other numbers
    without a decimal point are stored as the kind decodes their integer parts, and for doubles
    that is another number. -/
theorem normalize_numberText (key : String)
    (written : Json.NumberLiteral.read literal = some (parts, [])) :
    Json.IsField (Json.fieldText key literal) key literal ∧
      ∀ text p v, Json.IsField text key literal → ofText text = .ok p → p.find? key = some v →
        ∃ n, Json.parse? literal = some (.number n) ∧ ∀ kind ∈ Kind.numeric,
          ∃ stored decoded, kind.normalize v = some stored ∧
            kind.decodeText key (.number n) = .ok decoded ∧
            n.Comparison kind key literal stored decoded := by
  refine ⟨Json.isField_number key written, fun text p v field decoded found => ?_⟩
  obtain ⟨n, parsed, form⟩ := number_of_ofText written field decoded found
  refine ⟨n, parsed, fun kind numeric => ?_⟩
  have own := Kind.decodeText_number numeric key n
  by_cases point : '.' ∈ literal
  · rw [Value.ofJson_double key n point] at form
    cases form
    exact ⟨_, _, Kind.normalize_double numeric _, own, .of_point point _⟩
  · obtain ⟨i, read, rfl⟩ := Value.int_of_ofJson point form
    exact ⟨_, _, Kind.normalize_int numeric i, own, .of_int numeric point read⟩

/-- A hundred is written without a decimal point, and is an integer all the same. -/
theorem normalize_numberText_hundred :
    ∃ n, Json.parse? ['1', 'e', '2'] = some (.number n) ∧ n.IsWhole ∧ ∀ kind ∈ Kind.numeric,
      ∃ stored decoded, kind.normalize (.int 100) = some stored ∧
        kind.decodeText "n" (.number n) = .ok decoded ∧
        n.Comparison kind "n" ['1', 'e', '2'] stored decoded := by
  have written : Json.NumberLiteral.read ['1', 'e', '2'] =
      some (⟨false, ['1'], none, some (false, ['2'])⟩, []) := rfl
  have number : Json.NumberLiteral.value? ⟨false, ['1'], none, some (false, ['2'])⟩ =
      some (.real (.ofInt .double 100)) := by decide +kernel
  have parsed := Json.parse?_number written
  rw [number] at parsed
  have read : Value.intOfNumber? (.real (.ofInt .double 100)) = some 100 := by decide +kernel
  obtain ⟨field, compare⟩ := normalize_numberText "n" written
  have decoded := ofText_number field parsed (Value.ofJson_int "n" (by decide) read)
  obtain ⟨n, same, compared⟩ := compare _ _ _ field decoded (find?_ofList_singleton _ _)
  rw [parsed] at same
  cases same
  exact ⟨_, parsed, (Counts.ofInt (short_toInt 100)).dvd_units, compared⟩

/-- Fifteen tenths are written without a decimal point: a field of doubles stores one. -/
theorem numberText_fifteen_tenths :
    ¬ ∀ key literal parts text p v n, Json.NumberLiteral.read literal = some (parts, []) →
      Json.IsField text key literal → ofText text = .ok p → p.find? key = some v →
      Json.parse? literal = some (.number n) → ∀ kind ∈ Kind.numeric, ∀ stored decoded,
        kind.normalize v = some stored → kind.decodeText key (.number n) = .ok decoded →
        stored.Equal decoded := by
  intro equal
  have written : Json.NumberLiteral.read ['1', '5', 'e', '-', '1'] =
      some (⟨false, ['1', '5'], none, some (true, ['1'])⟩, []) := rfl
  have number : Json.NumberLiteral.value? ⟨false, ['1', '5'], none, some (true, ['1'])⟩ =
      some (.real (.ofRatio .double false 3 2)) := by decide +kernel
  have parsed := Json.parse?_number written
  rw [number] at parsed
  have read : Value.intOfNumber? (.real (.ofRatio .double false 3 2)) = some 1 := by
    decide +kernel
  have field := Json.isField_number "n" written
  have decoded := ofText_number field parsed (Value.ofJson_int "n" (by decide) read)
  have same := equal "n" _ _ _ _ _ _ written field decoded (find?_ofList_singleton _ _) parsed
    .double (by decide) _ _ rfl rfl
  obtain one | ⟨none, -⟩ := same.of_double
  · exact absurd one (by decide +kernel)
  · exact absurd none (by decide +kernel)

end Parameters

end

end Spellcraft
