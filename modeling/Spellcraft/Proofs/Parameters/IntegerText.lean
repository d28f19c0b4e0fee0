import Spellcraft.Proofs.Json.IntegerLiteral
import Spellcraft.Proofs.Parameters.NumberText

/-! # Integers in parameter text

An integer literal in parameter text is the integer that it writes, or it is refused. Between the
two there is nothing: doubles come in for literals beyond 64 bits and for minus zero, but what they
lose never brings a number back into the range.

* `Value.intOfNumber?_toDouble` — a number is in the range just if its double is;
* `Parameters.ReadsInteger` — what is read of an integer literal;
* `Parameters.ofText_integer` — this is read of every one, under every name.
-/

namespace Spellcraft

open Binary BinaryFormat

theorem Binary.le_iff {x y : Binary64} (number : x.isNaN = false) (number' : y.isNaN = false) :
    x.le y = true ↔ x.value ≤ y.value := by
  simp [Binary.le, number, number']

theorem Binary.inRange_iff {x : Binary64} (number : x.isNaN = false) :
    ((ofInt .double (-2147483648)).le x && x.le (ofInt .double 2147483647)) = true ↔
      -2147483648 * (double.one : Int) ≤ x.value ∧ x.value ≤ 2147483647 * (double.one : Int) := by
  have low : Short (-2147483648) := by unfold Short; rw [double_step]; decide
  have high : Short 2147483647 := by unfold Short; rw [double_step]; decide
  rw [Bool.and_eq_true, le_iff (isNaN_ofInt _) number, le_iff number (isNaN_ofInt _),
    (Counts.ofInt low).value, (Counts.ofInt high).value]

/-- Rounding moves no integer into the range or out of it. -/
theorem Binary.inRange_ofInt_iff (i : Int) :
    ((ofInt .double (-2147483648)).le (ofInt .double i) &&
      (ofInt .double i).le (ofInt .double 2147483647)) = true ↔
      -2147483648 ≤ i ∧ i ≤ 2147483647 := by
  have short {j : Int} (small : j.natAbs ≤ 2147483649) : Short j := by
    unfold Short
    rw [double_step]
    omega
  rw [inRange_iff (isNaN_ofInt i), le_value_ofInt_iff (short (by decide)) (short (by decide)),
    value_ofInt_le_iff (short (by decide)) (short (by decide))]

namespace Value

/-- A number is in the range just if its double is, and then it is the same integer. -/
theorem intOfNumber?_toDouble (n : Json.Number) :
    intOfNumber? (.real n.toDouble) = intOfNumber? n := by
  cases n with
  | real x => rfl
  | integer i =>
    have rounded := inRange_ofInt_iff i
    rw [Json.Number.toDouble, intOfNumber?, intOfNumber?]
    by_cases inRange : -2147483648 ≤ i ∧ i ≤ 2147483647
    · have short : Short i := by
        unfold Short
        rw [double_step]
        omega
      have part : clamp32 i = Int32.ofInt i := by
        rw [clamp32, if_neg (by omega), if_neg (by omega)]
      rw [if_pos (rounded.mpr inRange), if_pos inRange, toInt32, (Counts.ofInt short).truncate,
        part]
    · rw [if_neg (mt rounded.mp inRange), if_neg inRange]

/-- A double beyond the range is no integer, whatever its sign. -/
theorem intOfNumber?_of_units {x : Binary64}
    (large : 0x100000000 * BinaryFormat.double.one ≤ x.units) : intOfNumber? (.real x) = none := by
  rw [intOfNumber?, if_neg]
  intro inRange
  obtain ⟨-, atMost⟩ := Bool.and_eq_true_iff.mp inRange
  obtain ⟨low, high⟩ := (inRange_iff (not_isNaN_of_le atMost).1).mp inRange
  have positive := BinaryFormat.one_pos (f := .double)
  unfold Binary.value at low high
  -- the sign decides which of the two bounds fails
  generalize BinaryFormat.double.one = one at positive large low high
  cases negative : x.negative with
  | true =>
    rw [negative, if_pos rfl] at low
    omega
  | false =>
    rw [negative, if_neg Bool.false_ne_true] at high
    omega

end Value

namespace Json.IntegerLiteral

variable (l : IntegerLiteral)

variable {l} in
theorem not_inRange (beyond : fits64 l.value = false) :
    ¬ (-2147483648 ≤ l.value ∧ l.value ≤ 2147483647) := by
  simp only [fits64, Bool.and_eq_false_iff, decide_eq_false_iff_not] at beyond
  omega

theorem number?_of_fits (fits : fits64 l.value = true) : (l.number?).isSome = true := by
  by_cases zero : l.negative = true ∧ l.value = 0
  · rw [l.number?_minus_zero zero.1 zero.2]
    rfl
  · rw [l.number?_eq, if_pos ⟨fits, zero⟩]
    rfl

theorem number?_of_not_fits (beyond : fits64 l.value = false) :
    l.number? = l.parts.real?.map .real := by
  rw [l.number?_eq, if_neg (fun both => Bool.false_ne_true (beyond ▸ both.1))]

/-- Where a literal has a number, this has an integer just if the literal's own fits 32 bits. -/
theorem intOfNumber?_iff {n : Number} (read : l.number? = some n) (i : Int32) :
    Value.intOfNumber? n = some i ↔ i.toInt = l.value := by
  have low := i.le_toInt
  have high := i.toInt_lt
  cases fits : fits64 l.value with
  | true =>
    by_cases zero : l.negative = true ∧ l.value = 0
    · -- minus zero is the only double that is no larger than the range
      rw [l.number?_minus_zero zero.1 zero.2, Option.some_inj] at read
      have none : Value.intOfNumber? (.real (-.zero .double)) = some 0 := by decide +kernel
      rw [← read, none, zero.2, Option.some_inj, eq_comm]
      exact Int32.toInt_inj.symm
    · rw [l.number?_eq, if_pos ⟨fits, zero⟩, Option.some_inj] at read
      rw [← read]
      constructor
      · exact Value.intOfNumber?_eq
      · intro same
        rw [Value.intOfNumber?, if_pos (by omega), ← same, Int32.ofInt_toInt]
  | false =>
    rw [l.number?_of_not_fits fits] at read
    obtain ⟨x, real, rfl⟩ := Option.map_eq_some_iff.mp read
    rw [Value.intOfNumber?_of_units (units_of_real? fits real)]
    have outside := not_inRange fits
    constructor
    · intro some
      cases some
    · omega

theorem le_magnitude_of_number? (none : l.number? = none) :
    2 ^ 1024 - 2 ^ 973 ≤ l.magnitude := by
  cases fits : fits64 l.value with
  | true =>
    have some := l.number?_of_fits fits
    rw [none] at some
    cases some
  | false =>
    rw [l.number?_of_not_fits fits, Option.map_eq_none_iff] at none
    exact Nat.le_of_not_lt fun small => real?_of_small fits small none

theorem number?_of_le_magnitude (large : 2 ^ 1024 + 2 ^ 973 ≤ l.magnitude) :
    l.number? = none := by
  have beyond : fits64 l.value = false := by
    unfold fits64 value
    rw [Bool.and_eq_false_iff, decide_eq_false_iff_not, decide_eq_false_iff_not]
    split <;> omega
  rw [l.number?_of_not_fits beyond, real?_of_large beyond large]
  rfl

end Json.IntegerLiteral

namespace Parameters

/-- What is read of an object whose only value is an integer literal: its integer, if this fits 32
    bits. Otherwise the object is refused: for this literal, or for being no JSON where the literal
    has no number. -/
structure ReadsInteger (key : String) (l : Json.IntegerLiteral)
    (result : Except DecodeError Parameters) : Prop where
  reads : ∀ i, result = .ok (ofList [(key, .int i)]) ↔ i.toInt = l.value
  only : ∀ p, result = .ok p → ∃ i, p = ofList [(key, .int i)]
  fits : (∃ p, result = .ok p) ↔ -2147483648 ≤ l.value ∧ l.value ≤ 2147483647
  refuses : (∀ p, result ≠ .ok p) →
    result = .error (if l.number?.isSome then .outOfRange key (String.ofList l.text)
      else .malformedText)

namespace ReadsInteger

variable {key : String} {l : Json.IntegerLiteral}

theorem of_int {i : Int32} (same : i.toInt = l.value) :
    ReadsInteger key l (.ok (ofList [(key, .int i)])) where
  reads j := by
    constructor
    · intro ok
      have found := congrArg (fun p => p.find? key) (Except.ok.inj ok)
      rw [find?_ofList_singleton, find?_ofList_singleton] at found
      cases found
      exact same
    · intro same'
      rw [Int32.toInt_inj.mp (same.trans same'.symm)]
  only := by
    rintro _ ⟨⟩
    exact ⟨i, rfl⟩
  fits := by
    have low := i.le_toInt
    have high := i.toInt_lt
    exact ⟨fun _ => by omega, fun _ => ⟨_, rfl⟩⟩
  refuses none := absurd rfl (none _)

theorem of_error {error : DecodeError}
    (outside : ¬ (-2147483648 ≤ l.value ∧ l.value ≤ 2147483647))
    (reason : error = if l.number?.isSome then .outOfRange key (String.ofList l.text)
      else .malformedText) : ReadsInteger key l (.error error) where
  reads i := by
    have low := i.le_toInt
    have high := i.toInt_lt
    exact ⟨nofun, fun same => absurd ⟨by omega, by omega⟩ outside⟩
  only := nofun
  fits := ⟨nofun, fun inside => absurd inside outside⟩
  refuses _ := by rw [reason]

end ReadsInteger

theorem readsInteger_ofText {text key : String} {l : Json.IntegerLiteral}
    (field : Json.IsField text key l.text) : ReadsInteger key l (ofText text) := by
  have parsed := Json.parse?_number l.read_text
  change Json.parse? l.text = l.number?.map .number at parsed
  cases number : l.number? with
  | none =>
    -- only a literal far beyond the range has no number
    have large := l.le_magnitude_of_number? number
    have outside : ¬ (-2147483648 ≤ l.value ∧ l.value ≤ 2147483647) := by
      unfold Json.IntegerLiteral.value
      split <;> omega
    rw [number] at parsed
    rw [ofText_of_isField field, decodeRaw, parsed]
    exact .of_error outside (by rw [number]; rfl)
  | some n =>
    have own := l.intOfNumber?_iff number
    rw [number] at parsed
    cases integer : Value.intOfNumber? n with
    | some i =>
      rw [ofText_number field parsed (Value.ofJson_int key l.no_point integer)]
      exact .of_int ((own i).mp integer)
    | none =>
      have outside : ¬ (-2147483648 ≤ l.value ∧ l.value ≤ 2147483647) := by
        rintro ⟨low, high⟩
        have read := (own (Int32.ofInt l.value)).mpr (Int32.toInt_ofInt_of_le low (by omega))
        rw [integer] at read
        cases read
      have form : Value.ofJson key (.number n) l.text =
          .error (.outOfRange key (String.ofList l.text)) := by
        rw [Value.ofJson, if_neg (mt List.contains_iff_mem.mp l.no_point), integer]
      rw [ofText_of_isField field, decodeRaw, parsed]
      dsimp only [Option.map_some]
      rw [form]
      exact .of_error outside (by rw [number]; rfl)

/-- An integer literal that is the only value of an object is read as the integer that it writes,
    or the object is refused. It has a number unless it is larger than all doubles: the limit is
    `2 ^ 1024`, up to one part in `2 ^ 51`. Of every number that it may have, the double is in the
    range just if the number is. -/
theorem ofText_integer (key : String) (l : Json.IntegerLiteral) :
    Json.IsField (Json.fieldText key l.text) key l.text ∧
    (∀ text, Json.IsField text key l.text → ReadsInteger key l (ofText text)) ∧
    (l.number? = none → 2 ^ 1024 - 2 ^ 973 ≤ l.magnitude) ∧
    (2 ^ 1024 + 2 ^ 973 ≤ l.magnitude → l.number? = none) ∧
    ∀ n, l.number? = some n → Value.intOfNumber? (.real n.toDouble) = Value.intOfNumber? n :=
  ⟨Json.isField_number key l.read_text, fun _ field => readsInteger_ofText field,
    l.le_magnitude_of_number?, l.number?_of_le_magnitude, fun n _ => Value.intOfNumber?_toDouble n⟩

def minusZero : Json.IntegerLiteral where
  negative := true
  digits := ['0']
  nonempty := by decide
  decimal := by simp [isDigit]
  leading _ := rfl

/-- The size of the least 32-bit integer, as a literal with or without a minus. -/
def edge (negative : Bool) : Json.IntegerLiteral where
  negative
  digits := ['2', '1', '4', '7', '4', '8', '3', '6', '4', '8']
  nonempty := by decide
  decimal := by simp [isDigit]
  leading := nofun

/-- A one with so many zeros that no double is as large. -/
def googols : Json.IntegerLiteral where
  negative := false
  digits := '1' :: List.replicate 309 '0'
  nonempty := List.cons_ne_nil _ _
  decimal := by
    intro c member
    rcases List.mem_cons.mp member with rfl | zero
    · rfl
    · rw [List.eq_of_mem_replicate zero]
      rfl
  leading := nofun

/-- Minus zero is zero; of the two edges one is in the range, the other is refused as it is written;
    and the largest of the four is no number at all. -/
theorem ofText_integer_edges :
    ofText (Json.fieldText "n" minusZero.text) = .ok (ofList [("n", .int 0)]) ∧
    ofText (Json.fieldText "n" (edge true).text) = .ok (ofList [("n", .int (-2147483648))]) ∧
    ofText (Json.fieldText "n" (edge false).text) = .error (.outOfRange "n" "2147483648") ∧
    ofText (Json.fieldText "n" googols.text) = .error .malformedText := by
  have refused (l : Json.IntegerLiteral)
      (outside : ¬ (-2147483648 ≤ l.value ∧ l.value ≤ 2147483647)) :
      ofText (Json.fieldText "n" l.text) =
        .error (if l.number?.isSome then .outOfRange "n" (String.ofList l.text)
          else .malformedText) := by
    obtain ⟨field, reads, -⟩ := ofText_integer "n" l
    obtain ⟨-, -, fits, refuses⟩ := reads _ field
    exact refuses fun p ok => outside (fits.mp ⟨p, ok⟩)
  obtain ⟨field, reads, -⟩ := ofText_integer "n" minusZero
  obtain ⟨field', reads', -⟩ := ofText_integer "n" (edge true)
  obtain ⟨-, -, finite, -, -⟩ := ofText_integer "n" (edge false)
  obtain ⟨-, -, -, infinite, -⟩ := ofText_integer "n" googols
  refine ⟨((reads _ field).reads 0).mpr rfl, ((reads' _ field').reads _).mpr (by decide +kernel),
    ?_, ?_⟩
  · have number : (edge false).number?.isSome = true := by
      rw [Option.isSome_iff_ne_none]
      intro none
      exact absurd (finite none) (by decide +kernel)
    rw [refused _ (by decide +kernel), number]
    rfl
  · have none : googols.number? = none := infinite (by decide +kernel)
    rw [refused _ (by decide +kernel), none]
    rfl

end Parameters

end Spellcraft
