import Mathlib.Algebra.BigOperators.Group.List.Basic
import Mathlib.Data.String.Basic
import Mathlib.Tactic.Ring
import Spellcraft.Text.Blank
import Spellcraft.Uuid

/-! # Canonical text of ids

The texts that are read as an id are told by their characters: hexadecimal digits of either case,
and hyphens at four places. Reading loses nothing of such a text but the case of its letters, and
every id is read back from its own text.

* `Uuid.IsCanonical` — the canonical texts;
* `Uuid.isSome_parse?_iff` — these are the texts that are read;
* `Uuid.text_of_parse?` — the id that is read is written with small letters;
* `Uuid.parse?_text` — and what is written is read as the id.
-/

namespace Spellcraft

def IsHexDigit (c : Char) : Prop :=
  '0' ≤ c ∧ c ≤ '9' ∨ 'a' ≤ c ∧ c ≤ 'f' ∨ 'A' ≤ c ∧ c ≤ 'F'

instance (c : Char) : Decidable (IsHexDigit c) := by
  unfold IsHexDigit
  infer_instance

def HexDigitAt (cs : List Char) (i : Nat) : Prop := ∃ c, cs[i]? = some c ∧ IsHexDigit c

namespace Uuid

/-- The canonical texts of ids: 36 bytes, hexadecimal digits of either case, and hyphens at four
    places. -/
structure IsCanonical (s : String) : Prop where
  bytes : s.utf8ByteSize = 36
  hyphens : ∀ i ∈ [8, 13, 18, 23], s.toList[i]? = some '-'
  digits : ∀ i < 36, i ∉ [8, 13, 18, 23] → HexDigitAt s.toList i

/-! ## Digits -/

theorem isHexDigit_iff (c : Char) : IsHexDigit c ↔
    48 ≤ c.toNat ∧ c.toNat ≤ 57 ∨ 97 ≤ c.toNat ∧ c.toNat ≤ 102 ∨
      65 ≤ c.toNat ∧ c.toNat ≤ 70 := by
  simp only [IsHexDigit, Char.le_def, UInt32.le_iff_toNat_le]
  rfl

theorem isSome_digitValue?_iff (c : Char) : (digitValue? 16 c).isSome = true ↔ IsHexDigit c := by
  rw [isHexDigit_iff]
  simp only [digitValue?]
  split
  · simp
    omega
  · split
    · simp
      omega
    · split
      · simp
        omega
      · simp
        omega

theorem hexDigit_of_digitValue? {c : Char} {d : Nat} (read : digitValue? 16 c = some d) :
    d < 16 ∧ hexDigit d = c.toLower := by
  have table : ∀ n < 103, ∀ d ∈ digitValue? 16 (Char.ofNat n),
      d < 16 ∧ hexDigit d = (Char.ofNat n).toLower := by decide
  have small : c.toNat < 103 := by
    have hex := (isSome_digitValue?_iff c).mp (by rw [read]; rfl)
    rw [isHexDigit_iff] at hex
    omega
  rw [← Char.ofNat_toNat c] at read ⊢
  exact table _ small d read

theorem digitValue?_hexDigit {d : Nat} (small : d < 16) :
    digitValue? 16 (hexDigit d) = some d := by
  revert d
  decide

/-- The digits from the front, where the definition goes from the back. -/
theorem hexDigits_succ (count n : Nat) :
    hexDigits (count + 1) n = hexDigit (n / 16 ^ count % 16) :: hexDigits count n := by
  induction count generalizing n with
  | zero => simp [hexDigits]
  | succ count ih =>
    rw [hexDigits, ih, hexDigits, Nat.div_div_eq_div_mul, Nat.pow_succ']
    rfl

theorem length_hexDigits (count n : Nat) : (hexDigits count n).length = count := by
  induction count generalizing n with
  | zero => rfl
  | succ count ih => simp [hexDigits, ih]

/-! ## One group -/

theorem readHex_hexDigits (count n m : Nat) (rest : List Char) :
    readHex count n (hexDigits count m ++ rest) = some (n * 16 ^ count + m % 16 ^ count, rest) := by
  induction count generalizing n with
  | zero => simp [hexDigits, readHex, Nat.mod_one]
  | succ count ih =>
    have whole : (n * 16 + m / 16 ^ count % 16) * 16 ^ count + m % 16 ^ count =
        n * 16 ^ (count + 1) + m % 16 ^ (count + 1) := by
      rw [Nat.pow_succ, Nat.mod_mul]
      ring
    rw [hexDigits_succ, List.cons_append, readHex,
      digitValue?_hexDigit (Nat.mod_lt _ (by decide))]
    simp only [ih, whole]

/-- A group that is read leaves the number before it in front of the group's own digits. -/
theorem of_readHex {count n m : Nat} {cs rest : List Char}
    (read : readHex count n cs = some (m, rest)) :
    cs.map Char.toLower = hexDigits count m ++ rest.map Char.toLower ∧ m / 16 ^ count = n ∧
      rest = cs.drop count := by
  induction count generalizing n cs with
  | zero =>
    cases read
    exact ⟨rfl, Nat.div_one m, rfl⟩
  | succ count ih =>
    cases cs with
    | nil => cases read
    | cons c cs =>
      unfold readHex at read
      split at read
      · next d digit =>
        obtain ⟨small, lower⟩ := hexDigit_of_digitValue? digit
        obtain ⟨text, above, tail⟩ := ih read
        have here : m / 16 ^ count % 16 = d := by omega
        refine ⟨?_, ?_, tail⟩
        · rw [hexDigits_succ, here, lower, List.map_cons, text, List.cons_append]
        · rw [Nat.pow_succ, ← Nat.div_div_eq_div_mul, above]
          omega
      · cases read

theorem isSome_readHex_iff (count n : Nat) (cs : List Char) :
    (readHex count n cs).isSome = true ↔ ∀ i < count, HexDigitAt cs i := by
  induction count generalizing n cs with
  | zero => simp [readHex]
  | succ count ih =>
    cases cs with
    | nil =>
      constructor
      · nofun
      · intro all
        obtain ⟨_, there, -⟩ := all 0 (Nat.zero_lt_succ _)
        cases there
    | cons c cs =>
      have split : (∀ i < count + 1, HexDigitAt (c :: cs) i) ↔
          IsHexDigit c ∧ ∀ i < count, HexDigitAt cs i := by
        rw [Nat.forall_lt_succ_left]
        simp [HexDigitAt]
      rw [split, ← isSome_digitValue?_iff, readHex]
      cases digitValue? 16 c with
      | none => simp
      | some d => simp [ih]

/-! ## Groups joined by hyphens -/

def dashed : List Nat → Nat → List Char
  | [], _ => []
  | [count], n => hexDigits count n
  | count :: next :: more, n =>
    hexDigits count (n / 16 ^ (next :: more).sum) ++ '-' :: dashed (next :: more) n

def Grouped : List Nat → List Char → Prop
  | [], cs => cs = []
  | [count], cs => (∀ i < count, HexDigitAt cs i) ∧ cs.length = count
  | count :: next :: more, cs => (∀ i < count, HexDigitAt cs i) ∧ cs[count]? = some '-' ∧
    Grouped (next :: more) (cs.drop (count + 1))

theorem readGroups_last (count n : Nat) (cs : List Char) :
    readGroups [count] n cs =
      (readHex count n cs).bind fun p => if p.2 = [] then some p.1 else none := by
  rw [readGroups]
  rcases readHex count n cs with _ | ⟨m, _ | ⟨c, rest⟩⟩ <;> simp [readGroups]

theorem readGroups_hyphen (count next n : Nat) (more : List Nat) (cs : List Char) :
    readGroups (count :: next :: more) n cs =
      (readHex count n cs).bind fun p =>
        if p.2.head? = some '-' then readGroups (next :: more) p.1 p.2.tail else none := by
  rw [readGroups]
  rcases readHex count n cs with _ | ⟨m, _ | ⟨c, rest⟩⟩
  · rfl
  · rfl
  · by_cases hyphen : c = '-'
    · subst hyphen
      rfl
    · simp [hyphen]

theorem readGroups_dashed {counts : List Nat} (nonempty : counts ≠ []) (n m : Nat) :
    readGroups counts n (dashed counts m) =
      some (n * 16 ^ counts.sum + m % 16 ^ counts.sum) := by
  induction counts generalizing n with
  | nil => exact absurd rfl nonempty
  | cons count counts ih =>
    cases counts with
    | nil =>
      have read := readHex_hexDigits count n m []
      rw [List.append_nil] at read
      simp [readGroups_last, dashed, read]
    | cons next more =>
      have whole (total : Nat) :
          (n * 16 ^ count + m / 16 ^ total % 16 ^ count) * 16 ^ total + m % 16 ^ total =
            n * 16 ^ (count + total) + m % 16 ^ (count + total) := by
        rw [Nat.pow_add, Nat.mul_comm (16 ^ count) (16 ^ total), Nat.mod_mul]
        ring
      rw [readGroups_hyphen, dashed, readHex_hexDigits, List.sum_cons (a := count), ← whole]
      exact ih (List.cons_ne_nil _ _) _

theorem of_readGroups {counts : List Nat} (nonempty : counts ≠ []) {n m : Nat} {cs : List Char}
    (read : readGroups counts n cs = some m) :
    cs.map Char.toLower = dashed counts m ∧ m / 16 ^ counts.sum = n := by
  -- what comes before the later groups is their quotient, which makes it this group's number
  induction counts generalizing n cs with
  | nil => exact absurd rfl nonempty
  | cons count counts ih =>
    cases counts with
    | nil =>
      rw [readGroups_last] at read
      obtain ⟨⟨_, rest⟩, group, rest_eq⟩ := Option.bind_eq_some_iff.mp read
      obtain ⟨rfl, same⟩ := Option.ite_none_right_eq_some.mp rest_eq
      cases same
      obtain ⟨text, above, -⟩ := of_readHex group
      rw [List.map_nil, List.append_nil] at text
      exact ⟨text, above⟩
    | cons next more =>
      rw [readGroups_hyphen] at read
      obtain ⟨⟨front, rest⟩, group, later⟩ := Option.bind_eq_some_iff.mp read
      obtain ⟨hyphen, later⟩ := Option.ite_none_right_eq_some.mp later
      obtain ⟨rest, rfl⟩ := List.head?_eq_some_iff.mp hyphen
      obtain ⟨text, above, -⟩ := of_readHex group
      obtain ⟨text', above'⟩ := ih (List.cons_ne_nil _ _) later
      constructor
      · rw [text, dashed, above', List.map_cons, ← text']
        rfl
      · rw [List.sum_cons, Nat.add_comm, Nat.pow_add, ← Nat.div_div_eq_div_mul, above', above]

theorem isSome_readGroups_iff {counts : List Nat} (nonempty : counts ≠ []) (n : Nat)
    (cs : List Char) : (readGroups counts n cs).isSome = true ↔ Grouped counts cs := by
  induction counts generalizing n cs with
  | nil => exact absurd rfl nonempty
  | cons count counts ih =>
    cases counts with
    | nil =>
      rw [readGroups_last, Grouped, ← isSome_readHex_iff count n cs]
      cases group : readHex count n cs with
      | none => simp
      | some p =>
        obtain ⟨m, rest⟩ := p
        obtain ⟨text, -, -⟩ := of_readHex group
        have length : cs.length = count + rest.length := by
          simpa [length_hexDigits] using congrArg List.length text
        -- after the last group nothing may follow, where `Grouped` counts the characters
        have finished : rest = [] ↔ cs.length = count := by
          rw [length, ← List.length_eq_zero_iff]
          omega
        by_cases last : rest = []
        · simp [last, finished.mp last]
        · simp [last, mt finished.mpr last]
    | cons next more =>
      rw [readGroups_hyphen, Grouped, ← isSome_readHex_iff count n cs]
      cases group : readHex count n cs with
      | none => simp
      | some p =>
        obtain ⟨m, rest⟩ := p
        obtain ⟨-, -, rfl⟩ := of_readHex group
        have hyphen : (cs.drop count).head? = cs[count]? := List.head?_drop ..
        have others : (cs.drop count).tail = cs.drop (count + 1) := List.tail_drop ..
        by_cases joined : cs[count]? = some '-'
        · simp [hyphen, joined, others, ih]
        · simp [hyphen, joined]

/-! ## Whole texts -/

theorem text_eq (u : Uuid) : u.text = String.ofList (dashed [8, 4, 4, 4, 12] u.value) := by
  simp [text, dashed, Nat.shiftRight_eq_div_pow]

theorem parse?_text (u : Uuid) : parse? u.text = some u := by
  have read : readGroups [8, 4, 4, 4, 12] 0 (dashed [8, 4, 4, 4, 12] u.value) = _ :=
    readGroups_dashed (by decide) 0 u.value
  rw [parse?, text_eq, String.toList_ofList, read]
  simp only [Option.map_some, Option.some.injEq]
  ext
  have bounded := u.isLt
  simp only [ofNat, List.sum_cons, List.sum_nil]
  omega

/-- The text of an id that was read is what it was read from, but for the case of letters. -/
theorem text_of_parse? {s : String} {u : Uuid} (read : parse? s = some u) :
    u.text = asciiLower s := by
  obtain ⟨m, groups, rfl⟩ := Option.map_eq_some_iff.mp read
  obtain ⟨lower, above⟩ := of_readGroups (by decide) groups
  have bounded : m < 0x100000000000000000000000000000000 := by
    simpa [Nat.div_eq_zero_iff] using above
  have value : (ofNat m).value = m := Nat.mod_eq_of_lt bounded
  rw [text_eq, value, ← lower, asciiLower, ← String.toList_map, String.ofList_toList]

theorem length_le_utf8Len (cs : List Char) : cs.length ≤ String.utf8Len cs := by
  induction cs with
  | nil => exact Nat.le_refl _
  | cons c cs ih =>
    have one := c.utf8Size_pos
    rw [String.utf8Len_cons, List.length_cons]
    omega

theorem utf8Len_of_plain {cs : List Char} (plain : ∀ c ∈ cs, c = '-' ∨ IsHexDigit c) :
    String.utf8Len cs = cs.length := by
  induction cs with
  | nil => rfl
  | cons c cs ih =>
    have one : c.utf8Size = 1 := by
      rw [Char.utf8Size_eq_one_iff, UInt32.le_iff_toNat_le]
      change c.toNat ≤ 127
      rcases plain c List.mem_cons_self with rfl | hex
      · decide
      · rw [isHexDigit_iff] at hex
        omega
    rw [String.utf8Len_cons, List.length_cons, one,
      ih fun c member => plain c (List.mem_cons_of_mem _ member)]

theorem hexDigitAt_drop (cs : List Char) (k i : Nat) :
    HexDigitAt (cs.drop k) i ↔ HexDigitAt cs (k + i) := by
  rw [HexDigitAt, HexDigitAt, List.getElem?_drop]

theorem grouped_iff (cs : List Char) : Grouped [8, 4, 4, 4, 12] cs ↔
    cs.length = 36 ∧ (∀ i ∈ [8, 13, 18, 23], cs[i]? = some '-') ∧
      ∀ i < 36, i ∉ [8, 13, 18, 23] → HexDigitAt cs i := by
  simp only [Grouped, List.drop_drop, List.getElem?_drop, List.length_drop, hexDigitAt_drop]
  constructor
  · rintro ⟨first, hyphen, second, hyphen', third, hyphen'', fourth, hyphen''', last, length⟩
    -- every place below 36 is in one of the five groups or between two of them
    have within {k n : Nat} (group : ∀ i < n, HexDigitAt cs (k + i)) (i : Nat) (low : k ≤ i)
        (high : i < k + n) : HexDigitAt cs i := by
      have there := group (i - k) (by omega)
      rwa [Nat.add_sub_cancel' low] at there
    refine ⟨by omega, by simp [hyphen, hyphen', hyphen'', hyphen'''], fun i inside apart => ?_⟩
    simp only [List.mem_cons, List.not_mem_nil, or_false, not_or] at apart
    by_cases one : i < 8
    · exact first i one
    · by_cases two : i < 13
      · exact within second i (by omega) (by omega)
      · by_cases three : i < 18
        · exact within third i (by omega) (by omega)
        · by_cases four : i < 23
          · exact within fourth i (by omega) (by omega)
          · exact within last i (by omega) (by omega)
  · rintro ⟨length, hyphens, digits⟩
    have digit (i : Nat) (inside : i < 36)
        (apart : i ≠ 8 ∧ i ≠ 13 ∧ i ≠ 18 ∧ i ≠ 23) : HexDigitAt cs i :=
      digits i inside (by simpa using apart)
    refine ⟨fun i small => digit _ ?_ ?_, hyphens 8 (by simp), fun i small => digit _ ?_ ?_,
      hyphens 13 (by simp), fun i small => digit _ ?_ ?_, hyphens 18 (by simp),
      fun i small => digit _ ?_ ?_, hyphens 23 (by simp), fun i small => digit _ ?_ ?_, ?_⟩
    all_goals omega

theorem isCanonical_iff (s : String) : IsCanonical s ↔ Grouped [8, 4, 4, 4, 12] s.toList := by
  have bytes : String.utf8Len s.toList = s.utf8ByteSize := String.utf8Len_toList s
  rw [grouped_iff]
  constructor
  · rintro ⟨size, hyphens, digits⟩
    obtain ⟨c, there, -⟩ := digits 35 (by decide) (by decide)
    have enough : 35 < s.toList.length := (List.getElem?_eq_some_iff.mp there).1
    have few := length_le_utf8Len s.toList
    exact ⟨by omega, hyphens, digits⟩
  · rintro ⟨length, hyphens, digits⟩
    refine ⟨?_, hyphens, digits⟩
    rw [← bytes, ← length]
    apply utf8Len_of_plain
    intro c member
    obtain ⟨i, inside, rfl⟩ := List.mem_iff_getElem.mp member
    have there : s.toList[i]? = some s.toList[i] := List.getElem?_eq_getElem inside
    by_cases hyphen : i ∈ [8, 13, 18, 23]
    · left
      rw [hyphens i hyphen, Option.some.injEq] at there
      exact there.symm
    · right
      obtain ⟨d, there', hex⟩ := digits i (length ▸ inside) hyphen
      rw [there', Option.some.injEq] at there
      exact there ▸ hex

theorem isSome_parse?_iff (s : String) : (parse? s).isSome = true ↔ IsCanonical s := by
  rw [isCanonical_iff, ← isSome_readGroups_iff (by decide) 0, parse?, Option.isSome_map]

end Uuid

end Spellcraft
