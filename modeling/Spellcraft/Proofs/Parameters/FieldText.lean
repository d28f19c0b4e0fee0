import Spellcraft.Parameters

/-! # Parameter text of one field

A name and a value are written as an object, and the object is read as that name and that value:
the name with its quotation marks, backslashes and control characters escaped, the value as it is.

* `Json.readString_quoted` — a name in quotation marks is read as the name;
* `Json.NumberLiteral.read_append` — what follows a number literal has no part in how it is read;
* `Json.isField_fieldText` — the object splits into name and value;
* `Parameters.ofText_of_isField` — as parameters it is the value, decoded by its form.
-/

namespace Spellcraft

theorem Reader.items_singleton {α : Type} {layout : Layout} {item : Reader α}
    {cs after rest : List Char} {a : α} (apart : layout.close ≠ layout.separator)
    (start : layout.skip cs = some cs) (opened : cs.head? ≠ some layout.close)
    (found : item cs = some (a, after)) (last : layout.skip after = some (layout.close :: rest)) :
    items layout item cs = some ([a], rest) := by
  simp [items, itemsFrom, start, opened, found, last, apart]

namespace Json

/-! ## Names in quotation marks -/

def escaped (c : Char) : List Char :=
  if c = '"' then ['\\', '"']
  else if c = '\\' then ['\\', '\\']
  else if c.toNat < 0x20 then
    ['\\', 'u', '0', '0', Nat.digitChar (c.toNat / 16), Nat.digitChar (c.toNat % 16)]
  else [c]

def quoted (text : String) : List Char := '"' :: text.toList.flatMap escaped ++ ['"']

theorem readUnit_digitChar {n : Nat} (control : n < 0x20) (rest : List Char) :
    readUnit ('0' :: '0' :: Nat.digitChar (n / 16) :: Nat.digitChar (n % 16) :: rest) =
      some (n, rest) := by
  have digit : ∀ d < 16, digitValue? 16 (Nat.digitChar d) = some d := by decide
  have zero : digitValue? 16 '0' = some 0 := digit 0 (by decide)
  have whole : ((0 * 16 + 0) * 16 + n / 16) * 16 + n % 16 = n := by omega
  simp only [readUnit, zero, digit (n / 16) (by omega), digit (n % 16) (by omega),
    Option.bind_eq_bind, Option.bind_some, Option.pure_def, whole]

theorem readStringFrom_backslash {c : Char} {cs rest : List Char} (fuel : Nat)
    (escape : readEscape cs = some (c, rest)) :
    readStringFrom readEscape (fuel + 1) ('\\' :: cs) =
      (readStringFrom readEscape fuel rest).map fun p => (c :: p.1, p.2) := by
  rw [readStringFrom, if_neg (by decide), if_pos rfl, escape]
  dsimp only
  cases readStringFrom readEscape fuel rest <;> rfl

theorem readStringFrom_plain {c : Char} (quote : c ≠ '"') (backslash : c ≠ '\\')
    (control : ¬ c.toNat < 0x20) (fuel : Nat) (cs : List Char) :
    readStringFrom readEscape (fuel + 1) (c :: cs) =
      (readStringFrom readEscape fuel cs).map fun p => (c :: p.1, p.2) := by
  rw [readStringFrom, if_neg quote, if_neg backslash, if_neg control]
  cases readStringFrom readEscape fuel cs <;> rfl

theorem readStringFrom_escaped (c : Char) (fuel : Nat) (cs : List Char) :
    readStringFrom readEscape (fuel + 1) (escaped c ++ cs) =
      (readStringFrom readEscape fuel cs).map fun p => (c :: p.1, p.2) := by
  unfold escaped
  by_cases quote : c = '"'
  · subst quote
    exact readStringFrom_backslash fuel rfl
  · by_cases backslash : c = '\\'
    · subst backslash
      exact readStringFrom_backslash fuel rfl
    · rw [if_neg quote, if_neg backslash]
      by_cases control : c.toNat < 0x20
      · rw [if_pos control]
        apply readStringFrom_backslash
        -- a control character is no surrogate
        simp only [List.append_eq, List.cons_append, List.nil_append, readEscape,
          readUnit_digitChar control]
        rw [if_neg (by omega), if_neg (by omega), Char.ofNat_toNat]
      · rw [if_neg control]
        exact readStringFrom_plain quote backslash control fuel cs

theorem readStringFrom_flatMap_escaped (cs rest : List Char) {fuel : Nat}
    (enough : cs.length < fuel) :
    readStringFrom readEscape fuel (cs.flatMap escaped ++ '"' :: rest) = some (cs, rest) := by
  -- every character takes one step, however long it is when escaped
  induction cs generalizing fuel with
  | nil =>
    cases fuel with
    | zero => cases enough
    | succ fuel => rfl
  | cons c cs ih =>
    cases fuel with
    | zero => cases enough
    | succ fuel =>
      rw [List.flatMap_cons, List.append_assoc, readStringFrom_escaped,
        ih (Nat.lt_of_succ_lt_succ enough)]
      rfl

theorem length_le_length_flatMap_escaped (cs : List Char) :
    cs.length ≤ (cs.flatMap escaped).length := by
  induction cs with
  | nil => exact Nat.le_refl _
  | cons c cs ih =>
    have one : 1 ≤ (escaped c).length := by
      unfold escaped
      split
      · simp
      · split
        · simp
        · split <;> simp
    rw [List.flatMap_cons, List.length_append, List.length_cons]
    omega

theorem readString_quoted (text : String) (rest : List Char) :
    readString readEscape (quoted text ++ rest) = some (text, rest) := by
  have enough := length_le_length_flatMap_escaped text.toList
  simp only [quoted, readString, List.cons_append, List.append_assoc, List.nil_append]
  rw [readStringFrom_flatMap_escaped _ _ (by simp only [List.length_append]; omega)]
  simp only [String.ofList_toList]

/-! ## Where a number ends -/

/-- What is read of a text is read of it with a tail, too, and the tail is left over. -/
def Unaffected {α : Type} (tail : List Char) (short long : Option (α × List Char)) : Prop :=
  ∀ a rest, short = some (a, rest) → long = some (a, rest ++ tail)

namespace Unaffected

variable {α β : Type} {tail : List Char} {short long : Option (α × List Char)}

theorem map (f : α → β) (unaffected : Unaffected tail short long) :
    Unaffected tail (short.map fun p => (f p.1, p.2)) (long.map fun p => (f p.1, p.2)) := by
  intro b rest read
  obtain ⟨⟨a, rest⟩, here, same⟩ := Option.map_eq_some_iff.mp read
  cases same
  rw [unaffected a rest here]
  rfl

theorem bind {next : α × List Char → Option (β × List Char)}
    (unaffected : Unaffected tail short long)
    (later : ∀ a rest, Unaffected tail (next (a, rest)) (next (a, rest ++ tail))) :
    Unaffected tail (short.bind next) (long.bind next) := by
  intro b rest read
  obtain ⟨⟨a, middle⟩, here, further⟩ := Option.bind_eq_some_iff.mp read
  rw [unaffected a middle here]
  exact later a middle b rest further

end Unaffected

namespace NumberLiteral

/-- Text that cannot go on with a number. -/
def Ends (rest : List Char) : Prop :=
  ∀ c ∈ rest.head?, isDigit c = false ∧ c ≠ '.' ∧ c ≠ 'e' ∧ c ≠ 'E'

section

variable {tail : List Char} (ends : Ends tail) (cs : List Char)

include ends

theorem readDigits_append : Unaffected tail (readDigits cs) (readDigits (cs ++ tail)) := by
  have stop : tail.takeWhile isDigit = [] ∧ tail.dropWhile isDigit = tail := by
    cases tail with
    | nil => exact ⟨rfl, rfl⟩
    | cons c tail => simp [(ends c rfl).1]
  have split : (cs ++ tail).takeWhile isDigit = cs.takeWhile isDigit ∧
      (cs ++ tail).dropWhile isDigit = cs.dropWhile isDigit ++ tail := by
    induction cs with
    | nil => exact stop
    | cons c cs ih => cases digit : isDigit c <;> simp [digit, ih]
  intro digits rest read
  unfold readDigits at read ⊢
  rw [split.1, split.2]
  split at read
  · cases read
  · cases read
    rfl

theorem readWhole_append : Unaffected tail (readWhole cs) (readWhole (cs ++ tail)) := by
  intro digits rest read
  unfold readWhole at read ⊢
  split at read
  · cases read
  · next regular =>
    rw [readDigits_append ends cs digits rest read]
    split
    · next irregular =>
      cases irregular
      exact absurd read (regular _ _ _)
    · rfl

end

theorem readFraction_point (cs : List Char) :
    readFraction ('.' :: cs) = (readDigits cs).map fun p => (some p.1, p.2) := by
  simp only [readFraction]
  cases readDigits cs <;> rfl

theorem readFraction_of_head {cs : List Char} (other : ∀ c ∈ cs.head?, c ≠ '.') :
    readFraction cs = some (none, cs) := by
  unfold readFraction
  split
  · exact absurd rfl (other '.' rfl)
  · rfl

theorem readFraction_append {tail : List Char} (ends : Ends tail) (cs : List Char) :
    Unaffected tail (readFraction cs) (readFraction (cs ++ tail)) := by
  by_cases point : cs.head? = some '.'
  · obtain ⟨cs, rfl⟩ := List.head?_eq_some_iff.mp point
    rw [List.cons_append, readFraction_point, readFraction_point]
    exact (readDigits_append ends cs).map some
  · -- where the text is used up, the tail comes first, and it does not start with a point
    have other : ∀ c ∈ (cs ++ tail).head?, c ≠ '.' := by
      cases cs with
      | nil => exact fun c head => (ends c head).2.1
      | cons c cs => simpa using point
    rw [readFraction_of_head fun c head same => point (same ▸ head), readFraction_of_head other]
    rintro _ _ ⟨⟩
    rfl

theorem readSignedDigits_minus (cs : List Char) :
    readSignedDigits ('-' :: cs) = (readDigits cs).map fun p => ((true, p.1), p.2) := by
  simp only [readSignedDigits]
  cases readDigits cs <;> rfl

theorem readSignedDigits_plus (cs : List Char) :
    readSignedDigits ('+' :: cs) = (readDigits cs).map fun p => ((false, p.1), p.2) := by
  simp only [readSignedDigits]
  cases readDigits cs <;> rfl

theorem readSignedDigits_of_head {c : Char} (minus : c ≠ '-') (plus : c ≠ '+') (cs : List Char) :
    readSignedDigits (c :: cs) = (readDigits (c :: cs)).map fun p => ((false, p.1), p.2) := by
  unfold readSignedDigits
  split
  next negative rest unsigned =>
  split at unsigned
  · next here => cases here; exact absurd rfl minus
  · next here => cases here; exact absurd rfl plus
  · cases unsigned
    cases readDigits (c :: cs) <;> rfl

theorem readSignedDigits_append {tail : List Char} (ends : Ends tail) (cs : List Char) :
    Unaffected tail (readSignedDigits cs) (readSignedDigits (cs ++ tail)) := by
  cases cs with
  | nil => rintro _ _ ⟨⟩
  | cons c cs =>
    rw [List.cons_append]
    by_cases minus : c = '-'
    · subst minus
      rw [readSignedDigits_minus, readSignedDigits_minus]
      exact (readDigits_append ends cs).map (true, ·)
    · by_cases plus : c = '+'
      · subst plus
        rw [readSignedDigits_plus, readSignedDigits_plus]
        exact (readDigits_append ends cs).map (false, ·)
      · rw [readSignedDigits_of_head minus plus, readSignedDigits_of_head minus plus]
        exact (readDigits_append ends (c :: cs)).map (false, ·)

theorem readExponent_letter {c : Char} (letter : c = 'e' ∨ c = 'E') (cs : List Char) :
    readExponent (c :: cs) = (readSignedDigits cs).map fun p => (some p.1, p.2) := by
  simp only [readExponent, letter, if_true]
  cases readSignedDigits cs <;> rfl

theorem readExponent_of_head {cs : List Char} (other : ∀ c ∈ cs.head?, ¬ (c = 'e' ∨ c = 'E')) :
    readExponent cs = some (none, cs) := by
  cases cs with
  | nil => rfl
  | cons c cs => simp only [readExponent, other c rfl, if_false]

theorem readExponent_append {tail : List Char} (ends : Ends tail) (cs : List Char) :
    Unaffected tail (readExponent cs) (readExponent (cs ++ tail)) := by
  have stop : ∀ c ∈ tail.head?, ¬ (c = 'e' ∨ c = 'E') := fun c head letter =>
    letter.elim (ends c head).2.2.1 (ends c head).2.2.2
  cases cs with
  | nil =>
    rw [List.nil_append, readExponent_of_head stop]
    rintro _ _ ⟨⟩
    rfl
  | cons c cs =>
    rw [List.cons_append]
    by_cases letter : c = 'e' ∨ c = 'E'
    · rw [readExponent_letter letter, readExponent_letter letter]
      exact (readSignedDigits_append ends cs).map some
    · have other (others : List Char) : ∀ d ∈ (c :: others).head?, ¬ (d = 'e' ∨ d = 'E') := by
        rintro _ ⟨⟩
        exact letter
      rw [readExponent_of_head (other _), readExponent_of_head (other _)]
      rintro _ _ ⟨⟩
      rfl

def readUnsigned (negative : Bool) : Reader NumberLiteral := fun cs =>
  (readWhole cs).bind fun whole =>
    (readFraction whole.2).bind fun fraction =>
      (readExponent fraction.2).map fun exponent =>
        (⟨negative, whole.1, fraction.1, exponent.1⟩, exponent.2)

theorem read_signed (negative : Bool) (cs : List Char) :
    (match readWhole cs with
      | none => none
      | some (whole, cs) =>
        match readFraction cs with
        | none => none
        | some (fraction, cs) =>
          match readExponent cs with
          | none => none
          | some (exponent, cs) => some (⟨negative, whole, fraction, exponent⟩, cs)) =
      readUnsigned negative cs := by
  unfold readUnsigned
  rcases readWhole cs with _ | ⟨whole, afterWhole⟩
  · rfl
  · rcases fraction : readFraction afterWhole with _ | ⟨fraction, afterFraction⟩
    · simp [fraction]
    · rcases exponent : readExponent afterFraction with _ | ⟨exponent, rest⟩ <;>
        simp [fraction, exponent]

theorem read_minus (cs : List Char) : read ('-' :: cs) = readUnsigned true cs :=
  read_signed true cs

theorem read_of_head {cs : List Char} (unsigned : cs.head? ≠ some '-') :
    read cs = readUnsigned false cs := by
  rw [← read_signed]
  unfold read
  split
  next negative rest given =>
  split at given
  · exact absurd rfl unsigned
  · cases given
    rfl

theorem readUnsigned_append (negative : Bool) {tail : List Char} (ends : Ends tail)
    (cs : List Char) :
    Unaffected tail (readUnsigned negative cs) (readUnsigned negative (cs ++ tail)) := by
  refine (readWhole_append ends cs).bind fun whole afterWhole => ?_
  refine (readFraction_append ends afterWhole).bind fun fraction afterFraction => ?_
  exact (readExponent_append ends afterFraction).map (NumberLiteral.mk negative whole fraction)

theorem head_of_read {cs : List Char} {parts : NumberLiteral × List Char}
    (found : read cs = some parts) : ∃ c ∈ cs.head?, c = '-' ∨ isDigit c = true := by
  cases cs with
  | nil => cases found
  | cons c cs =>
    refine ⟨c, rfl, ?_⟩
    by_cases minus : c = '-'
    · exact .inl minus
    · right
      rw [read_of_head (by simpa using minus)] at found
      cases digit : isDigit c with
      | true => rfl
      | false => simp [readUnsigned, readWhole, readDigits, digit] at found

/-- A number literal is read in front of other text as it is read alone. -/
theorem read_append {tail : List Char} (ends : Ends tail) (cs : List Char) :
    Unaffected tail (read cs) (read (cs ++ tail)) := by
  intro parts rest found
  cases cs with
  | nil => cases found
  | cons c cs =>
    by_cases minus : c = '-'
    · subst minus
      rw [List.cons_append, read_minus]
      rw [read_minus] at found
      exact readUnsigned_append true ends cs parts rest found
    · have unsigned (others : List Char) : (c :: others).head? ≠ some '-' := by simpa using minus
      rw [read_of_head (unsigned cs)] at found
      rw [List.cons_append, read_of_head (unsigned _)]
      exact readUnsigned_append false ends (c :: cs) parts rest found

end NumberLiteral

theorem skipSpace_of_read {cs : List Char} {parts : NumberLiteral × List Char}
    (found : NumberLiteral.read cs = some parts) : skipSpace cs = cs := by
  obtain ⟨c, head, start⟩ := NumberLiteral.head_of_read found
  obtain ⟨cs, rfl⟩ := List.head?_eq_some_iff.mp head
  have noSpace : isSpace c = false := by
    rcases start with rfl | digit
    · rfl
    · cases space : isSpace c with
      | false => rfl
      | true =>
        simp [isSpace] at space
        rcases space with ((rfl | rfl) | rfl) | rfl <;> cases digit
  simp [skipSpace, noSpace]

theorem readValue_number {α : Type} (reading : Reading α) (depth : Nat) {cs rest : List Char}
    {literal : NumberLiteral} (found : NumberLiteral.read cs = some (literal, rest)) :
    readValue reading depth cs = (reading.number literal).map (·, rest) := by
  obtain ⟨c, head, start⟩ := NumberLiteral.head_of_read found
  -- no other value starts with a minus or a digit
  cases depth <;> unfold readValue <;> split <;>
    first
    | (cases head; exact absurd start (by decide))
    | rw [found]

theorem parse?_number {literal : List Char} {parts : NumberLiteral}
    (found : NumberLiteral.read literal = some (parts, [])) :
    parse? literal = parts.value?.map .number := by
  have tight : skipSpace literal = literal := skipSpace_of_read found
  rw [parse?, parseWithin?, tight, readValue_number strict maxDepth found]
  cases value : parts.value? <;> simp [strict, value, skipSpace]

theorem readRaw_number {literal tail : List Char} {parts : NumberLiteral}
    (found : NumberLiteral.read literal = some (parts, [])) (ends : NumberLiteral.Ends tail) :
    readRaw (literal ++ tail) = some (literal, tail) := by
  have further := NumberLiteral.read_append ends literal parts [] found
  have extent : skipValue (literal ++ tail) = some tail := by
    rw [skipValue, readValue_number shape _ further]
    rfl
  rw [readRaw, extent]
  simp

/-! ## Objects of one field -/

def fieldText (key : String) (raw : List Char) : String :=
  String.ofList ('\x7b' :: quoted key ++ ':' :: raw ++ ['\x7d'])

/-- Whether a text is an object of one field with a value as written. -/
def IsField (text key : String) (raw : List Char) : Prop :=
  splitObject text.toList = some [(key, raw)]

theorem isField_fieldText (key : String) {raw : List Char}
    (tight : skipSpace (raw ++ ['\x7d']) = raw ++ ['\x7d'])
    (extent : readRaw (raw ++ ['\x7d']) = some (raw, ['\x7d'])) :
    IsField (fieldText key raw) key raw := by
  have member : readMember readEscape readRaw (quoted key ++ ':' :: (raw ++ ['\x7d'])) =
      some ((key, raw), ['\x7d']) := by
    have colon (cs : List Char) : skipSpace (':' :: cs) = ':' :: cs := rfl
    rw [readMember, readString_quoted]
    simp only [colon, tight, extent]
  have members : Reader.items (layout '\x7d') (readMember readEscape readRaw)
      (quoted key ++ ':' :: (raw ++ ['\x7d'])) = some ([(key, raw)], []) := by
    apply Reader.items_singleton (by decide) rfl _ member rfl
    simp [quoted, layout]
  have opened (cs : List Char) : skipSpace ('\x7b' :: cs) = '\x7b' :: cs := rfl
  unfold IsField fieldText splitObject
  simp only [String.toList_ofList, List.cons_append, List.append_assoc, opened, members]
  rfl

theorem isField_number (key : String) {literal : List Char} {parts : NumberLiteral}
    (found : NumberLiteral.read literal = some (parts, [])) :
    IsField (fieldText key literal) key literal := by
  have ends : NumberLiteral.Ends ['\x7d'] := by
    rintro _ ⟨⟩
    decide
  refine isField_fieldText key ?_ (readRaw_number found ends)
  exact skipSpace_of_read (NumberLiteral.read_append ends literal parts [] found)

theorem not_blank_of_splitObject {text : String} {members : List (String × List Char)}
    (splits : splitObject text.toList = some members) : isBlankText text = false := by
  -- the opening brace is no blank, and what is skipped before it is part of the text
  have opened : '\x7b' ∈ text.toList := by
    unfold splitObject at splits
    split at splits
    · next head =>
      refine (List.dropWhile_sublist isSpace).mem ?_
      rw [← skipSpace, head]
      exact List.mem_cons_self
    · cases splits
  rw [isBlankText, List.all_eq_false]
  exact ⟨_, opened, by decide⟩

end Json

/-- An object of one field is the value that its text is decoded to by its form. -/
theorem Parameters.ofText_of_isField {text key : String} {raw : List Char}
    (field : Json.IsField text key raw) :
    ofText text = (decodeRaw key raw).map fun value => ofList [(key, value)] := by
  have split : Json.splitObject text.toList = some [(key, raw)] := field
  have entries : Entries.ofList [(key, raw)] = [(key, raw)] := rfl
  simp only [ofText, Json.not_blank_of_splitObject field, split, entries, decodeAll]
  cases decodeRaw key raw <;> rfl

end Spellcraft
