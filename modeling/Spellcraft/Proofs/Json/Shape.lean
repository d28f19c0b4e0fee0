import Spellcraft.Proofs.Parameters.FieldText

/-! # Values and their shape

Reading by shape is the more lenient of the two ways to read JSON: escapes need not be characters,
numbers need not fit a double, and arrays and objects may be nested to any depth. So it goes along
with a strict reading of the same text, and ends where this ends.

* `Json.StringShape` — what every reading of a string goes along;
* `Json.Covers` — whatever one reader takes, another one takes to the same end;
* `Json.covers_readValue` — the shape of every value that is read strictly is read, too;
* `Json.isSome_splitObject` — so a text that is an object can be split into its members.
-/

namespace Spellcraft.Json

/-! ## Strings -/

theorem length_readUnit {cs rest : List Char} {n : Nat} (read : readUnit cs = some (n, rest)) :
    rest.length < cs.length := by
  unfold readUnit at read
  split at read
  · simp only [Option.bind_eq_bind, Option.bind_eq_some_iff, Option.pure_def, Option.some.injEq,
      Prod.mk.injEq] at read
    obtain ⟨-, -, -, -, -, -, -, -, -, rfl⟩ := read
    simp only [List.length_cons]
    omega
  · cases read

theorem length_skipEscape {cs rest : List Char} {c : Char} (read : skipEscape cs = some (c, rest)) :
    rest.length < cs.length := by
  unfold skipEscape at read
  split at read
  · obtain ⟨⟨n, after⟩, unit, same⟩ := Option.map_eq_some_iff.mp read
    cases same
    have shorter := length_readUnit unit
    simp only [List.length_cons]
    omega
  · obtain ⟨d, -, same⟩ := Option.map_eq_some_iff.mp read
    cases same
    simp
  · cases read

/-- An escape is skipped in one step, or in two if it is a surrogate pair. -/
theorem readEscape_cases {cs middle : List Char} {c : Char}
    (read : readEscape cs = some (c, middle)) :
    (∃ d, skipEscape cs = some (d, middle)) ∨
      ∃ second, skipEscape cs = some ('u', '\\' :: second) ∧
        skipEscape second = some ('u', middle) := by
  unfold readEscape at read
  split at read
  · next cs =>
    cases unit : readUnit cs with
    | none => simp [unit] at read
    | some p =>
      obtain ⟨n, after⟩ := p
      have first : skipEscape ('u' :: cs) = some ('u', after) := by simp [skipEscape, unit]
      simp only [unit] at read
      split at read
      · split at read
        · next after =>
          cases low : readUnit after with
          | none => simp [low] at read
          | some p =>
            obtain ⟨m, last⟩ := p
            simp only [low] at read
            split at read
            · simp only [Option.some.injEq, Prod.mk.injEq] at read
              obtain ⟨-, rfl⟩ := read
              exact .inr ⟨_, first, by simp [skipEscape, low]⟩
            · cases read
        · cases read
      · split at read
        · cases read
        · cases read
          exact .inl ⟨_, first⟩
  · next d cs other =>
    left
    refine ⟨c, ?_⟩
    rw [← read]
    simp only [skipEscape]
  · cases read

/-- A text that goes on with a string up to its closing quote, and what is left after this. -/
inductive StringShape : List Char → List Char → Prop where
  | close (rest : List Char) : StringShape ('"' :: rest) rest
  | plain {c : Char} {cs rest : List Char} (quote : c ≠ '"') (backslash : c ≠ '\\')
      (control : ¬ c.toNat < 0x20) (more : StringShape cs rest) : StringShape (c :: cs) rest
  | escape {c : Char} {cs middle rest : List Char} (skipped : skipEscape cs = some (c, middle))
      (more : StringShape middle rest) : StringShape ('\\' :: cs) rest

namespace StringShape

variable {cs rest : List Char}

theorem length_lt (shape : StringShape cs rest) : rest.length < cs.length := by
  induction shape with
  | close rest => simp
  | plain _ _ _ _ ih =>
    simp only [List.length_cons]
    omega
  | escape skipped _ ih =>
    have shorter := length_skipEscape skipped
    simp only [List.length_cons]
    omega

/-- Every step of the reading takes a character, so a fuel beyond the length is enough. -/
theorem skip (shape : StringShape cs rest) {fuel : Nat} (enough : cs.length < fuel) :
    ∃ text, readStringFrom skipEscape fuel cs = some (text, rest) := by
  induction shape generalizing fuel with
  | close rest =>
    obtain ⟨fuel, rfl⟩ := Nat.exists_eq_add_of_lt enough
    exact ⟨[], by simp [readStringFrom]⟩
  | @plain c cs rest quote backslash control _ ih =>
    cases fuel with
    | zero => cases enough
    | succ fuel =>
      obtain ⟨text, read⟩ := ih (Nat.lt_of_succ_lt_succ enough)
      exact ⟨c :: text, by simp [readStringFrom, quote, backslash, control, read]⟩
  | @escape c cs middle rest skipped _ ih =>
    cases fuel with
    | zero => cases enough
    | succ fuel =>
      have shorter := length_skipEscape skipped
      have enough' : middle.length < fuel := by
        simp only [List.length_cons] at enough
        omega
      obtain ⟨text, read⟩ := ih enough'
      exact ⟨c :: text, by simp [readStringFrom, skipped, read]⟩

theorem of_readEscape {c : Char} {middle : List Char} (read : readEscape cs = some (c, middle))
    (more : StringShape middle rest) : StringShape ('\\' :: cs) rest := by
  rcases readEscape_cases read with ⟨d, one⟩ | ⟨second, one, two⟩
  · exact .escape one more
  · exact .escape one (.escape two more)

theorem of_readStringFrom {fuel : Nat} {text : List Char}
    (read : readStringFrom readEscape fuel cs = some (text, rest)) : StringShape cs rest := by
  induction fuel generalizing cs text with
  | zero => cases read
  | succ fuel ih =>
    cases cs with
    | nil => cases read
    | cons c cs =>
      unfold readStringFrom at read
      split at read
      · next quote =>
        cases read
        exact quote ▸ .close rest
      · next quote =>
        split at read
        · next backslash =>
          subst backslash
          split at read
          · cases read
          · next escaped =>
            split at read
            · next more =>
              cases read
              exact of_readEscape escaped (ih more)
            · cases read
        · next backslash =>
          split at read
          · cases read
          · next control =>
            split at read
            · next more =>
              cases read
              exact .plain quote backslash control (ih more)
            · cases read

end StringShape

/-! ## Readers that go along with each other -/

variable {α β γ δ : Type}

/-- Whatever one reader takes of a text of limited length, another one takes to the same end. -/
def Covers (limit : Nat) (read : Reader α) (skip : Reader β) : Prop :=
  ∀ cs a rest, cs.length ≤ limit → read cs = some (a, rest) →
    rest.length ≤ cs.length ∧ ∃ b, skip cs = some (b, rest)

namespace Covers

variable {limit : Nat} {read : Reader α} {skip : Reader β}

theorem map (covers : Covers limit read skip) {whole cs rest : List Char} (f : α → γ)
    (g : β → δ) {c : γ} (behind : cs.length ≤ whole.length) (short : cs.length ≤ limit)
    (taken : ((read cs).map fun p => (f p.1, p.2)) = some (c, rest)) :
    rest.length ≤ whole.length ∧
      ∃ d, ((skip cs).map fun p => (g p.1, p.2)) = some (d, rest) := by
  obtain ⟨⟨a, rest⟩, here, same⟩ := Option.map_eq_some_iff.mp taken
  cases same
  obtain ⟨shorter, b, there⟩ := covers cs a rest short here
  exact ⟨Nat.le_trans shorter behind, g b, by rw [there]; rfl⟩

theorem self (covers : Covers limit read skip) : Covers limit read read :=
  fun cs a rest short taken => ⟨(covers cs a rest short taken).1, a, taken⟩

end Covers

theorem covers_readString (limit : Nat) :
    Covers limit (readString readEscape) (readString skipEscape) := by
  intro cs text rest _ read
  unfold readString at read
  split at read
  · next cs =>
    split at read
    · next characters after taken =>
      cases read
      have shape := StringShape.of_readStringFrom taken
      have shorter := shape.length_lt
      obtain ⟨skipped, again⟩ := shape.skip (Nat.lt_succ_self _)
      refine ⟨by simp only [List.length_cons]; omega, String.ofList skipped, ?_⟩
      simp only [readString, again]
    · cases read
  · cases read

theorem length_skipSpace_le (cs : List Char) : (skipSpace cs).length ≤ cs.length :=
  (List.dropWhile_sublist isSpace).length_le

theorem skips_layout (close : Char) (cs rest : List Char)
    (skipped : (layout close).skip cs = some rest) : rest.length ≤ cs.length := by
  cases skipped
  exact length_skipSpace_le cs

theorem covers_items {limit : Nat} {item : Reader α} {item' : Reader β} {layout : Reader.Layout}
    (skips : ∀ cs rest, layout.skip cs = some rest → rest.length ≤ cs.length)
    (covers : Covers limit item item') :
    Covers limit (Reader.items layout item) (Reader.items layout item') := by
  suffices general : ∀ fuel mayClose,
      Covers limit (Reader.itemsFrom layout item mayClose fuel)
        (Reader.itemsFrom layout item' mayClose fuel) from
    fun cs => general (cs.length + 1) true cs
  intro fuel
  -- both readers spend their fuel on the same items, since each item ends at the same place
  induction fuel with
  | zero => rintro _ _ _ _ _ ⟨⟩
  | succ fuel ih =>
    intro mayClose cs as rest short read
    rw [Reader.itemsFrom] at read ⊢
    cases start : layout.skip cs with
    | none => simp [start] at read
    | some first =>
      have tight := skips _ _ start
      simp only [start] at read ⊢
      by_cases closed : (mayClose && first.head? == some layout.close) = true
      · rw [if_pos closed] at read ⊢
        cases read
        exact ⟨by simp only [List.length_drop]; omega, [], rfl⟩
      · rw [if_neg closed] at read ⊢
        cases taken : item first with
        | none => simp [taken] at read
        | some p =>
          obtain ⟨a, after⟩ := p
          obtain ⟨shorter, b, taken'⟩ := covers _ a after (by omega) taken
          simp only [taken, taken'] at read ⊢
          rcases following : layout.skip after with _ | _ | ⟨c, others⟩
          · simp [following] at read
          · simp [following] at read
          · have tight' := skips _ _ following
            rw [List.length_cons] at tight'
            simp only [following] at read ⊢
            -- the list goes on behind a separator, or ends
            by_cases separator : c = layout.separator
            · rw [if_pos separator] at read ⊢
              cases more : Reader.itemsFrom layout item layout.trailing fuel others with
              | none => simp [more] at read
              | some p =>
                obtain ⟨as', last⟩ := p
                obtain ⟨shorter', bs, more'⟩ := ih _ others as' last (by omega) more
                simp only [more, more'] at read ⊢
                cases read
                exact ⟨by omega, _, rfl⟩
            · rw [if_neg separator] at read ⊢
              by_cases last : c = layout.close
              · rw [if_pos last] at read ⊢
                cases read
                exact ⟨by omega, _, rfl⟩
              · rw [if_neg last] at read
                cases read

theorem covers_readMember {limit : Nat} {escape escape' : Reader Char} {value : Reader α}
    {value' : Reader β} (names : Covers limit (readString escape) (readString escape'))
    (values : Covers limit value value') :
    Covers limit (readMember escape value) (readMember escape' value') := by
  intro cs member rest short read
  unfold readMember at read ⊢
  cases named : readString escape cs with
  | none => simp [named] at read
  | some p =>
    obtain ⟨name, after⟩ := p
    obtain ⟨shorter, name', named'⟩ := names cs name after short named
    have tight := length_skipSpace_le after
    simp only [named, named'] at read ⊢
    split at read
    · next others colon =>
      rw [colon, List.length_cons] at tight
      have tight' := length_skipSpace_le others
      cases taken : value (skipSpace others) with
      | none => simp [taken] at read
      | some p =>
        obtain ⟨a, last⟩ := p
        obtain ⟨shorter', b, taken'⟩ := values _ a last (by omega) taken
        simp only [taken, taken'] at read ⊢
        cases read
        exact ⟨by omega, _, rfl⟩
    · cases read

/-! ## Values -/

theorem length_literal {word cs rest : List Char} {a : Unit}
    (read : Reader.literal word cs = some (a, rest)) : rest.length ≤ cs.length := by
  induction word generalizing cs with
  | nil =>
    cases read
    exact Nat.le_refl _
  | cons c word ih =>
    cases cs with
    | nil => cases read
    | cons d cs =>
      simp only [Reader.literal] at read
      split at read
      · have := ih read
        simp only [List.length_cons]
        omega
      · cases read

namespace NumberLiteral

theorem length_readDigits {cs rest digits : List Char}
    (read : readDigits cs = some (digits, rest)) : rest.length ≤ cs.length := by
  unfold readDigits at read
  split at read
  · cases read
  · cases read
    exact (List.dropWhile_sublist isDigit).length_le

theorem length_readWhole {cs rest digits : List Char} (read : readWhole cs = some (digits, rest)) :
    rest.length ≤ cs.length := by
  unfold readWhole at read
  split at read
  · cases read
  · exact length_readDigits read

theorem length_readFraction {cs rest : List Char} {fraction : Option (List Char)}
    (read : readFraction cs = some (fraction, rest)) : rest.length ≤ cs.length := by
  unfold readFraction at read
  split at read
  · next cs =>
    split at read
    · next digits =>
      cases read
      have shorter := length_readDigits digits
      simp only [List.length_cons]
      omega
    · cases read
  · cases read
    exact Nat.le_refl _

theorem length_readSignedDigits {cs rest : List Char} {exponent : Bool × List Char}
    (read : readSignedDigits cs = some (exponent, rest)) : rest.length ≤ cs.length := by
  -- with or without its sign, the exponent ends where its digits end
  have digits (negative : Bool) {cs : List Char}
      (read : ((readDigits cs).map fun p => ((negative, p.1), p.2)) = some (exponent, rest)) :
      rest.length ≤ cs.length := by
    obtain ⟨⟨_, _⟩, found, same⟩ := Option.map_eq_some_iff.mp read
    cases same
    exact length_readDigits found
  cases cs with
  | nil => cases read
  | cons c cs =>
    by_cases minus : c = '-'
    · subst minus
      exact Nat.le_succ_of_le (digits true (readSignedDigits_minus cs ▸ read))
    · by_cases plus : c = '+'
      · subst plus
        exact Nat.le_succ_of_le (digits false (readSignedDigits_plus cs ▸ read))
      · exact digits false (readSignedDigits_of_head minus plus cs ▸ read)

theorem length_readExponent {cs rest : List Char} {exponent : Option (Bool × List Char)}
    (read : readExponent cs = some (exponent, rest)) : rest.length ≤ cs.length := by
  unfold readExponent at read
  split at read
  · next c cs =>
    split at read
    · split at read
      · next signed =>
        cases read
        exact Nat.le_succ_of_le (length_readSignedDigits signed)
      · cases read
    · cases read
      exact Nat.le_refl _
  · cases read
    exact Nat.le_refl _

theorem length_read {cs rest : List Char} {parts : NumberLiteral}
    (found : read cs = some (parts, rest)) : rest.length ≤ cs.length := by
  have unsigned (negative : Bool) {cs : List Char}
      (found : readUnsigned negative cs = some (parts, rest)) : rest.length ≤ cs.length := by
    simp only [readUnsigned, Option.bind_eq_some_iff, Option.map_eq_some_iff] at found
    obtain ⟨⟨_, _⟩, whole, ⟨_, _⟩, fraction, ⟨_, _⟩, exponent, same⟩ := found
    cases same
    exact Nat.le_trans (length_readExponent exponent)
      (Nat.le_trans (length_readFraction fraction) (length_readWhole whole))
  by_cases minus : cs.head? = some '-'
  · obtain ⟨cs, rfl⟩ := List.head?_eq_some_iff.mp minus
    exact Nat.le_succ_of_le (unsigned true (read_minus cs ▸ found))
  · exact unsigned false (read_of_head minus ▸ found)

end NumberLiteral

theorem covers_literal (limit : Nat) (word : List Char) :
    Covers limit (Reader.literal word) (Reader.literal word) := by
  intro cs a rest _ read
  exact ⟨length_literal read, a, read⟩

/-- One level of a value: arrays and objects are covered if what is nested in them is. -/
theorem covers_readValue_of_nested {depth : Nat}
    (nested : ∀ inner, depth = inner + 1 → ∀ limit,
      Covers limit (readValue strict inner) (readValue shape limit)) (limit : Nat) :
    Covers limit (readValue strict depth) (readValue shape limit) := by
  intro cs value rest short read
  unfold readValue at read ⊢
  split at read
  · exact (covers_literal _ _).map (fun _ => strict.null) (fun _ => shape.null)
      (Nat.le_succ _) (Nat.le_refl _) read
  · exact (covers_literal _ _).map (fun _ => strict.bool true) (fun _ => shape.bool true)
      (Nat.le_succ _) (Nat.le_refl _) read
  · exact (covers_literal _ _).map (fun _ => strict.bool false) (fun _ => shape.bool false)
      (Nat.le_succ _) (Nat.le_refl _) read
  · exact (covers_readString _).map _ _ (Nat.le_refl _) (Nat.le_refl _) read
  · next cs =>
    -- the strict reader counts depth and the lax one characters, of which a bracket is one
    cases depth with
    | zero => cases read
    | succ depth =>
      cases limit with
      | zero => cases short
      | succ limit =>
        have items := covers_items (skips_layout ']') (nested depth rfl limit)
        exact items.map _ _ (Nat.le_succ _) (Nat.le_of_succ_le_succ short) read
  · next cs =>
    cases depth with
    | zero => cases read
    | succ depth =>
      cases limit with
      | zero => cases short
      | succ limit =>
        have members := covers_items (skips_layout '\x7d')
          (covers_readMember (covers_readString limit) (nested depth rfl limit))
        exact members.map _ _ (Nat.le_succ _) (Nat.le_of_succ_le_succ short) read
  · split at read
    · cases read
    · next literal after found =>
      obtain ⟨_, -, same⟩ := Option.map_eq_some_iff.mp read
      cases same
      exact ⟨NumberLiteral.length_read found, (), rfl⟩

theorem covers_readValue (depth limit : Nat) :
    Covers limit (readValue strict depth) (readValue shape limit) := by
  induction depth generalizing limit with
  | zero =>
    exact covers_readValue_of_nested (fun _ same => absurd same (Nat.zero_ne_add_one _)) limit
  | succ depth ih =>
    refine covers_readValue_of_nested (fun inner same => ?_) limit
    cases same
    exact ih

theorem covers_readRaw (depth limit : Nat) : Covers limit (readValue strict depth) readRaw := by
  intro cs value rest _ read
  obtain ⟨shorter, _, skipped⟩ :=
    covers_readValue depth cs.length cs value rest (Nat.le_refl _) read
  exact ⟨shorter, _, by rw [readRaw, skipValue, skipped]; rfl⟩

/-! ## Objects -/

/-- An opening brace is followed by members, or it opens nothing. -/
theorem object_of_readValue {depth : Nat} {cs rest : List Char} {value : Json}
    (read : readValue strict depth ('\x7b' :: cs) = some (value, rest)) :
    ∃ inner members, value = .object members ∧ depth = inner + 1 ∧
      Reader.items (layout '\x7d') (readMember readEscape (readValue strict inner)) cs =
        some (members, rest) := by
  cases depth with
  | zero => cases read
  | succ inner =>
    obtain ⟨⟨members, after⟩, items, same⟩ := Option.map_eq_some_iff.mp read
    cases same
    exact ⟨inner, members, rfl, rfl, items⟩

theorem brace_of_readValue {depth : Nat} {cs rest : List Char} {members : List (String × Json)}
    (read : readValue strict depth cs = some (.object members, rest)) :
    ∃ inner, cs = '\x7b' :: inner := by
  unfold readValue at read
  split at read
  case h_6 inner => exact ⟨inner, rfl⟩
  case h_5 =>
    cases depth with
    | zero => cases read
    | succ depth =>
      obtain ⟨_, -, same⟩ := Option.map_eq_some_iff.mp read
      cases same
  case h_7 =>
    split at read
    · cases read
    · obtain ⟨number, value, same⟩ := Option.map_eq_some_iff.mp read
      obtain ⟨_, -, rfl⟩ := Option.map_eq_some_iff.mp value
      cases same
  all_goals
    obtain ⟨_, -, same⟩ := Option.map_eq_some_iff.mp read
    cases same

/-- Of the texts with a value, just the objects can be split into their members. -/
theorem isSome_splitObject {cs : List Char} {root : Json} (parsed : parse? cs = some root) :
    (splitObject cs).isSome = true ↔ ∃ members, root = .object members := by
  unfold parse? parseWithin? at parsed
  split at parsed
  case h_2 => cases parsed
  case h_1 value rest read =>
    obtain ⟨finished, same⟩ := Option.ite_none_right_eq_some.mp parsed
    cases same
    unfold splitObject
    split
    · next inner opened =>
      rw [opened] at read
      obtain ⟨depth, members, rfl, -, items⟩ := object_of_readValue read
      have members' := covers_readMember (covers_readString inner.length).self
        (covers_readRaw depth inner.length)
      have covers := covers_items (skips_layout '\x7d') members'
      obtain ⟨-, written, split'⟩ := covers inner members rest (Nat.le_refl _) items
      simp [split', finished]
    · next closed =>
      refine ⟨nofun, ?_⟩
      rintro ⟨members, rfl⟩
      obtain ⟨inner, opened⟩ := brace_of_readValue read
      exact absurd opened (closed inner)

end Spellcraft.Json
