import Spellcraft.Proofs.Json.Shape
import Spellcraft.Proofs.Record

/-! # Members of parameter text

Parameter text is split into members first, and each name keeps only the value that it was last
given. So a value that is written over leaves no trace: it may be wrong in itself, and neither the
order of the names nor an error shows it.

* `Parameters.decodeAll_cases` — decoding goes through all entries, or ends at the first that fails;
* `Parameters.ReadsMembers` — how members and their result belong together;
* `Parameters.notAnObject_iff` — when a text is refused for being something else than an object;
* `Parameters.ofText_members` — what is read of a text.
-/

namespace Spellcraft

def DecodeError.key? : DecodeError → Option String
  | .mismatch key .. | .outOfRange key _ | .unsupportedTag key _ => some key
  | .malformedText | .notAnObject _ | .malformedBytes => none

/-! ## One value -/

theorem Vec3.key?_of_ofJson {key : String} {json : Json} {e : DecodeError}
    (failed : Vec3.ofJson key json = .error e) : e.key? = some key := by
  unfold Vec3.ofJson at failed
  split at failed
  · split at failed
    · cases failed
    · cases failed
      rfl
  · cases failed
    rfl

theorem Value.key?_of_ofJson {key : String} {json : Json} {literal : List Char} {e : DecodeError}
    (failed : Value.ofJson key json literal = .error e) : e.key? = some key := by
  unfold Value.ofJson at failed
  split at failed
  · split at failed
    · cases failed
    · split at failed
      · cases failed
      · cases failed
        rfl
  · cases failed
  · cases failed
  · cases position : Vec3.ofJson key (.array _) with
    | ok v =>
      rw [Kind.decodeText, position] at failed
      cases failed
    | error e' =>
      rw [Kind.decodeText, position] at failed
      cases failed
      exact Vec3.key?_of_ofJson position
  · cases failed
    rfl
  · cases failed
    rfl

theorem Json.kindName_ne_object {root : Json} (other : ∀ members, root ≠ .object members) :
    root.kindName ≠ "object" := by
  cases root with
  | object members => exact absurd rfl (other members)
  | _ => simp [kindName]

namespace Parameters

/-- A value that is no JSON is refused without a name, and any other one under its name. -/
theorem error_of_decodeRaw {key : String} {raw : List Char} {e : DecodeError}
    (failed : decodeRaw key raw = .error e) :
    (Json.parse? raw = none → e = .malformedText) ∧
      ((Json.parse? raw).isSome = true → e.key? = some key) := by
  unfold decodeRaw at failed
  split at failed
  · next json parsed =>
    rw [parsed]
    exact ⟨nofun, fun _ => Value.key?_of_ofJson failed⟩
  · next none =>
    cases failed
    rw [none]
    exact ⟨fun _ => rfl, nofun⟩

/-! ## All entries -/

theorem decodeAll_cases {α : Type} (decode : String → α → Except DecodeError Value)
    (entries : Entries α) :
    (∃ values, decodeAll decode entries = .ok values ∧ Entries.keys values = Entries.keys entries ∧
      ∀ e ∈ entries, ∃ value, decode e.1 e.2 = .ok value ∧ (e.1, value) ∈ values) ∨
    ∃ before key raw after error, entries = before ++ (key, raw) :: after ∧
      (∀ e ∈ before, ∃ value, decode e.1 e.2 = .ok value) ∧ decode key raw = .error error ∧
      decodeAll decode entries = .error error := by
  -- an error here ends the decoding; otherwise the first failure is the one of the rest
  induction entries with
  | nil => exact .inl ⟨[], rfl, rfl, nofun⟩
  | cons entry rest ih =>
    obtain ⟨key, raw⟩ := entry
    cases here : decode key raw with
    | error error =>
      exact .inr ⟨[], key, raw, rest, error, rfl, nofun, here, by simp [decodeAll, here]⟩
    | ok value =>
      rcases ih with ⟨values, later, keys, decoded⟩ | ⟨before, key', raw', after, error, split,
        earlier, there, later⟩
      · refine .inl ⟨(key, value) :: values, by simp [decodeAll, here, later], ?_, ?_⟩
        · rw [Entries.keys_cons, Entries.keys_cons, keys]
        · intro e member
          rcases List.mem_cons.mp member with rfl | among
          · exact ⟨value, here, List.mem_cons_self⟩
          · obtain ⟨other, found, stored⟩ := decoded e among
            exact ⟨other, found, List.mem_cons_of_mem _ stored⟩
      · refine .inr ⟨(key, raw) :: before, key', raw', after, error, by rw [split]; rfl, ?_, there,
          by simp [decodeAll, here, later]⟩
        intro e member
        rcases List.mem_cons.mp member with rfl | among
        · exact ⟨value, here⟩
        · exact earlier e among

/-- Names are decoded with the values that they were last given. -/
def Decodes (members : List (String × List Char)) (key : String) (value : Value) : Prop :=
  ∃ raw, Entries.last? members key = some raw ∧ decodeRaw key raw = .ok value

/-- What is read of members: all the names in the order of their first uses, with their last values,
    or the error of the first name whose last value is not decoded. -/
structure ReadsMembers (members : List (String × List Char))
    (result : Except DecodeError Parameters) : Prop where
  succeeds : (∃ p, result = .ok p) ↔
    ∀ key ∈ Entries.names members, ∃ value, Decodes members key value
  holds : ∀ p, result = .ok p → p.validated = false ∧ p.keys = Entries.names members ∧
    ∀ key ∈ Entries.names members, ∃ value, Decodes members key value ∧ p.find? key = some value
  fails : ∀ error, result = .error error → ∃ before key after raw,
    Entries.names members = before ++ key :: after ∧
    (∀ other ∈ before, ∃ value, Decodes members other value) ∧
    Entries.last? members key = some raw ∧ decodeRaw key raw = .error error ∧
    (Json.parse? raw = none → error = .malformedText) ∧
    ((Json.parse? raw).isSome = true → error.key? = some key)

theorem last?_of_mem {members : List (String × List Char)} {e : String × List Char}
    (member : e ∈ Entries.ofList members) : Entries.last? members e.1 = some e.2 := by
  rw [← Entries.find?_ofList_eq_last?]
  exact Entries.find?_of_mem (Entries.nodup_keys_ofList members) member

theorem ofText_of_splits {text : String} {members : List (String × List Char)}
    (splits : Json.splitObject text.toList = some members) :
    ofText text = (decodeAll decodeRaw (Entries.ofList members)).map ofList := by
  simp only [ofText, Json.not_blank_of_splitObject splits, splits]
  cases decodeAll decodeRaw (Entries.ofList members) <;> rfl

theorem readsMembers_ofText {text : String} {members : List (String × List Char)}
    (splits : Json.splitObject text.toList = some members) :
    ReadsMembers members (ofText text) := by
  rw [ofText_of_splits splits]
  have names : Entries.keys (Entries.ofList members) = Entries.names members :=
    Entries.keys_ofList members
  rcases decodeAll_cases decodeRaw (Entries.ofList members) with
    ⟨values, done, keys, decoded⟩ | ⟨before, key, raw, after, error, split, earlier, failed, done⟩
  · -- the values stand under the names of the members, so writing them changes nothing
    have distinct : (Entries.keys values).Nodup := keys ▸ Entries.nodup_keys_ofList members
    have stored : (ofList values).entries = values := Entries.ofList_of_nodup distinct
    have all (key : String) (among : key ∈ Entries.names members) :
        ∃ value, Decodes members key value ∧ (ofList values).find? key = some value := by
      rw [← names] at among
      obtain ⟨e, member, rfl⟩ := List.mem_map.mp among
      obtain ⟨value, found, there⟩ := decoded e member
      refine ⟨value, ⟨e.2, last?_of_mem member, found⟩, ?_⟩
      rw [← stored] at there
      exact Entries.find?_of_mem (ofList values).values.nodup there
    rw [done]
    refine ⟨⟨fun _ key among => ?_, fun _ => ⟨_, rfl⟩⟩, ?_, nofun⟩
    · obtain ⟨value, found, -⟩ := all key among
      exact ⟨value, found⟩
    · rintro _ ⟨⟩
      refine ⟨rfl, ?_, all⟩
      change Entries.keys (ofList values).entries = _
      rw [stored, keys, names]
  · -- all members in front of the failure were read, so it is the first one of the text
    have member (e : String × List Char) (among : e ∈ before ++ [(key, raw)]) :
        e ∈ Entries.ofList members := by
      rw [split, ← List.singleton_append, ← List.append_assoc]
      exact List.mem_append_left _ among
    have last : Entries.last? members key = some raw :=
      last?_of_mem (member _ (List.mem_append_right _ List.mem_cons_self))
    rw [done]
    refine ⟨⟨nofun, fun all => ?_⟩, nofun, ?_⟩
    · have among : key ∈ Entries.names members := by
        rw [← names, split, Entries.keys, List.map_append]
        exact List.mem_append_right _ List.mem_cons_self
      obtain ⟨value, raw', last', found⟩ := all key among
      rw [last, Option.some.injEq] at last'
      rw [← last', failed] at found
      cases found
    · rintro _ ⟨⟩
      refine ⟨Entries.keys before, key, Entries.keys after, raw, ?_, ?_, last, failed,
        error_of_decodeRaw failed⟩
      · rw [← names, split, Entries.keys, List.map_append]
        rfl
      · intro other among
        obtain ⟨e, earlier', rfl⟩ := List.mem_map.mp among
        obtain ⟨value, found⟩ := earlier e earlier'
        exact ⟨value, e.2, last?_of_mem (member e (List.mem_append_left _ earlier')), found⟩

/-! ## Texts of something else -/

/-- A text is refused for what it is just if it has a value, and this is no object. -/
theorem notAnObject_iff (text found : String) :
    ofText text = .error (.notAnObject found) ↔
      isBlankText text = false ∧ ∃ root, Json.parse? text.toList = some root ∧
        (∀ members, root ≠ .object members) ∧ found = root.kindName ∧ found ≠ "object" := by
  cases blank : isBlankText text with
  | true => simp [ofText, blank]
  | false =>
    cases splits : Json.splitObject text.toList with
    | some members =>
      constructor
      · intro refused
        -- an error about a member names it, or says that it is no JSON
        obtain ⟨_, key, _, raw, -, -, -, failed, -⟩ := (readsMembers_ofText splits).fails _ refused
        obtain ⟨syntaxError, named⟩ := error_of_decodeRaw failed
        cases parsed : Json.parse? raw with
        | none => cases syntaxError parsed
        | some _ => cases named (by rw [parsed]; rfl)
      · rintro ⟨-, root, parsed, other, -⟩
        obtain ⟨members', same⟩ := (Json.isSome_splitObject parsed).mp (by rw [splits]; rfl)
        exact absurd same (other members')
    | none =>
      cases parsed : Json.parse? text.toList with
      | none => simp [ofText, blank, splits, parsed]
      | some root =>
        have other (members : List (String × Json)) : root ≠ .object members := by
          rintro rfl
          have some := (Json.isSome_splitObject parsed).mpr ⟨members, rfl⟩
          rw [splits] at some
          cases some
        have refused : ofText text = .error (.notAnObject root.kindName) := by
          simp [ofText, blank, splits, parsed]
        rw [refused]
        constructor
        · rintro ⟨⟩
          exact ⟨rfl, root, rfl, other, rfl, Json.kindName_ne_object other⟩
        · rintro ⟨-, root', same, -, rfl, -⟩
          cases same
          rfl

/-- A text that splits into members is read by the last values of their names, and another text with
    the same names and last values is read alike. A text is refused for what it is just if it has a
    value that is no object. -/
theorem ofText_members (text : String) :
    (∀ members, Json.splitObject text.toList = some members →
      ReadsMembers members (ofText text) ∧
      ∀ other members', Json.splitObject other.toList = some members' →
        Entries.names members' = Entries.names members →
        (∀ key, Entries.last? members' key = Entries.last? members key) →
        ofText other = ofText text) ∧
    ∀ found, ofText text = .error (.notAnObject found) ↔
      isBlankText text = false ∧ ∃ root, Json.parse? text.toList = some root ∧
        (∀ members, root ≠ .object members) ∧ found = root.kindName ∧ found ≠ "object" := by
  refine ⟨fun members splits => ⟨readsMembers_ofText splits, ?_⟩, notAnObject_iff text⟩
  intro other members' splits' sameNames sameValues
  rw [ofText_of_splits splits, ofText_of_splits splits', Entries.ofList_congr sameNames sameValues]

/-- A number that overflows and half a position, both of which are written over. -/
def overwritten : String := "\x7b\"a\": 1e999, \"b\": [1], \"a\": 7, \"b\": true\x7d"

def overwrittenMembers : List (String × List Char) :=
  [("a", ['1', 'e', '9', '9', '9']), ("b", ['[', '1', ']']), ("a", ['7']),
    ("b", ['t', 'r', 'u', 'e'])]

/-- Nothing of the first two values is left. -/
theorem ofText_members_overwritten :
    Json.splitObject overwritten.toList = some overwrittenMembers ∧
    decodeRaw "a" ['1', 'e', '9', '9', '9'] = .error .malformedText ∧
    ∃ p, ofText overwritten = .ok p ∧ p.keys = ["a", "b"] ∧ p.find? "a" = some (.int 7) ∧
      p.find? "b" = some (.boolean true) := by
  have splits : Json.splitObject overwritten.toList = some overwrittenMembers := by decide +kernel
  have written : Json.NumberLiteral.read ['1', 'e', '9', '9', '9'] =
      some (⟨false, ['1'], none, some (false, ['9', '9', '9'])⟩, []) := rfl
  have large : Json.NumberLiteral.value? ⟨false, ['1'], none, some (false, ['9', '9', '9'])⟩ =
      none := by decide +kernel
  obtain ⟨⟨succeeds, holds, -⟩, -⟩ := (ofText_members overwritten).1 _ splits
  have seven : Decodes overwrittenMembers "a" (.int 7) := ⟨['7'], rfl, rfl⟩
  have yes : Decodes overwrittenMembers "b" (.boolean true) := ⟨['t', 'r', 'u', 'e'], rfl, rfl⟩
  have names : Entries.names overwrittenMembers = ["a", "b"] := by decide
  rw [names] at succeeds holds
  obtain ⟨p, read⟩ := succeeds.mpr (by simpa using ⟨⟨_, seven⟩, ⟨_, yes⟩⟩)
  obtain ⟨-, keys, values⟩ := holds p read
  refine ⟨splits, by rw [decodeRaw, Json.parse?_number written, large]; rfl, p, read, keys, ?_, ?_⟩
  · obtain ⟨value, ⟨raw, last, found⟩, there⟩ := values "a" (by simp)
    cases last
    cases found
    exact there
  · obtain ⟨value, ⟨raw, last, found⟩, there⟩ := values "b" (by simp)
    cases last
    cases found
    exact there

end Parameters

end Spellcraft
