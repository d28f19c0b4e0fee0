import Spellcraft.Parameters
import Spellcraft.Proofs.Number.Integers
import Spellcraft.Proofs.Value.Storage

/-! # What a kind accepts, stores and reads back

A kind says four things about values: which of them it accepts, what it makes of these, as which tag
that is stored, and what it reads from a tag. A fifth comes from readers that know no kinds: they
take a tag by its form, and leave it to the kind to normalize what they found. The normal forms of
the kind hold all of this together.

* `NormalForm.decodeTag_toTag?` — a kind reads its normal forms back as they were;
* `Kind.ofTag?_of_normalize` — with or without the kind, a tag is the same value in the end, or one
  of the two ways refuses it;
* `Kind.normalize_settles` — all that is said about a value and its kind.
-/

namespace Spellcraft

namespace NormalForm

variable {kind : Kind} {value : Value}

theorem kind?_eq (normal : NormalForm kind value) : value.kind? = some kind := by
  cases normal <;> rfl

theorem isValid (normal : NormalForm kind value) : kind.isValid value = true := by
  rw [← Kind.normalize_isSome, normal.normalize, Option.isSome_some]

/-- The kind reads a normal form from its tag just as it was stored. -/
theorem decodeTag_toTag? (normal : NormalForm kind value) :
    ∃ tag, value.toTag? = some tag ∧ ∀ key, kind.decodeTag key tag = .ok value := by
  suffices read : ∃ tag, value.toTag? = some tag ∧ kind.ofTag? tag = some value by
    obtain ⟨tag, written, read⟩ := read
    exact ⟨tag, written, fun key => by rw [Kind.decodeTag, read]⟩
  cases normal with
  | int i =>
    refine ⟨.int i, rfl, ?_⟩
    simp [Kind.ofTag?, Tag.number?, Binary.toInt32_ofInt]
  | @float x quiet =>
    -- what is read has been widened and narrowed once more than what was stored
    refine ⟨.float x, rfl, ?_⟩
    simp [Kind.ofTag?, Tag.number?, Binary.narrow_widen quiet]
  | boolean b =>
    refine ⟨.ofBool b, rfl, ?_⟩
    cases b <;> rfl
  | uuid u =>
    refine ⟨.compound (Compound.ofUuid u), rfl, ?_⟩
    have words : Compound.uuid? (Compound.ofUuid u) Compound.uuidKey = some u :=
      Uuid.ofWords?_words u
    simp [Kind.ofTag?, words]
  | _ => exact ⟨_, rfl, rfl⟩

end NormalForm

/-! ## Two ways to read a tag -/

namespace Value

/-- An integer is the integer part of its double, like every other number. -/
theorem toInt?_eq (value : Value) : value.toInt? = value.toDouble?.map Binary.toInt32 := by
  cases value with
  | int i => simp [toInt?, toDouble?, Binary.toInt32_ofInt]
  | _ => rfl

theorem number?_of_ofTag {name : String} {tag : Tag} {given : Value} {x y : Binary64}
    (untyped : ofTag name tag = .ok given) (number : tag.number? = some x)
    (number' : given.toDouble? = some y) : x = y := by
  cases tag with
  | int | float | double =>
    cases untyped
    exact Option.some.inj (number.symm.trans number')
  | byte =>
    -- a number to a kind, but a truth value by its form
    cases untyped
    cases number'
  | long => cases untyped
  | string | intArray | compound => cases number

end Value

namespace Kind

variable {kind : Kind} {name : String} {tag : Tag} {given typed normal : Value}

/-- A tag to which both its form and the kind give a value is the same value either way. -/
theorem ofTag?_of_normalize (untyped : Value.ofTag name tag = .ok given)
    (normalized : kind.normalize given = some normal) (read : kind.ofTag? tag = some typed) :
    typed = normal := by
  cases kind with
  | int =>
    rw [normalize, Value.toInt?_eq] at normalized
    obtain ⟨x, number, rfl⟩ := Option.map_eq_some_iff.mp read
    obtain ⟨i, whole, rfl⟩ := Option.map_eq_some_iff.mp normalized
    obtain ⟨y, number', rfl⟩ := Option.map_eq_some_iff.mp whole
    rw [Value.number?_of_ofTag untyped number number']
  | float =>
    obtain ⟨x, number, rfl⟩ := Option.map_eq_some_iff.mp read
    obtain ⟨z, narrowed, rfl⟩ := Option.map_eq_some_iff.mp normalized
    obtain ⟨y, number', rfl⟩ := Option.map_eq_some_iff.mp narrowed
    rw [Value.number?_of_ofTag untyped number number']
  | double =>
    obtain ⟨x, number, rfl⟩ := Option.map_eq_some_iff.mp read
    obtain ⟨y, number', rfl⟩ := Option.map_eq_some_iff.mp normalized
    rw [Value.number?_of_ofTag untyped number number']
  | boolean =>
    cases tag with
    | byte b =>
      cases untyped
      exact Option.some.inj (read.symm.trans normalized)
    | _ => cases read
  | string | entitySelector | dimension =>
    cases tag with
    | string s =>
      cases untyped
      exact Option.some.inj (read.symm.trans normalized)
    | _ => cases read
  | vec3 =>
    cases tag with
    | compound entries =>
      cases untyped
      obtain ⟨v, position, rfl⟩ := Option.map_eq_some_iff.mp read
      -- a position comes before all else that a compound may be
      have form : Value.ofCompound entries = .vec3 v := by
        unfold Value.ofCompound
        rw [position]
      rw [form] at normalized
      exact Option.some.inj normalized
    | _ => cases read
  | uuid =>
    cases tag with
    | compound entries =>
      cases untyped
      obtain ⟨u, words, rfl⟩ := Option.map_eq_some_iff.mp read
      -- by its form the compound is the id, or something that the kind refuses
      unfold Value.ofCompound at normalized
      split at normalized
      · cases normalized
      · split at normalized
        · rw [words] at normalized
          exact Option.some.inj normalized
        · cases normalized
    | _ => cases read

/-! ## A value and its kind -/

/-- What a kind holds to be the one form of a value: it is of the kind, accepted as it stands, and
    stored as a tag that the kind reads back. -/
structure Settles (kind : Kind) (normal : Value) : Prop where
  kind?_eq : normal.kind? = some kind
  valid : kind.isValid normal = true
  stays : kind.normalize normal = some normal
  stored : ∃ tag, normal.toTag? = some tag ∧ ∀ key, kind.decodeTag key tag = .ok normal

theorem settles_of_normalize {value : Value} (normalized : kind.normalize value = some normal) :
    kind.Settles normal := by
  have form := normalForm_of_normalize normalized
  exact ⟨form.kind?_eq, form.isValid, form.normalize, form.decodeTag_toTag?⟩

theorem typed_of_ofCompound {key : String} {params : Parameters}
    (untyped : Parameters.ofCompound [(name, tag)] = .ok params)
    (normalized : (params.find? name).bind kind.normalize = some normal)
    (read : kind.decodeTag key tag = .ok typed) : typed = normal := by
  have typed? : kind.ofTag? tag = some typed := by
    unfold decodeTag at read
    split at read
    · next value found =>
      cases read
      exact found
    · cases read
  cases form : Value.ofTag name tag with
  | error e => simp [Parameters.ofCompound, Parameters.decodeAll, form] at untyped
  | ok given =>
    simp only [Parameters.ofCompound, Parameters.decodeAll, form, Except.ok.injEq] at untyped
    obtain rfl := untyped
    rw [Parameters.find?_ofList_singleton, Option.bind_some] at normalized
    exact ofTag?_of_normalize form normalized typed?

/-- A kind normalizes just the values that it accepts, and into values that it settles on: they are
    stored and read back as they are. A record of one tag that is read without the kind and then
    normalized has the value that the kind reads from the tag, if both succeed. -/
theorem normalize_settles (kind : Kind) (value : Value) :
    ((∃ normal, kind.normalize value = some normal) ↔ kind.isValid value = true) ∧
    (∀ normal, kind.normalize value = some normal → kind.Settles normal) ∧
    ∀ name key tag params normal typed, Parameters.ofCompound [(name, tag)] = .ok params →
      (params.find? name).bind kind.normalize = some normal →
        kind.decodeTag key tag = .ok typed → typed = normal := by
  refine ⟨?_, fun _ => settles_of_normalize, fun _ _ _ _ _ _ => typed_of_ofCompound⟩
  rw [← Option.isSome_iff_exists, normalize_isSome]

def seventh : Uuid := .ofNat 7

/-- Text that is an id is settled as this id, which is the same when it is read from its record with
    the kind and without. -/
theorem normalize_settles_seventh :
    uuid.isValid (.string "00000000-0000-0000-0000-000000000007") = true ∧
      uuid.Settles (.uuid seventh) ∧
      ∃ params typed, Parameters.ofCompound [("id", .compound (Compound.ofUuid seventh))] =
          .ok params ∧
        (params.find? "id").bind uuid.normalize = some (.uuid seventh) ∧
        uuid.decodeTag "target" (.compound (Compound.ofUuid seventh)) = .ok typed ∧
        typed = .uuid seventh := by
  have parsed : Uuid.parse? "00000000-0000-0000-0000-000000000007" = some seventh := by
    decide +kernel
  have normalized : uuid.normalize (.string "00000000-0000-0000-0000-000000000007") =
      some (.uuid seventh) := by simp [normalize, Value.toUuid?, parsed]
  have untyped : Parameters.ofCompound [("id", .compound (Compound.ofUuid seventh))] =
      .ok (.ofList [("id", .uuid seventh)]) := by
    simp [Parameters.ofCompound, Parameters.decodeAll, Value.ofTag, Value.ofCompound_ofUuid]
  obtain ⟨accepts, settles, agrees⟩ :=
    normalize_settles uuid (.string "00000000-0000-0000-0000-000000000007")
  have settled := settles _ normalized
  obtain ⟨tag, stored, read⟩ := settled.stored
  cases stored
  exact ⟨accepts.mp ⟨_, normalized⟩, settled, _, _, untyped, rfl, read "target",
    agrees "id" "target" _ _ _ _ untyped rfl (read "target")⟩

end Kind

end Spellcraft
