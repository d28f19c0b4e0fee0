import Spellcraft.Proofs.Number.Conversion
import Spellcraft.Value.Decode

/-! # Normalized values in storage

A stored value is decoded by its form alone, so some kinds come back as others: selectors and
dimensions as text. The kind of the field makes up for it: whatever value it had stored, it
normalizes what is decoded to the same value.

* `NormalForm` — the values that the fields of a kind store;
* `NormalForm.normalize` — normalizing leaves them as they are;
* `NormalForm.restored` — what storage gives back is normalized to what was stored.
-/

namespace Spellcraft

theorem Uuid.ofWords?_words (u : Uuid) : Uuid.ofWords? u.words = some u := by
  have bounded := u.isLt
  unfold words ofWords?
  simp only [List.map_cons, List.map_nil, Option.some.injEq]
  ext
  simp only [ofNat, UInt32.toUInt32_toInt32, UInt32.toNat_ofNat', Nat.shiftRight_eq_div_pow,
    Nat.shiftLeft_eq]
  omega

/-- The words of an id under their own key are recognized before any other compound. -/
theorem Value.ofCompound_ofUuid (u : Uuid) : ofCompound (Compound.ofUuid u) = .uuid u := by
  have read : Compound.uuid? (Compound.ofUuid u) Compound.uuidKey = some u :=
    Uuid.ofWords?_words u
  unfold Compound.ofUuid at read ⊢
  simp only [ofCompound, read]
  rfl

/-- The values that a field of some kind stores. A compound is none of them, and a NaN in single
    precision is quiet. -/
inductive NormalForm : Kind → Value → Prop where
  | int (i : Int32) : NormalForm .int (.int i)
  | float {x : Binary32} (quiet : x.Quiet) : NormalForm .float (.float x)
  | double (x : Binary64) : NormalForm .double (.double x)
  | string (s : String) : NormalForm .string (.string s)
  | boolean (b : Bool) : NormalForm .boolean (.boolean b)
  | vec3 (v : Vec3) : NormalForm .vec3 (.vec3 v)
  | uuid (u : Uuid) : NormalForm .uuid (.uuid u)
  | entitySelector (s : String) : NormalForm .entitySelector (.entitySelector s)
  | dimension (s : String) : NormalForm .dimension (.dimension s)

theorem Kind.normalForm_of_normalize {kind : Kind} {value normal : Value}
    (normalized : kind.normalize value = some normal) : NormalForm kind normal := by
  cases kind with
  | int =>
    obtain ⟨i, -, rfl⟩ := Option.map_eq_some_iff.mp normalized
    exact .int i
  | float =>
    obtain ⟨x, narrowed, rfl⟩ := Option.map_eq_some_iff.mp normalized
    obtain ⟨y, -, rfl⟩ := Option.map_eq_some_iff.mp narrowed
    exact .float (Binary.quiet_narrow y)
  | double =>
    obtain ⟨x, -, rfl⟩ := Option.map_eq_some_iff.mp normalized
    exact .double x
  | boolean =>
    dsimp only [normalize] at normalized
    split at normalized
    · cases normalized
      exact .boolean _
    · obtain ⟨x, -, rfl⟩ := Option.map_eq_some_iff.mp normalized
      exact .boolean _
  | vec3 =>
    obtain ⟨v, -, rfl⟩ := Option.map_eq_some_iff.mp normalized
    exact .vec3 v
  | uuid =>
    obtain ⟨u, -, rfl⟩ := Option.map_eq_some_iff.mp normalized
    exact .uuid u
  | string | entitySelector | dimension =>
    cases normalized
    constructor

namespace NormalForm

variable {kind : Kind} {value : Value}

theorem normalize (normal : NormalForm kind value) : kind.normalize value = some value := by
  cases normal with
  | float quiet =>
    simp only [Kind.normalize, Value.toFloat?, Value.toDouble?, Option.map_some,
      Binary.narrow_widen quiet]
  | _ => rfl

theorem restored (normal : NormalForm kind value) (key : String) :
    ∃ tag given, value.toTag? = some tag ∧ Value.ofTag key tag = .ok given ∧
      kind.normalize given = some value := by
  cases normal with
  | boolean b =>
    refine ⟨_, .boolean b, rfl, ?_, rfl⟩
    cases b <;> rfl
  | uuid u => exact ⟨_, .uuid u, rfl, congrArg Except.ok (Value.ofCompound_ofUuid u), rfl⟩
  | float quiet => exact ⟨_, _, rfl, rfl, (NormalForm.float quiet).normalize⟩
  | _ => exact ⟨_, _, rfl, rfl, rfl⟩

end NormalForm

end Spellcraft
