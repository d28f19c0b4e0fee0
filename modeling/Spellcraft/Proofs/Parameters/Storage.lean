import Spellcraft.Proofs.Schema.Revalidation
import Spellcraft.Proofs.Tag.Bytes

/-! # Validated parameters in storage

Storage forgets the kinds of some values, and bytes are read without a schema. Validating what
comes back restores both, since every stored value is a normal form of its field.

* `Schema.Validated.ofCompound_toCompound` — through a compound;
* `Schema.Validated.ofBytes_toBytes` — through bytes, which give the same compound.
-/

namespace Spellcraft

theorem NormalForm.distinct {kind : Kind} {value : Value} {tag : Tag}
    (normal : NormalForm kind value) (written : value.toTag? = some tag) : tag.Distinct := by
  cases normal with
  | vec3 v =>
    cases written
    refine .compound ?_ ?_
    · simp [Vec3.toCompound]
    · intro e member
      simp only [Vec3.toCompound, List.mem_cons, List.not_mem_nil, or_false] at member
      rcases member with rfl | rfl | rfl <;> exact .leaf fun _ => Tag.noConfusion
  | uuid u =>
    cases written
    refine .compound ?_ ?_
    · simp [Compound.ofUuid]
    · intro e member
      rw [List.mem_singleton.mp member]
      exact .leaf fun _ => Tag.noConfusion
  | _ =>
    cases written
    exact .leaf fun _ => Tag.noConfusion

def Compound.ofValues (values : Entries Value) : Compound :=
  values.filterMap fun p => p.2.toTag?.map (p.1, ·)

theorem Compound.ofValues_cons {name : String} {value : Value} {tag : Tag}
    (written : value.toTag? = some tag) (rest : Entries Value) :
    ofValues ((name, value) :: rest) = (name, tag) :: ofValues rest := by
  unfold ofValues
  rw [List.filterMap_cons, written]
  rfl

theorem Parameters.toCompound_eq (p : Parameters) :
    p.toCompound = Compound.ofValues p.values.entries := rfl

namespace Schema

variable {s : Schema}

/-- The stored form of values, decoded, restores them. -/
theorem restores_decodeAll {values : Entries Value} (stores : ∀ e ∈ values, s.Stores e.1 e.2) :
    ∃ given, Parameters.decodeAll Value.ofTag (Compound.ofValues values) = .ok given ∧
      Restores s given values := by
  induction values with
  | nil => exact ⟨[], rfl, .nil⟩
  | cons e rest ih =>
    obtain ⟨name, value⟩ := e
    obtain ⟨field, defined, normal⟩ := stores (name, value) List.mem_cons_self
    obtain ⟨tag, given, written, decoded, normalized⟩ := normal.restored name
    obtain ⟨others, decodedOthers, restores⟩ := ih fun other member =>
      stores other (List.mem_cons_of_mem _ member)
    refine ⟨(name, given) :: others, ?_, .cons defined normalized restores⟩
    rw [Compound.ofValues_cons written, Parameters.decodeAll, decoded]
    dsimp only
    rw [decodedOthers]

namespace Validated

variable {values : Record Value} (validated : s.Validated values)

include validated

/-- The stored form of validated parameters is decoded to parameters with the same names, which
    restore them. -/
theorem ofCompound_toCompound : ∃ stored,
    Parameters.ofCompound (Parameters.ofValidated values).toCompound = .ok stored ∧
      stored.keys = values.keys ∧ Restores s stored.entries values.entries := by
  obtain ⟨given, decoded, restores⟩ := restores_decodeAll validated.stores
  have keys : Entries.keys given = values.keys := restores.keys_eq
  have entries : Entries.ofList given = given :=
    Entries.ofList_of_nodup (by rw [keys]; exact values.nodup)
  refine ⟨Parameters.ofList given, ?_, ?_, ?_⟩
  · rw [Parameters.ofCompound, Parameters.toCompound_eq, Parameters.ofValidated, decoded]
  · change Entries.keys (Entries.ofList given) = _
    rw [entries, keys]
  · change Restores s (Entries.ofList given) _
    rw [entries]
    exact restores

theorem distinct_toCompound : (Parameters.ofValidated values).toCompound.Distinct where
  keys := (values.filterMap Value.toTag?).nodup
  inner e member := by
    obtain ⟨p, present, written⟩ := List.mem_filterMap.mp member
    obtain ⟨field, -, normal⟩ := validated.stores p present
    obtain ⟨tag, wrote, rfl⟩ := Option.map_eq_some_iff.mp written
    exact normal.distinct wrote

theorem ofBytes_toBytes (countable : (Parameters.ofValidated values).toBytes.length < byteLimit) :
    Parameters.ofBytes (Parameters.ofValidated values).toBytes =
      Parameters.ofCompound (Parameters.ofValidated values).toCompound := by
  have read := Compound.ofBytes?_append validated.distinct_toCompound countable []
  rw [List.append_nil] at read
  rw [Parameters.ofBytes, Parameters.toBytes, read]

end Validated

end Schema

end Spellcraft
