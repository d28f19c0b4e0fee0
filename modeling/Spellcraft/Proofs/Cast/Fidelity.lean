import Spellcraft.Catalog.Book
import Spellcraft.Proofs.Cast.Replay
import Spellcraft.Proofs.Parameters.Storage

/-! # Valid parameters survive storage

Whoever gets the parameters of a cast in stored form — the receiver of a replay, for one — can
decode them and validate them again, and then has the parameters that the effect ran with.

* `Restorable` — decoded parameters that a schema validates to the ones that were stored;
* `Schema.validated_restorable` — all of it for a schema that was built: validated parameters are
  valid as they are, from a compound and from bytes, and so is every replay.
-/

namespace Spellcraft

/-- What was decoded has the names of some parameters, and the schema validates it to them. -/
def Restorable (s : Schema) (normal : Parameters) (decoded : Except DecodeError Parameters) :
    Prop :=
  ∃ stored, decoded = .ok stored ∧ stored.keys = normal.keys ∧
    (s.validate stored).toExcept = .ok normal

namespace Schema

variable {s : Schema} (built : SchemaBuilder.Builds s) {params normal : Parameters}
  (valid : (s.validate params).toExcept = .ok normal)

include built valid

theorem validate_validated : (s.validate normal).toExcept = .ok normal := by
  obtain ⟨values, rfl, validated⟩ := validated_of_validate built.sound valid
  exact validate_of_restores validated (.refl validated.stores)

theorem restorable_ofCompound :
    Restorable s normal (Parameters.ofCompound normal.toCompound) := by
  obtain ⟨values, rfl, validated⟩ := validated_of_validate built.sound valid
  obtain ⟨stored, decoded, keys, restores⟩ := validated.ofCompound_toCompound
  exact ⟨stored, decoded, keys, validate_of_restores validated restores⟩

theorem restorable_ofBytes (countable : normal.toBytes.length < byteLimit) :
    Restorable s normal (Parameters.ofBytes normal.toBytes) := by
  have restorable := restorable_ofCompound built valid
  obtain ⟨values, rfl, validated⟩ := validated_of_validate built.sound valid
  rw [validated.ofBytes_toBytes countable]
  exact restorable

end Schema

/-- A replay can be decoded and validated to the parameters that the effect ran with. -/
theorem restorable_replay {R S : Type} [Castable S] [Registry R S] {registry : R} {id : String}
    {spell : S} (found : Registry.find? registry id = some spell)
    (built : SchemaBuilder.Builds (Castable.schema spell)) (caster : Caster) (loader : Loader)
    (source : CastSource) (level : UInt32) (params : Parameters) {data : Compound}
    (replayed : data ∈ replays (castWith registry caster loader source id level params).told) :
    ∃ config normal,
      .ran config normal ∈ (CastM.finish (CastM.castSpell level source params)
        (Stage.observed { spell, caster, loader })).2.spell.diary ∧
      Restorable (Castable.schema spell) normal (Parameters.ofCompound data) := by
  have told : (castWith registry caster loader source id level params).told =
      (CastM.finish (CastM.castSpell level source params)
        (Stage.observed { spell, caster, loader })).2.told := by
    rw [castWith, found]
    dsimp only
    rw [CastResult.ofSpell_eq]
    exact (Observed.simulation.castSpell level source params { spell, caster, loader } _
      (Stage.observed_alike _)).2.told
  rw [told] at replayed
  rcases CastM.replays_castSpell level source params (Stage.observed { spell, caster, loader })
    with nothing | ⟨normal, valid, nothing | ⟨one, config, ran⟩⟩
  · rw [nothing] at replayed
    exact absurd replayed List.not_mem_nil
  · rw [nothing] at replayed
    exact absurd replayed List.not_mem_nil
  · rw [one] at replayed
    have same : data = normal.toCompound := List.mem_singleton.mp replayed
    rw [same]
    exact ⟨config, normal, ran, Schema.restorable_ofCompound built valid⟩

/-- Against a schema that was built, validated parameters are valid again and stay as they are:
    themselves, decoded from their stored form, and decoded from its bytes, if those can be counted
    in the eight bytes of a length. So every replay of a cast of a spell with that schema is
    validated to the parameters that the effect ran with. -/
theorem Schema.validated_restorable {s : Schema} (built : SchemaBuilder.Builds s) :
    (∀ params normal, (s.validate params).toExcept = .ok normal →
      (s.validate normal).toExcept = .ok normal ∧
      Restorable s normal (Parameters.ofCompound normal.toCompound) ∧
      (normal.toBytes.length < byteLimit →
        Restorable s normal (Parameters.ofBytes normal.toBytes))) ∧
    (∀ (R S : Type) [Castable S] [Registry R S] (registry : R) (id : String) (spell : S),
      Registry.find? registry id = some spell → Castable.schema spell = s →
      ∀ caster loader source level params data,
        data ∈ replays (castWith registry caster loader source id level params).told →
        ∃ config normal,
          .ran config normal ∈ (CastM.finish (CastM.castSpell level source params)
            (Stage.observed { spell, caster, loader })).2.spell.diary ∧
          Restorable s normal (Parameters.ofCompound data)) := by
  constructor
  · intro params normal valid
    exact ⟨validate_validated built valid, restorable_ofCompound built valid,
      restorable_ofBytes built valid⟩
  · intro R S _ _ registry id spell found same caster loader source level params data replayed
    subst same
    exact restorable_replay found built caster loader source level params replayed

def huntCalls : List Declaration :=
  [.field "quarry" .entitySelector .required "Whom to hunt",
    .field "force" .int (.optional (.int 3)) "How hard"]

def huntSchema : Schema :=
  match (SchemaBuilder.empty.declareAll huntCalls).build with
  | .ok s => s
  | .error _ => .empty

def huntGiven : Parameters := .ofList [("quarry", .string "@e")]

def huntNormal : Parameters :=
  .ofValidated (.ofList [("quarry", .entitySelector "@e"), ("force", .int 3)])

def hunt : CatalogSpell where
  definition := { id := "hunt", name := "Hunt", effect := .manaSurge }
  tuning := {}
  schema := huntSchema
  base := {}
  live := {}

def huntBook : SpellBook := ⟨.ofList [("hunt", hunt)]⟩

def hunter : Caster where
  id := .nil
  mana := 10

/-- A selector comes back as text, and the schema makes a selector of it again: for whoever reads
    the stored form or its bytes, and for whoever is told to replay the hunt. -/
theorem Schema.validated_restorable_hunt :
    (huntSchema.validate huntGiven).toExcept = .ok huntNormal ∧
    Restorable huntSchema huntNormal
      (.ok (.ofList [("quarry", .string "@e"), ("force", .int 3)])) ∧
    Restorable huntSchema huntNormal (Parameters.ofBytes huntNormal.toBytes) ∧
    ∃ config normal,
      .ran config normal ∈ (CastM.finish (CastM.castSpell 1 .scroll huntGiven)
        (Stage.observed { spell := hunt, caster := hunter, loader := .empty })).2.spell.diary ∧
      Restorable huntSchema normal (Parameters.ofCompound huntNormal.toCompound) := by
  have built : SchemaBuilder.Builds huntSchema := ⟨huntCalls, rfl⟩
  have valid : (huntSchema.validate huntGiven).toExcept = .ok huntNormal := rfl
  have countable : huntNormal.toBytes.length < byteLimit := by decide
  have told : huntNormal.toCompound ∈
      replays (castWith huntBook hunter .empty .scroll "hunt" 1 huntGiven).told :=
    List.mem_singleton_self _
  obtain ⟨forms, casts⟩ := Schema.validated_restorable built
  obtain ⟨-, stored, bytes⟩ := forms _ _ valid
  exact ⟨valid, stored, bytes countable, casts _ _ huntBook "hunt" hunt rfl rfl _ _ _ _ _ _ told⟩

end Spellcraft
