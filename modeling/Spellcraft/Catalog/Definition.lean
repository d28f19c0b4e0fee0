import Spellcraft.Schema.Builder

/-! # Catalog definitions

A catalog defines spells as data: what they are called, their numbers, the fields that they
take on top of the configuration fields, and one of three effects. A server tunes spells by id.
-/

namespace Spellcraft

/-- What a catalog spell does. -/
inductive SpellEffect where
  /-- Strikes the position in the parameter `target`. -/
  | projectile
  /-- Moves the caster by the parameter `offset`, up to a distance in blocks. -/
  | blink (maxDistance : Binary64)
  /-- Gives the caster as much mana as the spell has power. -/
  | manaSurge
  deriving DecidableEq

structure FieldSpec where
  name : String
  kind : Kind
  required : Bool := false
  default? : Option Value := none
  description : String := ""
  aliases : List String := []

namespace FieldSpec

/-- What the field says about its presence; a default of a required field does not count. -/
def presence (f : FieldSpec) : Presence :=
  if f.required then .required
  else match f.default? with
    | some value => .optional value
    | none => .optionalUnset

def declarations (f : FieldSpec) : List Declaration :=
  .field f.name f.kind f.presence f.description :: f.aliases.map (.synonym · f.name)

end FieldSpec

structure SpellDefinition where
  id : String
  name : String
  parameterized : Bool := true
  defaults : SpellConfig := .zero
  fields : List FieldSpec := []
  effect : SpellEffect

namespace SpellDefinition

/-- The calls that declare the schema of the spell, with the given configuration as defaults. -/
def declarations (d : SpellDefinition) (base : SpellConfig) : List Declaration :=
  SchemaBuilder.configDeclarations base ++ d.fields.flatMap FieldSpec.declarations

end SpellDefinition

/-- How a server tunes a spell. -/
structure SpellTuning where
  manaMultiplier : Binary64 := Binary.ofInt .double 1
  cooldownMultiplier : Binary64 := Binary.ofInt .double 1
  enabled : Bool := true
  deriving DecidableEq

instance : Inhabited SpellTuning := ⟨{}⟩

structure ServerConfig where
  spells : Record SpellTuning := Record.empty

namespace ServerConfig

def tuning (server : ServerConfig) (id : String) : SpellTuning :=
  (server.spells.find? id).getD {}

end ServerConfig

end Spellcraft
