import Spellcraft.Cast
import Spellcraft.Catalog.Definition

/-! # Catalog spells

A catalog spell behaves as its definition says. Its base configuration is the definition's,
with the override table over it; that is also what its schema gives as defaults, so a cast
that names no configuration field still reports the numbers it runs with.

The spell can be cast with parameters, or with its fixed configuration: then the schema's
defaults stand in for parameters and the options are those of the source.
-/

namespace Spellcraft

structure EffectOutcome where
  level : UInt32
  source : CastSource
  power : Int32
  position? : Option Vec3
  deriving DecidableEq

structure CatalogSpell where
  definition : SpellDefinition
  tuning : SpellTuning
  schema : Schema
  base : SpellConfig
  live : SpellConfig
  lastOutcome? : Option EffectOutcome := none

namespace CatalogSpell

/-- The base configuration: the table counts only if it has a record of the spell. -/
def baseConfig (definition : SpellDefinition) (loader : Loader) : Loader.Answer SpellConfig :=
  let known := loader.hasConfig definition.id
  if known.value then
    let resolved := known.loader.resolve definition.id .empty definition.defaults
    { resolved with notices := known.notices ++ resolved.notices }
  else ⟨definition.defaults, known.loader, known.notices⟩

def ofDefinition (definition : SpellDefinition) (tuning : SpellTuning) (loader : Loader) :
    Loader.Answer (Except SchemaError CatalogSpell) :=
  let base := baseConfig definition loader
  let schema := (SchemaBuilder.empty.declareAll (definition.declarations base.value)).build
  { base with
    value := schema.map fun schema =>
      { definition, tuning, schema, base := base.value, live := base.value } }

def manaCost (s : CatalogSpell) (level : UInt32) : Int32 :=
  s.live.manaCost level s.tuning.manaMultiplier

/-! ## The effect -/

/-- What an effect comes to: a position if it has one, the caster, and notices. -/
structure Resolution where
  position? : Option Vec3
  caster : Caster
  notices : List Notice := []

def needVec3 (params : Parameters) (key : String) : Except EffectError Vec3 :=
  match params.vec3? key with
  | some v => .ok v
  | none => .error (.missingParameter key)

def resolveEffect (effect : SpellEffect) (power : Int32) (params : Parameters)
    (caster : Caster) : Except EffectError Resolution :=
  match effect with
  | .projectile =>
    match needVec3 params "target" with
    | .error e => .error e
    | .ok target => .ok ⟨some target, caster, [.projectileReleased]⟩
  | .blink maxDistance =>
    match needVec3 params "offset" with
    | .error e => .error e
    | .ok offset =>
      if maxDistance.lt offset.length then
        .error (.invalidTarget (offset.text ++ " is " ++ offset.length.textTenths
          ++ " blocks away, limit is " ++ maxDistance.text))
      else .ok ⟨some offset, caster, []⟩
  | .manaSurge => .ok ⟨none, caster.setMana (satAdd caster.mana (larger power 0)), []⟩

/-- Runs the effect and remembers what it came to. A failed effect changes nothing. -/
def effect (level : UInt32) (source : CastSource) (params : Parameters) :
    Hook CatalogSpell EffectResult := fun s caster =>
  let power := s.live.spellPower level
  match resolveEffect s.definition.effect power params caster with
  | .error e => ⟨.refused e, s, caster, []⟩
  | .ok r =>
    ⟨.done, { s with lastOutcome? := some ⟨level, source, power, r.position?⟩ }, r.caster,
      r.notices⟩

/-! ## Admission and the fixed cast -/

def admission (level : UInt32) (source : CastSource) : Hook CatalogSpell Admission :=
  fun s caster =>
    if !s.tuning.enabled then
      ⟨.denied (some (s.definition.name ++ " is disabled")), s, caster, []⟩
    else if source.options.consumeMana ∧ caster.mana < s.manaCost level then
      ⟨.denied (some ("not enough mana to cast " ++ s.definition.name)), s, caster, []⟩
    else ⟨.allowed, s, caster, []⟩

def settle (s : CatalogSpell) (options : CastOptions) (cost : Int32) (caster : Caster) :
    Caster :=
  -- the caster had the cost before the effect, which takes no mana: the difference fits
  let caster :=
    if options.consumeMana ∧ 0 < cost then caster.setMana (larger (caster.mana - cost) 0)
    else caster
  if options.triggerCooldown then
    caster.addCooldown s.definition.id
      (caster.effectiveCooldown s.definition.id s.live.cooldownTicks)
  else caster

def attempt (level : UInt32) (source : CastSource) : Hook CatalogSpell Bool := fun s caster =>
  if !s.tuning.enabled then ⟨false, s, caster, [.spellDisabled]⟩
  else
    match (s.schema.validate .empty).toExcept with
    | .error _ => ⟨false, s, caster, [.parametersNeeded]⟩
    | .ok params =>
      let options := source.options
      let cost := s.manaCost level
      if options.consumeMana ∧ caster.mana < cost then ⟨false, s, caster, []⟩
      else
        let reply := effect level source params s caster
        match reply.answer with
        | .done =>
          ⟨true, reply.spell, reply.spell.settle options cost reply.caster, reply.notices⟩
        | .refused _ | .brokenOff _ =>
          ⟨false, reply.spell, reply.caster, reply.notices ++ [.castFailed]⟩

instance : Castable CatalogSpell where
  id s := s.definition.id
  name s := s.definition.name
  attempt := attempt
  isParameterized s := s.definition.parameterized
  schema s := s.schema
  config s := s.live
  setConfig s config := { s with live := config }
  defaultTicks s := s.base.cooldownTicks
  manaMultiplier s := s.tuning.manaMultiplier
  castTime _ s _ := s.live.castTime
  admission := admission
  precondition _ s caster := ⟨true, s, caster, []⟩
  effect := effect
  complete _ _ s caster := ⟨(), s, caster, []⟩

instance : LawfulCastable CatalogSpell where
  config_setConfig _ _ := rfl

end CatalogSpell

end Spellcraft
