import Spellcraft.Parameters

/-! # Spell configuration

The numbers of a spell are six fields, each known by the key under which files and parameters
name it. From them follow the cooldown in ticks, the power and the mana cost at a level.

Levels count from one: level zero is treated as level one. Power is computed in clamped
integers, mana in doubles.
-/

namespace Spellcraft

inductive ConfigField where
  | baseManaCost
  | manaCostPerLevel
  | baseSpellPower
  | spellPowerPerLevel
  | castTime
  | cooldown
  deriving DecidableEq

namespace ConfigField

def all : List ConfigField :=
  [.baseManaCost, .manaCostPerLevel, .baseSpellPower, .spellPowerPerLevel, .castTime, .cooldown]

def key : ConfigField → String
  | .baseManaCost => "baseManaCost"
  | .manaCostPerLevel => "manaCostPerLevel"
  | .baseSpellPower => "baseSpellPower"
  | .spellPowerPerLevel => "spellPowerPerLevel"
  | .castTime => "castTime"
  | .cooldown => "cooldown"

def ofKey? (key : String) : Option ConfigField := all.find? fun field => field.key == key

def kind : ConfigField → Kind
  | .cooldown => .double
  | _ => .int

def alias? : ConfigField → Option String
  | .baseManaCost => some "manaCost"
  | .baseSpellPower => some "power"
  | .spellPowerPerLevel => some "levelScaling"
  | _ => none

def description : ConfigField → String
  | .baseManaCost => "Base mana cost"
  | .manaCostPerLevel => "Additional mana cost per level above 1"
  | .baseSpellPower => "Base spell power"
  | .spellPowerPerLevel => "Additional spell power per level above 1"
  | .castTime => "Cast time in ticks"
  | .cooldown => "Cooldown in seconds"

def bit : ConfigField → Nat
  | .baseManaCost => 1
  | .manaCostPerLevel => 2
  | .baseSpellPower => 4
  | .spellPowerPerLevel => 8
  | .castTime => 16
  | .cooldown => 32

end ConfigField

/-- The numbers of a spell; the cast time is in ticks and the cooldown in seconds. -/
structure SpellConfig where
  baseManaCost : Int32 := 0
  manaCostPerLevel : Int32 := 0
  baseSpellPower : Int32 := 0
  spellPowerPerLevel : Int32 := 0
  castTime : Int32 := 0
  cooldown : Binary64 := Binary.zero .double
  deriving DecidableEq

def ticksPerSecond : Nat := 20

namespace SpellConfig

def zero : SpellConfig := {}

instance : Inhabited SpellConfig := ⟨zero⟩

def value (c : SpellConfig) : ConfigField → Value
  | .baseManaCost => .int c.baseManaCost
  | .manaCostPerLevel => .int c.manaCostPerLevel
  | .baseSpellPower => .int c.baseSpellPower
  | .spellPowerPerLevel => .int c.spellPowerPerLevel
  | .castTime => .int c.castTime
  | .cooldown => .double c.cooldown

/-- Replaces the fields that the parameters give as numbers under the field's own key. -/
def withOverrides (c : SpellConfig) (params : Parameters) : SpellConfig where
  baseManaCost := params.getInt ConfigField.baseManaCost.key c.baseManaCost
  manaCostPerLevel := params.getInt ConfigField.manaCostPerLevel.key c.manaCostPerLevel
  baseSpellPower := params.getInt ConfigField.baseSpellPower.key c.baseSpellPower
  spellPowerPerLevel := params.getInt ConfigField.spellPowerPerLevel.key c.spellPowerPerLevel
  castTime := params.getInt ConfigField.castTime.key c.castTime
  cooldown := params.getDouble ConfigField.cooldown.key c.cooldown

/-! ## What follows from the fields -/

def cooldownTicks (c : SpellConfig) : Int32 :=
  (c.cooldown * Binary.ofInt .double ticksPerSecond).roundInt32

def levelSteps (level : UInt32) : Nat := level.toNat - 1

def spellPower (c : SpellConfig) (level : UInt32) : Int32 :=
  satAdd c.baseSpellPower (satMul c.spellPowerPerLevel (clamp32 (levelSteps level)))

def manaCost (c : SpellConfig) (level : UInt32) (multiplier : Binary64) : Int32 :=
  ((Binary.ofInt .double c.baseManaCost.toInt
    + Binary.ofInt .double c.manaCostPerLevel.toInt * Binary.ofInt .double (levelSteps level))
    * multiplier).toInt32

end SpellConfig

/-- The cooldown to record. A resolved cooldown that is not positive leaves the caster's own
    cooldown as it is; otherwise it is scaled like the caster's modifiers scale the default,
    down to one tick, or kept where such a ratio has no meaning. -/
def resolveCooldown (resolved default live : Int32) : Int32 :=
  if resolved ≤ 0 then live
  else if 0 < default ∧ 0 < live then
    larger (Binary.ofInt .double resolved.toInt / Binary.ofInt .double default.toInt
      * Binary.ofInt .double live.toInt).roundInt32 1
  else resolved

end Spellcraft
