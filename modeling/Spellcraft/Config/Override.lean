import Spellcraft.Config

/-! # Override records

A file may override some fields of a spell's configuration. A record knows which fields it
names, so a field that it sets to zero, or to the value the spell has anyway, still counts.

The layers of a configuration are, from the bottom up, the spell's own fields, the record of
the file, and the parameters of the cast.
-/

namespace Spellcraft

structure OverrideRecord where
  baseManaCost : Option Int32 := none
  manaCostPerLevel : Option Int32 := none
  baseSpellPower : Option Int32 := none
  spellPowerPerLevel : Option Int32 := none
  castTime : Option Int32 := none
  cooldown : Option Binary64 := none
  deriving DecidableEq

namespace OverrideRecord

def empty : OverrideRecord := {}

instance : Inhabited OverrideRecord := ⟨empty⟩

def defines (r : OverrideRecord) : ConfigField → Bool
  | .baseManaCost => r.baseManaCost.isSome
  | .manaCostPerLevel => r.manaCostPerLevel.isSome
  | .baseSpellPower => r.baseSpellPower.isSome
  | .spellPowerPerLevel => r.spellPowerPerLevel.isSome
  | .castTime => r.castTime.isSome
  | .cooldown => r.cooldown.isSome

def present (r : OverrideRecord) : List ConfigField := ConfigField.all.filter r.defines

def applyTo (r : OverrideRecord) (c : SpellConfig) : SpellConfig where
  baseManaCost := r.baseManaCost.getD c.baseManaCost
  manaCostPerLevel := r.manaCostPerLevel.getD c.manaCostPerLevel
  baseSpellPower := r.baseSpellPower.getD c.baseSpellPower
  spellPowerPerLevel := r.spellPowerPerLevel.getD c.spellPowerPerLevel
  castTime := r.castTime.getD c.castTime
  cooldown := r.cooldown.getD c.cooldown

def config (r : OverrideRecord) : SpellConfig := r.applyTo .zero

end OverrideRecord

abbrev OverrideTable := Record OverrideRecord

end Spellcraft
