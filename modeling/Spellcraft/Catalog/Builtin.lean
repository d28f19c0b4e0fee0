import Spellcraft.Catalog.Definition
import Spellcraft.Config.Loader

/-! # Built-in content

The catalog and the override table that a run uses where it is not given files of its own.
-/

namespace Spellcraft

def tenths (digits : Nat) : Binary64 := Binary.ofRatio .double false digits 10

def fireball : SpellDefinition where
  id := "fireball"
  name := "Fireball"
  defaults := {
    baseManaCost := 20
    manaCostPerLevel := 5
    baseSpellPower := 12
    spellPowerPerLevel := 4
    castTime := 20
    cooldown := tenths 40 }
  fields := [
    { name := "target"
      kind := .vec3
      required := true
      description := "Impact point"
      aliases := ["at"] },
    { name := "speed"
      kind := .double
      default? := some (.double (tenths 15))
      description := "Projectile speed in blocks per tick" },
    { name := "owner"
      kind := .uuid
      description := "Entity credited with the hit" }]
  effect := .projectile

def blink : SpellDefinition where
  id := "blink"
  name := "Blink"
  defaults := { baseManaCost := 30, cooldown := tenths 100 }
  fields := [
    { name := "offset"
      kind := .vec3
      required := true
      description := "Displacement from the caster"
      aliases := ["to"] },
    { name := "trail"
      kind := .string
      default? := some (.string "sparkle")
      description := "Particle trail left behind" }]
  effect := .blink (tenths 320)

def manaSurge : SpellDefinition where
  id := "mana_surge"
  name := "Mana Surge"
  parameterized := false
  defaults := { baseSpellPower := 15, spellPowerPerLevel := 5, cooldown := tenths 300 }
  effect := .manaSurge

def builtinCatalog : List SpellDefinition := [fireball, blink, manaSurge]

def builtinTable : OverrideTable :=
  Record.ofList [
    ("fireball", { baseManaCost := some 25, cooldown := some (tenths 35) }),
    ("blink", { castTime := some 10 })]

namespace TableSource

def builtin : TableSource := .constant (.ok builtinTable)

def empty : TableSource := .constant (.ok Record.empty)

end TableSource

end Spellcraft
