import Spellcraft.Catalog.Definition
import Spellcraft.Content
import Spellcraft.Toml.Document

/-! # Server tuning in files

A server configuration is a TOML document whose table `spells` tunes spells by id. What a tuning
leaves out stays neutral, and names that are not known do not count.

A tuning may also be written as the array of its values.
-/

namespace Spellcraft

namespace SpellTuning

def readOr {α : Type} (read : Toml → Option α) (default : α) : Option Toml → Option α
  | some value => read value
  | none => some default

/-- The tuning of a multiplier for mana, one for cooldowns, and a switch, each of which may be
    missing. -/
def ofValues? (mana? cooldown? enabled? : Option Toml) : Option SpellTuning := do
  let neutral : SpellTuning := {}
  return {
    manaMultiplier := ← readOr Toml.toDouble? neutral.manaMultiplier mana?
    cooldownMultiplier := ← readOr Toml.toDouble? neutral.cooldownMultiplier cooldown?
    enabled := ← readOr Toml.toBool? neutral.enabled enabled? }

def ofToml? (value : Toml) : Option SpellTuning :=
  match value.toTable? with
  | some entries =>
    ofValues? (Entries.find? entries "mana_multiplier")
      (Entries.find? entries "cooldown_multiplier") (Entries.find? entries "enabled")
  | none => value.toItems?.bind fun items => ofValues? items[0]? items[1]? items[2]?

end SpellTuning

namespace ServerConfig

def ofEntries? (entries : TomlEntries) : Option ServerConfig := do
  let spells ← entries.mapM fun e => (SpellTuning.ofToml? e.2).map (e.1, ·)
  return ⟨Record.ofList spells⟩

def ofToml? (root : Toml) : Option ServerConfig := do
  match Entries.find? (← root.toTable?) "spells" with
  | some spells => ofEntries? (← spells.toTable?)
  | none => return {}

def parse (text : String) : Except ContentError ServerConfig :=
  match (Toml.parse? text).bind ofToml? with
  | some server => .ok server
  | none => .error .malformedServer

def ofFile (files : Files) (path : String) : Except ContentError ServerConfig :=
  files.parse path parse

end ServerConfig

end Spellcraft
