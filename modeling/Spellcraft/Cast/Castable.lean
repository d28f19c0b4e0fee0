import Spellcraft.Cast.Outcome
import Spellcraft.Caster

/-! # Castable spells

A type of spells is castable when it says what a spell is called, how it is cast with its fixed
configuration, and — for spells that take parameters — what its schema, its live configuration
and its hooks are. A hook may change the spell and the caster and leave notices behind.

The live configuration is shared state of the spell. `Guard` replaces it for a while and then
puts back what was there before, whatever happened in between.
-/

namespace Spellcraft

/-- What a hook leaves behind: its answer, the spell, the caster, and notices. -/
structure HookReply (S α : Type) where
  answer : α
  spell : S
  caster : Caster
  notices : List Notice := []

abbrev Hook (S α : Type) := S → Caster → HookReply S α

/-- Whether a caster may cast a spell; a denial may give a reason. -/
inductive Admission where
  | allowed
  | denied (reason? : Option String)
  deriving DecidableEq

/-- How an effect ends: done, refused with an error, or broken off. -/
inductive EffectResult where
  | done
  | refused (error : EffectError)
  | brokenOff (reason : String)
  deriving DecidableEq

class Castable (S : Type) where
  id : S → String
  name : S → String
  /-- The cast with the fixed configuration; the answer tells whether it took place. -/
  attempt : UInt32 → CastSource → Hook S Bool
  /-- Whether the spell takes parameters; the members below matter only then. -/
  isParameterized : S → Bool
  schema : S → Schema
  config : S → SpellConfig
  setConfig : S → SpellConfig → S
  /-- The cooldown without overrides and modifiers. -/
  defaultTicks : S → Int32
  manaMultiplier : S → Binary64
  /-- The duration of the cast bar. -/
  castTime : UInt32 → S → Caster → Int32
  admission : UInt32 → CastSource → Hook S Admission
  precondition : UInt32 → Hook S Bool
  effect : UInt32 → CastSource → Parameters → Hook S EffectResult
  /-- What follows a successful cast. -/
  complete : UInt32 → CastSource → Hook S Unit

/-- Spells whose live configuration is what was last written to it. -/
class LawfulCastable (S : Type) [Castable S] : Prop where
  config_setConfig (spell : S) (config : SpellConfig) :
    Castable.config (Castable.setConfig spell config) = config

/-- A spell with a temporary configuration, and the configuration to put back. -/
structure Guard (S : Type) where
  spell : S
  previous : SpellConfig

namespace Guard

variable {S : Type} [Castable S]

def apply (spell : S) (config : SpellConfig) : Guard S :=
  ⟨Castable.setConfig spell config, Castable.config spell⟩

def restore (guard : Guard S) : S := Castable.setConfig guard.spell guard.previous

end Guard

end Spellcraft
