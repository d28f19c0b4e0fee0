import Spellcraft.Options

/-! # Casters

A caster has mana, may be in the middle of a cast, and keeps a ledger of cooldowns in ticks.
Cooldown modifiers scale the base cooldown of a spell: one half halves it.
-/

namespace Spellcraft

/-- A cast in progress; its duration is in ticks. -/
structure ActiveCast where
  spell : String
  level : UInt32
  duration : Int32
  source : CastSource
  deriving DecidableEq

structure Caster where
  id : Uuid
  mana : Int32
  casting? : Option ActiveCast := none
  cooldowns : Record Int32 := Record.empty
  modifiers : Record Binary64 := Record.empty
  deriving DecidableEq

namespace Caster

def isCasting (c : Caster) : Bool := c.casting?.isSome

def setMana (c : Caster) (mana : Int32) : Caster := { c with mana }

def begin (c : Caster) (active : ActiveCast) : Caster := { c with casting? := some active }

def reset (c : Caster) : Caster := { c with casting? := none }

def addCooldown (c : Caster) (spell : String) (ticks : Int32) : Caster :=
  { c with cooldowns := c.cooldowns.put spell ticks }

def effectiveCooldown (c : Caster) (spell : String) (ticks : Int32) : Int32 :=
  match c.modifiers.find? spell with
  | some factor => (Binary.ofInt .double ticks.toInt * factor).roundInt32
  | none => ticks

end Caster

end Spellcraft
