import Spellcraft.Caster

/-! # Cast events

A cast tells its surroundings what happens. Each event is meant either for the caster alone or
for everyone who follows the caster.
-/

namespace Spellcraft

/-- Whom an event is meant for. -/
inductive Audience where
  | caster
  | tracking
  deriving DecidableEq

namespace Audience

def name : Audience → String
  | .caster => "caster"
  | .tracking => "tracking"

end Audience

inductive CastEvent where
  | started (caster : Uuid) (spell : String) (level : UInt32) (duration : Int32)
  | finished (caster : Uuid) (spell : String) (interrupted : Bool)
  | manaChanged (caster : Uuid) (mana : Int32)
  /-- The effects of a cast, with its parameters in stored form. -/
  | effectReplay (spell : String) (level : UInt32) (source : CastSource) (data : Compound)

namespace CastEvent

def name : CastEvent → String
  | .started .. => "cast_started"
  | .finished .. => "cast_finished"
  | .manaChanged .. => "mana_changed"
  | .effectReplay .. => "effect_replay"

end CastEvent

structure Notification where
  audience : Audience
  event : CastEvent

end Spellcraft
