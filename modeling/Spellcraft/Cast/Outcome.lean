import Spellcraft.Config
import Spellcraft.Notice
import Spellcraft.Options
import Spellcraft.Schema.Validation

/-! # Outcomes of a cast

A cast ends with a report or with an error that says why it did not succeed. Errors before the
effect's preparation reject the cast, all later ones make it fail.
-/

namespace Spellcraft

inductive EffectError where
  | missingParameter (name : String)
  | invalidTarget (reason : String)
  | failed (reason : String)
  deriving DecidableEq

instance : Diagnostic EffectError where
  code
    | .missingParameter _ => "EFFECT_MISSING_PARAMETER"
    | .invalidTarget _ => "EFFECT_INVALID_TARGET"
    | .failed _ => "EFFECT_FAILED"
  message
    | .missingParameter name => "missing parameter '" ++ name ++ "'"
    | .invalidTarget reason => "invalid target: " ++ reason
    | .failed reason => reason
  severity _ := .internal

inductive CastError where
  | decode (error : DecodeError)
  | validation (errors : ValidationErrors)
  | unknownSpell (spell : String)
  | notParameterized (spell : String)
  | fallbackDeclined (spell : String)
  | notCastable (spell message : String)
  | preconditionFailed (spell : String)
  | execution (spell : String) (error : EffectError)
  deriving DecidableEq

instance : Diagnostic CastError where
  code
    | .decode e => Diagnostic.code e
    | .validation e => Diagnostic.code e
    | .unknownSpell _ => "CAST_UNKNOWN_SPELL"
    | .notParameterized _ => "CAST_NOT_PARAMETERIZED"
    | .fallbackDeclined _ => "CAST_FALLBACK_DECLINED"
    | .notCastable .. => "CAST_NOT_CASTABLE"
    | .preconditionFailed _ => "CAST_PRECONDITION_FAILED"
    | .execution .. => "CAST_EXECUTION_FAILED"
  message
    | .decode e => "failed to parse parameters: " ++ Diagnostic.message e
    | .validation e => Diagnostic.message e
    | .unknownSpell spell => "unknown spell: " ++ spell
    | .notParameterized spell =>
      "spell '" ++ spell ++ "' does not support parameterized casting"
    | .fallbackDeclined spell => "spell '" ++ spell ++ "' could not be cast"
    | .notCastable _ message => message
    | .preconditionFailed spell => "pre-cast conditions not met for '" ++ spell ++ "'"
    | .execution spell e =>
      "error while casting '" ++ spell ++ "': " ++ Diagnostic.message e
  severity
    | .decode e => Diagnostic.severity e
    | .validation e => Diagnostic.severity e
    | .unknownSpell _ | .notParameterized _ => .validation
    | .fallbackDeclined _ | .notCastable .. | .preconditionFailed _ => .recoverable
    | .execution _ e => Diagnostic.severity e

namespace CastError

/-- The phase in which a cast with this error ended, before anything was restored. -/
def phase : CastError → CastPhase
  | .decode _ | .validation _ | .unknownSpell _ | .notParameterized _ => .rejected
  | .fallbackDeclined _ | .notCastable .. | .preconditionFailed _ | .execution .. => .failed

end CastError

/-- What a successful cast did. The configuration is the one that it ran with, or zeros for a
    spell that was cast with its fixed configuration. -/
structure CastReport where
  spell : String
  level : UInt32
  config : SpellConfig
  options : CastOptions
  manaCost? : Option Int32
  cooldownTicks? : Option Int32
  castBarStarted : Bool
  fallback : Bool
  message : String
  deriving DecidableEq

end Spellcraft
