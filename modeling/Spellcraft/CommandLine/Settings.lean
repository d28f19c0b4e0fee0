import Spellcraft.Number.Clamp
import Spellcraft.Number.Decimal
import Spellcraft.Text.Blank

/-! # Settings

The environment of a run says which files to use instead of the built-in content, how much mana
the caster has, and where to log. A variable that is empty counts as unset.
-/

namespace Spellcraft

abbrev Environment := String → Option String

structure Settings where
  parametersPath? : Option String := none
  catalogPath? : Option String := none
  serverPath? : Option String := none
  casterMana : Int32 := 100
  logFolder? : Option String := none
  sessionId? : Option String := none
  deriving DecidableEq

/-- The integer that a text writes: digits after at most one sign. -/
def integerOfText? (cs : List Char) : Option Int :=
  let natural? (digits : List Char) : Option Int :=
    if !digits.isEmpty && digits.all isDigit then some (digitsValue 10 digits) else none
  match cs with
  | '+' :: digits => natural? digits
  | '-' :: digits => (natural? digits).map (- ·)
  | digits => natural? digits

def int32OfText? (cs : List Char) : Option Int32 :=
  match integerOfText? cs with
  | some i => if -2147483648 ≤ i ∧ i ≤ 2147483647 then some (Int32.ofInt i) else none
  | none => none

namespace Settings

/-- The mana that a variable gives: an integer between blanks, and never less than zero. -/
def manaOfText? (text : String) : Option Int32 :=
  (int32OfText? (trimBlanks text.toList)).map fun mana => larger mana 0

/-- The settings of an environment. A mana that cannot be read leaves the default. -/
def ofEnvironment (environment : Environment) : Settings :=
  let given (name : String) : Option String := (environment name).filter (!·.isEmpty)
  let settings : Settings := {
    parametersPath? := given "SPELL_PARAMETERS_PATH"
    catalogPath? := given "SPELL_CATALOG_PATH"
    serverPath? := given "SPELL_SERVER_CONFIG"
    logFolder? := given "SPELL_LOG_DIR"
    sessionId? := given "SPELL_SESSION_ID" }
  match (environment "SPELL_CASTER_MANA").bind manaOfText? with
  | some casterMana => { settings with casterMana }
  | none => settings

end Settings

end Spellcraft
