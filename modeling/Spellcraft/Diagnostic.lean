/-! # Diagnostics

Every kind of failure has its own error type, whose values say what went wrong. A `Diagnostic`
instance gives such a value its stable code, its message and its severity.
-/

namespace Spellcraft

/-- How an error is to be handled. -/
inductive Severity where
  /-- The same request may succeed later. -/
  | recoverable
  /-- The input is wrong and has to change. -/
  | validation
  /-- The logic of a spell failed while it ran. -/
  | internal
  /-- A declaration of the program itself is broken. -/
  | fatal
  deriving DecidableEq

namespace Severity

def name : Severity → String
  | .recoverable => "recoverable"
  | .validation => "validation"
  | .internal => "internal"
  | .fatal => "fatal"

def isRecoverable : Severity → Bool
  | .recoverable => true
  | .validation | .internal | .fatal => false

/-- Whether the error points at the program rather than at its input. -/
def isInternal : Severity → Bool
  | .internal | .fatal => true
  | .recoverable | .validation => false

end Severity

/-- Errors with a stable code, a message and a severity. -/
class Diagnostic (ε : Type) where
  code : ε → String
  message : ε → String
  severity : ε → Severity

end Spellcraft
