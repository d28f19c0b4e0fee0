/-! # Notices

Loading and casting leave notices behind, which a run writes to its log. A notice is what
happened; `Notice.line` is how the log puts it.
-/

namespace Spellcraft

inductive CastPhase where
  | idle
  | validating
  | rejected
  | preparing
  | executing
  | succeeded
  | failed
  | restored
  deriving DecidableEq

namespace CastPhase

def all : List CastPhase :=
  [.idle, .validating, .rejected, .preparing, .executing, .succeeded, .failed, .restored]

def name : CastPhase → String
  | .idle => "idle"
  | .validating => "validating"
  | .rejected => "rejected"
  | .preparing => "preparing"
  | .executing => "executing"
  | .succeeded => "succeeded"
  | .failed => "failed"
  | .restored => "restored"

def ofName? (text : String) : Option CastPhase := all.find? fun phase => phase.name == text

def next : CastPhase → List CastPhase
  | .idle => [.validating]
  | .validating => [.rejected, .preparing]
  | .preparing => [.executing]
  | .executing => [.succeeded, .failed]
  | .succeeded | .failed => [.restored]
  | .rejected | .restored => []

def isTerminal (phase : CastPhase) : Bool :=
  match phase with
  | .rejected | .restored => true
  | _ => false

/-- A cast ends exactly where nothing can come next. -/
theorem isTerminal_iff (phase : CastPhase) : phase.isTerminal = true ↔ phase.next = [] := by
  cases phase <;> simp [isTerminal, next]

end CastPhase

inductive Notice where
  | overridesLoaded
  | overridesMissing
  | overridesIgnored
  | configResolved
  | phaseEntered (before after : CastPhase)
  | textRejected
  | spellUnknown
  | fixedCastUsed
  | parametersRejected
  | effectFailed
  | castFailed
  | castCompleted
  | directParametersRejected
  | directCastFailed
  | projectileReleased
  | spellDisabled
  | parametersNeeded
  deriving DecidableEq

namespace Notice

def line : Notice → String
  | .overridesLoaded => "INFO loaded spell parameter overrides"
  | .overridesMissing => "WARN no spell parameter overrides, using code defaults"
  | .overridesIgnored => "ERROR ignoring spell parameter overrides"
  | .configResolved => "DEBUG resolved spell configuration"
  | .phaseEntered before after => "DEBUG cast phase " ++ before.name ++ " -> " ++ after.name
  | .textRejected => "WARN failed to parse cast parameters"
  | .spellUnknown => "WARN unknown spell"
  | .fixedCastUsed =>
    "WARN spell does not support parameterized casting, using its normal cast"
  | .parametersRejected => "WARN cast parameters rejected"
  | .effectFailed => "ERROR spell effect failed"
  | .castFailed => "WARN cast failed"
  | .castCompleted => "INFO cast complete"
  | .directParametersRejected => "WARN direct cast parameters rejected"
  | .directCastFailed => "ERROR direct cast failed"
  | .projectileReleased => "DEBUG projectile released"
  | .spellDisabled => "WARN spell is disabled"
  | .parametersNeeded => "WARN spell needs parameters to cast"

end Notice

end Spellcraft
