import Spellcraft.Proofs.Cast.Run

/-! # Casts of hushed spells

A cast notes each phase that it enters, but hooks may note what they like. So the phases are read
off the cast of a hushed spell, whose hooks leave no notices. Apart from its log that cast goes
like the one of the spell itself.

* `phaseChanges` — the phase changes that a log tells of;
* `Hushed` — the spells of a type without the notices of their hooks;
* `CastM.execute_hushed` — an execution enters no phase;
* `Concludes`, `CastM.perform_hushed` — the ways in which a performance ends, each with the phases
  that it has entered by then.
-/

namespace Spellcraft

/-! ## Logs -/

def Notice.change? : Notice → Option (CastPhase × CastPhase)
  | .phaseEntered before after => some (before, after)
  | _ => none

def phaseChanges (log : List Notice) : List (CastPhase × CastPhase) :=
  log.filterMap Notice.change?

def phasePath (log : List Notice) : List CastPhase := .idle :: (phaseChanges log).map Prod.snd

theorem phaseChanges_append (log more : List Notice) :
    phaseChanges (log ++ more) = phaseChanges log ++ phaseChanges more := List.filterMap_append

/-- A loader speaks of tables and configurations only. -/
theorem Loader.phaseChanges_resolve (l : Loader) (spell : String) (params : Parameters)
    (own : SpellConfig) : phaseChanges (l.resolve spell params own).notices = [] := by
  have loads : phaseChanges l.load.notices = [] := by
    unfold Loader.load
    cases l.table? with
    | some table => rfl
    | none =>
      cases l.source l.asked with
      | ok table => rfl
      | error e => cases e <;> rfl
  change phaseChanges (l.load.notices ++ [.configResolved]) = []
  rw [phaseChanges_append, loads]
  rfl

/-! ## Hushed spells -/

/-- A spell whose hooks leave no notices. -/
structure Hushed (S : Type) where
  spell : S

namespace Hushed

variable {S α : Type}

def hush (hook : Hook S α) : Hook (Hushed S) α := fun s caster =>
  let reply := hook s.spell caster
  ⟨reply.answer, ⟨reply.spell⟩, reply.caster, []⟩

variable [Castable S]

instance : Castable (Hushed S) where
  id s := Castable.id s.spell
  name s := Castable.name s.spell
  attempt level source := hush (Castable.attempt level source)
  isParameterized s := Castable.isParameterized s.spell
  schema s := Castable.schema s.spell
  config s := Castable.config s.spell
  setConfig s config := ⟨Castable.setConfig s.spell config⟩
  defaultTicks s := Castable.defaultTicks s.spell
  manaMultiplier s := Castable.manaMultiplier s.spell
  castTime level s caster := Castable.castTime level s.spell caster
  admission level source := hush (Castable.admission level source)
  precondition level := hush (Castable.precondition level)
  effect level source params := hush (Castable.effect level source params)
  complete level source := hush (Castable.complete level source)

end Hushed

def Stage.hushed {S : Type} (stage : Stage S) (log : List Notice) : Stage (Hushed S) :=
  { stage with spell := ⟨stage.spell⟩, notices := log }

theorem Stage.after_hushed {S α : Type} (stage : Stage S) (log : List Notice) (hook : Hook S α) :
    (stage.hushed log).after (Hushed.hush hook ⟨stage.spell⟩ stage.caster) =
      (stage.after (hook stage.spell stage.caster)).hushed log := by
  simp [Stage.after, Stage.hushed, Hushed.hush]

/-- Two runs that end alike, one of them with the spell hushed; the log of that one tells of
    certain phase changes. -/
def Echoes {S α : Type} (changes : List (CastPhase × CastPhase))
    (plain : Except Stop α × Stage S) (hushed : Except Stop α × Stage (Hushed S)) : Prop :=
  ∃ log, hushed = (plain.1, plain.2.hushed log) ∧ phaseChanges log = changes

/-- The ways in which a performance ends, with the spell as it is and hushed, after certain phase
    changes: it succeeds or fails, and enters the phase that says so, or the effect breaks off. -/
inductive Concludes {S : Type} (begun : List (CastPhase × CastPhase))
    (plain : Except Stop (Except CastError Executed) × Stage S)
    (hushed : Except Stop (Except CastError Executed) × Stage (Hushed S)) : Prop where
  | succeeded {done : Executed} (answer : plain.1 = .ok (.ok done))
      (phase : plain.2.phase = .succeeded)
      (echoes : Echoes (begun ++ [(.executing, .succeeded)]) plain hushed) :
      Concludes begun plain hushed
  | failed {error : CastError} (answer : plain.1 = .ok (.error error))
      (late : error.phase = .failed) (phase : plain.2.phase = .failed)
      (echoes : Echoes (begun ++ [(.executing, .failed)]) plain hushed) :
      Concludes begun plain hushed
  | brokenOff {reason : String} (answer : plain.1 = .error (.brokenOff reason))
      (phase : plain.2.phase = .executing) (echoes : Echoes begun plain hushed) :
      Concludes begun plain hushed

namespace CastM

section

variable {S : Type} [Castable S] (spell : String) (level : UInt32) (source : CastSource)
  (params : Parameters) (resolved : SpellConfig) (options : CastOptions) (stage : Stage S)
  (log : List Notice)

theorem admitted_hushed :
    admitted level source (stage.hushed log) = (admitted level source stage).hushed log :=
  stage.after_hushed log _

theorem checked_hushed :
    checked level source (stage.hushed log) = (checked level source stage).hushed log := by
  rw [checked, admitted_hushed]
  exact Stage.after_hushed _ log _

theorem screen_hushed :
    finish (screen level source options) (stage.hushed log) =
      ((finish (screen level source options) stage).1,
        (finish (screen level source options) stage).2.hushed log) := by
  rw [screen, screen, finish_onlyIf, finish_onlyIf, finish_checkAdmission, finish_checkAdmission,
    checked_hushed, admitted_hushed]
  cases !options.bypassConditions with
  | false => rfl
  | true =>
    have same : (Castable.admission level source (stage.hushed log).spell
        (stage.hushed log).caster).answer =
      (Castable.admission level source stage.spell stage.caster).answer := rfl
    rw [same]
    cases (Castable.admission level source stage.spell stage.caster).answer <;> rfl

theorem barredIf_hushed :
    barredIf spell level source options (stage.hushed log) =
      (barredIf spell level source options stage).hushed log := by
  have starts : startsBar level (stage.hushed log) = startsBar level stage := rfl
  rw [barredIf, barredIf, starts]
  split <;> rfl

theorem runEffect_hushed :
    Echoes (phaseChanges log)
      (finish (runEffect .effectFailed spell level source params) stage)
      (finish (runEffect .effectFailed spell level source params) (stage.hushed log)) := by
  have quiet : struck level source params (stage.hushed log) =
      (struck level source params stage).hushed log := stage.after_hushed log _
  have same : (Castable.effect level source params (stage.hushed log).spell
      (stage.hushed log).caster).answer =
    (Castable.effect level source params stage.spell stage.caster).answer := rfl
  rw [finish_runEffect, finish_runEffect, quiet, same]
  cases (Castable.effect level source params stage.spell stage.caster).answer with
  | done => exact ⟨log, rfl, rfl⟩
  | refused error => exact ⟨log ++ [.effectFailed], rfl, by simp [phaseChanges, Notice.change?]⟩
  | brokenOff reason => exact ⟨log, rfl, rfl⟩

theorem chargedIf_hushed :
    chargedIf level resolved options (stage.hushed log) =
      (chargedIf level resolved options stage).hushed log := by
  have price : cost level resolved (stage.hushed log) = cost level resolved stage := rfl
  rw [chargedIf, chargedIf, charged, charged, price]
  split
  · split <;> rfl
  · rfl

theorem settled_hushed :
    settled spell level source params resolved options (stage.hushed log) =
      (settled spell level source params resolved options stage).hushed
        (log ++ [.castCompleted]) := by
  have cools (stage : Stage S) : cooledIf spell resolved options (stage.hushed log) =
      (cooledIf spell resolved options stage).hushed log := by
    rw [cooledIf, cooledIf]
    split <;> rfl
  have replays (stage : Stage S) :
      replayedIf spell level source params options (stage.hushed log) =
        (replayedIf spell level source params options stage).hushed log := by
    rw [replayedIf, replayedIf]
    split <;> rfl
  rw [settled, paid, chargedIf_hushed, cools, replays]
  exact congrArg (Stage.noted · .castCompleted) (Stage.after_hushed _ log _)

theorem executed_hushed :
    executed spell level source params resolved options (stage.hushed log) =
      executed spell level source params resolved options stage := by
  rw [executed, chargedIf_hushed, settled_hushed]
  rfl

theorem executeAs_hushed :
    Echoes (phaseChanges log)
      (finish (executeAs spell level source params resolved options) stage)
      (finish (executeAs spell level source params resolved options) (stage.hushed log)) := by
  rw [executeAs, executeAs, finish_bind, finish_bind, screen_hushed]
  rcases finish (screen level source options) stage with ⟨stop | ⟨⟨⟩⟩, passed⟩
  · exact ⟨log, rfl, rfl⟩
  dsimp only
  rw [finish_bind_ok (finish_barIf ..), finish_bind_ok (finish_barIf ..), barredIf_hushed,
    finish_bind, finish_bind]
  obtain ⟨later, same, quiet⟩ := runEffect_hushed spell level source params
    (barredIf spell level source options passed) log
  rw [same]
  rcases finish (runEffect .effectFailed spell level source params)
    (barredIf spell level source options passed) with ⟨stop | ⟨⟨⟩⟩, struck⟩
  · exact ⟨later, rfl, quiet⟩
  dsimp only
  rw [finish_settle, finish_settle, executed_hushed, settled_hushed]
  refine ⟨later ++ [.castCompleted], rfl, ?_⟩
  rw [phaseChanges_append, quiet]
  exact List.append_nil _

/-- No phase is entered during an execution. -/
theorem execute_hushed :
    Echoes (phaseChanges log) (finish (execute level source params resolved options) stage)
      (finish (execute level source params resolved options) (stage.hushed log)) := by
  rw [finish_execute, finish_execute]
  exact executeAs_hushed ..

/-! ## The phase of the stage -/

theorem phase_screen :
    (finish (screen level source options) stage).2.phase = stage.phase := by
  rw [screen, finish_onlyIf, finish_checkAdmission]
  cases !options.bypassConditions with
  | false => rfl
  | true => cases (Castable.admission level source stage.spell stage.caster).answer <;> rfl

theorem phase_barredIf : (barredIf spell level source options stage).phase = stage.phase := by
  unfold barredIf
  split <;> rfl

theorem phase_runEffect (failure : Notice) :
    (finish (runEffect failure spell level source params) stage).2.phase = stage.phase := by
  rw [finish_runEffect]
  cases (Castable.effect level source params stage.spell stage.caster).answer <;> rfl

theorem phase_settled :
    (settled spell level source params resolved options stage).phase = stage.phase := by
  have charges : (chargedIf level resolved options stage).phase = stage.phase := by
    unfold chargedIf charged
    split
    · dsimp only
      split <;> rfl
    · rfl
  calc (settled spell level source params resolved options stage).phase
      = (chargedIf level resolved options stage).phase := by
        unfold settled paid replayedIf cooledIf
        split <;> split <;> rfl
    _ = stage.phase := charges

theorem phase_execute :
    (finish (execute level source params resolved options) stage).2.phase = stage.phase := by
  have screens := phase_screen level source options stage
  have runs (passed : Stage S) := phase_runEffect (Castable.id stage.spell) level source params
    (barredIf (Castable.id stage.spell) level source options passed) .effectFailed
  have run := execution_execute level source params resolved options stage
  generalize finish (execute level source params resolved options) stage = ending at run ⊢
  cases run with
  | denied denied =>
    rw [denied] at screens
    exact screens
  | @failed stop passed last admitted failed =>
    have struck := runs passed
    rw [admitted] at screens
    rw [failed, phase_barredIf] at struck
    exact struck.trans screens
  | @completed passed last admitted struck_eq =>
    have struck := runs passed
    rw [admitted] at screens
    rw [struck_eq, phase_barredIf] at struck
    exact (phase_settled ..).trans (struck.trans screens)

/-- What an execution fails with says that the cast failed, not that it was rejected. -/
theorem phase_of_execute_failed {error : CastError} {last : Stage S}
    (failed : finish (execute level source params resolved options) stage =
      (.error (.failed error), last)) : error.phase = .failed := by
  have run := execution_execute level source params resolved options stage
  rw [failed] at run
  cases run with
  | denied denied =>
    rw [screen, finish_onlyIf] at denied
    split at denied
    · rcases checkAdmission_cases level source stage with ⟨message, ended⟩ | ended | ⟨-, ended⟩
      all_goals
        rw [ended] at denied
        cases denied
      · rfl
      · rfl
    · cases denied
  | @failed stop passed last admitted failed =>
    rcases runEffect_cases (Castable.id stage.spell) level source params
      (barredIf (Castable.id stage.spell) level source options passed) .effectFailed with
      ⟨-, ended⟩ | ⟨refusal, -, ended⟩ | ⟨reason, -, ended⟩
    all_goals
      rw [ended] at failed
      cases failed
    rfl

/-! ## Whole casts -/

omit [Castable S] in
theorem unbarred_hushed :
    unbarred spell (stage.hushed log) = (unbarred spell stage).hushed log := by
  unfold unbarred
  change (if stage.barStarted then _ else _) = _
  split <;> rfl

omit [Castable S] in
theorem phase_unbarred : (unbarred spell stage).phase = stage.phase := by
  unfold unbarred
  split <;> rfl

/-- A performance enters the phase of execution and then, unless the effect breaks off, the phase
    that tells how the execution ended. -/
theorem perform_hushed :
    Concludes (phaseChanges log ++ [(stage.phase, .executing)])
      (finish (perform spell level source params resolved options) stage)
      (finish (perform spell level source params resolved options) (stage.hushed log)) := by
  obtain ⟨later, same, told⟩ := execute_hushed level source params resolved options
    (stage.entered .executing) (log ++ [.phaseEntered stage.phase .executing])
  have phase := phase_execute level source params resolved options (stage.entered .executing)
  have orderly {error : CastError} {last : Stage S}
      (failed : finish (execute level source params resolved options) (stage.entered .executing) =
        (.error (.failed error), last)) : error.phase = .failed :=
    phase_of_execute_failed level source params resolved options _ failed
  have starts : (stage.hushed log).entered .executing =
      (stage.entered .executing).hushed (log ++ [.phaseEntered stage.phase .executing]) := rfl
  rw [phaseChanges_append] at told
  rw [finish_perform, finish_perform, starts, same]
  generalize finish (execute level source params resolved options) (stage.entered .executing)
    = execution at phase orderly
  obtain ⟨(error | reason) | done, last⟩ := execution
  · have ends : (last.hushed later).entered .failed =
        (last.entered .failed).hushed (later ++ [.phaseEntered last.phase .failed]) := rfl
    refine .failed rfl (orderly rfl) (phase_unbarred ..) ?_
    dsimp only
    rw [ends, unbarred_hushed]
    refine ⟨later ++ [.phaseEntered last.phase .failed] ++ [.castFailed], rfl, ?_⟩
    rw [phaseChanges_append, phaseChanges_append, told, phase]
    exact List.append_nil _
  · exact .brokenOff rfl phase ⟨later, rfl, told⟩
  · refine .succeeded rfl rfl ⟨later ++ [.phaseEntered last.phase .succeeded], rfl, ?_⟩
    rw [phaseChanges_append, told, phase]
    rfl

end

end CastM

end Spellcraft
