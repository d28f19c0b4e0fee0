import Spellcraft.Proofs.Cast.Run

/-! # Failed casts leave nothing behind

A cast asks its spell before it acts: two checks and the effect, all of which can end it. As
long as these hooks do nothing when they say no, the cast as a whole does nothing either. What
it did by then it undoes itself: the installed configuration, and a cast bar of its own.

* `TransactionalCastable` — spells whose hooks do nothing when they say no;
* `CastM.Untouched` — stages that differ at most in their phase, notices and loader;
* `CastM.execute_error` — a failed execution changes at most the cast bar;
* `CastM.castSpell_error` — a failed cast changes neither the spell nor the caster.
-/

namespace Spellcraft

def HookReply.Keeps {S α : Type} (reply : HookReply S α) (spell : S) (caster : Caster) : Prop :=
  reply.spell = spell ∧ reply.caster = caster

/-- Spells that do nothing as long as they say no: the checks never change anything, an effect or
    a cast of the spell's own only if it takes place, and no effect breaks off. What the guard
    replaces of a spell is all that it has to put back, and it does not replace the id. -/
class TransactionalCastable (S : Type) [Castable S] : Prop extends LawfulCastable S where
  setConfig_restores (spell : S) (config : SpellConfig) :
    Castable.setConfig (Castable.setConfig spell config) (Castable.config spell) = spell
  id_setConfig (spell : S) (config : SpellConfig) :
    Castable.id (Castable.setConfig spell config) = Castable.id spell
  admission_keeps (level : UInt32) (source : CastSource) (spell : S) (caster : Caster) :
    (Castable.admission level source spell caster).Keeps spell caster
  precondition_keeps (level : UInt32) (spell : S) (caster : Caster) :
    (Castable.precondition level spell caster).Keeps spell caster
  effect_keeps (level : UInt32) (source : CastSource) (params : Parameters) (spell : S)
    (caster : Caster) :
    (Castable.effect level source params spell caster).answer ≠ .done →
      (Castable.effect level source params spell caster).Keeps spell caster
  effect_orderly (level : UInt32) (source : CastSource) (params : Parameters) (spell : S)
    (caster : Caster) (reason : String) :
    (Castable.effect level source params spell caster).answer ≠ .brokenOff reason
  attempt_keeps (level : UInt32) (source : CastSource) (spell : S) (caster : Caster) :
    (Castable.attempt level source spell caster).answer = false →
      (Castable.attempt level source spell caster).Keeps spell caster

namespace CastM

variable {S α : Type}

structure Untouched (first last : Stage S) : Prop where
  spell : last.spell = first.spell
  caster : last.caster = first.caster
  barStarted : last.barStarted = first.barStarted
  told : last.told = first.told

namespace Untouched

variable {first second third : Stage S}

theorem refl (stage : Stage S) : Untouched stage stage := ⟨rfl, rfl, rfl, rfl⟩

theorem trans (one : Untouched first second) (other : Untouched second third) :
    Untouched first third where
  spell := other.spell.trans one.spell
  caster := other.caster.trans one.caster
  barStarted := other.barStarted.trans one.barStarted
  told := other.told.trans one.told

theorem noted (same : Untouched first second) (notice : Notice) :
    Untouched first (second.noted notice) :=
  ⟨same.spell, same.caster, same.barStarted, same.told⟩

theorem entered (same : Untouched first second) (phase : CastPhase) :
    Untouched first (second.entered phase) :=
  ⟨same.spell, same.caster, same.barStarted, same.told⟩

theorem after {reply : HookReply S α} (keeps : reply.Keeps first.spell first.caster) :
    Untouched first (first.after reply) := ⟨keeps.1, keeps.2, rfl, rfl⟩

end Untouched

variable [Castable S] (spell : String) (level : UInt32) (source : CastSource)
  (params : Parameters) (stage : Stage S)

theorem Untouched.withBar {first second : Stage S} (same : Untouched first second) :
    Untouched (first.withBar spell level source) (second.withBar spell level source) where
  spell := same.spell
  caster := by simp only [Stage.withBar, Stage.duration, same.spell, same.caster]
  barStarted := rfl
  told := by simp only [Stage.withBar, Stage.duration, same.spell, same.caster, same.told]

/-- Nothing but a bar is shown before the effect, and a bar only to a caster who is free. -/
theorem Untouched.barredIf {last : Stage S} (options : CastOptions)
    (same : Untouched stage last) :
    Untouched stage (barredIf spell level source options last) ∨
      (stage.caster.casting? = none ∧
        Untouched (stage.withBar spell level source)
          (CastM.barredIf spell level source options last)) := by
  unfold CastM.barredIf
  split
  · next shown =>
    right
    have free : last.caster.isCasting = false := by
      simp only [startsBar, Bool.and_eq_true, Bool.not_eq_true'] at shown
      exact shown.2.2
    rw [same.caster, Caster.isCasting, Option.isSome_eq_false_iff, Option.isNone_iff_eq_none]
      at free
    exact ⟨free, same.withBar spell level source⟩
  · exact .inl same

/-- What a failed cast leaves: the spell and the caster as they were, and nothing told, except
    that a bar which it started, for a caster who had none, was interrupted. -/
structure Undone (first last : Stage S) : Prop where
  spell : last.spell = first.spell
  caster : last.caster = first.caster
  told : last.told = first.told ∨
    (first.caster.casting? = none ∧ ∃ spell duration, last.told = first.told ++
      [⟨.tracking, .started first.caster.id spell level duration⟩,
        ⟨.tracking, .finished first.caster.id spell true⟩])

/-- Taking the bar back undoes a failed execution, for a bar of its own and no other. -/
theorem undone_unbarred {last : Stage S} (unbegun : stage.barStarted = false)
    (left : Untouched stage last ∨
      (stage.caster.casting? = none ∧ Untouched (stage.withBar spell level source) last)) :
    Undone level stage (unbarred spell last) := by
  rcases left with same | ⟨free, shown⟩
  · have none : last.barStarted = false := same.barStarted.trans unbegun
    rw [unbarred, if_neg (by simp [none])]
    exact ⟨same.spell, same.caster, .inl same.told⟩
  · have own : last.barStarted = true := shown.barStarted
    rw [unbarred, if_pos own]
    refine ⟨shown.spell, ?_, .inr ⟨free, spell, stage.duration level, ?_⟩⟩
    · calc last.caster.reset
          = { stage.caster with casting? := none } := by rw [shown.caster]; rfl
        _ = stage.caster := by rw [← free]
    · calc last.told ++ [⟨.tracking, .finished last.caster.id spell true⟩]
          = (stage.withBar spell level source).told ++
              [⟨.tracking, .finished stage.caster.id spell true⟩] := by
            rw [shown.told, shown.caster]
            rfl
        _ = _ := List.append_assoc ..

variable [TransactionalCastable S]

open TransactionalCastable

theorem untouched_checkAdmission :
    Untouched stage (finish (checkAdmission level source) stage).2 := by
  have first : Untouched stage (admitted level source stage) := .after (admission_keeps ..)
  have second : Untouched stage (checked level source stage) :=
    first.trans (.after (precondition_keeps ..))
  rcases checkAdmission_cases level source stage with ⟨message, denied⟩ | unmet | ⟨-, passed⟩
  · rw [denied]
    exact first
  · rw [unmet]
    exact second
  · rw [passed]
    exact second

theorem untouched_runEffect {failure : Notice} {stop : Stop} {last : Stage S}
    (failed : finish (runEffect failure spell level source params) stage = (.error stop, last)) :
    (∃ error, stop = .failed error) ∧ Untouched stage last := by
  rcases runEffect_cases spell level source params stage failure with
    ⟨-, ended⟩ | ⟨error, refused, ended⟩ | ⟨reason, brokenOff, ended⟩
  · rw [ended] at failed
    cases failed
  · rw [ended] at failed
    cases failed
    have undone :
        (Castable.effect level source params stage.spell stage.caster).answer ≠ .done := by
      rw [refused]
      exact EffectResult.noConfusion
    exact ⟨⟨_, rfl⟩, (Untouched.after (effect_keeps _ _ _ _ _ undone)).noted failure⟩
  · exact (effect_orderly _ _ _ _ _ _ brokenOff).elim

/-- A failed execution changes at most the cast bar of a caster who had none. -/
theorem execute_error {resolved : SpellConfig} {options : CastOptions} {stop : Stop}
    {last : Stage S}
    (failed : finish (execute level source params resolved options) stage = (.error stop, last)) :
    (∃ error, stop = .failed error) ∧
      (Untouched stage last ∨
        (stage.caster.casting? = none ∧
          Untouched (stage.withBar (Castable.id stage.spell) level source) last)) := by
  have admits : Untouched stage (finish (screen level source options) stage).2 := by
    rw [screen, finish_onlyIf]
    split
    · exact untouched_checkAdmission level source stage
    · exact .refl stage
  have run := execution_execute level source params resolved options stage
  rw [failed] at run
  -- an execution that came to its end did not fail, so two ways are left
  cases run with
  | denied denied =>
    rw [denied] at admits
    refine ⟨?_, .inl admits⟩
    rw [screen, finish_onlyIf] at denied
    split at denied
    · exact checkAdmission_error level source stage denied
    · cases denied
  | failed admitted struck =>
    rw [admitted] at admits
    obtain ⟨orderly, kept⟩ := untouched_runEffect _ level source params _ struck
    exact ⟨orderly, (admits.barredIf _ level source stage options).imp (·.trans kept)
      fun ⟨free, shown⟩ => ⟨free, shown.trans kept⟩⟩

/-! ## Whole casts -/

theorem perform_error {resolved : SpellConfig} {options : CastOptions}
    (own : spell = Castable.id stage.spell) (unbegun : stage.barStarted = false) :
    (∃ done last, finish (perform spell level source params resolved options) stage =
      (.ok (.ok done), last)) ∨
    (∃ error last, finish (perform spell level source params resolved options) stage =
      (.ok (.error error), last) ∧ Undone level stage last) := by
  subst own
  rw [finish_perform]
  generalize ended : finish (execute level source params resolved options)
    (stage.entered .executing) = execution
  obtain ⟨stop | done, last⟩ := execution
  · obtain ⟨⟨error, orderly⟩, left⟩ := execute_error level source params _ ended
    subst orderly
    have undone : Undone level (stage.entered .executing)
        (unbarred (Castable.id stage.spell) (last.entered .failed)) :=
      undone_unbarred _ level source _ unbegun
        (left.imp (·.entered .failed) fun ⟨free, shown⟩ => ⟨free, shown.entered .failed⟩)
    exact .inr ⟨error, _, rfl, undone.spell, undone.caster, undone.told⟩
  · exact .inl ⟨done, _, rfl⟩

theorem castParameterized_error {stop : Stop} {last : Stage S}
    (unbegun : stage.barStarted = false)
    (failed : finish (castParameterized level source params) stage = (.error stop, last)) :
    Undone level stage last := by
  cases validated : ((Castable.schema stage.spell).validate params).toExcept with
  | error errors =>
    rw [finish_castParameterized_of_error level source params stage validated] at failed
    cases failed
    exact ⟨rfl, rfl, .inl rfl⟩
  | ok normalized =>
    have left := left_castParameterized_of_ok level source params stage validated
    have ended := finish_castParameterized_of_ok level source params stage validated
    rw [failed] at left ended
    rcases perform_error (Castable.id stage.spell) level source normalized
        ((prepared params stage normalized).configured (resolution params stage normalized).value)
        (id_setConfig stage.spell _).symm unbegun with
      ⟨done, performed, success⟩ | ⟨error, performed, failure, undone⟩
    · rw [performance, success] at ended
      cases ended
    · rw [performance, failure] at left
      obtain ⟨spell, caster, -, told⟩ := left
      -- the performance was undone with the new configuration in place
      refine ⟨?_, caster.trans undone.caster, ?_⟩
      · calc last.spell
            = Castable.setConfig performed.spell (Castable.config stage.spell) := spell
          _ = Castable.setConfig (Castable.setConfig stage.spell _)
                (Castable.config stage.spell) := by
            rw [undone.spell]
            rfl
          _ = stage.spell := setConfig_restores ..
      · rw [told]
        exact undone.told

theorem castFixed_error {stop : Stop} {last : Stage S}
    (failed : finish (castFixed level source) stage = (.error stop, last)) :
    Undone level stage last := by
  rcases castFixed_cases level source stage with ⟨-, report, ended⟩ | ⟨declined, ended⟩
  · rw [ended] at failed
    cases failed
  · rw [ended] at failed
    cases failed
    have kept := attempt_keeps level source stage.spell stage.caster declined
    exact ⟨kept.1, kept.2, .inl rfl⟩

/-- A cast that does not succeed is undone, with its cast bar if it started one. -/
theorem castSpell_error {stop : Stop} {last : Stage S} (unbegun : stage.barStarted = false)
    (failed : finish (castSpell level source params) stage = (.error stop, last)) :
    Undone level stage last := by
  rw [finish_castSpell] at failed
  split at failed
  · exact castParameterized_error level source params stage unbegun failed
  · exact castFixed_error level source stage failed

end CastM

end Spellcraft
