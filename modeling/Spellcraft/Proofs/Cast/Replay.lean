import Spellcraft.Proofs.Cast.Observation

/-! # Replays

A cast that plays effects tells its caster to replay them, with the parameters in stored form.
It does so at most once, after its effect was done, and with the parameters that the effect ran
with.

* `replays` — the stored parameters among some notifications;
* `CastM.replays_execute`, `CastM.replays_castParameterized`, `CastM.replays_castSpell` — what a
  cast adds to them.
-/

namespace Spellcraft

def CastEvent.replay? : CastEvent → Option Compound
  | .effectReplay _ _ _ data => some data
  | _ => none

def replays (told : List Notification) : List Compound :=
  told.filterMap fun notification => notification.event.replay?

theorem replays_append (told more : List Notification) :
    replays (told ++ more) = replays told ++ replays more := List.filterMap_append

namespace CastM

section

variable {S : Type} [Castable S] (spell : String) (level : UInt32) (source : CastSource)
  (params : Parameters) (resolved : SpellConfig) (options : CastOptions) (stage : Stage S)

theorem told_checkAdmission :
    (finish (checkAdmission level source) stage).2.told = stage.told := by
  rcases checkAdmission_cases level source stage with ⟨message, denied⟩ | unmet | ⟨-, passed⟩
  · rw [denied]
    rfl
  · rw [unmet]
    rfl
  · rw [passed]
    rfl

theorem replays_barredIf :
    replays (barredIf spell level source options stage).told = replays stage.told := by
  unfold barredIf
  split
  · exact (replays_append ..).trans (List.append_nil _)
  · rfl

theorem told_runEffect (failure : Notice) :
    (finish (runEffect failure spell level source params) stage).2.told = stage.told := by
  rcases runEffect_cases spell level source params stage failure with
    ⟨-, done⟩ | ⟨error, -, refused⟩ | ⟨reason, -, brokenOff⟩
  · rw [done]
    rfl
  · rw [refused]
    rfl
  · rw [brokenOff]
    rfl

omit [Castable S] in
theorem replays_unbarred : replays (unbarred spell stage).told = replays stage.told := by
  unfold unbarred
  split
  · exact (replays_append ..).trans (List.append_nil _)
  · rfl

/-- What follows an effect replays its parameters, if effects are played. -/
theorem replays_settled :
    replays (settled spell level source params resolved options stage).told =
      replays stage.told ++ (if options.playEffects then [params.toCompound] else []) := by
  have charges (stage : Stage S) :
      replays (chargedIf level resolved options stage).told = replays stage.told := by
    unfold chargedIf charged
    dsimp only
    split
    · split
      · exact (replays_append ..).trans (List.append_nil _)
      · rfl
    · rfl
  have cools (stage : Stage S) : (cooledIf spell resolved options stage).told = stage.told := by
    unfold cooledIf cooled
    split <;> rfl
  have plays (stage : Stage S) :
      replays (replayedIf spell level source params options stage).told =
        replays stage.told ++ (if options.playEffects then [params.toCompound] else []) := by
    unfold replayedIf replayed
    split
    · exact replays_append ..
    · exact (List.append_nil _).symm
  calc replays (settled spell level source params resolved options stage).told
      = replays (paid spell level source params resolved options stage).told := rfl
    _ = _ := by rw [paid, plays, cools, charges]

end

section Observed

variable {S : Type} [Castable S] (spell : String) (level : UInt32) (source : CastSource)
  (params : Parameters) (stage : Stage (Observed S))

/-- The replays and the diary that some parameters leave: nothing is replayed, or these are, after
    the effect ran with them. -/
def ReplayedAfter (last : Stage (Observed S)) : Prop :=
  replays last.told = replays stage.told ∨
    (replays last.told = replays stage.told ++ [params.toCompound] ∧
      ∃ config, .ran config params ∈ last.spell.diary)

theorem replays_execute (resolved : SpellConfig) (options : CastOptions) :
    ReplayedAfter params stage
      (finish (execute level source params resolved options) stage).2 := by
  have quiet : (finish (screen level source options) stage).2.told = stage.told := by
    rw [screen, finish_onlyIf]
    split
    · exact told_checkAdmission level source stage
    · rfl
  have before (passed : Stage (Observed S)) (quiet : passed.told = stage.told) :
      replays (finish (runEffect .effectFailed (Castable.id stage.spell) level source params)
        (barredIf (Castable.id stage.spell) level source options passed)).2.told =
      replays stage.told := by
    rw [told_runEffect, replays_barredIf, quiet]
  have run := execution_execute level source params resolved options stage
  generalize finish (execute level source params resolved options) stage = ending at run ⊢
  cases run with
  | denied denied =>
    rw [denied] at quiet
    exact .inl (congrArg replays quiet)
  | @failed stop passed last admitted failed =>
    rw [admitted] at quiet
    have told := before passed quiet
    rw [failed] at told
    exact .inl told
  | @completed passed struck admitted struck_eq =>
    rw [admitted] at quiet
    have told := before passed quiet
    have noted := observed_runEffect (Castable.id stage.spell) level source params
      (barredIf (Castable.id stage.spell) level source options passed) .effectFailed
    -- the replay is told after the effect has noted what it ran with
    rw [struck_eq] at told noted
    have diary := observed_settled (Castable.id stage.spell) level source params struck resolved
      options
    have replay := replays_settled (Castable.id stage.spell) level source params resolved options
      struck
    rw [told] at replay
    cases played : options.playEffects with
    | false =>
      rw [played] at replay
      exact .inl (replay.trans (List.append_nil _))
    | true =>
      rw [played] at replay
      have ran : ∃ config, .ran config params ∈ struck.spell.diary := by
        rw [noted]
        exact ⟨_, List.mem_append_right _ (List.mem_singleton_self _)⟩
      rw [← diary] at ran
      exact .inr ⟨replay, ran⟩

theorem replays_perform (resolved : SpellConfig) (options : CastOptions) :
    ReplayedAfter params stage
      (finish (perform spell level source params resolved options) stage).2 := by
  have executes :=
    replays_execute level source params (stage.entered .executing) resolved options
  rw [finish_perform]
  generalize finish (execute level source params resolved options) (stage.entered .executing)
    = execution at executes ⊢
  obtain ⟨(error | reason) | done, last⟩ := execution
  · have told : replays ((unbarred spell (last.entered .failed)).noted .castFailed).told =
        replays last.told := replays_unbarred ..
    have spell : ((unbarred spell (last.entered .failed)).noted .castFailed).spell = last.spell :=
      spell_unbarred ..
    unfold ReplayedAfter
    dsimp only
    rw [told, spell]
    exact executes
  · exact executes
  · exact executes

/-- A cast with valid parameters replays nothing, or these after its effect ran with them. -/
theorem replays_castParameterized {normalized : Parameters}
    (valid : ((Castable.schema stage.spell).validate params).toExcept = .ok normalized) :
    ReplayedAfter normalized stage (finish (castParameterized level source params) stage).2 := by
  obtain ⟨spell, -, -, told⟩ := left_castParameterized_of_ok level source params stage valid
  have performs := replays_perform (Castable.id stage.spell) level source normalized
    ((prepared params stage normalized).configured (resolution params stage normalized).value)
    (resolution params stage normalized).value (CastOptions.ofParameters source normalized)
  unfold ReplayedAfter
  rw [told, spell]
  exact performs

/-- A cast replays nothing, or the valid parameters with which its effect ran. -/
theorem replays_castSpell :
    replays (finish (castSpell level source params) stage).2.told = replays stage.told ∨
    ∃ normalized, ((Castable.schema stage.spell).validate params).toExcept = .ok normalized ∧
      ReplayedAfter normalized stage (finish (castSpell level source params) stage).2 := by
  rw [finish_castSpell]
  split
  · cases validated : ((Castable.schema stage.spell).validate params).toExcept with
    | error errors =>
      left
      rw [finish_castParameterized_of_error level source params stage validated]
      rfl
    | ok normalized =>
      exact .inr ⟨normalized, rfl, replays_castParameterized level source params stage validated⟩
  · left
    rcases castFixed_cases level source stage with ⟨-, report, took⟩ | ⟨-, declined⟩
    · rw [took]
      rfl
    · rw [declined]
      rfl

end Observed

end CastM

end Spellcraft
