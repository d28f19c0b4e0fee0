import Spellcraft.Proofs.Cast.Run

/-! # What a cast leaves alone

Between the moment a configuration is installed and the moment the previous one is put back,
the spell changes only by its hooks, and the loader not at all. So whatever these hooks keep, the
cast of a parameterized spell keeps.

* `Steady` — relations between stages that look at spell and loader only, and hold along hooks;
* `Steady.perform` — such a relation holds along a performance;
* `CastM.loader_castSpell` — a loader that has its table stays as it is;
* `Hereditary.castParameterized` — a property of spells that the hooks of a performance keep
  survives it.
-/

namespace Spellcraft

variable {S : Type} [Castable S]

open CastM

/-- A relation between stages that depends on spell and loader only and holds along every hook
    of a performance. -/
structure Steady (K : Stage S → Stage S → Prop) : Prop where
  trans : ∀ {first second third}, K first second → K second third → K first third
  quiet : ∀ {first second}, second.spell = first.spell → second.loader = first.loader →
    K first second
  admission : ∀ level source (stage : Stage S), K stage (admitted level source stage)
  precondition : ∀ level (stage : Stage S),
    K stage (stage.after (Castable.precondition level stage.spell stage.caster))
  effect : ∀ level source params (stage : Stage S), K stage (struck level source params stage)
  complete : ∀ level source (stage : Stage S),
    K stage (stage.after (Castable.complete level source stage.spell stage.caster))

namespace Steady

variable {K : Stage S → Stage S → Prop} (steady : Steady K) (spell : String) (level : UInt32)
  (source : CastSource) (params : Parameters) (resolved : SpellConfig) (options : CastOptions)
  (stage : Stage S)

include steady

theorem checkAdmission : K stage (finish (checkAdmission level source) stage).2 := by
  have first : K stage (admitted level source stage) := steady.admission level source stage
  have second : K stage (checked level source stage) :=
    steady.trans first (steady.precondition level _)
  rcases checkAdmission_cases level source stage with ⟨message, denied⟩ | unmet | ⟨-, passed⟩
  · rw [denied]
    exact first
  · rw [unmet]
    exact second
  · rw [passed]
    exact second

theorem runEffect (failure : Notice) :
    K stage (finish (runEffect failure spell level source params) stage).2 := by
  have reply : K stage (struck level source params stage) :=
    steady.effect level source params stage
  rcases runEffect_cases spell level source params stage failure with
    ⟨-, done⟩ | ⟨error, -, refused⟩ | ⟨reason, -, brokenOff⟩
  · rw [done]
    exact reply
  · rw [refused]
    exact steady.trans reply (steady.quiet rfl rfl)
  · rw [brokenOff]
    exact reply

theorem settled : K stage (settled spell level source params resolved options stage) := by
  have pays : K stage (paid spell level source params resolved options stage) :=
    steady.quiet (spell_loader_paid ..).1 (spell_loader_paid ..).2
  exact steady.trans (steady.trans pays (steady.complete level source _)) (steady.quiet rfl rfl)

theorem screen : K stage (finish (screen level source options) stage).2 := by
  rw [CastM.screen, finish_onlyIf]
  split
  · exact steady.checkAdmission level source stage
  · exact steady.quiet rfl rfl

theorem execute : K stage (finish (execute level source params resolved options) stage).2 := by
  have admits := steady.screen level source options stage
  have strikes (passed : Stage S) (admitted : K stage passed) :
      K stage (finish (CastM.runEffect .effectFailed (Castable.id stage.spell) level source params)
        (barredIf (Castable.id stage.spell) level source options passed)).2 := by
    have bars : K passed (barredIf (Castable.id stage.spell) level source options passed) :=
      steady.quiet (spell_barredIf ..) (loader_barredIf ..)
    exact steady.trans (steady.trans admitted bars) (steady.runEffect ..)
  have run := execution_execute level source params resolved options stage
  generalize finish (CastM.execute level source params resolved options) stage = ending at run ⊢
  cases run with
  | denied denied =>
    rw [denied] at admits
    exact admits
  | @failed stop passed last admitted failed =>
    rw [admitted] at admits
    have struck := strikes passed admits
    rw [failed] at struck
    exact struck
  | @completed passed last admitted struck_eq =>
    rw [admitted] at admits
    have struck := strikes passed admits
    rw [struck_eq] at struck
    exact steady.trans struck (steady.settled ..)

theorem perform :
    K stage (finish (perform spell level source params resolved options) stage).2 := by
  have executes := steady.execute level source params resolved options (stage.entered .executing)
  rw [finish_perform]
  generalize finish (CastM.execute level source params resolved options)
    (stage.entered .executing) = execution at executes ⊢
  have starts : K stage (stage.entered .executing) := steady.quiet rfl rfl
  have here : K stage execution.2 := steady.trans starts executes
  obtain ⟨(error | reason) | done, last⟩ := execution
  · have unbars : K last ((unbarred spell (last.entered .failed)).noted .castFailed) :=
      steady.quiet (spell_unbarred ..) (loader_unbarred ..)
    exact steady.trans here unbars
  · exact here
  · exact steady.trans here (steady.quiet rfl rfl)

end Steady

/-! ## The loader -/

theorem Loader.loader_resolve {l : Loader} (loaded : l.isLoaded = true) (spell : String)
    (params : Parameters) (own : SpellConfig) : (l.resolve spell params own).loader = l := by
  obtain ⟨table, loaded⟩ := Option.isSome_iff_exists.mp loaded
  simp only [Loader.resolve, Loader.load, loaded]

namespace CastM

variable (level : UInt32) (source : CastSource) (params : Parameters) (stage : Stage S)

theorem steady_loader : Steady fun first last : Stage S => last.loader = first.loader where
  trans one other := other.trans one
  quiet _ same := same
  admission _ _ _ := rfl
  precondition _ _ := rfl
  effect _ _ _ _ := rfl
  complete _ _ _ := rfl

theorem loader_castParameterized (loaded : stage.loader.isLoaded = true) :
    (finish (castParameterized level source params) stage).2.loader = stage.loader := by
  cases validated : ((Castable.schema stage.spell).validate params).toExcept with
  | error errors =>
    rw [finish_castParameterized_of_error level source params stage validated]
    rfl
  | ok normalized =>
    have same : (performance level source params stage normalized).2.loader =
        (resolution params stage normalized).loader := steady_loader.perform ..
    have known : (resolution params stage normalized).loader = stage.loader :=
      Loader.loader_resolve loaded ..
    obtain ⟨-, -, left, -⟩ := left_castParameterized_of_ok level source params stage validated
    exact left.trans (same.trans known)

theorem loader_castSpell (loaded : stage.loader.isLoaded = true) :
    (finish (castSpell level source params) stage).2.loader = stage.loader := by
  rw [finish_castSpell]
  split
  · exact loader_castParameterized level source params stage loaded
  · rcases castFixed_cases level source stage with ⟨-, report, took⟩ | ⟨-, declined⟩
    · rw [took]
      rfl
    · rw [declined]
      rfl

end CastM

/-! ## Properties of spells -/

/-- A property of spells that neither another configuration nor a hook of a performance
    destroys. -/
structure Hereditary (P : S → Prop) : Prop where
  setConfig : ∀ s config, P s → P (Castable.setConfig s config)
  admission : ∀ level source s caster, P s → P (Castable.admission level source s caster).spell
  precondition : ∀ level s caster, P s → P (Castable.precondition level s caster).spell
  effect : ∀ level source params s caster,
    P s → P (Castable.effect level source params s caster).spell
  complete : ∀ level source s caster, P s → P (Castable.complete level source s caster).spell

namespace Hereditary

variable {P : S → Prop} (hereditary : Hereditary P)

include hereditary

theorem steady : Steady fun first last : Stage S => P first.spell → P last.spell where
  trans one other := other ∘ one
  quiet same _ holds := by rwa [same]
  admission _ _ _ := hereditary.admission _ _ _ _
  precondition _ _ := hereditary.precondition _ _ _
  effect _ _ _ _ := hereditary.effect _ _ _ _ _
  complete _ _ _ := hereditary.complete _ _ _ _

variable (level : UInt32) (source : CastSource) (params : Parameters) (stage : Stage S)
  (holds : P stage.spell)

include holds

theorem castParameterized :
    P (finish (CastM.castParameterized level source params) stage).2.spell := by
  cases validated : ((Castable.schema stage.spell).validate params).toExcept with
  | error errors =>
    rw [finish_castParameterized_of_error level source params stage validated]
    exact holds
  | ok normalized =>
    obtain ⟨left, -⟩ := left_castParameterized_of_ok level source params stage validated
    rw [left]
    refine hereditary.setConfig _ _ (hereditary.steady.perform _ _ _ _ _ _ _ ?_)
    exact hereditary.setConfig _ _ holds

end Hereditary

end Spellcraft
