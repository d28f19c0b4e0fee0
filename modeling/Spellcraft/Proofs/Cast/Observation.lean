import Spellcraft.Proofs.Cast.Simulation

/-! # Observed spells

What happens inside a cast is seen through a spell that keeps a diary: each check notes the
configuration that it found and the one that it left, and the effect notes the configuration
and the parameters that it ran with.

* `Observed` — a spell of any type together with its diary;
* `Observed.simulation` — observing changes nothing else, so an observed cast shows what the
  plain cast does;
* `Linked` — checks that follow each other without a gap;
* `observed_execute`, `observed_castParameterized`, `observed_castDirect` — what a cast can
  leave in the diary.
-/

namespace Spellcraft

inductive Observation where
  | checked (before after : SpellConfig)
  | ran (config : SpellConfig) (params : Parameters)

structure Observed (S : Type) where
  spell : S
  diary : List Observation := []

namespace Observed

variable {S α : Type}

def observe (hook : Hook S α) (note : S → HookReply S α → List Observation) :
    Hook (Observed S) α := fun s caster =>
  let reply := hook s.spell caster
  ⟨reply.answer, ⟨reply.spell, s.diary ++ note s.spell reply⟩, reply.caster, reply.notices⟩

def Of (s : S) (observed : Observed S) : Prop := observed.spell = s

theorem observe_alike (hook : Hook S α) (note : S → HookReply S α → List Observation) :
    Hook.Alike Of hook (observe hook note) := by
  intro s observed caster same
  cases same
  exact ⟨rfl, rfl, rfl, rfl⟩

variable [Castable S]

def noteCheck (s : S) (reply : HookReply S α) : List Observation :=
  [.checked (Castable.config s) (Castable.config reply.spell)]

def noteEffect (params : Parameters) (s : S) (_ : HookReply S α) : List Observation :=
  [.ran (Castable.config s) params]

def noteNothing (_ : S) (_ : HookReply S α) : List Observation := []

instance : Castable (Observed S) where
  id s := Castable.id s.spell
  name s := Castable.name s.spell
  attempt level source := observe (Castable.attempt level source) noteNothing
  isParameterized s := Castable.isParameterized s.spell
  schema s := Castable.schema s.spell
  config s := Castable.config s.spell
  setConfig s config := { s with spell := Castable.setConfig s.spell config }
  defaultTicks s := Castable.defaultTicks s.spell
  manaMultiplier s := Castable.manaMultiplier s.spell
  castTime level s caster := Castable.castTime level s.spell caster
  admission level source := observe (Castable.admission level source) noteCheck
  precondition level := observe (Castable.precondition level) noteCheck
  effect level source params := observe (Castable.effect level source params) (noteEffect params)
  complete level source := observe (Castable.complete level source) noteNothing

instance [LawfulCastable S] : LawfulCastable (Observed S) where
  config_setConfig s config := LawfulCastable.config_setConfig s.spell config

theorem simulation : Simulation (Of : S → Observed S → Prop) where
  id same := by cases same; rfl
  name same := by cases same; rfl
  isParameterized same := by cases same; rfl
  schema same := by cases same; rfl
  config same := by cases same; rfl
  setConfig same config := by cases same; rfl
  defaultTicks same := by cases same; rfl
  manaMultiplier same := by cases same; rfl
  castTime same _ _ := by cases same; rfl
  attempt _ _ := observe_alike _ _
  admission _ _ := observe_alike _ _
  precondition _ := observe_alike _ _
  effect _ _ _ := observe_alike _ _
  complete _ _ := observe_alike _ _

end Observed

def Stage.observed {S : Type} (stage : Stage S) : Stage (Observed S) :=
  { stage with spell := ⟨stage.spell, []⟩ }

theorem Stage.observed_alike {S : Type} [Castable S] (stage : Stage S) :
    Stage.Alike Observed.Of stage stage.observed :=
  ⟨rfl, rfl, rfl, rfl, rfl, rfl, rfl⟩

/-! ## Diaries -/

/-- Checks that lead from one configuration to another, each starting from what the one before
    left. -/
inductive Linked : SpellConfig → List Observation → SpellConfig → Prop where
  | nil (config : SpellConfig) : Linked config [] config
  | cons {before after last : SpellConfig} {rest : List Observation}
      (linked : Linked after rest last) : Linked before (.checked before after :: rest) last

namespace Linked

theorem eq_of_kept {first last : SpellConfig} {notes : List Observation}
    (linked : Linked first notes last)
    (kept : ∀ before after, Observation.checked before after ∈ notes → before = after) :
    last = first := by
  induction linked with
  | nil config => rfl
  | @cons before after last rest _ ih =>
    have here : before = after := kept before after List.mem_cons_self
    rw [ih fun b a member => kept b a (List.mem_cons_of_mem _ member), here]

theorem not_ran {first last : SpellConfig} {notes : List Observation}
    (linked : Linked first notes last) (config : SpellConfig) (params : Parameters) :
    Observation.ran config params ∉ notes := by
  induction linked with
  | nil config => exact List.not_mem_nil
  | cons _ ih => simpa using ih

end Linked

/-- What an execution leaves in a diary: checks that start from the installed configuration, and
    then, unless they stopped it, the effect on the configuration that they left. -/
inductive Performed (installed : SpellConfig) (params : Parameters) :
    List Observation → Prop where
  | stopped {checks : List Observation} {last : SpellConfig}
      (linked : Linked installed checks last) : Performed installed params checks
  | ran {checks : List Observation} {last : SpellConfig}
      (linked : Linked installed checks last) :
      Performed installed params (checks ++ [.ran last params])

namespace Performed

/-- The effect runs with the installed configuration if the checks kept it. -/
theorem ran_installed {installed config : SpellConfig} {params given : Parameters}
    {notes : List Observation} (performed : Performed installed params notes)
    (kept : ∀ before after, Observation.checked before after ∈ notes → before = after)
    (ran : Observation.ran config given ∈ notes) : config = installed ∧ given = params := by
  cases performed with
  | stopped linked => exact absurd ran (linked.not_ran config given)
  | @ran checks last linked =>
    have same : last = installed :=
      linked.eq_of_kept fun b a member => kept b a (List.mem_append_left _ member)
    rcases List.mem_append.mp ran with early | late
    · exact absurd early (linked.not_ran config given)
    · rw [List.mem_singleton, Observation.ran.injEq] at late
      exact ⟨late.1.trans same, late.2⟩

end Performed

/-! ## What parts of a cast note -/

namespace CastM

variable {S : Type} [Castable S] (spell : String) (level : UInt32) (source : CastSource)
  (params : Parameters) (stage : Stage (Observed S))

theorem observed_checkAdmission : ∃ checks,
    (finish (checkAdmission level source) stage).2.spell.diary = stage.spell.diary ++ checks ∧
      Linked (Castable.config stage.spell) checks
        (Castable.config (finish (checkAdmission level source) stage).2.spell) := by
  rcases checkAdmission_cases level source stage with ⟨message, denied⟩ | unmet | ⟨-, passed⟩
  · rw [denied]
    exact ⟨_, rfl, .cons (.nil _)⟩
  · rw [unmet]
    exact ⟨_, List.append_assoc _ _ _, .cons (.cons (.nil _))⟩
  · rw [passed]
    exact ⟨_, List.append_assoc _ _ _, .cons (.cons (.nil _))⟩

theorem observed_runEffect (failure : Notice) :
    (finish (runEffect failure spell level source params) stage).2.spell.diary =
      stage.spell.diary ++ [.ran (Castable.config stage.spell) params] := by
  rcases runEffect_cases spell level source params stage failure with
    ⟨-, done⟩ | ⟨error, -, refused⟩ | ⟨reason, -, brokenOff⟩
  · rw [done]
    rfl
  · rw [refused]
    rfl
  · rw [brokenOff]
    rfl

variable (resolved : SpellConfig) (options : CastOptions)

theorem observed_settled :
    (settled spell level source params resolved options stage).spell.diary =
      stage.spell.diary := by
  have kept := (spell_loader_paid spell level source params resolved options stage).1
  calc (settled spell level source params resolved options stage).spell.diary
      = (paid spell level source params resolved options stage).spell.diary ++ [] := rfl
    _ = stage.spell.diary := by rw [List.append_nil, kept]

theorem observed_screen : ∃ checks,
    (finish (screen level source options) stage).2.spell.diary = stage.spell.diary ++ checks ∧
      Linked (Castable.config stage.spell) checks
        (Castable.config (finish (screen level source options) stage).2.spell) := by
  rw [screen, finish_onlyIf]
  split
  · exact observed_checkAdmission level source stage
  · exact ⟨[], (List.append_nil _).symm, .nil _⟩

/-- An execution notes its checks, and its effect on the configuration that they left. -/
theorem observed_execute : ∃ notes,
    (finish (execute level source params resolved options) stage).2.spell.diary =
        stage.spell.diary ++ notes ∧
      Performed (Castable.config stage.spell) params notes := by
  obtain ⟨checks, noted, linked⟩ := observed_screen level source stage options
  have ran (passed : Stage (Observed S)) :=
    observed_runEffect (Castable.id stage.spell) level source params
      (barredIf (Castable.id stage.spell) level source options passed) .effectFailed
  have run := execution_execute level source params resolved options stage
  generalize finish (execute level source params resolved options) stage = ending at run ⊢
  cases run with
  | denied denied =>
    rw [denied] at noted linked
    exact ⟨checks, noted, .stopped linked⟩
  | @failed stop passed last admitted failed =>
    rw [admitted] at noted linked
    have struck := ran passed
    rw [failed, spell_barredIf, noted, List.append_assoc] at struck
    exact ⟨_, struck, .ran linked⟩
  | @completed passed last admitted struck_eq =>
    rw [admitted] at noted linked
    have struck := ran passed
    rw [struck_eq, spell_barredIf, noted, List.append_assoc] at struck
    exact ⟨_, (observed_settled ..).trans struck, .ran linked⟩

/-- Neither the phases around an execution nor its conclusion note anything. -/
theorem observed_perform : ∃ notes,
    (finish (perform spell level source params resolved options) stage).2.spell.diary =
        stage.spell.diary ++ notes ∧
      Performed (Castable.config stage.spell) params notes := by
  obtain ⟨notes, noted, performed⟩ :=
    observed_execute level source params (stage.entered .executing) resolved options
  refine ⟨notes, ?_, performed⟩
  rw [finish_perform]
  generalize finish (execute level source params resolved options) (stage.entered .executing)
    = execution at noted ⊢
  obtain ⟨(error | reason) | done, last⟩ := execution
  · have kept := spell_unbarred spell (last.entered .failed)
    calc ((unbarred spell (last.entered .failed)).noted .castFailed).spell.diary
        = (unbarred spell (last.entered .failed)).spell.diary := rfl
      _ = last.spell.diary := by rw [kept]; rfl
      _ = stage.spell.diary ++ notes := noted
  · exact noted
  · exact noted

variable [LawfulCastable S]

/-- A cast notes nothing if its parameters are invalid. Otherwise it performs with the resolved
    configuration installed. -/
theorem observed_castParameterized :
    (∃ errors, ((Castable.schema stage.spell).validate params).toExcept = .error errors ∧
      (finish (castParameterized level source params) stage).2.spell.diary =
        stage.spell.diary) ∨
    (∃ normalized notes,
      ((Castable.schema stage.spell).validate params).toExcept = .ok normalized ∧
      (finish (castParameterized level source params) stage).2.spell.diary =
        stage.spell.diary ++ notes ∧
      Performed (resolution params stage normalized).value normalized notes) := by
  cases validated : ((Castable.schema stage.spell).validate params).toExcept with
  | error errors =>
    left
    rw [finish_castParameterized_of_error level source params stage validated]
    exact ⟨errors, rfl, rfl⟩
  | ok normalized =>
    right
    obtain ⟨left, -⟩ := left_castParameterized_of_ok level source params stage validated
    obtain ⟨notes, noted, performed⟩ := observed_perform (Castable.id stage.spell) level source
      normalized
      ((prepared params stage normalized).configured (resolution params stage normalized).value)
      (resolution params stage normalized).value (CastOptions.ofParameters source normalized)
    rw [Stage.config_configured] at performed
    rw [left]
    exact ⟨normalized, notes, rfl, noted, performed⟩

theorem observed_castDirect :
    (∃ errors, ((Castable.schema stage.spell).validate params).toExcept = .error errors ∧
      (finish (castDirect level source params) stage).2.spell.diary = stage.spell.diary) ∨
    (∃ normalized, ((Castable.schema stage.spell).validate params).toExcept = .ok normalized ∧
      (finish (castDirect level source params) stage).2.spell.diary =
        stage.spell.diary ++ [.ran (resolution params stage normalized).value normalized]) := by
  cases validated : ((Castable.schema stage.spell).validate params).toExcept with
  | error errors =>
    left
    rw [finish_castDirect_of_error level source params stage validated]
    exact ⟨errors, rfl, rfl⟩
  | ok normalized =>
    right
    rw [finish_castDirect_of_ok level source params stage validated]
    have ran := observed_runEffect (Castable.id stage.spell) level source normalized
      ((stage.informed (resolution params stage normalized)).configured
        (resolution params stage normalized).value) .directCastFailed
    rw [Stage.config_configured] at ran
    exact ⟨normalized, rfl, ran⟩

end CastM

end Spellcraft
