import Spellcraft.Proofs.Cast.Run

/-! # Casting spells that cannot be told apart

A cast knows a spell only through its members and hooks. So if a relation between two types of
spells is kept by every hook, and related spells answer every question alike, then casting them
on stages that agree otherwise gives the same answers, events and casters, and related spells.

* `Simulation` — a relation along which spells answer alike;
* `Stage.Alike`, `CastM.Alike` — stages and parts of a cast that differ only by such spells;
* `Simulation.castSpell`, `Simulation.castDirect` — casting does not tell related spells apart.

The relation is used in two ways: between a spell and itself with another memory of its last
cast, and between a spell and an observed copy of it.
-/

namespace Spellcraft

variable {S T α β : Type}

structure HookReply.Alike (R : S → T → Prop) (one : HookReply S α) (other : HookReply T α) :
    Prop where
  answer : one.answer = other.answer
  spell : R one.spell other.spell
  caster : one.caster = other.caster
  notices : one.notices = other.notices

def Hook.Alike (R : S → T → Prop) (one : Hook S α) (other : Hook T α) : Prop :=
  ∀ s t caster, R s t → (one s caster).Alike R (other t caster)

/-- A relation along which two types of spells cannot be told apart. -/
structure Simulation [Castable S] [Castable T] (R : S → T → Prop) : Prop where
  id : ∀ {s t}, R s t → Castable.id s = Castable.id t
  name : ∀ {s t}, R s t → Castable.name s = Castable.name t
  isParameterized : ∀ {s t}, R s t → Castable.isParameterized s = Castable.isParameterized t
  schema : ∀ {s t}, R s t → Castable.schema s = Castable.schema t
  config : ∀ {s t}, R s t → Castable.config s = Castable.config t
  setConfig : ∀ {s t}, R s t → ∀ config,
    R (Castable.setConfig s config) (Castable.setConfig t config)
  defaultTicks : ∀ {s t}, R s t → Castable.defaultTicks s = Castable.defaultTicks t
  manaMultiplier : ∀ {s t}, R s t → Castable.manaMultiplier s = Castable.manaMultiplier t
  castTime : ∀ {s t}, R s t → ∀ level caster,
    Castable.castTime level s caster = Castable.castTime level t caster
  attempt : ∀ level source,
    Hook.Alike R (Castable.attempt (S := S) level source) (Castable.attempt level source)
  admission : ∀ level source,
    Hook.Alike R (Castable.admission (S := S) level source) (Castable.admission level source)
  precondition : ∀ level,
    Hook.Alike R (Castable.precondition (S := S) level) (Castable.precondition level)
  effect : ∀ level source params,
    Hook.Alike R (Castable.effect (S := S) level source params)
      (Castable.effect level source params)
  complete : ∀ level source,
    Hook.Alike R (Castable.complete (S := S) level source) (Castable.complete level source)

structure Stage.Alike (R : S → T → Prop) (one : Stage S) (other : Stage T) : Prop where
  spell : R one.spell other.spell
  caster : one.caster = other.caster
  loader : one.loader = other.loader
  phase : one.phase = other.phase
  barStarted : one.barStarted = other.barStarted
  told : one.told = other.told
  notices : one.notices = other.notices

namespace CastM

/-- Parts of a cast that, started on alike stages, give the same answer and leave alike
    stages. -/
def Alike (R : S → T → Prop) (one : CastM S α) (other : CastM T α) : Prop :=
  ∀ first second, Stage.Alike R first second →
    (finish one first).1 = (finish other second).1 ∧
      Stage.Alike R (finish one first).2 (finish other second).2

namespace Alike

variable {R : S → T → Prop}

/-! ## Ways to put parts together -/

theorem ends {one : CastM S α} {other : CastM T α} (parts : Alike R one other)
    {stage : Stage S} {stage' : Stage T} (alike : Stage.Alike R stage stage') :
    ∃ answer last last', finish one stage = (answer, last) ∧
      finish other stage' = (answer, last') ∧ Stage.Alike R last last' := by
  obtain ⟨answers, stages⟩ := parts stage stage' alike
  exact ⟨_, _, _, rfl, Prod.ext answers.symm rfl, stages⟩

theorem pure (a : α) : Alike R (pure a) (pure a) := fun _ _ alike => ⟨rfl, alike⟩

theorem fail (error : CastError) : Alike R (fail error : CastM S α) (CastM.fail error) :=
  fun _ _ alike => ⟨rfl, alike⟩

/-- What would follow a failure does not matter. -/
theorem failBind (error : CastError) (next : α → CastM S β) (next' : α → CastM T β) :
    Alike R (CastM.fail error >>= next) (CastM.fail error >>= next') :=
  fun _ _ alike => ⟨rfl, alike⟩

theorem throw (stop : Stop) : Alike R (throw stop : CastM S α) (MonadExcept.throw stop) :=
  fun _ _ alike => ⟨rfl, alike⟩

theorem bind {one : CastM S α} {other : CastM T α} {next : α → CastM S β} {next' : α → CastM T β}
    (first : Alike R one other) (rest : ∀ a, Alike R (next a) (next' a)) :
    Alike R (one >>= next) (other >>= next') := by
  intro stage stage' alike
  obtain ⟨answer, last, last', here, there, stages⟩ := first.ends alike
  rw [finish_bind, finish_bind, here, there]
  cases answer with
  | ok a => exact rest a last last' stages
  | error stop => exact ⟨rfl, stages⟩

/-- Looking at the stage is harmless as long as what follows is alike on alike stages. -/
theorem look {next : Stage S → CastM S β} {next' : Stage T → CastM T β}
    (rest : ∀ first second, Stage.Alike R first second → Alike R (next first) (next' second)) :
    Alike R (get >>= next) (get >>= next') := by
  intro stage stage' alike
  rw [finish_bind, finish_bind]
  exact rest stage stage' alike stage stage' alike

theorem onlyIf {one : CastM S Unit} {other : CastM T Unit} (part : Alike R one other)
    (condition : Bool) : Alike R (onlyIf condition one) (onlyIf condition other) := by
  cases condition with
  | true => exact part
  | false => exact Alike.pure ()

theorem whenSet {one : CastM S α} {other : CastM T α} (part : Alike R one other)
    (enabled : Bool) : Alike R (whenSet enabled one) (whenSet enabled other) := by
  intro stage stage' alike
  rw [finish_whenSet, finish_whenSet]
  cases enabled with
  | false => exact ⟨rfl, alike⟩
  | true =>
    obtain ⟨answer, last, last', here, there, stages⟩ := part.ends alike
    rw [here, there]
    cases answer with
    | ok a => exact ⟨rfl, stages⟩
    | error stop => exact ⟨rfl, stages⟩

theorem attempt {one : CastM S α} {other : CastM T α} (part : Alike R one other) :
    Alike R (attempt one) (attempt other) := by
  intro stage stage' alike
  obtain ⟨answer, last, last', here, there, stages⟩ := part.ends alike
  rw [finish_attempt, finish_attempt, here, there]
  rcases answer with (error | reason) | a
  · exact ⟨rfl, stages⟩
  · exact ⟨rfl, stages⟩
  · exact ⟨rfl, stages⟩

/-! ## Primitive parts -/

theorem change {g : Stage S → Stage S} {g' : Stage T → Stage T}
    (keeps : ∀ first second, Stage.Alike R first second → Stage.Alike R (g first) (g' second)) :
    Alike R (modify g) (modify g') :=
  fun _ _ alike => ⟨rfl, keeps _ _ alike⟩

theorem note (notice : Notice) : Alike R (note notice : CastM S Unit) (CastM.note notice) :=
  change fun _ _ alike => { alike with notices := by rw [alike.notices] }

theorem tell (audience : Audience) (event : CastEvent) :
    Alike R (tell audience event : CastM S Unit) (CastM.tell audience event) :=
  change fun _ _ alike => { alike with told := by rw [alike.told] }

theorem enter (phase : CastPhase) : Alike R (enter phase : CastM S Unit) (CastM.enter phase) :=
  change fun _ _ alike =>
    { alike with phase := rfl, notices := by rw [alike.phase, alike.notices] }

theorem modifyCaster (g : Caster → Caster) :
    Alike R (modifyCaster g : CastM S Unit) (CastM.modifyCaster g) :=
  change fun _ _ alike => { alike with caster := by rw [alike.caster] }

theorem ask {one : Hook S α} {other : Hook T α} (hooks : Hook.Alike R one other) :
    Alike R (ask one) (ask other) := by
  intro stage stage' alike
  have reply := hooks stage.spell stage'.spell stage'.caster alike.spell
  rw [finish_ask, finish_ask, alike.caster]
  exact ⟨congrArg Except.ok reply.answer,
    { alike with
      spell := reply.spell
      caster := reply.caster
      notices := by simp only [Stage.after, alike.notices, reply.notices] }⟩

end Alike

end CastM

namespace Simulation

open CastM

variable [Castable S] [Castable T] {R : S → T → Prop} (sim : Simulation R)

include sim

theorem configured {stage : Stage S} {stage' : Stage T} (alike : Stage.Alike R stage stage')
    (config : SpellConfig) :
    Stage.Alike R (stage.configured config) (stage'.configured config) :=
  { alike with spell := sim.setConfig alike.spell config }

theorem guarded {one : CastM S α} {other : CastM T α} (part : Alike R one other)
    (config : SpellConfig) : Alike R (guarded config one) (guarded config other) := by
  intro stage stage' alike
  obtain ⟨answers, stages⟩ := part _ _ (sim.configured alike config)
  rw [finish_guarded, finish_guarded, sim.config alike.spell]
  exact ⟨answers, sim.configured stages _⟩

theorem resolve (params : Parameters) :
    Alike R (resolve params : CastM S SpellConfig) (CastM.resolve params) := by
  intro stage stage' alike
  have answers : answerTo params stage = answerTo params stage' := by
    rw [answerTo, answerTo, alike.loader, sim.id alike.spell, sim.config alike.spell]
  rw [finish_resolve, finish_resolve, answers]
  exact ⟨rfl,
    { alike with
      loader := rfl
      notices := by simp only [Stage.informed, alike.notices] }⟩

/-! ## The parts of an execution -/

variable (spell : String) (level : UInt32) (source : CastSource) (params : Parameters)

theorem checkAdmission :
    Alike R (checkAdmission level source : CastM S Unit) (CastM.checkAdmission level source) := by
  refine Alike.look fun stage stage' alike => ?_
  dsimp only
  rw [sim.id alike.spell, sim.name alike.spell]
  refine Alike.bind (Alike.ask (sim.admission level source)) fun admission => ?_
  cases admission with
  | denied reason? => exact Alike.failBind _ _ _
  | allowed =>
    refine Alike.bind (Alike.ask (sim.precondition level)) fun holds => ?_
    cases holds with
    | true => exact Alike.pure ()
    | false => exact Alike.fail _

theorem startBar :
    Alike R (startBar spell level source : CastM S Unit)
      (CastM.startBar spell level source) := by
  intro stage stage' alike
  have bar : startsBar level stage = startsBar level stage' := by
    rw [startsBar, startsBar, Stage.duration, Stage.duration, alike.caster,
      sim.castTime alike.spell]
  rw [finish_startBar, finish_startBar, bar]
  refine ⟨rfl, ?_⟩
  cases startsBar level stage' with
  | false => exact alike
  | true =>
    exact
      { alike with
        caster := by
          simp only [if_true, Stage.withBar, Stage.duration, alike.caster,
            sim.castTime alike.spell]
        barStarted := rfl
        told := by
          simp only [if_true, Stage.withBar, Stage.duration, alike.caster, alike.told,
            sim.castTime alike.spell] }

theorem runEffect (failure : Notice) :
    Alike R (runEffect failure spell level source params : CastM S Unit)
      (CastM.runEffect failure spell level source params) := by
  refine Alike.bind (Alike.ask (sim.effect level source params)) fun result => ?_
  cases result with
  | done => exact Alike.pure ()
  | refused error => exact Alike.bind (Alike.note failure) fun _ => Alike.fail _
  | brokenOff reason => exact Alike.throw _

variable (resolved : SpellConfig) (options : CastOptions)

theorem chargeMana :
    Alike R (chargeMana resolved level : CastM S Int32) (CastM.chargeMana resolved level) := by
  intro stage stage' alike
  have price : cost level resolved stage = cost level resolved stage' := by
    rw [cost, cost, sim.manaMultiplier alike.spell]
  rw [finish_chargeMana, finish_chargeMana, price]
  refine ⟨rfl, ?_⟩
  unfold charged
  rw [price]
  split
  · exact { alike with caster := by rw [alike.caster], told := by rw [alike.told, alike.caster] }
  · exact alike

theorem recordCooldown :
    Alike R (recordCooldown spell resolved : CastM S Int32)
      (CastM.recordCooldown spell resolved) := by
  intro stage stage' alike
  have recorded : ticks spell resolved stage = ticks spell resolved stage' := by
    rw [ticks, ticks, sim.defaultTicks alike.spell, alike.caster]
  rw [finish_recordCooldown, finish_recordCooldown, recorded]
  refine ⟨rfl, { alike with caster := ?_ }⟩
  rw [cooled, cooled, recorded, alike.caster]

theorem settle :
    Alike R (settle spell level source params resolved options : CastM S Executed)
      (CastM.settle spell level source params resolved options) := by
  refine Alike.bind (Alike.whenSet (sim.chargeMana level resolved) _) fun cost? => ?_
  refine Alike.bind (Alike.whenSet (sim.recordCooldown spell resolved) _) fun ticks? => ?_
  refine Alike.bind (Alike.onlyIf (Alike.tell _ _) _) fun _ => ?_
  refine Alike.bind (Alike.ask (sim.complete level source)) fun _ => ?_
  refine Alike.bind (Alike.note _) fun _ => ?_
  refine Alike.look fun stage stage' alike => ?_
  rw [sim.name alike.spell]
  exact Alike.pure _

theorem execute :
    Alike R (execute level source params resolved options : CastM S Executed)
      (CastM.execute level source params resolved options) := by
  rw [execute_eq, execute_eq]
  refine Alike.look fun stage stage' alike => ?_
  rw [sim.id alike.spell]
  refine Alike.bind (Alike.onlyIf (sim.checkAdmission level source) _) fun _ => ?_
  refine Alike.bind (Alike.onlyIf (sim.startBar _ level source) _) fun _ => ?_
  refine Alike.bind (sim.runEffect _ level source params _) fun _ => ?_
  exact sim.settle _ level source params resolved options

omit [Castable S] [Castable T] sim in
theorem conclude (outcome : Except CastError Executed) :
    Alike R (conclude spell outcome : CastM S Unit) (CastM.conclude spell outcome) := by
  intro stage stage' alike
  cases outcome with
  | ok done => exact Alike.enter .succeeded stage stage' alike
  | error e =>
    refine Alike.bind (Alike.enter _) (fun _ => ?_) stage stage' alike
    refine Alike.look fun stage stage' alike => ?_
    rw [alike.barStarted, alike.caster]
    cases stage'.barStarted with
    | true =>
      refine Alike.bind (Alike.modifyCaster _) fun _ => ?_
      exact Alike.bind (Alike.tell _ _) fun _ => Alike.note _
    | false => exact Alike.note _

/-! ## Whole casts -/

theorem perform :
    Alike R
      (perform spell level source params resolved options : CastM S (Except CastError Executed))
      (CastM.perform spell level source params resolved options) := by
  refine Alike.bind (Alike.enter _) fun _ => ?_
  refine Alike.bind (Alike.attempt (sim.execute level source params resolved options))
    fun outcome => ?_
  exact Alike.bind (conclude spell outcome) fun _ => Alike.pure outcome

theorem castParameterized :
    Alike R (castParameterized level source params : CastM S CastReport)
      (CastM.castParameterized level source params) := by
  refine Alike.bind (Alike.enter _) fun _ => ?_
  refine Alike.look fun stage stage' alike => ?_
  dsimp only
  -- from here on both casts go by one schema and one id
  rw [sim.schema alike.spell, sim.id alike.spell]
  cases ((Castable.schema stage'.spell).validate params).toExcept with
  | error errors =>
    refine Alike.bind (Alike.enter _) fun _ => ?_
    exact Alike.bind (Alike.note _) fun _ => Alike.fail _
  | ok normalized =>
    refine Alike.bind (Alike.enter _) fun _ => ?_
    refine Alike.bind (sim.resolve _) fun resolved => ?_
    refine Alike.bind (sim.guarded (sim.perform _ level source normalized resolved _) resolved)
      fun outcome => ?_
    refine Alike.bind (Alike.enter _) fun _ => ?_
    cases outcome with
    | error e => exact Alike.fail e
    | ok done =>
      refine Alike.look fun stage stage' alike => ?_
      rw [alike.barStarted]
      exact Alike.pure _

theorem castFixed :
    Alike R (castFixed level source : CastM S CastReport) (CastM.castFixed level source) := by
  refine Alike.bind (Alike.note _) fun _ => ?_
  refine Alike.bind (Alike.ask (sim.attempt level source)) fun took => ?_
  cases took with
  | false =>
    refine Alike.look fun stage stage' alike => ?_
    rw [sim.id alike.spell]
    exact Alike.failBind _ _ _
  | true =>
    refine Alike.look fun stage stage' alike => ?_
    dsimp only
    rw [sim.id alike.spell, sim.name alike.spell]
    exact Alike.pure _

theorem castSpell :
    Alike R (castSpell level source params : CastM S CastReport)
      (CastM.castSpell level source params) := by
  refine Alike.look fun stage stage' alike => ?_
  rw [sim.isParameterized alike.spell]
  cases Castable.isParameterized stage'.spell with
  | true => exact sim.castParameterized level source params
  | false => exact sim.castFixed level source

theorem castDirect :
    Alike R (castDirect level source params : CastM S Unit)
      (CastM.castDirect level source params) := by
  refine Alike.look fun stage stage' alike => ?_
  dsimp only
  rw [sim.schema alike.spell, sim.id alike.spell]
  cases ((Castable.schema stage'.spell).validate params).toExcept with
  | error errors => exact Alike.bind (Alike.note _) fun _ => Alike.fail _
  | ok normalized =>
    refine Alike.bind (sim.resolve _) fun resolved => ?_
    exact sim.guarded (sim.runEffect _ level source normalized _) resolved

end Simulation

end Spellcraft
