import Spellcraft.Cast

/-! # Runs of a cast

How the parts of a cast end, as equations that later proofs use in place of the definitions:

* `CastM.finish` — the answer of a part and the stage that it leaves;
* `CastM.finish_bind` and its companions — one equation for each way to put parts together;
* `CastM.finish_checkAdmission`, `CastM.finish_startBar`, `CastM.finish_runEffect` — what the
  parts of an execution do;
* `CastM.execute_eq` — an execution screens the cast, shows the bar, runs the effect, and
  settles, all under one id;
* `CastM.Execution` — the three ways in which that ends;
* `CastM.finish_castParameterized_of_ok` and its companions — whole casts.
-/

namespace Spellcraft

/-! ## Stages after one step -/

namespace Stage

variable {S α : Type}

def after (stage : Stage S) (reply : HookReply S α) : Stage S :=
  { stage with
    spell := reply.spell
    caster := reply.caster
    notices := stage.notices ++ reply.notices }

def noted (stage : Stage S) (notice : Notice) : Stage S :=
  { stage with notices := stage.notices ++ [notice] }

def entered (stage : Stage S) (phase : CastPhase) : Stage S :=
  { stage with phase, notices := stage.notices ++ [.phaseEntered stage.phase phase] }

def informed (stage : Stage S) (answer : Loader.Answer α) : Stage S :=
  { stage with loader := answer.loader, notices := stage.notices ++ answer.notices }

variable [Castable S]

def configured (stage : Stage S) (config : SpellConfig) : Stage S :=
  { stage with spell := Castable.setConfig stage.spell config }

@[simp] theorem config_configured [LawfulCastable S] (stage : Stage S) (config : SpellConfig) :
    Castable.config (stage.configured config).spell = config :=
  LawfulCastable.config_setConfig _ _

def duration (stage : Stage S) (level : UInt32) : Int32 :=
  Castable.castTime level stage.spell stage.caster

def withBar (stage : Stage S) (spell : String) (level : UInt32) (source : CastSource) : Stage S :=
  { stage with
    caster := stage.caster.begin ⟨spell, level, stage.duration level, source⟩
    barStarted := true
    told := stage.told ++
      [⟨.tracking, .started stage.caster.id spell level (stage.duration level)⟩] }

end Stage

namespace CastM

variable {S α β : Type}

/-- How a part ends when it starts on a stage: with an answer, and on which stage. -/
def finish (part : CastM S α) (stage : Stage S) : Except Stop α × Stage S :=
  match part stage with
  | .ok a last => (.ok a, last)
  | .error stop last => (.error stop, last)

/-! ## Ways to put parts together -/

@[simp] theorem finish_pure (a : α) (stage : Stage S) : finish (pure a) stage = (.ok a, stage) :=
  rfl

@[simp] theorem finish_get (stage : Stage S) : finish get stage = (.ok stage, stage) := rfl

@[simp] theorem finish_modify (g : Stage S → Stage S) (stage : Stage S) :
    finish (modify g) stage = (.ok (), g stage) := rfl

@[simp] theorem finish_throw (stop : Stop) (stage : Stage S) :
    finish (throw stop : CastM S α) stage = (.error stop, stage) := rfl

@[simp] theorem finish_bind (part : CastM S α) (next : α → CastM S β) (stage : Stage S) :
    finish (part >>= next) stage =
      match finish part stage with
      | (.ok a, last) => finish (next a) last
      | (.error stop, last) => (.error stop, last) := by
  change finish (EStateM.bind part next) stage = _
  unfold finish EStateM.bind
  cases part stage <;> rfl

theorem finish_bind_ok {part : CastM S α} {stage last : Stage S} {a : α}
    (ended : finish part stage = (.ok a, last)) (next : α → CastM S β) :
    finish (part >>= next) stage = finish (next a) last := by
  rw [finish_bind, ended]

def onlyIf (condition : Bool) (part : CastM S Unit) : CastM S Unit :=
  if condition then part else pure ()

@[simp] theorem finish_onlyIf (condition : Bool) (part : CastM S Unit) (stage : Stage S) :
    finish (onlyIf condition part) stage =
      if condition then finish part stage else (.ok (), stage) := by
  cases condition <;> rfl

@[simp] theorem finish_whenSet (enabled : Bool) (part : CastM S α) (stage : Stage S) :
    finish (whenSet enabled part) stage =
      if enabled then
        match finish part stage with
        | (.ok a, last) => (.ok (some a), last)
        | (.error stop, last) => (.error stop, last)
      else (.ok none, stage) := by
  cases enabled
  · rfl
  · change finish (EStateM.map some part) stage = _
    unfold finish EStateM.map
    cases part stage <;> rfl

/-! ## Primitive parts -/

@[simp] theorem finish_note (notice : Notice) (stage : Stage S) :
    finish (note notice) stage = (.ok (), stage.noted notice) := rfl

@[simp] theorem finish_tell (audience : Audience) (event : CastEvent) (stage : Stage S) :
    finish (tell audience event) stage =
      (.ok (), { stage with told := stage.told ++ [⟨audience, event⟩] }) := rfl

@[simp] theorem finish_enter (phase : CastPhase) (stage : Stage S) :
    finish (enter phase) stage = (.ok (), stage.entered phase) := rfl

@[simp] theorem finish_fail (error : CastError) (stage : Stage S) :
    finish (fail error : CastM S α) stage = (.error (.failed error), stage) := rfl

@[simp] theorem finish_ask (hook : Hook S α) (stage : Stage S) :
    finish (ask hook) stage =
      (.ok (hook stage.spell stage.caster).answer, stage.after (hook stage.spell stage.caster)) :=
  rfl

@[simp] theorem finish_modifyCaster (g : Caster → Caster) (stage : Stage S) :
    finish (modifyCaster g) stage = (.ok (), { stage with caster := g stage.caster }) := rfl

@[simp] theorem finish_attempt (part : CastM S α) (stage : Stage S) :
    finish (attempt part) stage =
      match finish part stage with
      | (.ok a, last) => (.ok (.ok a), last)
      | (.error (.failed e), last) => (.ok (.error e), last)
      | (.error (.brokenOff reason), last) => (.error (.brokenOff reason), last) := by
  unfold finish attempt
  cases part stage with
  | ok a last => rfl
  | error stop last => cases stop <;> rfl

variable [Castable S]

/-- A guarded part runs with the new configuration, and whatever it leaves behind gets the
    configuration from before. -/
@[simp] theorem finish_guarded (config : SpellConfig) (part : CastM S α) (stage : Stage S) :
    finish (guarded config part) stage =
      ((finish part (stage.configured config)).1,
        (finish part (stage.configured config)).2.configured (Castable.config stage.spell)) := by
  unfold finish guarded Guard.apply Guard.restore Stage.configured
  dsimp only
  cases part _ <;> rfl

def answerTo (params : Parameters) (stage : Stage S) : Loader.Answer SpellConfig :=
  stage.loader.resolve (Castable.id stage.spell) params (Castable.config stage.spell)

theorem finish_resolve (params : Parameters) (stage : Stage S) :
    finish (resolve params) stage =
      (.ok (answerTo params stage).value, stage.informed (answerTo params stage)) := rfl

/-! ## The parts of an execution -/

section Execution

variable (spell : String) (level : UInt32) (source : CastSource) (params : Parameters)
  (resolved : SpellConfig) (options : CastOptions) (stage : Stage S)

def admitted : Stage S :=
  stage.after (Castable.admission level source stage.spell stage.caster)

def checked : Stage S :=
  (admitted level source stage).after
    (Castable.precondition level (admitted level source stage).spell
      (admitted level source stage).caster)

/-- The second check is made only if the first one allows the cast, and on what that one left. -/
theorem finish_checkAdmission :
    finish (checkAdmission level source) stage =
      match (Castable.admission level source stage.spell stage.caster).answer with
      | .denied reason? =>
        (.error (.failed (.notCastable (Castable.id stage.spell)
          (reason?.getD ("cannot cast '" ++ Castable.name stage.spell ++ "' now")))),
          admitted level source stage)
      | .allowed =>
        (if (Castable.precondition level (admitted level source stage).spell
            (admitted level source stage).caster).answer then .ok ()
          else .error (.failed (.preconditionFailed (Castable.id stage.spell))),
          checked level source stage) := by
  unfold checkAdmission
  simp only [finish_bind, finish_get, finish_ask]
  cases (Castable.admission level source stage.spell stage.caster).answer with
  | denied reason? => rfl
  | allowed =>
    simp only [finish_bind, finish_ask]
    change finish (if (!(Castable.precondition level (admitted level source stage).spell
      (admitted level source stage).caster).answer) = true then _ else _)
      (checked level source stage) = _
    cases (Castable.precondition level (admitted level source stage).spell
      (admitted level source stage).caster).answer <;> rfl

theorem checkAdmission_cases :
    (∃ message, finish (checkAdmission level source) stage =
      (.error (.failed (.notCastable (Castable.id stage.spell) message)),
        admitted level source stage)) ∨
    (finish (checkAdmission level source) stage =
      (.error (.failed (.preconditionFailed (Castable.id stage.spell))),
        checked level source stage)) ∨
    (Castable.admission level source stage.spell stage.caster).answer = .allowed ∧
      finish (checkAdmission level source) stage = (.ok (), checked level source stage) := by
  rw [finish_checkAdmission]
  cases (Castable.admission level source stage.spell stage.caster).answer with
  | denied reason? => exact .inl ⟨_, rfl⟩
  | allowed =>
    right
    cases (Castable.precondition level (admitted level source stage).spell
      (admitted level source stage).caster).answer with
    | false => exact .inl rfl
    | true => exact .inr ⟨rfl, rfl⟩

theorem checkAdmission_error {stop : Stop} {last : Stage S}
    (denied : finish (checkAdmission level source) stage = (.error stop, last)) :
    ∃ error, stop = .failed error := by
  rcases checkAdmission_cases level source stage with ⟨message, ended⟩ | ended | ⟨-, ended⟩
  · rw [ended] at denied
    cases denied
    exact ⟨_, rfl⟩
  · rw [ended] at denied
    cases denied
    exact ⟨_, rfl⟩
  · rw [ended] at denied
    cases denied

/-- Whether a cast on this stage gets a bar of its own: it takes time, and the caster is free. -/
def startsBar : Bool :=
  decide (0 < stage.duration level) && !stage.caster.isCasting

theorem finish_startBar :
    finish (startBar spell level source) stage =
      (.ok (), if startsBar level stage then stage.withBar spell level source else stage) := by
  unfold startBar startsBar
  by_cases free : 0 < stage.duration level ∧ (!stage.caster.isCasting) = true
  · have starts : (decide (0 < stage.duration level) && !stage.caster.isCasting) = true := by
      simpa using free
    simp only [finish_bind, finish_get, starts, if_true]
    rw [Stage.duration] at free
    rw [if_pos free]
    rfl
  · have stays : (decide (0 < stage.duration level) && !stage.caster.isCasting) = false := by
      simpa using free
    simp only [finish_bind, finish_get, stays]
    rw [Stage.duration] at free
    rw [if_neg free]
    rfl

def barredIf : Stage S :=
  if options.showCastBar && startsBar level stage then stage.withBar spell level source
  else stage

theorem finish_barIf :
    finish (onlyIf options.showCastBar (startBar spell level source)) stage =
      (.ok (), barredIf spell level source options stage) := by
  rw [finish_onlyIf, finish_startBar, barredIf]
  cases options.showCastBar <;> rfl

theorem spell_barredIf : (barredIf spell level source options stage).spell = stage.spell := by
  unfold barredIf
  split <;> rfl

theorem loader_barredIf : (barredIf spell level source options stage).loader = stage.loader := by
  unfold barredIf
  split <;> rfl

def struck : Stage S :=
  stage.after (Castable.effect level source params stage.spell stage.caster)

theorem finish_runEffect (failure : Notice) :
    finish (runEffect failure spell level source params) stage =
      match (Castable.effect level source params stage.spell stage.caster).answer with
      | .done => (.ok (), struck level source params stage)
      | .refused error =>
        (.error (.failed (.execution spell error)),
          (struck level source params stage).noted failure)
      | .brokenOff reason =>
        (.error (.brokenOff reason), struck level source params stage) := by
  unfold runEffect
  simp only [finish_bind, finish_ask]
  cases (Castable.effect level source params stage.spell stage.caster).answer <;> rfl

theorem runEffect_cases (failure : Notice) :
    ((Castable.effect level source params stage.spell stage.caster).answer = .done ∧
      finish (runEffect failure spell level source params) stage =
        (.ok (), struck level source params stage)) ∨
    (∃ error, (Castable.effect level source params stage.spell stage.caster).answer =
        .refused error ∧
      finish (runEffect failure spell level source params) stage =
        (.error (.failed (.execution spell error)),
          (struck level source params stage).noted failure)) ∨
    (∃ reason, (Castable.effect level source params stage.spell stage.caster).answer =
        .brokenOff reason ∧
      finish (runEffect failure spell level source params) stage =
        (.error (.brokenOff reason), struck level source params stage)) := by
  rw [finish_runEffect]
  cases (Castable.effect level source params stage.spell stage.caster).answer with
  | done => exact .inl ⟨rfl, rfl⟩
  | refused error => exact .inr (.inl ⟨error, rfl, rfl⟩)
  | brokenOff reason => exact .inr (.inr ⟨reason, rfl, rfl⟩)

def settle : CastM S Executed := do
  let manaCost? ← whenSet options.consumeMana (chargeMana resolved level)
  let cooldownTicks? ← whenSet options.triggerCooldown (recordCooldown spell resolved)
  onlyIf options.playEffects
    (tell .caster (.effectReplay spell level source params.toCompound))
  ask (Castable.complete level source)
  note .castCompleted
  return ⟨manaCost?, cooldownTicks?, "cast " ++ Castable.name (← get).spell⟩

def screen : CastM S Unit := onlyIf (!options.bypassConditions) (checkAdmission level source)

/-- An execution under the id of a spell, in four steps, the first two of which depend on the
    options. -/
def executeAs : CastM S Executed :=
  screen level source options >>= fun _ =>
  onlyIf options.showCastBar (startBar spell level source) >>= fun _ =>
  runEffect .effectFailed spell level source params >>= fun _ =>
  settle spell level source params resolved options

/-- An execution goes by the id that the spell has at its start. -/
theorem execute_eq :
    execute level source params resolved options =
      get >>= fun stage : Stage S =>
        executeAs (Castable.id stage.spell) level source params resolved options := by
  unfold execute executeAs screen settle onlyIf
  cases options.bypassConditions <;> cases options.showCastBar <;>
    cases options.playEffects <;> simp

theorem finish_execute :
    finish (execute level source params resolved options) stage =
      finish (executeAs (Castable.id stage.spell) level source params resolved options) stage := by
  rw [execute_eq, finish_bind, finish_get]

def cost : Int32 := resolved.manaCost level (Castable.manaMultiplier stage.spell)

def charged : Stage S :=
  if 0 < cost level resolved stage then
    let mana := larger (satSub stage.caster.mana (cost level resolved stage)) 0
    { stage with
      caster := stage.caster.setMana mana
      told := stage.told ++ [⟨.caster, .manaChanged stage.caster.id mana⟩] }
  else stage

theorem finish_chargeMana :
    finish (chargeMana resolved level) stage =
      (.ok (cost level resolved stage), charged level resolved stage) := by
  unfold chargeMana charged
  by_cases paid : 0 < cost level resolved stage
  · simp only [finish_bind, finish_get, if_pos paid]
    rw [cost] at paid
    rw [if_pos paid]
    rfl
  · simp only [finish_bind, finish_get, if_neg paid]
    rw [cost] at paid
    rw [if_neg paid]
    rfl

def ticks : Int32 :=
  resolveCooldown resolved.cooldownTicks (Castable.defaultTicks stage.spell)
    (stage.caster.effectiveCooldown spell (Castable.defaultTicks stage.spell))

def cooled : Stage S :=
  { stage with caster := stage.caster.addCooldown spell (ticks spell resolved stage) }

theorem finish_recordCooldown :
    finish (recordCooldown spell resolved) stage =
      (.ok (ticks spell resolved stage), cooled spell resolved stage) := rfl

def replayed : Stage S :=
  { stage with
    told := stage.told ++ [⟨.caster, .effectReplay spell level source params.toCompound⟩] }

def chargedIf : Stage S := if options.consumeMana then charged level resolved stage else stage

def cooledIf : Stage S := if options.triggerCooldown then cooled spell resolved stage else stage

def replayedIf : Stage S :=
  if options.playEffects then replayed spell level source params stage else stage

def paid : Stage S :=
  replayedIf spell level source params options (cooledIf spell resolved options
    (chargedIf level resolved options stage))

theorem spell_loader_paid :
    (paid spell level source params resolved options stage).spell = stage.spell ∧
      (paid spell level source params resolved options stage).loader = stage.loader := by
  have charges (stage : Stage S) : (chargedIf level resolved options stage).spell = stage.spell ∧
      (chargedIf level resolved options stage).loader = stage.loader := by
    unfold chargedIf charged
    dsimp only
    split
    · split <;> exact ⟨rfl, rfl⟩
    · exact ⟨rfl, rfl⟩
  have cools (stage : Stage S) : (cooledIf spell resolved options stage).spell = stage.spell ∧
      (cooledIf spell resolved options stage).loader = stage.loader := by
    unfold cooledIf cooled
    split <;> exact ⟨rfl, rfl⟩
  have replays (stage : Stage S) :
      (replayedIf spell level source params options stage).spell = stage.spell ∧
        (replayedIf spell level source params options stage).loader = stage.loader := by
    unfold replayedIf replayed
    split <;> exact ⟨rfl, rfl⟩
  rw [paid, (replays _).1, (replays _).2, (cools _).1, (cools _).2]
  exact charges stage

def settled : Stage S :=
  ((paid spell level source params resolved options stage).after
    (Castable.complete level source (paid spell level source params resolved options stage).spell
      (paid spell level source params resolved options stage).caster)).noted .castCompleted

/-- What an execution reports: the costs that count, and a message with the spell's last name. -/
def executed : Executed where
  manaCost? := if options.consumeMana then some (cost level resolved stage) else none
  cooldownTicks? :=
    if options.triggerCooldown then
      some (ticks spell resolved (chargedIf level resolved options stage))
    else none
  message := "cast " ++
    Castable.name (settled spell level source params resolved options stage).spell

theorem finish_charge :
    finish (whenSet options.consumeMana (chargeMana resolved level)) stage =
      (.ok (if options.consumeMana then some (cost level resolved stage) else none),
        chargedIf level resolved options stage) := by
  simp only [finish_whenSet, finish_chargeMana, chargedIf]
  split <;> rfl

theorem finish_cool :
    finish (whenSet options.triggerCooldown (recordCooldown spell resolved)) stage =
      (.ok (if options.triggerCooldown then some (ticks spell resolved stage) else none),
        cooledIf spell resolved options stage) := by
  simp only [finish_whenSet, finish_recordCooldown, cooledIf]
  split <;> rfl

omit [Castable S] in
theorem finish_replay :
    finish (onlyIf options.playEffects
      (tell .caster (.effectReplay spell level source params.toCompound))) stage =
      (.ok (), replayedIf spell level source params options stage) := by
  simp only [finish_onlyIf, finish_tell, replayedIf, replayed]
  split <;> rfl

/-- What follows a successful effect cannot fail. -/
theorem finish_settle :
    finish (settle spell level source params resolved options) stage =
      (.ok (executed spell level source params resolved options stage),
        settled spell level source params resolved options stage) := by
  unfold settle
  rw [finish_bind_ok (finish_charge ..), finish_bind_ok (finish_cool ..),
    finish_bind_ok (finish_replay ..)]
  simp only [finish_bind, finish_ask, finish_note, finish_get, finish_pure]
  rfl

/-- The ways in which an execution ends: at a check, at the effect, or when everything is settled
    that follows the effect. -/
inductive Execution : Except Stop Executed × Stage S → Prop where
  | denied {stop : Stop} {last : Stage S}
      (denied : finish (screen level source options) stage = (.error stop, last)) :
      Execution (.error stop, last)
  | failed {stop : Stop} {passed last : Stage S}
      (admitted : finish (screen level source options) stage = (.ok (), passed))
      (failed : finish (runEffect .effectFailed spell level source params)
        (barredIf spell level source options passed) = (.error stop, last)) :
      Execution (.error stop, last)
  | completed {passed struck : Stage S}
      (admitted : finish (screen level source options) stage = (.ok (), passed))
      (struck_eq : finish (runEffect .effectFailed spell level source params)
        (barredIf spell level source options passed) = (.ok (), struck)) :
      Execution
        (.ok (executed spell level source params resolved options struck),
          settled spell level source params resolved options struck)

theorem execution_executeAs :
    Execution spell level source params resolved options stage
      (finish (executeAs spell level source params resolved options) stage) := by
  rw [executeAs, finish_bind]
  rcases admitted : finish (screen level source options) stage with ⟨stop | ⟨⟨⟩⟩, passed⟩
  · exact .denied admitted
  dsimp only
  rw [finish_bind_ok (finish_barIf ..), finish_bind]
  rcases ran : finish (runEffect .effectFailed spell level source params)
    (barredIf spell level source options passed) with ⟨stop | ⟨⟨⟩⟩, struck⟩
  · exact .failed admitted ran
  -- the effect was the last that could stop it
  dsimp only
  rw [finish_settle]
  exact .completed admitted ran

/-- Every execution ends in one of these ways, under the id that the spell has at its start. -/
theorem execution_execute :
    Execution (Castable.id stage.spell) level source params resolved options stage
      (finish (execute level source params resolved options) stage) := by
  rw [finish_execute]
  exact execution_executeAs ..

end Execution

/-! ## A whole cast -/

section Whole

variable (spell : String) (level : UInt32) (source : CastSource) (params : Parameters)
  (stage : Stage S)

/-- The stage after a cast bar that this cast started was taken back. -/
def unbarred : Stage S :=
  if stage.barStarted then
    { stage with
      caster := stage.caster.reset
      told := stage.told ++
        [⟨.tracking, .finished stage.caster.id spell true⟩] }
  else stage

omit [Castable S] in
theorem spell_unbarred : (unbarred spell stage).spell = stage.spell := by
  unfold unbarred
  split <;> rfl

omit [Castable S] in
theorem loader_unbarred : (unbarred spell stage).loader = stage.loader := by
  unfold unbarred
  split <;> rfl

omit [Castable S] in
theorem finish_conclude_error (error : CastError) :
    finish (conclude spell (.error error)) stage =
      (.ok (), (unbarred spell (stage.entered .failed)).noted .castFailed) := by
  simp only [conclude, unbarred, finish_bind, finish_enter, finish_get]
  split <;> rfl

def perform (resolved : SpellConfig) (options : CastOptions) :
    CastM S (Except CastError Executed) := do
  enter .executing
  let outcome ← attempt (execute level source params resolved options)
  conclude spell outcome
  return outcome

/-- A performance keeps the error of its execution as an answer, unless the effect broke off. -/
theorem finish_perform (resolved : SpellConfig) (options : CastOptions) :
    finish (perform spell level source params resolved options) stage =
      match finish (execute level source params resolved options) (stage.entered .executing) with
      | (.ok done, last) => (.ok (.ok done), last.entered .succeeded)
      | (.error (.failed error), last) =>
        (.ok (.error error), (unbarred spell (last.entered .failed)).noted .castFailed)
      | (.error (.brokenOff reason), last) => (.error (.brokenOff reason), last) := by
  unfold perform
  simp only [finish_bind, finish_enter, finish_attempt]
  cases finish (execute level source params resolved options) (stage.entered .executing) with
  | mk answer last =>
    rcases answer with (error | reason) | done
    · simp only [finish_conclude_error, finish_pure]
    · rfl
    · rfl

def resolution (normalized : Parameters) : Loader.Answer SpellConfig :=
  answerTo ((Castable.schema stage.spell).supplied params normalized) stage

def prepared (normalized : Parameters) : Stage S :=
  ((stage.entered .validating).entered .preparing).informed (resolution params stage normalized)

/-- The phases that a cast enters first make no difference to its configuration. -/
theorem finish_resolution (normalized : Parameters) :
    finish (resolve ((Castable.schema stage.spell).supplied params normalized))
        ((stage.entered .validating).entered .preparing) =
      (.ok (resolution params stage normalized).value, prepared params stage normalized) := rfl

def report (resolved : SpellConfig) (options : CastOptions) (done : Executed)
    (barStarted : Bool) : CastReport where
  spell := Castable.id stage.spell
  level
  config := resolved
  options
  manaCost? := done.manaCost?
  cooldownTicks? := done.cooldownTicks?
  castBarStarted := barStarted
  fallback := false
  message := done.message

theorem finish_castParameterized_of_error {errors : ValidationErrors}
    (invalid : ((Castable.schema stage.spell).validate params).toExcept = .error errors) :
    finish (castParameterized level source params) stage =
      (.error (.failed (.validation errors)),
        ((stage.entered .validating).entered .rejected).noted .parametersRejected) := by
  unfold castParameterized
  simp only [finish_bind, finish_enter, finish_get]
  rw [show (stage.entered .validating).spell = stage.spell from rfl, invalid]
  rfl

/-- The performance of a cast with valid parameters, on the stage with the resolved configuration
    installed. -/
def performance (normalized : Parameters) : Except Stop (Except CastError Executed) × Stage S :=
  finish (perform (Castable.id stage.spell) level source normalized
      (resolution params stage normalized).value
      (CastOptions.ofParameters source normalized))
    ((prepared params stage normalized).configured (resolution params stage normalized).value)

/-- A cast with valid parameters performs with the resolved configuration, and then gives the
    spell the configuration back that was live before. -/
theorem finish_castParameterized_of_ok {normalized : Parameters}
    (valid : ((Castable.schema stage.spell).validate params).toExcept = .ok normalized) :
    finish (castParameterized level source params) stage =
      match performance level source params stage normalized with
      | (.ok (.ok done), last) =>
        (.ok (report level stage (resolution params stage normalized).value
            (CastOptions.ofParameters source normalized) done last.barStarted),
          (last.configured (Castable.config stage.spell)).entered .restored)
      | (.ok (.error error), last) =>
        (.error (.failed error),
          (last.configured (Castable.config stage.spell)).entered .restored)
      | (.error stop, last) =>
        (.error stop, last.configured (Castable.config stage.spell)) := by
  unfold castParameterized
  simp only [finish_bind, finish_enter, finish_get]
  rw [show (stage.entered .validating).spell = stage.spell from rfl, valid]
  dsimp only
  rw [finish_bind_ok (finish_enter ..), finish_bind_ok (finish_resolution ..)]
  -- the guard gives the configuration back before the outcome is looked at
  rw [finish_bind, finish_guarded]
  unfold performance perform
  cases finish (_ : CastM S (Except CastError Executed)) _ with
  | mk answer last =>
    rcases answer with stop | (error | done)
    · rfl
    · rfl
    · rfl

theorem left_castParameterized_of_ok {normalized : Parameters}
    (valid : ((Castable.schema stage.spell).validate params).toExcept = .ok normalized) :
    let left := (performance level source params stage normalized).2
    let last := (finish (castParameterized level source params) stage).2
    last.spell = Castable.setConfig left.spell (Castable.config stage.spell) ∧
      last.caster = left.caster ∧ last.loader = left.loader ∧ last.told = left.told := by
  rw [finish_castParameterized_of_ok level source params stage valid]
  obtain ⟨stop | (error | done), left⟩ := performance level source params stage normalized
  · exact ⟨rfl, rfl, rfl, rfl⟩
  · exact ⟨rfl, rfl, rfl, rfl⟩
  · exact ⟨rfl, rfl, rfl, rfl⟩

theorem report_of_castParameterized {normalized : Parameters}
    (valid : ((Castable.schema stage.spell).validate params).toExcept = .ok normalized)
    {reported : CastReport}
    (done : (finish (castParameterized level source params) stage).1 = .ok reported) :
    ∃ executed barStarted, reported = report level stage (resolution params stage normalized).value
      (CastOptions.ofParameters source normalized) executed barStarted := by
  rw [finish_castParameterized_of_ok level source params stage valid] at done
  generalize performance level source params stage normalized = ending at done
  obtain ⟨stop | (error | executed), last⟩ := ending
  · cases done
  · cases done
  · cases done
    exact ⟨executed, last.barStarted, rfl⟩

theorem finish_castDirect_of_error {errors : ValidationErrors}
    (invalid : ((Castable.schema stage.spell).validate params).toExcept = .error errors) :
    finish (castDirect level source params) stage =
      (.error (.failed (.validation errors)), stage.noted .directParametersRejected) := by
  unfold castDirect
  simp only [finish_bind, finish_get, invalid]
  rfl

theorem finish_castDirect_of_ok {normalized : Parameters}
    (valid : ((Castable.schema stage.spell).validate params).toExcept = .ok normalized) :
    finish (castDirect level source params) stage =
      (let ending := finish (runEffect .directCastFailed (Castable.id stage.spell) level
          source normalized)
        ((stage.informed (resolution params stage normalized)).configured
          (resolution params stage normalized).value)
       (ending.1, ending.2.configured (Castable.config stage.spell))) := by
  unfold castDirect
  simp only [finish_bind, finish_get, valid]
  rw [finish_resolve]
  dsimp only
  rw [finish_guarded]
  rfl

def attempted : Stage S :=
  (stage.noted .fixedCastUsed).after (Castable.attempt level source stage.spell stage.caster)

theorem castFixed_cases :
    ((Castable.attempt level source stage.spell stage.caster).answer = true ∧
      ∃ report, finish (castFixed level source) stage =
        (.ok report, attempted level source stage)) ∨
    ((Castable.attempt level source stage.spell stage.caster).answer = false ∧
      finish (castFixed level source) stage =
        (.error (.failed (.fallbackDeclined (Castable.id (attempted level source stage).spell))),
          attempted level source stage)) := by
  unfold castFixed
  simp only [finish_bind, finish_note, finish_ask]
  rw [show (stage.noted .fixedCastUsed).spell = stage.spell from rfl,
    show (stage.noted .fixedCastUsed).caster = stage.caster from rfl]
  cases answered : (Castable.attempt level source stage.spell stage.caster).answer with
  | true => left; exact ⟨rfl, _, rfl⟩
  | false => right; exact ⟨rfl, rfl⟩

theorem finish_castSpell :
    finish (castSpell level source params) stage =
      if Castable.isParameterized stage.spell then
        finish (castParameterized level source params) stage
      else finish (castFixed level source) stage := by
  unfold castSpell
  simp only [finish_bind, finish_get]
  split <;> rfl

theorem finish_castSpell_of_parameterized
    (parameterized : Castable.isParameterized stage.spell = true) :
    finish (castSpell level source params) stage =
      finish (castParameterized level source params) stage := by
  rw [finish_castSpell, if_pos parameterized]

end Whole

end CastM

theorem CastResult.ofSpell_eq {R S α : Type} [Registry R S] (registry : R) (id : String)
    (spell : S) (caster : Caster) (loader : Loader) (part : CastM S α) :
    CastResult.ofSpell registry id spell caster loader part =
      (let ending := CastM.finish part { spell, caster, loader }
       ⟨ending.1, Registry.replace registry id ending.2.spell, ending.2.caster, ending.2.loader,
        ending.2.told, ending.2.notices⟩) := by
  unfold CastResult.ofSpell CastM.finish
  cases part _ <;> rfl

theorem castText_of_decoded {R S : Type} [Castable S] [Registry R S] (registry : R)
    (caster : Caster) (loader : Loader) (source : CastSource) (id : String) (level : UInt32)
    {text : String} {params : Parameters} (decoded : Parameters.ofText text = .ok params) :
    castText registry caster loader source id level text =
      castWith registry caster loader source id level params := by
  rw [castText, decoded]

theorem castWith_of_parameterized {R S : Type} [Castable S] [Registry R S] (registry : R)
    (caster : Caster) (loader : Loader) (source : CastSource) (id : String) (level : UInt32)
    (params : Parameters) {spell : S} (found : Registry.find? registry id = some spell)
    (parameterized : Castable.isParameterized spell = true) :
    castWith registry caster loader source id level params =
      (let ending :=
        CastM.finish (CastM.castParameterized level source params) { spell, caster, loader }
       ⟨ending.1, Registry.replace registry id ending.2.spell, ending.2.caster, ending.2.loader,
        ending.2.told, ending.2.notices⟩) := by
  rw [castWith, found]
  dsimp only
  rw [CastResult.ofSpell_eq,
    CastM.finish_castSpell_of_parameterized level source params _ parameterized]

theorem castWith_of_fixed {R S : Type} [Castable S] [Registry R S] (registry : R)
    (caster : Caster) (loader : Loader) (source : CastSource) (id : String) (level : UInt32)
    (params : Parameters) {spell : S} (found : Registry.find? registry id = some spell)
    (fixed : Castable.isParameterized spell = false) :
    castWith registry caster loader source id level params =
      (let ending := CastM.finish (CastM.castFixed level source) { spell, caster, loader }
       ⟨ending.1, Registry.replace registry id ending.2.spell, ending.2.caster, ending.2.loader,
        ending.2.told, ending.2.notices⟩) := by
  rw [castWith, found]
  dsimp only
  rw [CastResult.ofSpell_eq, CastM.finish_castSpell, if_neg (by simp [fixed])]

end Spellcraft
