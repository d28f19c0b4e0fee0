import Spellcraft.Proofs.Cast.Payment
import Spellcraft.Proofs.Catalog.Failure

/-! # The account of a cast

Three things tell of a cast of a catalog spell: its report, its events and the caster that it
leaves. They are written at different places of the cast; here each of them is read off the input.

* `CatalogSpell.denial?`, `CatalogSpell.Fault` — why a cast is turned down, and how else it fails;
* `CatalogSpell.bar?` — the cast bar that a cast shows;
* `CatalogSpell.Succeeds` — whether a cast succeeds;
* `CatalogSpell.Settled` — what a successful cast reports, tells and makes of the caster;
* `CatalogSpell.EffectOnly` — what a direct cast leaves, which is nothing but its effect;
* `CatalogSpell.castWith_account` — every cast from a registry, whether it succeeds or not.
-/

namespace Spellcraft

namespace CatalogSpell

/-! ## Hooks -/

theorem admission_reply (level : UInt32) (source : CastSource) (s : CatalogSpell)
    (caster : Caster) :
    admission level source s caster = ⟨(admission level source s caster).answer, s, caster, []⟩ := by
  unfold admission
  split
  · rfl
  · split <;> rfl

/-- An effect has nothing to do with cast bars, and changes nothing of the caster but the mana. -/
theorem effect_casting (level : UInt32) (source : CastSource) (params : Parameters)
    (s : CatalogSpell) (caster : Caster) (casting? : Option ActiveCast) :
    let reply := effect level source params s caster
    effect level source params s { caster with casting? } =
      { reply with caster := { caster with mana := reply.caster.mana, casting? } } := by
  unfold effect resolveEffect
  dsimp only
  cases s.definition.effect with
  | projectile => cases needVec3 params "target" <;> rfl
  | blink maxDistance =>
    cases needVec3 params "offset" with
    | error e => rfl
    | ok offset =>
      dsimp only
      cases maxDistance.lt offset.length <;> rfl
  | manaSurge => rfl

theorem effect_spell (level : UInt32) (source : CastSource) (params : Parameters)
    (s : CatalogSpell) (caster : Caster) :
    let reply := effect level source params s caster
    reply.spell = { s with lastOutcome? := reply.spell.lastOutcome? } := by
  unfold effect
  dsimp only
  cases resolveEffect s.definition.effect (s.live.spellPower level) params caster <;> rfl

/-! ## Executions -/

section

variable (level : UInt32) (source : CastSource) (options : CastOptions) (s : CatalogSpell)
  (caster : Caster)

def passes : Bool :=
  options.bypassConditions || decide ((admission level source s caster).answer = .allowed)

def denial? : Option String :=
  if options.bypassConditions then none
  else if s.tuning.enabled = false then some (s.definition.name ++ " is disabled")
  else if source.options.consumeMana ∧ caster.mana < s.manaCost level then
    some ("not enough mana to cast " ++ s.definition.name)
  else none

def bar? : Option ActiveCast :=
  if passes level source options s caster ∧ options.showCastBar ∧ 0 < s.live.castTime ∧
      caster.casting? = none then
    some ⟨s.definition.id, level, s.live.castTime, source⟩
  else none

/-- The errors in which a cast with valid parameters ends: of a check, or of the effect. -/
inductive Fault (params : Parameters) : CastError → Prop where
  | denied {message : String} (denied : denial? level source options s caster = some message) :
      Fault params (.notCastable s.definition.id message)
  | refused {error : EffectError} (admitted : denial? level source options s caster = none)
      (refused : (effect level source params s caster).answer = .refused error) :
      Fault params (.execution s.definition.id error)

theorem answer_admission :
    (admission level source s caster).answer =
      match denial? level source { options with bypassConditions := false } s caster with
      | none => .allowed
      | some message => .denied (some message) := by
  unfold admission denial?
  rw [if_neg (nofun : ¬ false = true)]
  cases s.tuning.enabled with
  | false => rfl
  | true =>
    rw [if_neg (nofun : ¬ (!true) = true), if_neg (nofun : ¬ true = false)]
    by_cases short : source.options.consumeMana ∧ caster.mana < s.manaCost level
    · rw [if_pos short, if_pos short]
    · rw [if_neg short, if_neg short]

theorem passes_iff_denial? :
    passes level source options s caster = true ↔ denial? level source options s caster = none := by
  unfold passes
  rw [answer_admission level source options]
  cases bypassed : options.bypassConditions with
  | true => simp [denial?, bypassed]
  | false =>
    have same : { options with bypassConditions := false } = options := by
      rw [← bypassed]
    rw [same]
    cases denial? level source options s caster <;> simp

end

def Succeeds (level : UInt32) (source : CastSource) (params : Parameters) (options : CastOptions)
    (s : CatalogSpell) (caster : Caster) : Prop :=
  passes level source options s caster = true ∧
    (effect level source params s caster).answer = .done

def recharge (s : CatalogSpell) (caster : Caster) : Int32 :=
  resolveCooldown s.live.cooldownTicks s.base.cooldownTicks
    (caster.effectiveCooldown s.definition.id s.base.cooldownTicks)

def opening (caster : Caster) (bar? : Option ActiveCast) : List Notification :=
  bar?.toList.map fun bar => ⟨.tracking, .started caster.id bar.spell bar.level bar.duration⟩

def closing (caster : Caster) (bar? : Option ActiveCast) : List Notification :=
  bar?.toList.map fun bar => ⟨.tracking, .finished caster.id bar.spell true⟩

/-- What a successful cast of a spell reports, tells and makes of the caster. The spell is the one
    with the configuration of the cast, and the effect left some mana. -/
structure Settled (level : UInt32) (source : CastSource) (params : Parameters)
    (options : CastOptions) (s : CatalogSpell) (caster : Caster) (mana : Int32)
    (cost? ticks? : Option Int32) (barStarted : Bool) (last : Caster)
    (told : List Notification) : Prop where
  cost?_eq : cost? = if options.consumeMana then some (s.manaCost level) else none
  ticks?_eq : ticks? = if options.triggerCooldown then some (s.recharge caster) else none
  barStarted_eq : barStarted = (bar? level source options s caster).isSome
  last_eq : last = { caster with
    mana := (cost?.filter (0 < ·)).elim mana fun cost => larger (satSub mana cost) 0
    casting? := bar? level source options s caster <|> caster.casting?
    cooldowns := ticks?.elim caster.cooldowns (caster.cooldowns.put s.definition.id) }
  told_eq : told = opening caster (bar? level source options s caster) ++
    ((cost?.filter (0 < ·)).toList.map fun _ => ⟨.caster, .manaChanged caster.id last.mana⟩) ++
    if options.playEffects then
      [⟨.caster, .effectReplay s.definition.id level source params.toCompound⟩]
    else []

theorem charge_eq (takes : Bool) (cost mana : Int32) :
    ((if takes then some cost else none).filter (0 < ·)).elim mana
        (fun cost => larger (satSub mana cost) 0) =
      if takes ∧ 0 < cost then larger (satSub mana cost) 0 else mana := by
  cases takes with
  | false => simp
  | true => by_cases positive : 0 < cost <;> simp [Option.filter, positive]

theorem Settled.mana_eq {level : UInt32} {source : CastSource} {params : Parameters}
    {options : CastOptions} {s : CatalogSpell} {caster last : Caster} {mana : Int32}
    {cost? ticks? : Option Int32} {barStarted : Bool} {told : List Notification}
    (settled : Settled level source params options s caster mana cost? ticks? barStarted last told) :
    last.mana = if options.consumeMana ∧ 0 < s.manaCost level then
      larger (satSub mana (s.manaCost level)) 0 else mana := by
  rw [settled.last_eq, settled.cost?_eq]
  exact charge_eq ..

end CatalogSpell

namespace CastM

open CatalogSpell

section

variable (level : UInt32) (source : CastSource) (params : Parameters) (resolved : SpellConfig)
  (options : CastOptions) (stage : Stage CatalogSpell)

theorem admitted_catalog : admitted level source stage = stage := by
  unfold admitted
  rw [show Castable.admission level source stage.spell stage.caster = _ from
    admission_reply level source stage.spell stage.caster]
  simp [Stage.after]

theorem checked_catalog : checked level source stage = stage := by
  unfold checked
  rw [admitted_catalog]
  change stage.after ⟨true, stage.spell, stage.caster, []⟩ = stage
  simp [Stage.after]

theorem finish_screen_of_passes
    (passed : passes level source options stage.spell stage.caster = true) :
    finish (screen level source options) stage = (.ok (), stage) := by
  rw [screen, finish_onlyIf, finish_checkAdmission, admitted_catalog, checked_catalog]
  unfold passes at passed
  cases bypassed : options.bypassConditions with
  | true => rfl
  | false =>
    have allowed : (admission level source stage.spell stage.caster).answer = .allowed := by
      simpa [bypassed] using passed
    rw [show (Castable.admission level source stage.spell stage.caster).answer = .allowed from
      allowed]
    rfl

theorem finish_screen_of_denial {message : String}
    (denied : denial? level source options stage.spell stage.caster = some message) :
    finish (screen level source options) stage =
      (.error (.failed (.notCastable (Castable.id stage.spell) message)), stage) := by
  rw [screen, finish_onlyIf, finish_checkAdmission, admitted_catalog]
  rw [show (Castable.admission level source stage.spell stage.caster).answer = _ from
    answer_admission level source options stage.spell stage.caster]
  cases bypassed : options.bypassConditions with
  | true => simp [denial?, bypassed] at denied
  | false =>
    have same : { options with bypassConditions := false } = options := by
      rw [← bypassed]
    rw [same, denied]
    rfl

def barred : Stage CatalogSpell :=
  let shown? := bar? level source options stage.spell stage.caster
  { stage with
    caster := { stage.caster with casting? := shown? <|> stage.caster.casting? }
    barStarted := shown?.isSome || stage.barStarted
    told := stage.told ++ opening stage.caster shown? }

theorem barredIf_catalog
    (passed : passes level source options stage.spell stage.caster = true) :
    barredIf (Castable.id stage.spell) level source options stage =
      barred level source options stage := by
  have starts : (options.showCastBar && startsBar level stage) = true ↔
      options.showCastBar = true ∧ 0 < stage.spell.live.castTime ∧
        stage.caster.casting? = none := by
    have time : stage.duration level = stage.spell.live.castTime := rfl
    simp [startsBar, Caster.isCasting, time]
  unfold barredIf barred
  by_cases shown : options.showCastBar = true ∧ 0 < stage.spell.live.castTime ∧
      stage.caster.casting? = none
  · rw [if_pos (starts.mpr shown), bar?, if_pos ⟨passed, shown⟩]
    rfl
  · rw [if_neg fun given => shown (starts.mp given), bar?, if_neg fun given => shown given.2]
    simp [opening]

theorem finish_execute_of_denial {message : String}
    (denied : denial? level source options stage.spell stage.caster = some message) :
    finish (execute level source params resolved options) stage =
      (.error (.failed (.notCastable (Castable.id stage.spell) message)), stage) := by
  rw [finish_execute, executeAs, finish_bind,
    finish_screen_of_denial level source options stage denied]

/-- Past the checks an execution is the effect, on the stage with its bar, and what follows. -/
theorem finish_execute_of_passes
    (passed : passes level source options stage.spell stage.caster = true) :
    finish (execute level source params resolved options) stage =
      finish (runEffect .effectFailed (Castable.id stage.spell) level source params >>= fun _ =>
          settle (Castable.id stage.spell) level source params resolved options)
        (barred level source options stage) := by
  rw [finish_execute, executeAs,
    finish_bind_ok (finish_screen_of_passes level source options stage passed),
    finish_bind_ok (finish_barIf ..), barredIf_catalog level source options stage passed]

theorem struck_barred :
    let reply := effect level source params stage.spell stage.caster
    ∃ notices, struck level source params (barred level source options stage) =
      { barred level source options stage with
        spell := { stage.spell with lastOutcome? := reply.spell.lastOutcome? }
        caster := { (barred level source options stage).caster with mana := reply.caster.mana }
        notices } := by
  intro reply
  refine ⟨stage.notices ++ reply.notices, ?_⟩
  change (barred level source options stage).after (effect level source params stage.spell
    { stage.caster with casting? := _ }) = _
  rw [effect_casting, effect_spell]
  rfl

theorem settled_barred (bare : stage.told = []) (unbegun : stage.barStarted = false)
    (installed : stage.spell.live = resolved) :
    let reply := effect level source params stage.spell stage.caster
    let spell := Castable.id stage.spell
    let struck := struck level source params (barred level source options stage)
    let done := executed spell level source params resolved options struck
    let last := settled spell level source params resolved options struck
    last.spell = { stage.spell with lastOutcome? := reply.spell.lastOutcome? } ∧
      Settled level source params options stage.spell stage.caster reply.caster.mana
        done.manaCost? done.cooldownTicks? last.barStarted last.caster last.told := by
  intro reply spell struck done last
  obtain ⟨notices, ran⟩ := struck_barred level source params options stage
  obtain ⟨cost_eq, ticks_eq⟩ :=
    costs_executed spell level source params resolved options struck
  obtain ⟨more, ended⟩ : ∃ notices, last =
      { paid spell level source params resolved options struck with notices } := ⟨_, rfl⟩
  rw [paid_eq] at ended
  simp only [ended, done]
  rw [cost_eq, ticks_eq]
  simp only [struck, ran]
  refine ⟨rfl, ?_, ?_, ?_, ?_, ?_⟩
  · rw [← installed]
    rfl
  · rw [← installed]
    rfl
  · simp [barred, unbegun]
  · rfl
  · simp [barred, bare]
    rfl

/-- The spell and the caster are as they were, and the bar that was shown is taken back. -/
structure TakenBack (last : Stage CatalogSpell) : Prop where
  spell_eq : last.spell = stage.spell
  caster_eq : last.caster = stage.caster
  told_eq :
    let shown? := bar? level source options stage.spell stage.caster
    last.told = stage.told ++ (opening stage.caster shown? ++ closing stage.caster shown?)

theorem unbarred_barred (free : stage.barStarted = false) (phase : CastPhase)
    (notices : List Notice) :
    TakenBack level source options stage (unbarred (Castable.id stage.spell)
      { barred level source options stage with phase, notices }) := by
  cases shows : bar? level source options stage.spell stage.caster with
  | none =>
    rw [unbarred, if_neg (by simp [barred, shows, free])]
    constructor
    · rfl
    · simp [barred, shows]
    · simp [barred, shows, opening, closing]
  | some bar =>
    -- a bar of its own was shown to a caster who had none
    obtain ⟨idle, own⟩ : stage.caster.casting? = none ∧ bar.spell = stage.spell.definition.id := by
      unfold bar? at shows
      split at shows
      · next shown =>
        cases shows
        exact ⟨shown.2.2.2, rfl⟩
      · cases shows
    rw [unbarred, if_pos (by simp [barred, shows])]
    constructor
    · rfl
    · change ({ stage.caster with casting? := none } : Caster) = stage.caster
      rw [← idle]
    · simp only [shows]
      rw [closing, Option.toList_some, List.map_singleton, own, ← List.append_assoc]
      simp [barred, shows]
      rfl

theorem finish_perform_of_not_succeeds (unbegun : stage.barStarted = false)
    (fails : ¬ Succeeds level source params options stage.spell stage.caster) :
    ∃ error last,
      finish (perform (Castable.id stage.spell) level source params resolved options) stage =
        (.ok (.error error), last) ∧
      Fault level source options stage.spell stage.caster params error ∧
      TakenBack level source options stage last := by
  rw [finish_perform]
  cases denied : denial? level source options stage.spell stage.caster with
  | some message =>
    -- the bar is raised after the checks, so here there is none to take down
    have none : bar? level source options stage.spell stage.caster = none := by
      simp [bar?, passes_iff_denial?, denied]
    rw [finish_execute_of_denial level source params resolved options (stage.entered .executing)
      denied]
    refine ⟨_, _, rfl, .denied denied, ?_⟩
    rw [unbarred, if_neg (by simp [Stage.entered, unbegun])]
    refine ⟨rfl, rfl, ?_⟩
    rw [none]
    exact (List.append_nil _).symm
  | none =>
    have passed : passes level source options stage.spell stage.caster = true :=
      (passes_iff_denial? ..).mpr denied
    have refused : ∃ error, effect level source params stage.spell stage.caster =
        ⟨.refused error, stage.spell, stage.caster, []⟩ := by
      rcases effect_cases level source params stage.spell stage.caster with refused | done
      · exact refused
      · exact absurd ⟨passed, done⟩ fails
    obtain ⟨error, refused⟩ := refused
    let start := stage.entered .executing
    -- the effect runs under the bar, of which it sees nothing
    have struck_eq : Castable.effect level source params (barred level source options start).spell
        (barred level source options start).caster =
          ⟨.refused error, stage.spell, (barred level source options start).caster, []⟩ := by
      change effect level source params stage.spell { stage.caster with casting? := _ } = _
      rw [effect_casting, refused]
      rfl
    rw [finish_execute_of_passes level source params resolved options start passed, finish_bind,
      finish_runEffect, struck, struck_eq]
    obtain ⟨spell_eq, caster_eq, told_eq⟩ := unbarred_barred level source options start unbegun ..
    exact ⟨_, _, rfl, .refused denied (congrArg HookReply.answer refused), spell_eq, caster_eq,
      told_eq⟩

theorem finish_perform_of_succeeds (bare : stage.told = []) (unbegun : stage.barStarted = false)
    (installed : stage.spell.live = resolved)
    (succeeds : Succeeds level source params options stage.spell stage.caster) :
    let reply := effect level source params stage.spell stage.caster
    ∃ done last,
      finish (perform (Castable.id stage.spell) level source params resolved options) stage =
        (.ok (.ok done), last) ∧
      last.spell = { stage.spell with lastOutcome? := reply.spell.lastOutcome? } ∧
      Settled level source params options stage.spell stage.caster reply.caster.mana
        done.manaCost? done.cooldownTicks? last.barStarted last.caster last.told := by
  obtain ⟨passed, done⟩ := succeeds
  let start := stage.entered .executing
  have struck_eq : (Castable.effect level source params (barred level source options start).spell
      (barred level source options start).caster).answer = .done := by
    change (effect level source params stage.spell { stage.caster with casting? := _ }).answer = _
    rw [effect_casting]
    exact done
  rw [finish_perform,
    finish_execute_of_passes level source params resolved options start passed, finish_bind,
    finish_runEffect, struck_eq]
  dsimp only
  rw [finish_settle]
  exact ⟨_, _, rfl, settled_barred level source params resolved options start bare unbegun installed⟩

end

end CastM

/-! ## Whole casts -/

namespace CatalogSpell

section

variable (level : UInt32) (source : CastSource) (params : Parameters) (s : CatalogSpell)
  (caster : Caster) (loader : Loader)

def installed (normal : Parameters) : CatalogSpell :=
  { s with live :=
      (loader.resolve s.definition.id (s.schema.supplied params normal) s.live).value }

/-- What the end of a cast with valid parameters tells: the answer, and the spell, the caster and
    the events that it leaves. -/
structure Account (normal : Parameters) (answer : Except Stop CastReport) (left : CatalogSpell)
    (last : Caster) (told : List Notification) : Prop where
  ok_iff : (∃ report, answer = .ok report) ↔
    Succeeds level source normal (.ofParameters source normal) (s.installed params loader normal)
      caster
  failed : ∀ stop, answer = .error stop →
    let shown? := bar? level source (.ofParameters source normal)
      (s.installed params loader normal) caster
    left = s ∧ last = caster ∧ told = opening caster shown? ++ closing caster shown?
  succeeded : ∀ report, answer = .ok report →
    let cast := s.installed params loader normal
    let reply := effect level source normal cast caster
    left = { s with lastOutcome? := reply.spell.lastOutcome? } ∧
      report.config = cast.live ∧ report.options = .ofParameters source normal ∧
      Settled level source normal report.options cast caster reply.caster.mana
        report.manaCost? report.cooldownTicks? report.castBarStarted last told

theorem castParameterized_of_not_succeeds {normal : Parameters}
    (valid : (s.schema.validate params).toExcept = .ok normal)
    (fails : ¬ Succeeds level source normal (.ofParameters source normal)
      (s.installed params loader normal) caster) :
    let cast := s.installed params loader normal
    let ending := CastM.finish (CastM.castParameterized level source params)
      { spell := s, caster, loader }
    let shown? := bar? level source (.ofParameters source normal) cast caster
    (∃ error, ending.1 = .error (.failed error) ∧
        Fault level source (.ofParameters source normal) cast caster normal error) ∧
      ending.2.spell = s ∧ ending.2.caster = caster ∧
      ending.2.told = opening caster shown? ++ closing caster shown? := by
  intro cast ending shown?
  let start : Stage CatalogSpell := { spell := s, caster, loader }
  have ended : ending = _ :=
    CastM.finish_castParameterized_of_ok level source params start valid
  obtain ⟨error, last, performed, fault, ⟨kept, undone, told⟩⟩ :=
    CastM.finish_perform_of_not_succeeds level source
    normal _ (.ofParameters source normal)
    ((CastM.prepared params start normal).configured
      (CastM.resolution params start normal).value) rfl fails
  have performed' : CastM.performance level source params start normal = _ := performed
  rw [performed'] at ended
  rw [ended]
  refine ⟨⟨error, rfl, fault⟩, ?_, undone, told⟩
  change { last.spell with live := s.live } = _
  rw [kept]
  rfl

theorem account_castParameterized {normal : Parameters}
    (valid : (s.schema.validate params).toExcept = .ok normal) :
    let ending := CastM.finish (CastM.castParameterized level source params)
      { spell := s, caster, loader }
    Account level source params s caster loader normal ending.1 ending.2.spell ending.2.caster
      ending.2.told := by
  intro ending
  by_cases succeeds : Succeeds level source normal (.ofParameters source normal)
    (s.installed params loader normal) caster
  · let start : Stage CatalogSpell := { spell := s, caster, loader }
    have ended : ending = _ :=
      CastM.finish_castParameterized_of_ok level source params start valid
    obtain ⟨done, last, performed, kept, settled⟩ := CastM.finish_perform_of_succeeds level source
      normal _ (.ofParameters source normal)
      ((CastM.prepared params start normal).configured
        (CastM.resolution params start normal).value) rfl rfl rfl succeeds
    have performed' : CastM.performance level source params start normal = _ := performed
    rw [performed'] at ended
    rw [ended]
    refine ⟨⟨fun _ => succeeds, fun _ => ⟨_, rfl⟩⟩, fun stop failed => (by cases failed), ?_⟩
    rintro report ⟨⟩
    refine ⟨?_, rfl, rfl, settled⟩
    change { last.spell with live := s.live } = _
    rw [kept]
    rfl
  · obtain ⟨⟨error, ended, -⟩, kept, undone, told⟩ :=
      castParameterized_of_not_succeeds level source params s caster loader valid succeeds
    change ending.1 = _ at ended
    rw [ended]
    refine ⟨⟨fun ⟨report, ok⟩ => (by cases ok), fun given => absurd given succeeds⟩, ?_,
      fun report ok => (by cases ok)⟩
    exact fun _ _ => ⟨kept, undone, told⟩

end

/-! ## Direct casts -/

section

variable (level : UInt32) (source : CastSource) {s : CatalogSpell} (caster : Caster)
  (loader : Loader) {params normal : Parameters}

structure EffectOnly (s : CatalogSpell) (loader : Loader)
    (reply : HookReply CatalogSpell EffectResult) (answer : Except Stop Unit)
    (last : Stage CatalogSpell) : Prop where
  answer_eq : answer = match reply.answer with
    | .done => .ok ()
    | .refused error => .error (.failed (.execution s.definition.id error))
    | .brokenOff reason => .error (.brokenOff reason)
  spell_eq : last.spell = { s with lastOutcome? := reply.spell.lastOutcome? }
  caster_eq : last.caster = reply.caster
  loader_eq : last.loader = loader.load.loader
  told_eq : last.told = []

theorem effectOnly_castDirect (valid : (s.schema.validate params).toExcept = .ok normal) :
    let ending := CastM.finish (CastM.castDirect level source params) { spell := s, caster, loader }
    EffectOnly s loader (effect level source normal (s.installed params loader normal) caster)
      ending.1 ending.2 := by
  intro ending
  let reply := effect level source normal (s.installed params loader normal) caster
  let start : Stage CatalogSpell := { spell := s, caster, loader }
  let resolved := CastM.resolution params start normal
  let stage := (start.informed resolved).configured resolved.value
  have ended : ending =
      (let run := CastM.finish (CastM.runEffect .directCastFailed s.definition.id level source normal)
        stage
       (run.1, run.2.configured s.live)) :=
    CastM.finish_castDirect_of_ok level source params start valid
  -- whatever the effect answered, the guard puts the live configuration back
  have back : { reply.spell with live := s.live } =
      { s with lastOutcome? := reply.spell.lastOutcome? } :=
    congrArg (fun spell : CatalogSpell => { spell with live := s.live })
      (effect_spell level source normal (s.installed params loader normal) caster)
  rcases CastM.runEffect_cases s.definition.id level source normal stage .directCastFailed with
    ⟨done, run⟩ | ⟨error, refused, run⟩ | ⟨reason, brokenOff, run⟩
  · have done : reply.answer = .done := done
    rw [ended, run]
    exact ⟨by rw [done], back, rfl, rfl, rfl⟩
  · have refused : reply.answer = .refused error := refused
    rw [ended, run]
    exact ⟨by rw [refused], back, rfl, rfl, rfl⟩
  · have brokenOff : reply.answer = .brokenOff reason := brokenOff
    rw [ended, run]
    exact ⟨by rw [brokenOff], back, rfl, rfl, rfl⟩

end

/-! ## Casts from a registry -/

/-- The report of a cast, its events and the caster that it leaves tell the same: they all follow
    from the effective options, the resolved configuration, and the caster before the cast. -/
theorem castWith_account {R : Type} [Registry R CatalogSpell] (registry : R) (caster : Caster)
    (loader : Loader) (source : CastSource) (id : String) (level : UInt32) (params : Parameters)
    {s : CatalogSpell} (found : Registry.find? registry id = some s)
    (parameterized : Castable.isParameterized s = true) :
    let result := castWith registry caster loader source id level params
    (∀ errors, (s.schema.validate params).toExcept = .error errors →
      result.answer = .error (.failed (.validation errors)) ∧
        result.registry = Registry.replace registry id s ∧ result.caster = caster ∧
        result.told = []) ∧
    ∀ normal, (s.schema.validate params).toExcept = .ok normal →
      ∃ left, result.registry = Registry.replace registry id left ∧
        Account level source params s caster loader normal result.answer left result.caster
          result.told := by
  intro result
  have casts : result = _ :=
    castWith_of_parameterized registry caster loader source id level params found parameterized
  rw [casts]
  refine ⟨fun errors invalid => ?_, fun normal valid => ?_⟩
  · rw [CastM.finish_castParameterized_of_error level source params _ invalid]
    exact ⟨rfl, rfl, rfl, rfl⟩
  · exact ⟨_, rfl, account_castParameterized level source params s caster loader valid⟩

def kindle : CatalogSpell :=
  let config : SpellConfig :=
    { baseManaCost := 3, baseSpellPower := 2, castTime := 20,
      cooldown := .ofBits .double 0x3FE0000000000000 }
  { definition := { id := "kindle", name := "Kindle", effect := .manaSurge }
    tuning := {}
    schema := .empty
    base := config
    live := config }

def kindled : CastResult SpellBook CastReport :=
  castWith (SpellBook.mk (.ofList [("kindle", kindle)])) { id := .nil, mana := 10 } .empty
    .spellbook "kindle" 1 .empty

/-- The caster gains two points of mana and pays three. -/
theorem castWith_account_kindle :
    kindled.told.map (·.event.name) = ["cast_started", "mana_changed", "effect_replay"] ∧
      kindled.caster =
        { id := .nil, mana := 9, casting? := some ⟨"kindle", 1, 20, .spellbook⟩,
          cooldowns := .ofList [("kindle", 10)] } ∧
      ∃ left, kindled.registry = SpellBook.mk (.ofList [("kindle", left)]) ∧
        Account 1 .spellbook .empty kindle { id := .nil, mana := 10 } .empty
          (.ofValidated .empty) kindled.answer left kindled.caster kindled.told := by
  have found : Registry.find? (SpellBook.mk (.ofList [("kindle", kindle)])) "kindle" =
      some kindle := rfl
  obtain ⟨-, accounts⟩ := castWith_account (SpellBook.mk (.ofList [("kindle", kindle)]))
    { id := .nil, mana := 10 } .empty .spellbook "kindle" 1 .empty found rfl
  obtain ⟨left, replaced, account⟩ := accounts (.ofValidated .empty) rfl
  exact ⟨by decide +kernel, by decide +kernel, left, replaced, account⟩

end CatalogSpell

end Spellcraft
