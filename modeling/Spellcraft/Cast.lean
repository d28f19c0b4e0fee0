import Spellcraft.Cast.Castable
import Spellcraft.Cast.Event
import Spellcraft.Config.Loader

/-! # Casting

One cast of one spell is a computation on a `Stage`: the spell, its caster, the override loader,
and what was told and noted so far.

* `castParameterized` — the full cast: validate, resolve the configuration, install it, execute,
  and put the previous configuration back;
* `castDirect` — validation, configuration and effect only;
* `castFixed` — the spell's own cast, for spells without parameters.

A cast can stop in two ways. It fails with a `CastError`, which is an orderly end; or an effect
breaks off, which leaves everything as it is except that the guard still puts the configuration
back.

`castWith` and `castText` look the spell up in a registry first.
-/

namespace Spellcraft

inductive Stop where
  | failed (error : CastError)
  | brokenOff (reason : String)
  deriving DecidableEq

/-- Everything that one cast of one spell reads and changes. -/
structure Stage (S : Type) where
  spell : S
  caster : Caster
  loader : Loader
  phase : CastPhase := .idle
  barStarted : Bool := false
  told : List Notification := []
  notices : List Notice := []

/-- A step of a cast. Where it stops, what it did so far stays done. -/
abbrev CastM (S : Type) := EStateM Stop (Stage S)

namespace CastM

variable {S α : Type} [Castable S]

def note (notice : Notice) : CastM S Unit :=
  modify fun stage => { stage with notices := stage.notices ++ [notice] }

def tell (audience : Audience) (event : CastEvent) : CastM S Unit :=
  modify fun stage => { stage with told := stage.told ++ [⟨audience, event⟩] }

def enter (phase : CastPhase) : CastM S Unit :=
  modify fun stage =>
    { stage with
      phase
      notices := stage.notices ++ [.phaseEntered stage.phase phase] }

def fail (error : CastError) : CastM S α := throw (.failed error)

def ask (hook : Hook S α) : CastM S α := fun stage =>
  let reply := hook stage.spell stage.caster
  .ok reply.answer
    { stage with
      spell := reply.spell
      caster := reply.caster
      notices := stage.notices ++ reply.notices }

def modifyCaster (g : Caster → Caster) : CastM S Unit :=
  modify fun stage => { stage with caster := g stage.caster }

/-- Runs a part of a cast and returns its error as a value. An effect that breaks off still
    stops the cast. -/
def attempt (part : CastM S α) : CastM S (Except CastError α) := fun stage =>
  match part stage with
  | .ok a stage => .ok (.ok a) stage
  | .error (.failed e) stage => .ok (.error e) stage
  | .error (.brokenOff reason) stage => .error (.brokenOff reason) stage

/-- Runs a part of a cast with a configuration installed, and puts the previous one back however
    the part ends. -/
def guarded (config : SpellConfig) (part : CastM S α) : CastM S α := fun stage =>
  let guard := Guard.apply stage.spell config
  let restore (stage : Stage S) : Stage S :=
    { stage with spell := Guard.restore { guard with spell := stage.spell } }
  match part { stage with spell := guard.spell } with
  | .ok a stage => .ok a (restore stage)
  | .error stop stage => .error stop (restore stage)

def resolve (params : Parameters) : CastM S SpellConfig := fun stage =>
  let answer := stage.loader.resolve (Castable.id stage.spell) params
    (Castable.config stage.spell)
  .ok answer.value
    { stage with loader := answer.loader, notices := stage.notices ++ answer.notices }

/-! ## Execution -/

structure Executed where
  manaCost? : Option Int32
  cooldownTicks? : Option Int32
  message : String

def checkAdmission (level : UInt32) (source : CastSource) : CastM S Unit := do
  let spell := (← get).spell
  match ← ask (Castable.admission level source) with
  | .allowed => pure ()
  | .denied reason? =>
    fail (.notCastable (Castable.id spell)
      (reason?.getD ("cannot cast '" ++ Castable.name spell ++ "' now")))
  if !(← ask (Castable.precondition level)) then
    fail (.preconditionFailed (Castable.id spell))

def startBar (spell : String) (level : UInt32) (source : CastSource) : CastM S Unit := do
  let stage ← get
  let duration := Castable.castTime level stage.spell stage.caster
  if 0 < duration ∧ !stage.caster.isCasting then
    modifyCaster (·.begin ⟨spell, level, duration, source⟩)
    modify fun stage => { stage with barStarted := true }
    tell .tracking (.started stage.caster.id spell level duration)

def runEffect (failure : Notice) (spell : String) (level : UInt32) (source : CastSource)
    (params : Parameters) : CastM S Unit := do
  match ← ask (Castable.effect level source params) with
  | .done => pure ()
  | .refused e =>
    note failure
    fail (.execution spell e)
  | .brokenOff reason => throw (.brokenOff reason)

def chargeMana (resolved : SpellConfig) (level : UInt32) : CastM S Int32 := do
  let stage ← get
  let cost := resolved.manaCost level (Castable.manaMultiplier stage.spell)
  if 0 < cost then
    let mana := larger (satSub stage.caster.mana cost) 0
    modifyCaster (·.setMana mana)
    tell .caster (.manaChanged stage.caster.id mana)
  return cost

def recordCooldown (spell : String) (resolved : SpellConfig) : CastM S Int32 := do
  let stage ← get
  let default := Castable.defaultTicks stage.spell
  let live := stage.caster.effectiveCooldown spell default
  let ticks := resolveCooldown resolved.cooldownTicks default live
  modifyCaster (·.addCooldown spell ticks)
  return ticks

def whenSet (enabled : Bool) (part : CastM S α) : CastM S (Option α) :=
  if enabled then some <$> part else pure none

def execute (level : UInt32) (source : CastSource) (params : Parameters)
    (resolved : SpellConfig) (options : CastOptions) : CastM S Executed := do
  -- the cast keeps the id with which it began, whatever the hooks make of the spell
  let spell := Castable.id (← get).spell
  if !options.bypassConditions then checkAdmission level source
  if options.showCastBar then startBar spell level source
  runEffect .effectFailed spell level source params
  -- only a cast whose effect succeeded is paid for
  let manaCost? ← whenSet options.consumeMana (chargeMana resolved level)
  let cooldownTicks? ← whenSet options.triggerCooldown (recordCooldown spell resolved)
  if options.playEffects then
    tell .caster (.effectReplay spell level source params.toCompound)
  ask (Castable.complete level source)
  note .castCompleted
  return ⟨manaCost?, cooldownTicks?, "cast " ++ Castable.name (← get).spell⟩

/-- Ends an execution: the phase says how it went, and a failed cast takes back the cast bar
    that it started. -/
def conclude (spell : String) (outcome : Except CastError Executed) : CastM S Unit := do
  match outcome with
  | .ok _ => enter .succeeded
  | .error _ =>
    enter .failed
    let stage ← get
    -- a bar that was running before this cast stays
    if stage.barStarted then
      modifyCaster Caster.reset
      tell .tracking (.finished stage.caster.id spell true)
    note .castFailed

/-! ## The three ways to cast -/

def castParameterized (level : UInt32) (source : CastSource) (params : Parameters) :
    CastM S CastReport := do
  enter .validating
  let spell := (← get).spell
  match ((Castable.schema spell).validate params).toExcept with
  | .error errors =>
    enter .rejected
    note .parametersRejected
    fail (.validation errors)
  | .ok normalized =>
    enter .preparing
    -- what validation filled in is no override of the table
    let resolved ← resolve ((Castable.schema spell).supplied params normalized)
    let options := CastOptions.ofParameters source normalized
    let outcome ← guarded resolved do
      enter .executing
      -- the error is kept as a value until the configuration is back
      let outcome ← attempt (execute level source normalized resolved options)
      conclude (Castable.id spell) outcome
      return outcome
    enter .restored
    match outcome with
    | .error e => fail e
    | .ok done =>
      return {
        spell := Castable.id spell
        level
        config := resolved
        options
        manaCost? := done.manaCost?
        cooldownTicks? := done.cooldownTicks?
        castBarStarted := (← get).barStarted
        fallback := false
        message := done.message }

def castFixed (level : UInt32) (source : CastSource) : CastM S CastReport := do
  note .fixedCastUsed
  if !(← ask (Castable.attempt level source)) then
    fail (.fallbackDeclined (Castable.id (← get).spell))
  let spell := (← get).spell
  return {
    spell := Castable.id spell
    level
    config := .zero
    options := source.options
    manaCost? := none
    cooldownTicks? := none
    castBarStarted := false
    fallback := true
    message :=
      "'" ++ Castable.name spell ++ "' does not support parameterized casting, cast normally" }

def castSpell (level : UInt32) (source : CastSource) (params : Parameters) :
    CastM S CastReport := do
  if Castable.isParameterized (← get).spell then castParameterized level source params
  else castFixed level source

def castDirect (level : UInt32) (source : CastSource) (params : Parameters) :
    CastM S Unit := do
  let spell := (← get).spell
  match ((Castable.schema spell).validate params).toExcept with
  | .error errors =>
    note .directParametersRejected
    fail (.validation errors)
  | .ok normalized =>
    let resolved ← resolve ((Castable.schema spell).supplied params normalized)
    guarded resolved
      (runEffect .directCastFailed (Castable.id spell) level source normalized)

end CastM

/-! ## Casting from a registry -/

/-- Collections of spells in which spells are looked up and put back. -/
class Registry (R : Type) (S : outParam Type) where
  find? : R → String → Option S
  /-- Puts a spell back where the spell of that id was found. -/
  replace : R → String → S → R
  ids : R → List String

structure CastResult (R α : Type) where
  answer : Except Stop α
  registry : R
  caster : Caster
  loader : Loader
  told : List Notification
  notices : List Notice

namespace CastResult

variable {R S α : Type}

def refused (registry : R) (caster : Caster) (loader : Loader) (error : CastError)
    (notices : List Notice) : CastResult R α :=
  ⟨.error (.failed error), registry, caster, loader, [], notices⟩

def ofSpell [Registry R S] (registry : R) (id : String) (spell : S) (caster : Caster)
    (loader : Loader) (part : CastM S α) : CastResult R α :=
  let finish (answer : Except Stop α) (stage : Stage S) : CastResult R α :=
    ⟨answer, Registry.replace registry id stage.spell, stage.caster, stage.loader, stage.told,
      stage.notices⟩
  match part { spell, caster, loader } with
  | .ok a stage => finish (.ok a) stage
  | .error stop stage => finish (.error stop) stage

end CastResult

variable {R S : Type} [Castable S] [Registry R S]

def castWith (registry : R) (caster : Caster) (loader : Loader) (source : CastSource) (id : String)
    (level : UInt32) (params : Parameters) : CastResult R CastReport :=
  match Registry.find? registry id with
  | none => .refused registry caster loader (.unknownSpell id) [.spellUnknown]
  | some spell =>
    .ofSpell registry id spell caster loader (CastM.castSpell level source params)

def castText (registry : R) (caster : Caster) (loader : Loader) (source : CastSource)
    (id : String) (level : UInt32) (text : String) : CastResult R CastReport :=
  match Parameters.ofText text with
  | .error e => .refused registry caster loader (.decode e) [.textRejected]
  | .ok params => castWith registry caster loader source id level params

/-- Runs the effect of the spell of an id directly. Nothing is noted about a spell that is not
    there or takes no parameters, nor about text that cannot be decoded. -/
def castDirectText (registry : R) (caster : Caster) (loader : Loader) (source : CastSource)
    (id : String) (level : UInt32) (text : String) : CastResult R Unit :=
  match Registry.find? registry id with
  | none => .refused registry caster loader (.unknownSpell id) []
  | some spell =>
    if Castable.isParameterized spell then
      match Parameters.ofText text with
      | .error e => .refused registry caster loader (.decode e) []
      | .ok params =>
        .ofSpell registry id spell caster loader (CastM.castDirect level source params)
    else .refused registry caster loader (.notParameterized id) []

end Spellcraft
