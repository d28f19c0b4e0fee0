import Spellcraft.Proofs.Cast.Hushed
import Spellcraft.Scripted

/-! # The phases of a cast

* `Course` — the ways through the phases, each with the answer to which it leads;
* `CastM.hushed_castParameterized` — every cast takes one of them;
* `CastM.carryOut` — all that a cast does once it is in the phase of preparation;
* `castWith_phases` — the phases of a cast from a registry, and what it leaves alone before its
  preparation.
-/

namespace Spellcraft

/-! ## Ways through the phases -/

/-- The ways through the phases, each with the answer to which it leads: the parameters are
    rejected; the cast succeeds or fails, and the configuration is restored; or the effect breaks
    off, and the cast never returns. -/
inductive Course (validation : Except ValidationErrors Parameters) :
    Except Stop CastReport → List CastPhase → Prop where
  | rejected {errors : ValidationErrors} (invalid : validation = .error errors) :
      Course validation (.error (.failed (.validation errors))) [.idle, .validating, .rejected]
  | succeeded {normal : Parameters} {report : CastReport} (valid : validation = .ok normal) :
      Course validation (.ok report)
        [.idle, .validating, .preparing, .executing, .succeeded, .restored]
  | failed {normal : Parameters} {error : CastError} (valid : validation = .ok normal)
      (late : error.phase = .failed) :
      Course validation (.error (.failed error))
        [.idle, .validating, .preparing, .executing, .failed, .restored]
  | brokenOff {normal : Parameters} {reason : String} (valid : validation = .ok normal) :
      Course validation (.error (.brokenOff reason)) [.idle, .validating, .preparing, .executing]

namespace Course

variable {validation : Except ValidationErrors Parameters} {answer : Except Stop CastReport}
  {path : List CastPhase} (course : Course validation answer path)

include course

theorem allowed : ∀ change ∈ path.zip path.tail, change.2 ∈ change.1.next := by
  cases course <;> decide

theorem rejected_iff :
    path = [.idle, .validating, .rejected] ↔ ∃ errors, validation = .error errors := by
  cases course with
  | rejected invalid => exact ⟨fun _ => ⟨_, invalid⟩, fun _ => rfl⟩
  | succeeded valid | failed valid _ | brokenOff valid => simp [valid]

/-- Only an effect that breaks off ends a cast before its last phase. -/
theorem terminal :
    (∃ last, path.getLast? = some last ∧ last.isTerminal = true) ∨
      ∃ reason, answer = .error (.brokenOff reason) := by
  cases course with
  | rejected _ => exact .inl ⟨_, rfl, rfl⟩
  | succeeded _ => exact .inl ⟨_, rfl, rfl⟩
  | failed _ _ => exact .inl ⟨_, rfl, rfl⟩
  | brokenOff _ => exact .inr ⟨_, rfl⟩

theorem ok_iff : (∃ report, answer = .ok report) ↔ CastPhase.succeeded ∈ path := by
  cases course <;> simp

/-- The phase of an error is where the cast was before anything was restored. -/
theorem phase_of_error {error : CastError} (failed : answer = .error (.failed error)) :
    (path.filter (· ≠ .restored)).getLast? = some error.phase := by
  cases course with
  | rejected _ => cases failed; rfl
  | succeeded _ => cases failed
  | failed _ late =>
    cases failed
    rw [late]
    rfl
  | brokenOff _ => cases failed

end Course

namespace CastM

section

variable {S : Type} [Castable S] (level : UInt32) (source : CastSource) (params : Parameters)
  (stage : Stage S)

/-- A cast with valid parameters has entered two phases when its performance begins. -/
theorem performance_hushed (idle : stage.phase = .idle) (normal : Parameters) :
    Concludes [(.idle, .validating), (.validating, .preparing), (.preparing, .executing)]
      (performance level source params stage normal)
      (performance level source params (stage.hushed []) normal) := by
  have prepares : phaseChanges ([.phaseEntered stage.phase .validating] ++
      [.phaseEntered .validating .preparing] ++ (resolution params stage normal).notices) =
      [(.idle, .validating), (.validating, .preparing)] := by
    rw [phaseChanges_append, resolution, answerTo, Loader.phaseChanges_resolve, idle]
    rfl
  have performed := perform_hushed (Castable.id stage.spell) level source normal
    (resolution params stage normal).value (CastOptions.ofParameters source normal)
    ((prepared params stage normal).configured (resolution params stage normal).value)
    ([.phaseEntered stage.phase .validating] ++ [.phaseEntered .validating .preparing] ++
      (resolution params stage normal).notices)
  rw [prepares] at performed
  exact performed

/-- The cast of a hushed spell ends like the one of the spell, and its log tells of a way through
    the phases that leads to the answer. -/
theorem hushed_castParameterized (idle : stage.phase = .idle) :
    ∃ path, Course ((Castable.schema stage.spell).validate params).toExcept
        (finish (castParameterized level source params) stage).1 path ∧
      Echoes (path.zip path.tail) (finish (castParameterized level source params) stage)
        (finish (castParameterized level source params) (stage.hushed [])) := by
  cases validated : ((Castable.schema stage.spell).validate params).toExcept with
  | error errors =>
    rw [finish_castParameterized_of_error level source params stage validated,
      finish_castParameterized_of_error level source params (stage.hushed []) validated]
    refine ⟨_, .rejected rfl, _, rfl, ?_⟩
    simp [Stage.entered, Stage.hushed, phaseChanges, Notice.change?, idle]
  | ok normal =>
    rw [finish_castParameterized_of_ok level source params stage validated,
      finish_castParameterized_of_ok level source params (stage.hushed []) validated]
    have performed := performance_hushed level source params stage idle normal
    generalize performance level source params stage normal = plain at performed ⊢
    generalize performance level source params (stage.hushed []) normal = hushed at performed ⊢
    obtain ⟨answer, last⟩ := plain
    -- after a performance that came to an end the spell is restored, which is one more change
    cases performed with
    | succeeded answer phase echoes =>
      obtain ⟨log, rfl, told⟩ := echoes
      cases answer
      refine ⟨_, .succeeded rfl, log ++ [.phaseEntered last.phase .restored], rfl, ?_⟩
      rw [phaseChanges_append, told, phase]
      rfl
    | failed answer late phase echoes =>
      obtain ⟨log, rfl, told⟩ := echoes
      cases answer
      refine ⟨_, .failed rfl late, log ++ [.phaseEntered last.phase .restored], rfl, ?_⟩
      rw [phaseChanges_append, told, phase]
      rfl
    | brokenOff answer _ echoes =>
      obtain ⟨log, rfl, told⟩ := echoes
      cases answer
      exact ⟨_, .brokenOff rfl, log, rfl, told⟩

/-- What a cast does from the moment at which it enters the phase of preparation. -/
def carryOut (origin : S) (normalized : Parameters) : CastM S CastReport := do
  let resolved ← resolve ((Castable.schema origin).supplied params normalized)
  let options := CastOptions.ofParameters source normalized
  let outcome ← guarded resolved
    (perform (Castable.id origin) level source normalized resolved options)
  enter .restored
  match outcome with
  | .error e => fail e
  | .ok done =>
    return {
      spell := Castable.id origin
      level
      config := resolved
      options
      manaCost? := done.manaCost?
      cooldownTicks? := done.cooldownTicks?
      castBarStarted := (← get).barStarted
      fallback := false
      message := done.message }

theorem finish_carryOut {normalized : Parameters}
    (valid : ((Castable.schema stage.spell).validate params).toExcept = .ok normalized) :
    finish (castParameterized level source params) stage =
      finish (carryOut level source params stage.spell normalized)
        ((stage.entered .validating).entered .preparing) := by
  unfold castParameterized
  simp only [finish_bind, finish_enter, finish_get]
  rw [show (stage.entered .validating).spell = stage.spell from rfl, valid]
  rfl

end

end CastM

/-! ## Casts from a registry -/

/-- The phases of a cast, as its log tells them: they start idle, each follows on the one before
    as the table allows, and they agree with validation and with the answer. -/
structure Disciplined (validation : Except ValidationErrors Parameters)
    (answer : Except Stop CastReport) (log : List Notice) : Prop where
  chained : phaseChanges log = (phasePath log).zip (phasePath log).tail
  allowed : ∀ change ∈ phaseChanges log, change.2 ∈ change.1.next
  course : Course validation answer (phasePath log)
  rejected_iff :
    phasePath log = [.idle, .validating, .rejected] ↔ ∃ errors, validation = .error errors
  terminal : (∃ last, (phasePath log).getLast? = some last ∧ last.isTerminal = true) ∨
    ∃ reason, answer = .error (.brokenOff reason)
  ok_iff : (∃ report, answer = .ok report) ↔ CastPhase.succeeded ∈ phasePath log
  phase_of_error : ∀ error, answer = .error (.failed error) →
    ((phasePath log).filter (· ≠ .restored)).getLast? = some error.phase

theorem Course.disciplined {validation : Except ValidationErrors Parameters}
    {answer : Except Stop CastReport} {path : List CastPhase} {log : List Notice}
    (course : Course validation answer path) (told : phaseChanges log = path.zip path.tail) :
    Disciplined validation answer log := by
  have same : phasePath log = path := by
    rw [phasePath, told]
    cases course <;> rfl
  subst same
  refine ⟨told, ?_, course, course.rejected_iff, course.terminal, course.ok_iff,
    fun _ => course.phase_of_error⟩
  rw [told]
  exact course.allowed

section

variable {S R : Type} [Castable S] [Registry R S] (registry : R) (caster : Caster)
  (loader : Loader) (source : CastSource) (id : String) (level : UInt32) (params : Parameters)

/-- The cast of a spell with parameters, from any registry, is apart from its log the cast of the
    hushed spell, and that one is disciplined. Rejected parameters leave everything as it was;
    with valid ones everything is still as it was when the cast enters its preparation. -/
theorem castWith_phases {spell : S} (found : Registry.find? registry id = some spell)
    (parameterized : Castable.isParameterized spell = true) :
    let start : Stage S := { spell, caster, loader }
    let result := castWith registry caster loader source id level params
    let quiet := CastM.finish (CastM.castParameterized level source params) (start.hushed [])
    let validation := ((Castable.schema spell).validate params).toExcept
    result = ⟨quiet.1, Registry.replace registry id quiet.2.spell.spell, quiet.2.caster,
        quiet.2.loader, quiet.2.told, result.notices⟩ ∧
      Disciplined validation result.answer quiet.2.notices ∧
      (∀ errors, validation = .error errors →
        result.registry = Registry.replace registry id spell ∧ result.caster = caster ∧
          result.loader = loader ∧ result.told = []) ∧
      ∀ normal, validation = .ok normal →
        quiet = CastM.finish (CastM.carryOut level source params ⟨spell⟩ normal)
          { start.hushed [.phaseEntered .idle .validating, .phaseEntered .validating .preparing]
            with phase := .preparing } := by
  intro start result quiet validation
  have casts : result = _ :=
    castWith_of_parameterized registry caster loader source id level params found parameterized
  obtain ⟨path, course, log, same, told⟩ :=
    CastM.hushed_castParameterized level source params start rfl
  refine ⟨?_, ?_, ?_, ?_⟩
  · simp only [quiet, same, casts]
    rfl
  · simp only [quiet, same, casts]
    exact course.disciplined told
  · intro errors invalid
    rw [CastM.finish_castParameterized_of_error level source params _ invalid] at casts
    rw [casts]
    exact ⟨rfl, rfl, rfl, rfl⟩
  · intro normal valid
    exact CastM.finish_carryOut level source params (start.hushed []) valid

end

def fizzling : ScriptedSpell where
  id := "fizzling"
  name := "Fizzling"
  schema := .empty
  live := { baseSpellPower := 3 }
  effect := { result := .refused (.failed "damp") }

def fizzledCast : CastResult Grimoire CastReport :=
  castWith ({ scripted := [fizzling] } : Grimoire) { id := .nil, mana := 10 } .empty .scroll
    "fizzling" 1 .empty

/-- A fizzling spell fails in its execution, and then its configuration is restored. -/
theorem castWith_phases_fizzling :
    Registry.find? ({ scripted := [fizzling] } : Grimoire) "fizzling" =
        some (.scripted fizzling) ∧
      fizzledCast.answer = .error (.failed (.execution "fizzling" (.failed "damp"))) ∧
      Disciplined (.ok (.ofValidated .empty)) fizzledCast.answer
        [.phaseEntered .idle .validating, .phaseEntered .validating .preparing,
          .configResolved, .phaseEntered .preparing .executing, .effectFailed,
          .phaseEntered .executing .failed, .castFailed, .phaseEntered .failed .restored] := by
  have found : Registry.find? ({ scripted := [fizzling] } : Grimoire) "fizzling" =
      some (.scripted fizzling) := rfl
  obtain ⟨-, disciplined, -⟩ := castWith_phases ({ scripted := [fizzling] } : Grimoire)
    { id := .nil, mana := 10 } .empty .scroll "fizzling" 1 .empty found rfl
  exact ⟨found, rfl, disciplined⟩

end Spellcraft
