import Spellcraft.Proofs.Cast.Observation
import Spellcraft.Scripted

/-! # What a cast does with the live configuration

The live configuration of a spell belongs to everyone who holds the spell; a cast only borrows
it. Hooks may write to it as they please, since the guard puts the previous configuration back
after the last of them.

* `CastM.config_castParameterized`, `CastM.config_castDirect` — however a cast ends, the spell
  has the configuration that it had before;
* `RanResolved` — an effect saw the configuration that was resolved for its cast;
* `castWith_config` — both, for any spell of any registry.
-/

namespace Spellcraft

namespace CastM

variable {S : Type} [Castable S] [LawfulCastable S] (level : UInt32) (source : CastSource)
  (params : Parameters) (stage : Stage S)

theorem config_castParameterized :
    Castable.config (finish (castParameterized level source params) stage).2.spell =
      Castable.config stage.spell := by
  cases validated : ((Castable.schema stage.spell).validate params).toExcept with
  | error errors =>
    rw [finish_castParameterized_of_error level source params stage validated]
    rfl
  | ok normalized =>
    obtain ⟨left, -⟩ := left_castParameterized_of_ok level source params stage validated
    rw [left, LawfulCastable.config_setConfig]

theorem config_castDirect :
    Castable.config (finish (castDirect level source params) stage).2.spell =
      Castable.config stage.spell := by
  cases validated : ((Castable.schema stage.spell).validate params).toExcept with
  | error errors =>
    rw [finish_castDirect_of_error level source params stage validated]
    rfl
  | ok normalized =>
    rw [finish_castDirect_of_ok level source params stage validated]
    exact Stage.config_configured _ _

end CastM

/-! ## What the effect sees -/

def ChecksKept (diary : List Observation) : Prop :=
  ∀ before after, Observation.checked before after ∈ diary → before = after

/-- An effect in a diary ran with the valid parameters of its cast, and with the configuration
    that the loader resolves for what the caller supplied. -/
def RanResolved {S : Type} [Castable S] (spell : S) (loader : Loader) (params : Parameters)
    (diary : List Observation) : Prop :=
  ∀ config given, Observation.ran config given ∈ diary →
    ((Castable.schema spell).validate params).toExcept = .ok given ∧
      config = (loader.resolve (Castable.id spell)
        ((Castable.schema spell).supplied params given) (Castable.config spell)).value

section

variable {R S : Type} [Castable S] [LawfulCastable S] (spell : S) (caster : Caster)
  (loader : Loader) (level : UInt32) (source : CastSource) (params : Parameters)

open CastM

/-- The effect of a cast with parameters sees the resolved configuration, if the checks before it
    kept that. -/
theorem ranResolved_castParameterized :
    let seen := finish (castParameterized level source params)
      (Stage.observed { spell, caster, loader })
    ChecksKept seen.2.spell.diary → RanResolved spell loader params seen.2.spell.diary := by
  intro seen kept config given ran
  rcases observed_castParameterized level source params (Stage.observed { spell, caster, loader })
    with ⟨errors, -, noted⟩ | ⟨normalized, notes, valid, noted, performed⟩
  · rw [noted] at ran
    exact absurd ran List.not_mem_nil
  · rw [noted] at kept ran
    obtain ⟨installed, same⟩ := performed.ran_installed kept ran
    subst same
    exact ⟨valid, installed⟩

theorem ranResolved_castDirect :
    RanResolved spell loader params (finish (castDirect level source params)
      (Stage.observed { spell, caster, loader })).2.spell.diary := by
  intro config given ran
  rcases observed_castDirect level source params (Stage.observed { spell, caster, loader })
    with ⟨errors, -, noted⟩ | ⟨normalized, valid, noted⟩
  · rw [noted] at ran
    exact absurd ran List.not_mem_nil
  · rw [noted] at ran
    obtain ⟨installed, same⟩ : config = _ ∧ given = normalized := by
      simpa using List.mem_singleton.mp ran
    subst same
    exact ⟨valid, installed⟩

/-- A spell with parameters, whatever its hooks do, has the same live configuration before and
    after a cast from a registry and a direct cast. Watching its hooks changes neither cast, and
    shows that the effect runs with the configuration that the loader resolved: always in a
    direct cast, and otherwise unless one of the two checks overwrote it. -/
theorem castWith_config [Registry R S] (registry : R) (id : String)
    (found : Registry.find? registry id = some spell)
    (parameterized : Castable.isParameterized spell = true) :
    let start : Stage S := { spell, caster, loader }
    let full := finish (castSpell level source params) start
    let fullSeen := finish (castSpell level source params) start.observed
    let direct := finish (castDirect level source params) start
    let directSeen := finish (castDirect level source params) start.observed
    ((castWith registry caster loader source id level params).registry =
        Registry.replace registry id full.2.spell ∧
      Castable.config full.2.spell = Castable.config spell ∧
      Castable.config direct.2.spell = Castable.config spell) ∧
    (full.1 = fullSeen.1 ∧ Stage.Alike Observed.Of full.2 fullSeen.2 ∧
      (ChecksKept fullSeen.2.spell.diary →
        RanResolved spell loader params fullSeen.2.spell.diary)) ∧
    (direct.1 = directSeen.1 ∧ Stage.Alike Observed.Of direct.2 directSeen.2 ∧
      RanResolved spell loader params directSeen.2.spell.diary) := by
  intro start full fullSeen direct directSeen
  have fullPath : full = finish (castParameterized level source params) start :=
    finish_castSpell_of_parameterized level source params start parameterized
  have fullSeenPath : fullSeen = finish (castParameterized level source params) start.observed :=
    finish_castSpell_of_parameterized level source params start.observed parameterized
  -- a diary beside the spell changes nothing, so what it holds was seen in the plain casts
  obtain ⟨fullAnswer, fullStage⟩ := Observed.simulation.castSpell level source params
    start start.observed start.observed_alike
  obtain ⟨directAnswer, directStage⟩ := Observed.simulation.castDirect level source params
    start start.observed start.observed_alike
  refine ⟨⟨?_, ?_, ?_⟩, ⟨fullAnswer, fullStage, ?_⟩, ⟨directAnswer, directStage, ?_⟩⟩
  · rw [castWith, found]
    dsimp only
    rw [CastResult.ofSpell_eq]
  · rw [fullPath]
    exact config_castParameterized level source params start
  · exact config_castDirect level source params start
  · rw [fullSeenPath]
    exact ranResolved_castParameterized spell caster loader level source params
  · exact ranResolved_castDirect spell caster loader level source params

end

/-- A spell whose effect overwrites the live configuration, and then breaks off. -/
def reckless : ScriptedSpell where
  id := "reckless"
  name := "Reckless"
  schema := .empty
  live := { baseSpellPower := 3 }
  effect := { config? := some { baseSpellPower := 40 }, result := .brokenOff "spent" }

def recklessStage : Stage GrimoireSpell where
  spell := .scripted reckless
  caster := { id := .nil, mana := 10 }
  loader := .empty
  phase := .idle

/-- Even a reckless spell has its own power again, and its effect ran with what was resolved. -/
theorem castWith_config_reckless :
    Registry.find? ({ scripted := [reckless] } : Grimoire) "reckless" =
        some (.scripted reckless) ∧
      Castable.config (CastM.finish (CastM.castSpell 1 .scroll .empty) recklessStage).2.spell =
        { baseSpellPower := 3 } ∧
      (let diary := (CastM.finish (CastM.castSpell 1 .scroll .empty)
        recklessStage.observed).2.spell.diary
       diary.length = 3 ∧
        RanResolved (GrimoireSpell.scripted reckless) .empty .empty diary) := by
  have found : Registry.find? ({ scripted := [reckless] } : Grimoire) "reckless" =
      some (.scripted reckless) := rfl
  have diary : (CastM.finish (CastM.castSpell 1 .scroll .empty)
      recklessStage.observed).2.spell.diary =
      [.checked { baseSpellPower := 3 } { baseSpellPower := 3 },
        .checked { baseSpellPower := 3 } { baseSpellPower := 3 },
        .ran { baseSpellPower := 3 } (.ofValidated .empty)] := rfl
  obtain ⟨⟨-, config, -⟩, ⟨-, -, saw⟩, -⟩ := castWith_config (.scripted reckless)
    recklessStage.caster .empty 1 .scroll .empty ({ scripted := [reckless] } : Grimoire)
    "reckless" found rfl
  have kept : ChecksKept (CastM.finish (CastM.castSpell 1 .scroll .empty)
      recklessStage.observed).2.spell.diary := by
    intro before after member
    rw [diary] at member
    have same : before = { baseSpellPower := 3 } ∧ after = { baseSpellPower := 3 } := by
      simpa using member
    exact same.1.trans same.2.symm
  exact ⟨found, config, congrArg List.length diary, saw kept⟩

end Spellcraft
