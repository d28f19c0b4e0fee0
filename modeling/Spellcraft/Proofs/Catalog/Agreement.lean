import Spellcraft.Proofs.Cast.Installation
import Spellcraft.Proofs.Cast.Replay
import Spellcraft.Proofs.Cast.Restoration
import Spellcraft.Proofs.Catalog.Construction
import Spellcraft.Proofs.Catalog.Failure

/-! # What a catalog spell runs with is what it reports

The numbers of a cast reach its effect by two routes. The configuration is resolved for the cast
and installed on the spell; and the parameters carry the same fields, as the caller gave them or
as the schema fills them in. The schema took its defaults from the base configuration when the
spell was made, and the base configuration has the override table in it already. So the table,
which is applied once more for each cast, changes nothing that the parameters do not say.

* `CatalogSpell.find?_normal` — validated parameters hold what is resolved for them;
* `Parameters.Carries`, `Runs` — what is handed to an effect;
* `CatalogSpell.cast_agrees` — configuration, report, effect and replay agree on every field.
-/

namespace Spellcraft

namespace CatalogSpell

/-! ## The two routes -/

section

variable {definition : SpellDefinition} {tuning : SpellTuning} {loader : Loader}
  {made : CatalogSpell}

/-- Where the caller does not override a field, the table changes nothing: it is in the base
    configuration already. -/
theorem value_of_silent (new : (ofDefinition definition tuning loader).value = .ok made)
    {params normal : Parameters} {resolved : SpellConfig} {f : ConfigField}
    (layered : Layered made.schema params normal (loader.load.value.find? definition.id) made.base
      resolved f)
    (silent : ¬ made.schema.Overrides params normal f.key) :
    resolved.value f = made.base.value f := by
  by_cases defined : ∃ record, loader.load.value.find? definition.id = some record ∧
      record.defines f = true
  · obtain ⟨record, filed, defines⟩ := defined
    rw [layered.file silent record filed defines, value_base new,
      OverrideTable.field?_of_defines filed defines, Option.getD_some]
  · refine layered.live silent fun record filed => ?_
    rw [← Bool.not_eq_true]
    exact fun defines => defined ⟨record, filed, defines⟩

/-- Validated parameters hold every field of the configuration that is resolved for them. -/
theorem find?_normal (new : (ofDefinition definition tuning loader).value = .ok made)
    {params normal : Parameters} {resolved : SpellConfig} {f : ConfigField}
    (valid : (made.schema.validate params).toExcept = .ok normal)
    (layered : Layered made.schema params normal (loader.load.value.find? definition.id) made.base
      resolved f) :
    normal.find? f.key = some (resolved.value f) := by
  obtain ⟨-, -, -, schema⟩ := ofDefinition_ok new
  have built : SchemaBuilder.Builds made.schema := ⟨_, schema⟩
  obtain ⟨aliases, declared⟩ := SchemaBuilder.configDefinition_mem schema f
  by_cases named : made.schema.Names params f.key
  · obtain ⟨number, field, found, defined, stored⟩ := Schema.find?_of_names built valid named
    -- the field of that name is the configuration field, so the value is a number as it stands
    have own : made.schema.definition? f.key =
        some { SchemaBuilder.configDefinition made.base f with aliases } := by
      have here := built.sound.findField? declared
      change Schema.findField? made.schema.fields f.key = _ at here
      rw [Schema.definition?, here, Option.some_or]
    rw [own, Option.some.injEq] at defined
    subst defined
    have same : f.kind.normalize number = some number := stored.normalize
    have numeric : number.isNumeric = true := by
      rw [← f.isValid_kind, ← Kind.normalize_isSome, same]
      rfl
    have value := layered.caller number named found numeric
    rw [same, Option.some.injEq] at value
    rw [found, value]
  · rw [value_of_silent new layered fun overrides => named overrides.1]
    exact Schema.find?_of_not_names built valid declared rfl rfl named

end

/-! ## What the effect sees -/

theorem checksKept_append_checked {diary : List Observation} (kept : ChecksKept diary)
    (config : SpellConfig) : ChecksKept (diary ++ [.checked config config]) := by
  intro before after member
  rcases List.mem_append.mp member with earlier | here
  · exact kept before after earlier
  · cases List.mem_singleton.mp here
    rfl

theorem checksKept_append_ran {diary : List Observation} (kept : ChecksKept diary)
    (config : SpellConfig) (params : Parameters) :
    ChecksKept (diary ++ [.ran config params]) := by
  intro before after member
  rcases List.mem_append.mp member with earlier | here
  · exact kept before after earlier
  · cases List.mem_singleton.mp here

/-- The checks of a catalog spell leave its configuration alone. -/
theorem hereditary_checksKept :
    Hereditary fun s : Observed CatalogSpell => ChecksKept s.diary where
  setConfig _ _ kept := kept
  admission level source s caster kept := by
    change ChecksKept (s.diary ++
      [.checked s.spell.live (admission level source s.spell caster).spell.live])
    rw [(admission_keeps level source s.spell caster).1]
    exact checksKept_append_checked kept _
  precondition _ _ _ kept := checksKept_append_checked kept _
  effect _ _ _ _ _ kept := checksKept_append_ran kept _ _
  complete _ _ _ _ kept := by
    change ChecksKept (_ ++ [])
    rwa [List.append_nil]

end CatalogSpell

/-! ## All that a cast hands on -/

/-- Parameters that hold the values of a configuration under the keys of its fields. -/
def Parameters.Carries (params : Parameters) (config : SpellConfig) : Prop :=
  ∀ f : ConfigField, params.find? f.key = some (config.value f)

def Compound.Carries (data : Compound) (config : SpellConfig) : Prop :=
  ∀ f : ConfigField, ∃ tag, (config.value f).toTag? = some tag ∧ Entries.find? data f.key = some tag

theorem Parameters.Carries.toCompound {params : Parameters} {config : SpellConfig}
    (carries : params.Carries config) : Compound.Carries params.toCompound config := by
  intro f
  have stored : Entries.find? params.toCompound f.key = (params.find? f.key).bind Value.toTag? :=
    params.values.find?_filterMap Value.toTag? f.key
  rw [carries f, Option.bind_some] at stored
  rw [stored]
  cases f <;> exact ⟨_, rfl, rfl⟩

/-- A run that was observed: it ends like the run without an observer, and its effect ran with one
    configuration and with certain parameters. -/
structure Runs {S α : Type} [Castable S] (plain : Except Stop α × Stage S)
    (seen : Except Stop α × Stage (Observed S)) (config : SpellConfig) (params : Parameters) :
    Prop where
  answer : plain.1 = seen.1
  stage : Stage.Alike Observed.Of plain.2 seen.2
  ran : ∀ found given, .ran found given ∈ seen.2.spell.diary → found = config ∧ given = params

section

open CastM

theorem runs_castDirect {S : Type} [Castable S] [LawfulCastable S] (spell : S) (caster : Caster)
    (loader : Loader) (level : UInt32) (source : CastSource) {params normal : Parameters}
    (valid : ((Castable.schema spell).validate params).toExcept = .ok normal) :
    let start : Stage S := { spell, caster, loader }
    Runs (finish (castDirect level source params) start)
      (finish (castDirect level source params) start.observed)
      (resolution params start normal).value normal := by
  intro start
  obtain ⟨answer, stages⟩ := Observed.simulation.castDirect level source params start
    start.observed start.observed_alike
  refine ⟨answer, stages, fun found given ran => ?_⟩
  obtain ⟨validated, resolved⟩ :=
    ranResolved_castDirect spell caster loader level source params found given ran
  rw [valid, Except.ok.injEq] at validated
  subst validated
  exact ⟨resolved, rfl⟩

theorem ran_castDirect {S : Type} [Castable S] [LawfulCastable S] (spell : S) (caster : Caster)
    (loader : Loader) (level : UInt32) (source : CastSource) {params normal : Parameters}
    (valid : ((Castable.schema spell).validate params).toExcept = .ok normal) :
    let start : Stage S := { spell, caster, loader }
    .ran (resolution params start normal).value normal ∈
      (finish (castDirect level source params) start.observed).2.spell.diary := by
  intro start
  rcases observed_castDirect level source params start.observed with
    ⟨errors, invalid, -⟩ | ⟨given, validated, noted⟩
  · change ((Castable.schema spell).validate params).toExcept = _ at invalid
    rw [valid] at invalid
    cases invalid
  · change ((Castable.schema spell).validate params).toExcept = _ at validated
    rw [valid, Except.ok.injEq] at validated
    rw [noted, ← validated]
    exact List.mem_append_right _ (List.mem_singleton_self _)

theorem runs_castParameterized {S : Type} [Castable S] [LawfulCastable S] (spell : S)
    (caster : Caster) (loader : Loader) (level : UInt32) (source : CastSource)
    {params normal : Parameters}
    (valid : ((Castable.schema spell).validate params).toExcept = .ok normal)
    (kept : Hereditary fun s : Observed S => ChecksKept s.diary) :
    let start : Stage S := { spell, caster, loader }
    Runs (finish (castParameterized level source params) start)
      (finish (castParameterized level source params) start.observed)
      (resolution params start normal).value normal := by
  intro start
  obtain ⟨answer, stages⟩ := Observed.simulation.castParameterized level source params start
    start.observed start.observed_alike
  refine ⟨answer, stages, fun found given ran => ?_⟩
  have checks := kept.castParameterized level source params start.observed
    fun _ _ member => nomatch member
  obtain ⟨validated, resolved⟩ := ranResolved_castParameterized spell caster loader level source
    params checks found given ran
  rw [valid, Except.ok.injEq] at validated
  subst validated
  exact ⟨resolved, rfl⟩

/-- Whatever a cast with valid parameters replays is their stored form. -/
theorem replays_of_castParameterized {S : Type} [Castable S] (spell : S) (caster : Caster)
    (loader : Loader) (level : UInt32) (source : CastSource) {params normal : Parameters}
    (valid : ((Castable.schema spell).validate params).toExcept = .ok normal) {data : Compound}
    (replayed : data ∈ replays (finish (castParameterized level source params)
      ({ spell, caster, loader } : Stage S)).2.told) : data = normal.toCompound := by
  have told := (Observed.simulation.castParameterized level source params _ _
    (Stage.observed_alike { spell, caster, loader })).2.told
  rw [told] at replayed
  rcases CastM.replays_castParameterized level source params
    (Stage.observed { spell, caster, loader }) valid with nothing | ⟨one, -⟩
  · rw [nothing] at replayed
    cases replayed
  · rw [one] at replayed
    exact List.mem_singleton.mp replayed

end

namespace CatalogSpell

open CastM

/-- A catalog spell that is cast with the base configuration live, from a loader that has the
    table with which the spell was made, runs with what it reports. For accepted parameters one
    configuration is resolved: it is installed on the spell and put in the report; the parameters
    that the effect gets, and those that are replayed, hold its values under the keys of the
    fields. If the caller names none of the fields, it is the base configuration. -/
theorem cast_agrees {definition : SpellDefinition} {tuning : SpellTuning} {loader later : Loader}
    {made : CatalogSpell} (new : (ofDefinition definition tuning loader).value = .ok made)
    (same : later.table? = (ofDefinition definition tuning loader).loader.table?)
    {params normal : Parameters} (valid : (made.schema.validate params).toExcept = .ok normal)
    (outcome? : Option EffectOutcome) (caster : Caster) (level : UInt32) (source : CastSource) :
    let start : Stage CatalogSpell :=
      { spell := { made with live := made.base, lastOutcome? := outcome? }
        caster
        loader := later }
    let full := finish (castParameterized level source params) start
    let direct := finish (castDirect level source params) start
    ∃ resolved : SpellConfig,
      normal.Carries resolved ∧
      ((∀ f : ConfigField, ¬ made.schema.Names params f.key) → resolved = made.base) ∧
      (definition.parameterized = true → finish (castSpell level source params) start = full) ∧
      (Installs full (finish (castParameterized level source params) start.journaled) resolved
          made.base ∧
        Runs full (finish (castParameterized level source params) start.observed) resolved
          normal ∧
        (∀ report, full.1 = .ok report → report.config = resolved) ∧
        ∀ data ∈ replays full.2.told, Compound.Carries data resolved) ∧
      Installs direct (finish (castDirect level source params) start.journaled) resolved
        made.base ∧
      Runs direct (finish (castDirect level source params) start.observed) resolved normal ∧
      .ran resolved normal ∈
        (finish (castDirect level source params) start.observed).2.spell.diary := by
  intro start full direct
  have id : made.definition.id = definition.id := by rw [(ofDefinition_ok new).1]
  -- the table was loaded when the spell was made, so there is no other one to look in later
  have table : later.load.value = loader.load.value := by
    rw [Loader.load_of_table? (same.trans table?_ofDefinition)]
  have layered (f : ConfigField) : Layered made.schema params normal
      (loader.load.value.find? definition.id) made.base (resolution params start normal).value
      f := by
    rw [← table, ← id]
    exact later.layered_resolve made.schema params normal made.definition.id made.base f
  have carries : normal.Carries (resolution params start normal).value :=
    fun f => find?_normal new valid (layered f)
  refine ⟨(resolution params start normal).value, carries, ?_, ?_, ⟨?_, ?_, ?_, ?_⟩, ?_, ?_, ?_⟩
  · intro silent
    refine SpellConfig.ext_value fun f => value_of_silent new (layered f) ?_
    exact fun overrides => silent f overrides.1
  · intro parameterized
    refine finish_castSpell_of_parameterized level source params start ?_
    change made.definition.parameterized = true
    rw [(ofDefinition_ok new).1, parameterized]
  · exact installs_castParameterized level source start valid
  · exact runs_castParameterized start.spell caster later level source valid
      hereditary_checksKept
  · exact fun report => config_of_castParameterized level source valid
  · intro data replayed
    rw [replays_of_castParameterized start.spell caster later level source valid replayed]
    exact carries.toCompound
  · exact installs_castDirect level source start valid
  · exact runs_castDirect start.spell caster later level source valid
  · exact ran_castDirect start.spell caster later level source valid

def spark : SpellDefinition where
  id := "spark"
  name := "Spark"
  defaults := { baseSpellPower := 3, castTime := 20 }
  effect := .manaSurge

def sparkLoader : Loader :=
  .ofSource (.constant (.ok (.ofList [("spark", { castTime := some 0 })])))

def sparkBase : SpellConfig := { baseSpellPower := 3, castTime := 0 }

def sparkSpell : CatalogSpell where
  definition := spark
  tuning := {}
  schema := match (SchemaBuilder.empty.declareAll (spark.declarations sparkBase)).build with
    | .ok schema => schema
    | .error _ => .empty
  base := sparkBase
  live := sparkBase

def sparkParameters : Parameters := .ofList [("power", .int 5), ("playEffects", .boolean true)]

def sparkNormal : Parameters := (sparkSpell.schema.validate sparkParameters).normalized

def sparkStage : Stage CatalogSpell where
  spell := sparkSpell
  caster := { id := .nil, mana := 10 }
  loader := (ofDefinition spark {} sparkLoader).loader

/-- The power is the caller's and the cast time the table's: for the report, and for whoever is
    told to replay the spark. -/
theorem cast_agrees_spark :
    (ofDefinition spark {} sparkLoader).value = .ok sparkSpell ∧
    (sparkSpell.schema.validate sparkParameters).toExcept = .ok sparkNormal ∧
    sparkNormal.toCompound ∈
      replays (finish (castSpell 1 .scroll sparkParameters) sparkStage).2.told ∧
    ∃ resolved : SpellConfig,
      resolved.baseSpellPower = 5 ∧ resolved.castTime = 0 ∧
      Compound.Carries sparkNormal.toCompound resolved ∧
      ∀ report, (finish (castSpell 1 .scroll sparkParameters) sparkStage).1 = .ok report →
        report.config = resolved := by
  have new : (ofDefinition spark {} sparkLoader).value = .ok sparkSpell := rfl
  have valid : (sparkSpell.schema.validate sparkParameters).toExcept = .ok sparkNormal := rfl
  have told : sparkNormal.toCompound ∈
      replays (finish (castSpell 1 .scroll sparkParameters) sparkStage).2.told :=
    List.mem_singleton_self _
  obtain ⟨resolved, carries, -, path, ⟨-, -, reported, replayed⟩, -⟩ :=
    cast_agrees new rfl valid none { id := .nil, mana := 10 } 1 .scroll
  rw [← path rfl] at reported replayed
  refine ⟨new, valid, told, resolved, ?_, ?_, replayed _ told, reported⟩
  · have power : some (Value.int 5) = some (.int resolved.baseSpellPower) :=
      carries .baseSpellPower
    simpa using power.symm
  · have time : some (Value.int 0) = some (.int resolved.castTime) := carries .castTime
    simpa using time.symm

end CatalogSpell

end Spellcraft
