import Spellcraft.Proofs.Catalog.History
import Spellcraft.Proofs.Catalog.Mana
import Spellcraft.Proofs.Schema.Flags

/-! # Direct casts and quiet casts

The effect of a spell can be run in two ways: directly, or by a full cast whose flags turn off the
checks, the costs, the bar and the replay. The two are written apart, each with a validation, a
resolution and a guard of its own. Here both are shown to be nothing but the effect, run with the
same configuration; and the flags do not reach it.

* `CatalogSpell.effectOnly_castParameterized` — a quiet cast is nothing but its effect, as a direct
  one is;
* `CatalogSpell.installed_withFlags`, `CatalogSpell.effect_withFlags` — flags reach neither the
  configuration nor the effect;
* `SpellBook.castWith_quiet` — so the two ways come to the same.
-/

namespace Spellcraft

namespace CastOptions

def quiet : CastOptions := { bypassConditions := true }

def quietSettings : List (CastFlag × Bool) :=
  [(.consumeMana, false), (.triggerCooldown, false), (.playEffects, false), (.showCastBar, false),
    (.bypassConditions, true)]

/-- Where all flags are set, nothing is left of the options of the source. -/
theorem ofParameters_quiet (source : CastSource) {params : Parameters}
    (set : ∀ setting ∈ quietSettings, params.find? setting.1.key = some (.boolean setting.2)) :
    ofParameters source params = quiet := by
  refine ext_get fun flag => ?_
  have member : (flag, flag == .bypassConditions) ∈ quietSettings := by cases flag <;> decide
  rw [get_ofParameters, Parameters.bool?, set _ member]
  cases flag <;> rfl

end CastOptions

namespace CatalogSpell

/-! ## Quiet casts -/

section

variable (level : UInt32) (source : CastSource) {s : CatalogSpell} (caster : Caster)
  (loader : Loader) {params normal : Parameters}

theorem succeeds_quiet :
    Succeeds level source normal .quiet s caster ↔
      (effect level source normal s caster).answer = .done := by
  simp [Succeeds, passes, CastOptions.quiet]

theorem bar?_quiet : bar? level source .quiet s caster = none := by
  simp [bar?, CastOptions.quiet]

theorem loader_castParameterized_of_ok (valid : (s.schema.validate params).toExcept = .ok normal) :
    (CastM.finish (CastM.castParameterized level source params)
      { spell := s, caster, loader }).2.loader = loader.load.loader := by
  obtain ⟨-, -, left, -⟩ := CastM.left_castParameterized_of_ok level source params
    ({ spell := s, caster, loader } : Stage CatalogSpell) valid
  exact left.trans (CastM.steady_loader.perform ..)

theorem effectOnly_castParameterized (valid : (s.schema.validate params).toExcept = .ok normal)
    (quiet : CastOptions.ofParameters source normal = .quiet) :
    let ending := CastM.finish (CastM.castParameterized level source params)
      { spell := s, caster, loader }
    EffectOnly s loader (effect level source normal (s.installed params loader normal) caster)
      (ending.1.map fun _ => ()) ending.2 := by
  intro ending
  have loaded : ending.2.loader = loader.load.loader :=
    loader_castParameterized_of_ok level source caster loader valid
  rcases effect_cases level source normal (s.installed params loader normal) caster with
    ⟨error, refused⟩ | done
  · have failed := castParameterized_of_not_succeeds level source params s caster loader valid
      (by rw [quiet, succeeds_quiet, refused]; exact nofun)
    simp only [quiet, bar?_quiet] at failed
    obtain ⟨⟨stop, answered, fault⟩, spell, unchanged, told⟩ := failed
    -- the checks are bypassed, so the effect is all that can have failed
    have same : stop = .execution s.definition.id error := by
      cases fault with
      | denied denied => simp [denial?, CastOptions.quiet] at denied
      | refused admitted other =>
        rw [refused] at other
        cases other
        rfl
    rw [refused]
    refine ⟨?_, spell.trans rfl, unchanged, loaded, told⟩
    rw [show ending.1 = _ from answered, same]
    rfl
  · have account := account_castParameterized level source params s caster loader valid
    obtain ⟨report, answered⟩ := account.ok_iff.mpr (by rw [quiet, succeeds_quiet]; exact done)
    obtain ⟨spell, -, options, settled⟩ := account.succeeded report answered
    rw [options, quiet] at settled
    -- nothing is charged, recorded, shown or replayed
    have free : report.manaCost? = none := settled.cost?_eq
    have ready : report.cooldownTicks? = none := settled.ticks?_eq
    have kept := settled.last_eq
    have told := settled.told_eq
    rw [free, ready, bar?_quiet] at kept
    rw [free, bar?_quiet] at told
    refine ⟨?_, spell, ?_, loaded, told⟩
    · rw [show ending.1 = _ from answered, done]
      rfl
    · exact kept.trans (effect_caster level source normal _ caster).symm

end

/-! ## What flags do not reach -/

section

variable {s : CatalogSpell} {params normal flagged : Parameters}
  {settings : List (CastFlag × Bool)}
  (same : ∀ name, Schema.isGlobal name = false → flagged.find? name = normal.find? name)

include same

/-- An effect reads no flag. -/
theorem effect_withFlags (level : UInt32) (source : CastSource) (caster : Caster) :
    effect level source flagged s caster = effect level source normal s caster := by
  have target : flagged.find? "target" = normal.find? "target" := same _ (by decide)
  have offset : flagged.find? "offset" = normal.find? "offset" := same _ (by decide)
  simp only [effect, resolveEffect, needVec3, Parameters.vec3?, target, offset]

theorem installed_withFlags (loader : Loader) (distinct : (settings.map Prod.fst).Nodup)
    (silent : ∀ flag : CastFlag, ¬ s.schema.Names params flag.key) :
    s.installed (params.withFlags settings) loader flagged = s.installed params loader normal := by
  have resolved (f : ConfigField) :
      (loader.resolve s.definition.id (s.schema.supplied (params.withFlags settings) flagged)
        s.live).value.value f =
      (loader.resolve s.definition.id (s.schema.supplied params normal) s.live).value.value f := by
    have own : Schema.isGlobal f.key = false := by cases f <;> decide
    change (Loader.layered _ _ _ _).value f = (Loader.layered _ _ _ _).value f
    rw [Loader.value_layered, Loader.value_layered, Schema.find?_supplied, Schema.find?_supplied,
      same f.key own]
    simp only [Schema.names_withFlags distinct silent own]
  exact congrArg (fun live => { s with live }) (SpellConfig.ext_value resolved)

end

/-- Parameters without the key of a flag name no flag of a catalog spell: it has no aliases. -/
theorem silent_of_unflagged {definition : SpellDefinition} {tuning : SpellTuning} {loader : Loader}
    {made : CatalogSpell} (new : (ofDefinition definition tuning loader).value = .ok made)
    {params : Parameters} (unflagged : ∀ flag : CastFlag, flag.key ∉ params.keys)
    (flag : CastFlag) : ¬ made.schema.Names params flag.key := by
  rintro ⟨key, among, resolved⟩
  rw [eq_of_resolve?_global new resolved flag.isGlobal_key] at among
  exact unflagged flag among

end CatalogSpell

namespace SpellBook

open CatalogSpell

/-- A full cast and a direct one that come to the same. They fail with the same error or both
    succeed, and leave the same spells, caster and loader; and the full one tells nothing. -/
structure SameQuietly (full : CastResult SpellBook CastReport)
    (direct : CastResult SpellBook Unit) : Prop where
  answer : full.answer.map (fun _ => ()) = direct.answer
  book : full.registry = direct.registry
  caster : full.caster = direct.caster
  loader : full.loader = direct.loader
  told : full.told = []

/-- For parameters that hold no flag, a direct cast of a catalog spell comes to the same as the
    full cast with all flags set to quiet, whatever was cast from the book before. -/
theorem castWith_quiet {definition : SpellDefinition} {tuning : SpellTuning} {origin : Loader}
    {made s : CatalogSpell} (new : (ofDefinition definition tuning origin).value = .ok made)
    (like : MadeLike made s) (parameterized : definition.parameterized = true) (book : SpellBook)
    {id : String} (found : book.find? id = some s) (caster : Caster) (loader : Loader)
    (source : CastSource) (level : UInt32) {params : Parameters}
    (unflagged : ∀ flag : CastFlag, flag.key ∉ params.keys) {settings : List (CastFlag × Bool)}
    (quiet : settings.Perm CastOptions.quietSettings) :
    SameQuietly (castWith book caster loader source id level (params.withFlags settings))
      (castDirect book caster loader source id level params) := by
  obtain ⟨definition_eq, -, -, declared⟩ := ofDefinition_ok new
  have takes : Castable.isParameterized s = true := by
    change s.definition.parameterized = true
    rw [like.definition_eq, definition_eq, parameterized]
  have built : SchemaBuilder.Builds s.schema := ⟨_, like.schema_eq ▸ declared⟩
  have silent : ∀ flag : CastFlag, ¬ s.schema.Names params flag.key :=
    like.schema_eq ▸ silent_of_unflagged new unflagged
  have distinct : (settings.map Prod.fst).Nodup := (quiet.map Prod.fst).nodup_iff.mpr (by decide)
  have full := castWith_of_parameterized book caster loader source id level
    (params.withFlags settings) found takes
  have direct : castDirect book caster loader source id level params =
      .ofSpell book id s caster loader (CastM.castDirect level source params) := by
    simp only [castDirect, found]
  rw [full, direct, CastResult.ofSpell_eq]
  cases valid : (s.schema.validate params).toExcept with
  | error errors =>
    have invalid := Schema.toExcept_withFlags_error built distinct silent valid
    rw [CastM.finish_castParameterized_of_error level source _ _ invalid,
      CastM.finish_castDirect_of_error level source _ _ valid]
    exact ⟨rfl, rfl, rfl, rfl, rfl⟩
  | ok normal =>
    obtain ⟨flagged, validFlagged, same, set⟩ :=
      Schema.validate_withFlags built distinct silent valid
    have options : CastOptions.ofParameters source flagged = .quiet :=
      CastOptions.ofParameters_quiet source fun setting member =>
        set setting (quiet.mem_iff.mpr member)
    -- with these options the full cast is nothing but the effect, as the direct one always is
    have one := effectOnly_castParameterized level source caster loader validFlagged options
    have other := effectOnly_castDirect level source caster loader valid
    rw [effect_withFlags same, installed_withFlags same loader distinct silent] at one
    constructor
    · exact one.answer_eq.trans other.answer_eq.symm
    · dsimp only
      rw [one.spell_eq, other.spell_eq]
    · exact one.caster_eq.trans other.caster_eq.symm
    · exact one.loader_eq.trans other.loader_eq.symm
    · exact one.told_eq

/-- A dart that is shown for a second before it is thrown, and costs mana and rest. -/
def dartDefinition : SpellDefinition where
  id := "dart"
  name := "Dart"
  defaults := { baseManaCost := 3, baseSpellPower := 1, castTime := 20, cooldown := .ofInt .double 2 }
  fields := [{ name := "target", kind := .vec3, required := true, aliases := ["at"] }]
  effect := .projectile

def dart : CatalogSpell :=
  let base := dartDefinition.defaults
  { definition := dartDefinition
    tuning := {}
    schema := match (SchemaBuilder.empty.declareAll (dartDefinition.declarations base)).build with
      | .ok schema => schema
      | .error _ => .empty
    base
    live := base }

def dartBook : SpellBook := ⟨.ofList [("dart", dart)]⟩

def dartThrow : Parameters :=
  .ofList [("at", .vec3 ⟨.zero _, .zero _, .zero _⟩), ("power", .int 7)]

def dartQuietly : CastResult SpellBook CastReport :=
  castWith dartBook { id := .nil, mana := 0 } .empty .spellbook "dart" 1
    (dartThrow.withFlags CastOptions.quietSettings)

/-- Without the flags the same cast is turned down. -/
theorem castWith_quiet_dart :
    (castWith dartBook { id := .nil, mana := 0 } .empty .spellbook "dart" 1
        dartThrow).answer.isOk = false ∧
      dartQuietly.answer.isOk = true ∧
      ((dartQuietly.registry.find? "dart").bind CatalogSpell.lastOutcome?).map
        EffectOutcome.power = some 7 ∧
      SameQuietly dartQuietly
        (castDirect dartBook { id := .nil, mana := 0 } .empty .spellbook "dart" 1 dartThrow) := by
  have new : (ofDefinition dartDefinition {} .empty).value = .ok dart := rfl
  refine ⟨by decide +kernel, by decide +kernel, by decide +kernel, ?_⟩
  apply castWith_quiet new ⟨dart.live, rfl⟩ rfl dartBook rfl _ _ _ _ _ (List.Perm.refl _)
  intro flag
  cases flag <;> decide

end SpellBook

end Spellcraft
