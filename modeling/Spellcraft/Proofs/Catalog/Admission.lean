import Spellcraft.Proofs.Catalog.FixedCast

/-! # Who may cast

A spell can be disabled by the server, and a caster can lack the mana for it. The fixed cast asks
for both by itself. A cast with parameters asks only if its options do not bypass the checks, and
whether it asks for mana is up to the source of the cast alone.

* `CatalogSpell.castParameterized_notCastable_iff` — which check turns a cast down;
* `SpellBook.castText_disabled` — when a disabled spell takes effect all the same;
* `CatalogSpell.castWith_afforded` — which mana is asked for, and which is taken.
-/

namespace Spellcraft

namespace CatalogSpell

section

variable (level : UInt32) (source : CastSource) (params : Parameters) {s : CatalogSpell}
  (caster : Caster) (loader : Loader) {normal : Parameters}
  (valid : (s.schema.validate params).toExcept = .ok normal)

include valid

theorem fault_castParameterized {stop : Stop}
    (failed : (CastM.finish (CastM.castParameterized level source params)
      { spell := s, caster, loader }).1 = .error stop) :
    ∃ error, stop = .failed error ∧
      Fault level source (.ofParameters source normal) (s.installed params loader normal) caster
        normal error := by
  have fails : ¬ Succeeds level source normal (.ofParameters source normal)
      (s.installed params loader normal) caster := by
    intro succeeds
    obtain ⟨report, ok⟩ :=
      (account_castParameterized level source params s caster loader valid).ok_iff.mpr succeeds
    rw [ok] at failed
    cases failed
  obtain ⟨⟨error, ended, fault⟩, -⟩ :=
    castParameterized_of_not_succeeds level source params s caster loader valid fails
  rw [ended] at failed
  cases failed
  exact ⟨error, rfl, fault⟩

/-- A cast with valid parameters is turned down by the first check that it fails, and by nothing
    else. -/
theorem castParameterized_notCastable_iff (message : String) :
    (CastM.finish (CastM.castParameterized level source params) { spell := s, caster, loader }).1 =
        .error (.failed (.notCastable s.definition.id message)) ↔
      denial? level source (.ofParameters source normal) (s.installed params loader normal) caster =
        some message := by
  constructor
  · intro failed
    obtain ⟨error, same, fault⟩ :=
      fault_castParameterized level source params caster loader valid failed
    cases same
    cases fault with
    | denied denied => exact denied
  · intro denied
    have fails : ¬ Succeeds level source normal (.ofParameters source normal)
        (s.installed params loader normal) caster := by
      intro ⟨passed, _⟩
      cases denied.symm.trans ((passes_iff_denial? ..).mp passed)
    obtain ⟨⟨error, ended, fault⟩, -⟩ :=
      castParameterized_of_not_succeeds level source params s caster loader valid fails
    rw [ended]
    -- the error is that of the check, for the effect is not run
    cases fault with
    | denied other =>
      cases denied.symm.trans other
      rfl
    | refused admitted => cases denied.symm.trans admitted

end

/-! ## Disabled spells -/

section

variable (level : UInt32) (source : CastSource) {s : CatalogSpell} (caster : Caster)

theorem denial?_of_disabled (disabled : s.tuning.enabled = false) (options : CastOptions) :
    denial? level source options s caster =
      if options.bypassConditions then none else some (s.definition.name ++ " is disabled") := by
  simp [denial?, disabled]

theorem castParameterized_of_disabled (disabled : s.tuning.enabled = false) (loader : Loader)
    {params normal : Parameters} (valid : (s.schema.validate params).toExcept = .ok normal) :
    let answer := (CastM.finish (CastM.castParameterized level source params)
      { spell := s, caster, loader }).1
    let bypasses := (CastOptions.ofParameters source normal).bypassConditions
    ((∃ report, answer = .ok report) ↔ bypasses = true ∧
        (effect level source normal (s.installed params loader normal) caster).answer = .done) ∧
      (bypasses = false → answer = .error (.failed
        (.notCastable s.definition.id (s.definition.name ++ " is disabled")))) := by
  intro answer bypasses
  -- what a cast installs is a configuration: the spell stays disabled
  have still : (s.installed params loader normal).tuning.enabled = false := disabled
  have denial := denial?_of_disabled level source caster still (.ofParameters source normal)
  constructor
  · rw [(account_castParameterized level source params s caster loader valid).ok_iff, Succeeds,
      passes_iff_denial?, denial]
    simp [bypasses]
  · intro strict
    apply (castParameterized_notCastable_iff level source params caster loader valid _).mpr
    rw [denial, if_neg (by simpa using strict)]
    rfl

theorem castFixed_of_disabled (disabled : s.tuning.enabled = false) (loader : Loader) :
    (CastM.finish (CastM.castFixed level source) { spell := s, caster, loader }).1 =
      .error (.failed (.fallbackDeclined s.definition.id)) := by
  have declined : attempt level source s caster = ⟨false, s, caster, [.spellDisabled]⟩ := by
    simp [attempt, disabled]
  rcases CastM.castFixed_cases level source { spell := s, caster, loader } with
    ⟨took, _⟩ | ⟨_, ended⟩
  · rw [show Castable.attempt level source s caster = _ from declined] at took
    cases took
  · rw [ended, CastM.attempted, show Castable.attempt level source s caster = _ from declined]
    rfl

end

end CatalogSpell

namespace SpellBook

open CatalogSpell

/-- What a cast of a disabled spell comes to. -/
structure DisabledCast (book : SpellBook) (caster : Caster) (loader : Loader) (source : CastSource)
    (s : CatalogSpell) (level : UInt32) (text : String)
    (result : CastResult SpellBook CastReport) : Prop where
  ok_iff : (∃ report, result.answer = .ok report) ↔
    Castable.isParameterized s = true ∧ ∃ params normal, Parameters.ofText text = .ok params ∧
      (s.schema.validate params).toExcept = .ok normal ∧
      (CastOptions.ofParameters source normal).bypassConditions = true ∧
      (effect level source normal (s.installed params loader normal) caster).answer = .done
  failed : ∀ stop, result.answer = .error stop → result.registry = book ∧ result.caster = caster
  denied : ∀ params normal, Parameters.ofText text = .ok params →
    Castable.isParameterized s = true → (s.schema.validate params).toExcept = .ok normal →
    (CastOptions.ofParameters source normal).bypassConditions = false →
    result.answer = .error (.failed
      (.notCastable s.definition.id (s.definition.name ++ " is disabled")))
  declined : ∀ params, Parameters.ofText text = .ok params → Castable.isParameterized s = false →
    result.answer = .error (.failed (.fallbackDeclined s.definition.id))

section

variable (book : SpellBook) (caster : Caster) (loader : Loader) (source : CastSource) (id : String)
  (level : UInt32) {s : CatalogSpell} (found : book.find? id = some s)
  (disabled : s.tuning.enabled = false)

include found disabled

theorem castWith_ok_iff_of_disabled (params : Parameters) :
    (∃ report, (castWith book caster loader source id level params).answer = .ok report) ↔
      Castable.isParameterized s = true ∧ ∃ normal, (s.schema.validate params).toExcept = .ok normal ∧
        (CastOptions.ofParameters source normal).bypassConditions = true ∧
        (effect level source normal (s.installed params loader normal) caster).answer = .done := by
  cases parameterized : Castable.isParameterized s with
  | false =>
    rw [castWith_of_fixed book caster loader source id level params found parameterized]
    dsimp only
    rw [castFixed_of_disabled level source caster disabled loader]
    simp
  | true =>
    rw [castWith_of_parameterized book caster loader source id level params found parameterized]
    cases validated : (s.schema.validate params).toExcept with
    | error errors =>
      rw [CastM.finish_castParameterized_of_error level source params _ validated]
      simp
    | ok normal =>
      obtain ⟨ok_iff, -⟩ :=
        castParameterized_of_disabled level source caster disabled loader validated
      rw [ok_iff]
      simp

/-- A disabled spell takes no effect, except with parameters and past the checks: where the source
    bypasses them, or the parameters themselves do. -/
theorem castText_disabled (text : String) :
    DisabledCast book caster loader source s level text
      (castText book caster loader source id level text) where
  ok_iff := by
    cases decoded : Parameters.ofText text with
    | error e => simp [castText, decoded, CastResult.refused]
    | ok params =>
      rw [castText_of_decoded book caster loader source id level decoded,
        castWith_ok_iff_of_disabled book caster loader source id level found disabled]
      simp
  failed stop failed := by
    cases decoded : Parameters.ofText text with
    | error e => simp [castText, decoded, CastResult.refused]
    | ok params =>
      rw [castText_of_decoded book caster loader source id level decoded] at failed ⊢
      obtain ⟨sameCaster, sameBook, -⟩ :=
        castWith_error book caster loader source id level params failed
      exact ⟨sameBook, sameCaster⟩
  denied params normal decoded parameterized valid strict := by
    rw [castText_of_decoded book caster loader source id level decoded,
      castWith_of_parameterized book caster loader source id level params found parameterized]
    exact (castParameterized_of_disabled level source caster disabled loader valid).2 strict
  declined params decoded fixed := by
    rw [castText_of_decoded book caster loader source id level decoded,
      castWith_of_fixed book caster loader source id level params found fixed]
    exact castFixed_of_disabled level source caster disabled loader

end

def lullDefinition : SpellDefinition where
  id := "lull"
  name := "Lull"
  defaults := { baseSpellPower := 5 }
  effect := .manaSurge

def lullServer : ServerConfig := ⟨.ofList [("lull", { enabled := false })]⟩

def lull : CatalogSpell :=
  let base := lullDefinition.defaults
  { definition := lullDefinition
    tuning := { enabled := false }
    schema := match (SchemaBuilder.empty.declareAll (lullDefinition.declarations base)).build with
      | .ok schema => schema
      | .error _ => .empty
    base
    live := base }

def lullBook : SpellBook := ⟨.ofList [("lull", lull)]⟩

def lulled (source : CastSource) (text : String) : CastResult SpellBook CastReport :=
  castText lullBook { id := .nil, mana := 3 } .empty source "lull" 1 text

theorem castText_disabled_lull :
    lullBook.find? "lull" = some lull ∧ lull.tuning.enabled = false ∧
      (lulled .scroll "").answer =
        .error (.failed (.notCastable "lull" "Lull is disabled")) ∧
      DisabledCast lullBook { id := .nil, mana := 3 } .empty .scroll lull 1 ""
        (lulled .scroll "") := by
  have found : lullBook.find? "lull" = some lull := rfl
  exact ⟨found, rfl, rfl, castText_disabled lullBook _ .empty .scroll "lull" 1 found rfl ""⟩

/-- A command gives the caster five points of mana all the same, and so does a scroll whose
    parameters say so. -/
theorem castText_bypasses_lull :
    (SpellBook.ofDefinitions [lullDefinition] .empty lullServer).value = .ok lullBook ∧
      lullBook.find? "lull" = some lull ∧ lull.tuning.enabled = false ∧
      (let commanded := lulled .command ""
       commanded.answer.isOk = true ∧ commanded.caster.mana = 8 ∧
        (commanded.registry.find? "lull").bind (·.lastOutcome?) = some ⟨1, .command, 5, none⟩) ∧
      (let flagged := lulled .scroll "\x7b\"bypassConditions\": true\x7d"
       flagged.answer.isOk = true ∧ flagged.caster.mana = 8) := by
  refine ⟨rfl, rfl, rfl, ⟨?_, ?_, ?_⟩, ?_, ?_⟩ <;> decide +kernel

end SpellBook

/-! ## Mana -/

namespace CatalogSpell

theorem denial?_of_enabled (level : UInt32) (source : CastSource) {s : CatalogSpell}
    (caster : Caster) (enabled : s.tuning.enabled = true) {options : CastOptions}
    (strict : options.bypassConditions = false) :
    denial? level source options s caster =
      if source.options.consumeMana ∧ caster.mana < s.manaCost level then
        some ("not enough mana to cast " ++ s.definition.name)
      else none := by
  simp [denial?, enabled, strict]

/-- A cast that does not bypass the checks is turned down if its source takes mana and the caster
    has less than the cost. The cost is the one that the cast reports, and takes if its options
    take mana; where the source takes mana too, the caster had all that is taken. -/
theorem castWith_afforded {R : Type} [Registry R CatalogSpell] (registry : R) (caster : Caster)
    (loader : Loader) (source : CastSource) (id : String) (level : UInt32) (params : Parameters)
    {s : CatalogSpell} (found : Registry.find? registry id = some s)
    (parameterized : Castable.isParameterized s = true) (enabled : s.tuning.enabled = true)
    {normal : Parameters} (valid : (s.schema.validate params).toExcept = .ok normal)
    (strict : (CastOptions.ofParameters source normal).bypassConditions = false) :
    let result := castWith registry caster loader source id level params
    let options := CastOptions.ofParameters source normal
    let cast := s.installed params loader normal
    let cost := cast.live.manaCost level s.tuning.manaMultiplier
    let mana := (effect level source normal cast caster).caster.mana
    (result.answer = .error (.failed (.notCastable s.definition.id
          ("not enough mana to cast " ++ s.definition.name))) ↔
        source.options.consumeMana = true ∧ caster.mana < cost) ∧
      (∀ stop, result.answer = .error stop → result.caster = caster) ∧
      ∀ report, result.answer = .ok report →
        report.config = cast.live ∧
        report.manaCost? = (if options.consumeMana then some cost else none) ∧
        result.caster.mana =
          (if options.consumeMana ∧ 0 < cost then larger (satSub mana cost) 0 else mana) ∧
        (source.options.consumeMana = true → options.consumeMana = true → 0 < cost →
          cost.toInt ≤ caster.mana.toInt ∧
            result.caster.mana.toInt = mana.toInt - cost.toInt) := by
  intro result options cast cost mana
  have casts : result = _ :=
    castWith_of_parameterized registry caster loader source id level params found parameterized
  have castEnabled : cast.tuning.enabled = true := enabled
  have denial := denial?_of_enabled level source caster castEnabled strict
  have account := account_castParameterized level source params s caster loader valid
  refine ⟨?_, ?_, ?_⟩
  · rw [casts, castParameterized_notCastable_iff level source params caster loader valid, denial]
    simp [cast, cost, manaCost, installed]
  · intro stop failed
    rw [casts] at failed ⊢
    exact (account.failed stop failed).2.1
  · intro report answered
    rw [casts] at answered ⊢
    obtain ⟨-, config, effective, settled⟩ := account.succeeded report answered
    have ⟨passed, _⟩ := account.ok_iff.mp ⟨report, answered⟩
    rw [effective] at settled
    generalize CastM.finish _ _ = ending at answered settled ⊢
    have last : ending.2.caster.mana = if options.consumeMana ∧ 0 < cost then
        larger (satSub mana cost) 0 else mana := settled.mana_eq
    refine ⟨config, settled.cost?_eq, last, fun asks takes positive => ?_⟩
    obtain ⟨-, covered⟩ := (passes_eq_true level source cast caster strict).mp passed
    -- the caster pays after the effect, which takes no mana, so the cost is still there
    obtain ⟨had, kept⟩ : cost.toInt ≤ caster.mana.toInt ∧ cost.toInt ≤ mana.toInt :=
      cost_le_effect normal covered asks
    have high := mana.toInt_lt
    have above := Int32.lt_iff_toInt_lt.mp positive
    have zero : (0 : Int32).toInt = 0 := rfl
    refine ⟨had, ?_⟩
    rw [last, if_pos ⟨takes, positive⟩, toInt_larger, toInt_satSub]
    omega

def paying (takes : Bool) : Parameters := .ofList [("consumeMana", .boolean takes)]

def payingNormal (takes : Bool) : Parameters := (ember.schema.validate (paying takes)).normalized

/-- A caster who has one point of mana casts an ember, which takes three and restores one, and says
    whether it is to be paid. -/
def emberPaid (source : CastSource) (takes : Bool) : CastResult SpellBook CastReport :=
  castWith emberBook { id := .nil, mana := 1 } .empty source "ember" 1 (paying takes)

theorem castWith_afforded_ember :
    (emberPaid .spellbook true).answer =
        .error (.failed (.notCastable "ember" "not enough mana to cast Ember")) ∧
      (emberPaid .spellbook true).caster.mana = 1 := by
  have found : Registry.find? emberBook "ember" = some ember := rfl
  have valid : (ember.schema.validate (paying true)).toExcept = .ok (payingNormal true) := rfl
  have strict : (CastOptions.ofParameters .spellbook (payingNormal true)).bypassConditions = false := by
    decide +kernel
  obtain ⟨short, undone, -⟩ := castWith_afforded emberBook { id := .nil, mana := 1 } .empty .spellbook
    "ember" 1 (paying true) found rfl rfl valid strict
  have denied := short.mpr (by decide +kernel)
  have same := undone _ denied
  unfold emberPaid
  refine ⟨denied, ?_⟩
  rw [same]

/-- The flag of a cast and the default of its source can differ. A scroll that is to be paid takes
    what there is, and a spellbook that is not to be paid asks for mana all the same. -/
theorem castWith_flagged_ember :
    (ofDefinition emberDefinition {} .empty).value = .ok ember ∧ ember.tuning.enabled = true ∧
      Castable.isParameterized ember = true ∧
      (∀ takes, (ember.schema.validate (paying takes)).toExcept = .ok (payingNormal takes)) ∧
      (let options := CastOptions.ofParameters .scroll (payingNormal true)
       options.consumeMana = true ∧ options.bypassConditions = false ∧
        (emberPaid .scroll true).answer.toOption.bind CastReport.manaCost? = some 3 ∧
        (emberPaid .scroll true).caster.mana = 0) ∧
      (let options := CastOptions.ofParameters .spellbook (payingNormal false)
       options.consumeMana = false ∧ options.bypassConditions = false ∧
        (emberPaid .spellbook false).answer =
          .error (.failed (.notCastable "ember" "not enough mana to cast Ember"))) := by
  refine ⟨rfl, rfl, rfl, ?_, ⟨?_, ?_, ?_, ?_⟩, ?_, ?_, ?_⟩
  · intro takes
    cases takes <;> rfl
  all_goals decide +kernel

end CatalogSpell

end Spellcraft
