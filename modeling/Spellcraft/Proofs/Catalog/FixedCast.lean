import Spellcraft.Proofs.Catalog.Account
import Spellcraft.Proofs.Cast.Options
import Spellcraft.Proofs.Catalog.Agreement
import Spellcraft.Proofs.Number.Integers

/-! # The fixed cast and the cast without parameters

A catalog spell has a fixed cast, and it can be cast with parameters but without naming any. The
two go different ways to the same end: the first checks and pays by itself, the second is carried
out like every other cast.

* `resolveCooldown_self` — the ratio by which a cooldown is scaled, where nothing overrides it;
* `CatalogSpell.attempt_of_succeeds` — the fixed cast, where the other one succeeds;
* `CatalogSpell.attempt_agrees` — where the two casts agree, and where their ledgers do not.
-/

namespace Spellcraft

/-! ## Cooldowns -/

/-- A cooldown in place of itself is what the caster makes of it, except where the caster makes
    nothing of it: then it stays. -/
theorem resolveCooldown_self (ticks live : Int32) :
    resolveCooldown ticks ticks live = if 0 < ticks ∧ live ≤ 0 then ticks else live := by
  unfold resolveCooldown
  by_cases idle : ticks ≤ 0
  · rw [if_pos idle, if_neg fun both => Int32.not_lt.mpr idle both.1]
  rw [if_neg idle]
  have busy : 0 < ticks := Int32.not_le.mp idle
  by_cases left : 0 < live
  · -- the ratio is one, and so is the least cooldown that is recorded
    have short : Binary.Short 1 := Binary.short_toInt 1
    have above : 1 ≤ live.toInt := Int32.lt_iff_toInt_lt.mp left
    have ratio : Binary.ofInt .double ticks.toInt / Binary.ofInt .double ticks.toInt
        * Binary.ofInt .double live.toInt = Binary.ofInt .double live.toInt := by
      rw [(Binary.Counts.ofInt (Binary.short_toInt ticks)).div_self (Int32.lt_iff_toInt_lt.mp busy),
        (Binary.Counts.ofInt short).mul (Binary.Counts.ofInt (Binary.short_toInt live))
          Int.one_nonneg (by omega), Int.one_mul]
    have whole : (Binary.ofInt .double live.toInt).roundInt32 = live := by
      rw [Binary.roundInt32, (Binary.Counts.ofInt (Binary.short_toInt live)).nearest,
        clamp32_toInt]
    have least : ¬ live < 1 := Int32.not_lt.mpr (Int32.le_iff_toInt_le.mpr above)
    rw [if_pos ⟨busy, left⟩, if_neg fun both => Int32.not_lt.mpr both.2 left, ratio, whole, larger,
      if_neg least]
  · rw [if_neg fun both => left both.2, if_pos ⟨busy, Int32.not_lt.mp left⟩]

/-! ## Mana -/

theorem satSub_eq_sub {a b : Int32} (positive : 0 < b) (covered : b.toInt ≤ a.toInt) :
    satSub a b = a - b := by
  have above : 0 < b.toInt := Int32.lt_iff_toInt_lt.mp positive
  have high := a.toInt_lt
  unfold satSub clamp32
  rw [if_neg (by omega), if_neg (by omega), Int32.ofInt_sub, Int32.ofInt_toInt, Int32.ofInt_toInt]

namespace CatalogSpell

/-- The mana that an effect restores, as far as the caster can hold it. -/
def gained (power : Int32) : SpellEffect → Int
  | .manaSurge => max power.toInt 0
  | .projectile | .blink _ => 0

theorem gained_nonneg (power : Int32) (effect : SpellEffect) : 0 ≤ gained power effect := by
  cases effect with
  | projectile => exact Int.le_refl 0
  | blink _ => exact Int.le_refl 0
  | manaSurge => exact Int.le_max_right ..

theorem mana_resolveEffect {effect : SpellEffect} {power : Int32} {params : Parameters}
    {caster : Caster} {r : Resolution} (done : resolveEffect effect power params caster = .ok r) :
    r.caster.mana.toInt = min (caster.mana.toInt + gained power effect) 2147483647 := by
  have low := caster.mana.le_toInt
  have high := caster.mana.toInt_lt
  have kept : caster.mana.toInt = min (caster.mana.toInt + 0) 2147483647 := by omega
  cases effect with
  | projectile =>
    simp only [resolveEffect] at done
    cases found : needVec3 params "target" with
    | error e => simp [found] at done
    | ok target =>
      rw [found] at done
      cases done
      exact kept
  | blink maxDistance =>
    simp only [resolveEffect] at done
    cases found : needVec3 params "offset" with
    | error e => simp [found] at done
    | ok offset =>
      cases far : maxDistance.lt offset.length with
      | true => simp [found, far] at done
      | false =>
        simp only [found, far] at done
        cases done
        exact kept
  | manaSurge =>
    -- the power is not negative, and the sum stops at the end of the range
    cases done
    have zero : (0 : Int32).toInt = 0 := rfl
    simp only [Caster.setMana, gained, toInt_satAdd, toInt_larger]
    omega

section

variable (level : UInt32) (source : CastSource) (params : Parameters) (s : CatalogSpell)
  (caster : Caster)

theorem mana_effect (done : (effect level source params s caster).answer = .done) :
    (effect level source params s caster).caster.mana.toInt =
      min (caster.mana.toInt + gained (s.live.spellPower level) s.definition.effect)
        2147483647 := by
  unfold effect at done ⊢
  dsimp only at done ⊢
  cases resolved : resolveEffect s.definition.effect (s.live.spellPower level) params caster with
  | error e => simp [resolved] at done
  | ok r => exact mana_resolveEffect resolved

theorem mana_le_effect :
    caster.mana.toInt ≤ (effect level source params s caster).caster.mana.toInt := by
  rcases effect_cases level source params s caster with ⟨error, refused⟩ | done
  · apply Int.le_of_eq
    rw [refused]
  · have gains := gained_nonneg (s.live.spellPower level) s.definition.effect
    have high := caster.mana.toInt_lt
    rw [mana_effect level source params s caster done]
    omega

variable {level source s caster} in
/-- A cost that the checks let through was there before the effect, and so it is afterwards. -/
theorem cost_le_effect (covered : ¬ (source.options.consumeMana ∧ caster.mana < s.manaCost level))
    (asks : source.options.consumeMana = true) :
    (s.manaCost level).toInt ≤ caster.mana.toInt ∧
      (s.manaCost level).toInt ≤ (effect level source params s caster).caster.mana.toInt := by
  have had : s.manaCost level ≤ caster.mana := Int32.not_lt.mp fun short => covered ⟨asks, short⟩
  have had := Int32.le_iff_toInt_le.mp had
  exact ⟨had, Int.le_trans had (mana_le_effect level source params s caster)⟩

theorem effect_caster :
    (effect level source params s caster).caster =
      { caster with mana := (effect level source params s caster).caster.mana } :=
  congrArg HookReply.caster (effect_casting level source params s caster caster.casting?)

/-! ## The fixed cast -/

theorem settle_eq (options : CastOptions) (cost : Int32) :
    s.settle options cost caster =
      { caster with
        mana :=
          if options.consumeMana ∧ 0 < cost then larger (caster.mana - cost) 0 else caster.mana
        cooldowns :=
          if options.triggerCooldown then
            caster.cooldowns.put s.definition.id
              (caster.effectiveCooldown s.definition.id s.live.cooldownTicks)
          else caster.cooldowns } := by
  unfold settle
  dsimp only
  split <;> split <;> rfl

theorem passes_eq_true {options : CastOptions} (strict : options.bypassConditions = false) :
    passes level source options s caster = true ↔
      s.tuning.enabled = true ∧
        ¬ (source.options.consumeMana ∧ caster.mana < s.manaCost level) := by
  unfold passes admission
  rw [strict]
  cases s.tuning.enabled with
  | false => simp
  | true =>
    by_cases short : source.options.consumeMana ∧ caster.mana < s.manaCost level
    · simp [short]
    · simp [short]

variable {level source s caster} {normal : Parameters}
  (valid : (s.schema.validate .empty).toExcept = .ok normal)
  (strict : source.options.bypassConditions = false)

include valid strict

/-- The fixed cast takes place if the cast with the source's own options succeeds. -/
theorem attempt_of_succeeds (succeeds : Succeeds level source normal source.options s caster) :
    let reply := effect level source normal s caster
    let cost := s.manaCost level
    attempt level source s caster =
      { answer := true
        spell := { s with lastOutcome? := reply.spell.lastOutcome? }
        caster :=
          { caster with
            mana :=
              if source.options.consumeMana ∧ 0 < cost then larger (reply.caster.mana - cost) 0
              else reply.caster.mana
            cooldowns :=
              if source.options.triggerCooldown then
                caster.cooldowns.put s.definition.id
                  (caster.effectiveCooldown s.definition.id s.live.cooldownTicks)
              else caster.cooldowns }
        notices := reply.notices } := by
  intro reply cost
  obtain ⟨passed, done⟩ := succeeds
  obtain ⟨enabled, covered⟩ := (passes_eq_true level source s caster strict).mp passed
  unfold attempt
  rw [enabled, valid]
  dsimp only
  rw [if_neg (by simp), if_neg covered, done]
  dsimp only
  rw [settle_eq, effect_spell, effect_caster]
  rfl

theorem attempt_of_not_succeeds (fails : ¬ Succeeds level source normal source.options s caster) :
    (attempt level source s caster).answer = false := by
  unfold attempt
  rw [valid]
  split
  · rfl
  · next enabled =>
    dsimp only
    split
    · rfl
    · next covered =>
      have passed : passes level source source.options s caster = true :=
        (passes_eq_true level source s caster strict).mpr ⟨by simpa using enabled, covered⟩
      cases answered : (effect level source normal s caster).answer with
      | done => exact absurd ⟨passed, answered⟩ fails
      | refused error => rfl
      | brokenOff reason => rfl

omit valid in
/-- What the two casts leave of the mana is the same: the caster had the cost before the effect,
    and no effect takes mana. -/
theorem mana_left (succeeds : Succeeds level source normal source.options s caster) :
    let mana := (effect level source normal s caster).caster.mana
    ((if source.options.consumeMana then some (s.manaCost level) else none).filter
        (0 < ·)).elim mana (fun cost => larger (satSub mana cost) 0) =
      if source.options.consumeMana ∧ 0 < s.manaCost level then
        larger (mana - s.manaCost level) 0
      else mana := by
  intro mana
  obtain ⟨-, covered⟩ := (passes_eq_true level source s caster strict).mp succeeds.1
  rw [charge_eq]
  by_cases takes : source.options.consumeMana ∧ 0 < s.manaCost level
  · obtain ⟨-, cost⟩ := cost_le_effect normal covered takes.1
    rw [if_pos takes, if_pos takes, satSub_eq_sub takes.2 cost]
  · rw [if_neg takes, if_neg takes]

omit valid strict in
theorem recharge_of_based (based : s.live = s.base) :
    let ticks := s.base.cooldownTicks
    let live := caster.effectiveCooldown s.definition.id ticks
    s.recharge caster = if 0 < ticks ∧ live ≤ 0 then ticks else live := by
  intro ticks live
  rw [recharge, based]
  exact resolveCooldown_self ticks live

end

/-! ## The cast without parameters -/

/-- A loader with the table that a spell was made with keeps its base configuration. -/
theorem resolve_base {definition : SpellDefinition} {tuning : SpellTuning} {loader later : Loader}
    {made : CatalogSpell} (new : (ofDefinition definition tuning loader).value = .ok made)
    (same : later.table? = (ofDefinition definition tuning loader).loader.table?) :
    (later.resolve made.definition.id .empty made.base).value = made.base := by
  have id : made.definition.id = definition.id := by rw [(ofDefinition_ok new).1]
  have table : later.load.value = loader.load.value := by
    rw [Loader.load_of_table? (same.trans table?_ofDefinition)]
  refine SpellConfig.ext_value fun f => ?_
  have layered := later.layered_resolve made.schema .empty .empty made.definition.id made.base f
  rw [table, id] at layered
  rw [id]
  exact value_of_silent new layered fun ⟨⟨key, among, _⟩, _⟩ => nomatch among

/-- Without parameters, and with a loader that keeps the base configuration, the spell is cast as
    it is and with the options of the source. -/
theorem account_bare (level : UInt32) (source : CastSource) (caster : Caster) {s : CatalogSpell}
    {loader : Loader} {normal : Parameters}
    (valid : (s.schema.validate .empty).toExcept = .ok normal)
    (built : SchemaBuilder.Builds s.schema) (based : s.live = s.base)
    (kept : (loader.resolve s.definition.id .empty s.base).value = s.base) :
    let ending := CastM.finish (CastM.castParameterized level source .empty)
      { spell := s, caster, loader }
    let reply := effect level source normal s caster
    ((∃ report, ending.1 = .ok report) ↔
        Succeeds level source normal source.options s caster) ∧
      ∀ report, ending.1 = .ok report →
        ending.2.spell = { s with lastOutcome? := reply.spell.lastOutcome? } ∧
          Settled level source normal source.options s caster reply.caster.mana report.manaCost?
            report.cooldownTicks? report.castBarStarted ending.2.caster ending.2.told := by
  intro ending reply
  have account := account_castParameterized level source .empty s caster loader valid
  have installed : s.installed .empty loader normal = s := by
    change { s with live := (loader.resolve s.definition.id .empty s.live).value } = s
    rw [based, kept]
    exact congrArg (fun live => { s with live }) based.symm
  have options : CastOptions.ofParameters source normal = source.options :=
    CastOptions.ofParameters_of_unflagged fun flag =>
      Schema.find?_flag built valid flag fun ⟨key, among, _⟩ => nomatch among
  have ok_iff := account.ok_iff
  rw [options, installed] at ok_iff
  refine ⟨ok_iff, fun report answered => ?_⟩
  obtain ⟨left, -, effective, settled⟩ := account.succeeded report answered
  rw [installed] at left settled
  rw [effective, options] at settled
  exact ⟨left, settled⟩

/-- With the base configuration live, and a loader that keeps it, the cast without parameters
    succeeds exactly if the fixed cast takes place, for every source that does not bypass the
    checks. Both then leave the same spell and the same mana. The ledgers are the same too, unless
    the caster's modifier leaves nothing of a cooldown: the fixed cast records what is left, and
    the cast without parameters the base cooldown. -/
theorem attempt_agrees {R : Type} [Registry R CatalogSpell] (registry : R) (caster : Caster)
    (loader : Loader) (source : CastSource) (id : String) (level : UInt32) {s : CatalogSpell}
    (found : Registry.find? registry id = some s)
    (parameterized : Castable.isParameterized s = true)
    (built : SchemaBuilder.Builds s.schema) (based : s.live = s.base)
    (kept : (loader.resolve s.definition.id .empty s.base).value = s.base)
    (bound : source ≠ .command) :
    let result := castWith registry caster loader source id level .empty
    let fixed := attempt level source s caster
    let ticks := s.base.cooldownTicks
    let live := caster.effectiveCooldown s.definition.id ticks
    ((∃ report, result.answer = .ok report) ↔ fixed.answer = true) ∧
      (fixed.answer = true →
        result.registry = Registry.replace registry id fixed.spell ∧
        result.caster.mana = fixed.caster.mana ∧
        (¬ (source.options.triggerCooldown ∧ 0 < ticks ∧ live ≤ 0) →
          result.caster.cooldowns = fixed.caster.cooldowns) ∧
        (source.options.triggerCooldown ∧ 0 < ticks ∧ live ≤ 0 →
          result.caster.cooldowns = caster.cooldowns.put s.definition.id ticks ∧
            fixed.caster.cooldowns = caster.cooldowns.put s.definition.id live)) := by
  intro result fixed ticks live
  have strict : source.options.bypassConditions = false := by
    cases source with
    | command => exact absurd rfl bound
    | spellbook | scroll | sword | mob | none => rfl
  have casts : result = _ :=
    castWith_of_parameterized registry caster loader source id level .empty found parameterized
  cases validated : (s.schema.validate .empty).toExcept with
  | error errors =>
    rw [CastM.finish_castParameterized_of_error level source _ _ validated] at casts
    have declined : fixed.answer = false := by
      simp only [fixed, attempt, validated]
      split <;> rfl
    rw [casts, declined]
    simp
  | ok normal =>
    obtain ⟨ok_iff, settles⟩ := account_bare level source caster validated built based kept
    rw [casts]
    generalize CastM.finish (CastM.castParameterized level source .empty)
      { spell := s, caster, loader } = ending at ok_iff settles ⊢
    -- both ways succeed under this one condition, which is about the spell before the cast
    by_cases succeeds : Succeeds level source normal source.options s caster
    · have takes : fixed = _ := attempt_of_succeeds validated strict succeeds
      have ok := ok_iff.mpr succeeds
      refine ⟨⟨fun _ => by rw [takes], fun _ => ok⟩, fun _ => ?_⟩
      obtain ⟨report, answered⟩ := ok
      obtain ⟨left, settled⟩ := settles report answered
      have charged := mana_left strict succeeds
      have recharged : s.recharge caster = if 0 < ticks ∧ live ≤ 0 then ticks else live :=
        recharge_of_based based
      rw [← settled.cost?_eq] at charged
      dsimp only
      rw [takes, settled.last_eq, left]
      rw [settled.ticks?_eq, based]
      refine ⟨rfl, charged, fun usual => ?_, fun ⟨triggers, nothing⟩ => ?_⟩
      · cases triggers : source.options.triggerCooldown with
        | false => rfl
        | true =>
          have own : s.recharge caster = live :=
            recharged.trans (if_neg fun nothing => usual ⟨triggers, nothing⟩)
          rw [own]
          rfl
      · -- a cooldown that is modified to nothing counts in full, but not for the fixed spell
        have whole : s.recharge caster = ticks := recharged.trans (if_pos nothing)
        rw [triggers, whole]
        exact ⟨rfl, rfl⟩
    · have declined : fixed.answer = false :=
        attempt_of_not_succeeds validated strict succeeds
      rw [declined]
      exact ⟨⟨fun ok => absurd (ok_iff.mp ok) succeeds, nofun⟩, nofun⟩

def emberDefinition : SpellDefinition where
  id := "ember"
  name := "Ember"
  defaults := { baseManaCost := 3, baseSpellPower := 1, cooldown := .ofInt .double 2 }
  effect := .manaSurge

def ember : CatalogSpell :=
  let base := emberDefinition.defaults
  { definition := emberDefinition
    tuning := {}
    schema := match (SchemaBuilder.empty.declareAll (emberDefinition.declarations base)).build with
      | .ok schema => schema
      | .error _ => .empty
    base
    live := base }

def emberBook : SpellBook := ⟨.ofList [("ember", ember)]⟩

def emberCaster (factor : Binary64) : Caster where
  id := .nil
  mana := 10
  modifiers := .ofList [("ember", factor)]

def half : Binary64 := .ofBits .double 0x3FE0000000000000

def emberCast (caster : Caster) (loader : Loader) : CastResult SpellBook CastReport :=
  castWith emberBook caster loader .spellbook "ember" 1 .empty

def emberAttempt (caster : Caster) : HookReply CatalogSpell Bool :=
  attempt 1 .spellbook ember caster

theorem ofDefinition_ember : (ofDefinition emberDefinition {} .empty).value = .ok ember := rfl

/-- For a caster who halves the cooldown, both casts record half of it. -/
theorem attempt_agrees_ember :
    (emberAttempt (emberCaster half)).caster.cooldowns = .ofList [("ember", 20)] ∧
      (∃ report, (emberCast (emberCaster half) .empty).answer = .ok report) ∧
      (emberCast (emberCaster half) .empty).caster.mana =
        (emberAttempt (emberCaster half)).caster.mana ∧
      (emberCast (emberCaster half) .empty).caster.cooldowns =
        (emberAttempt (emberCaster half)).caster.cooldowns := by
  have built : SchemaBuilder.Builds ember.schema := ⟨_, (ofDefinition_ok ofDefinition_ember).2.2.2⟩
  have takes : (emberAttempt (emberCaster half)).answer = true := by decide +kernel
  have scaled : (emberAttempt (emberCaster half)).caster.cooldowns = .ofList [("ember", 20)] := by
    decide +kernel
  have found : Registry.find? emberBook "ember" = some ember := rfl
  obtain ⟨both, agree⟩ := attempt_agrees emberBook (emberCaster half) .empty .spellbook "ember" 1
    found rfl built rfl (resolve_base ofDefinition_ember rfl) nofun
  obtain ⟨-, mana, same, -⟩ := agree takes
  have ledger := same (by decide +kernel)
  refine ⟨scaled, both.mpr takes, ?_, ?_⟩
  · unfold emberCast emberAttempt
    exact mana
  · unfold emberCast emberAttempt
    exact ledger

/-- Where a factor leaves nothing of the cooldown, the two casts record different cooldowns; and
    with another override table than the one that the spell was made with, they can differ in the
    mana too. -/
theorem attempt_differs_ember :
    (ofDefinition emberDefinition {} .empty).value = .ok ember ∧
      Castable.isParameterized ember = true ∧ ember.tuning.enabled = true ∧
      ember.live = ember.base ∧
      ((emberCast (emberCaster (.zero .double)) .empty).answer.isOk = true ∧
        (emberAttempt (emberCaster (.zero .double))).answer = true ∧
        (emberCast (emberCaster (.zero .double)) .empty).caster.cooldowns =
          .ofList [("ember", 40)] ∧
        (emberAttempt (emberCaster (.zero .double))).caster.cooldowns = .ofList [("ember", 0)]) ∧
      (let dear := emberCast (emberCaster half)
        (.ofTable (.ofList [("ember", { baseManaCost := some 5 })]))
       dear.answer.isOk = true ∧ dear.caster.mana = 6 ∧
        (emberAttempt (emberCaster half)).caster.mana = 8) := by
  refine ⟨rfl, rfl, rfl, rfl, ⟨?_, ?_, ?_, ?_⟩, ?_, ?_, ?_⟩ <;> decide +kernel

end CatalogSpell

end Spellcraft
