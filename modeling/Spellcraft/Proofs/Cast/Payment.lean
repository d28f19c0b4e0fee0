import Spellcraft.Proofs.Cast.Run

/-! # What a cast costs

The steps that follow a successful effect, taken together: what they make of the caster and what
they tell, in the terms in which the cast is reported.
-/

namespace Spellcraft.CastM

section

variable {S : Type} [Castable S] (spell : String) (level : UInt32) (source : CastSource)
  (params : Parameters) (resolved : SpellConfig) (options : CastOptions) (stage : Stage S)

def manaCost? : Option Int32 :=
  if options.consumeMana then some (cost level resolved stage) else none

def cooldownTicks? : Option Int32 :=
  if options.triggerCooldown then some (ticks spell resolved stage) else none

def charge? : Option Int32 := (manaCost? level resolved options stage).filter (0 < ·)

def manaLeft : Int32 :=
  (charge? level resolved options stage).elim stage.caster.mana fun cost =>
    larger (satSub stage.caster.mana cost) 0

theorem chargedIf_eq :
    chargedIf level resolved options stage =
      { stage with
        caster := stage.caster.setMana (manaLeft level resolved options stage)
        told := stage.told ++ (charge? level resolved options stage).toList.map fun _ =>
          ⟨.caster, .manaChanged stage.caster.id (manaLeft level resolved options stage)⟩ } := by
  unfold chargedIf charged manaLeft charge? manaCost?
  cases options.consumeMana with
  | false => simp [Caster.setMana]
  | true =>
    by_cases positive : 0 < cost level resolved stage
    · simp [positive, Option.filter]
    · simp [positive, Option.filter, Caster.setMana]

theorem ticks_chargedIf :
    ticks spell resolved (chargedIf level resolved options stage) =
      ticks spell resolved stage := by
  rw [chargedIf_eq]
  rfl

theorem cooledIf_eq :
    cooledIf spell resolved options stage =
      { stage with
        caster :=
          { stage.caster with
            cooldowns := (cooldownTicks? spell resolved options stage).elim stage.caster.cooldowns
              (stage.caster.cooldowns.put spell) } } := by
  unfold cooledIf cooled cooldownTicks?
  cases options.triggerCooldown <;> rfl

omit [Castable S] in
theorem replayedIf_eq :
    replayedIf spell level source params options stage =
      { stage with
        told := stage.told ++
          if options.playEffects then
            [⟨.caster, .effectReplay spell level source params.toCompound⟩]
          else [] } := by
  unfold replayedIf replayed
  split
  · rfl
  · simp

theorem paid_eq :
    paid spell level source params resolved options stage =
      { stage with
        caster :=
          { stage.caster with
            mana := manaLeft level resolved options stage
            cooldowns := (cooldownTicks? spell resolved options stage).elim stage.caster.cooldowns
              (stage.caster.cooldowns.put spell) }
        told := stage.told ++
          ((charge? level resolved options stage).toList.map fun _ =>
            ⟨.caster, .manaChanged stage.caster.id (manaLeft level resolved options stage)⟩) ++
          if options.playEffects then
            [⟨.caster, .effectReplay spell level source params.toCompound⟩]
          else [] } := by
  have same : cooldownTicks? spell resolved options (chargedIf level resolved options stage) =
      cooldownTicks? spell resolved options stage := by
    rw [cooldownTicks?, ticks_chargedIf]
    rfl
  rw [paid, replayedIf_eq, cooledIf_eq, same, chargedIf_eq]
  rfl

theorem costs_executed :
    (executed spell level source params resolved options stage).manaCost? =
        manaCost? level resolved options stage ∧
      (executed spell level source params resolved options stage).cooldownTicks? =
        cooldownTicks? spell resolved options stage := by
  refine ⟨rfl, ?_⟩
  rw [executed, ticks_chargedIf]
  rfl

end

end Spellcraft.CastM
