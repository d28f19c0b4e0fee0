import Mathlib.Tactic.Linarith
import Spellcraft.Config

/-! # The power of a spell at a level

Power grows by the same amount with every level above the first. It is computed in 32 bits, and
each of three steps is clamped by itself: the number of levels, the gain over these levels, and the
sum of base and gain. A gain that was clamped makes a difference where it leads across zero, since
the base then takes up again what the gain had lost.

* `SpellConfig.toInt_gain_of_fits`, `SpellConfig.gain_of_not_fits` — the gain is exact, or it
  stands at the end of the range to which it leads;
* `SpellConfig.spellPower_linear` — when the power is the linear one, and on which side of it the
  power lies otherwise;
* `SpellConfig.spellPower_monotone` — the power goes one way with the level, through all three
  clamps, and stands still only where it has come as far as it can.
-/

namespace Spellcraft

namespace SpellConfig

variable (c : SpellConfig) (level : UInt32)

def linearGain : Int := c.spellPowerPerLevel.toInt * levelSteps level

def linearPower : Int := c.baseSpellPower.toInt + c.linearGain level

def gain : Int32 := satMul c.spellPowerPerLevel (clamp32 (levelSteps level))

/-- Whether the gain fits 32 bits, and so does the number of levels that it comes from. -/
def GainFits : Prop :=
  (c.spellPowerPerLevel = 0 ∨ levelSteps level ≤ 2147483647) ∧
    -2147483648 ≤ c.linearGain level ∧ c.linearGain level ≤ 2147483647

/-- Whether the power grows away from zero, or from zero by more than one with each level if it
    falls. -/
def GrowsOutward : Prop :=
  0 ≤ c.baseSpellPower ∧ 0 < c.spellPowerPerLevel ∨
    c.baseSpellPower < 0 ∧ c.spellPowerPerLevel < 0 ∨
    c.baseSpellPower = 0 ∧ c.spellPowerPerLevel < -1

theorem toInt_spellPower :
    (c.spellPower level).toInt =
      max (-2147483648) (min (c.baseSpellPower.toInt + (c.gain level).toInt) 2147483647) :=
  toInt_satAdd _ _

theorem toInt_gain :
    (c.gain level).toInt = max (-2147483648)
      (min (c.spellPowerPerLevel.toInt * min (levelSteps level : Int) 2147483647) 2147483647) := by
  rw [gain, toInt_satMul, toInt_clamp32]
  congr 3
  omega

theorem toInt_gain_of_fits (fits : c.GainFits level) :
    (c.gain level).toInt = c.linearGain level := by
  obtain ⟨counted, lower, upper⟩ := fits
  rw [toInt_gain]
  unfold linearGain at *
  rcases counted with flat | few
  · rw [flat]
    simp
  · have few : (levelSteps level : Int) ≤ 2147483647 := by omega
    rw [min_eq_left few]
    omega

/-- A gain that does not fit stands at the end of the range to which it leads. It stands next to
    the end if the power falls by one with each of more levels than can be counted. -/
theorem gain_of_not_fits (clamped : ¬ c.GainFits level) :
    (0 < c.spellPowerPerLevel.toInt ∧ (c.gain level).toInt = 2147483647 ∧
      2147483647 < c.linearGain level) ∨
    (c.spellPowerPerLevel.toInt < -1 ∧ (c.gain level).toInt = -2147483648 ∧
      c.linearGain level < -2147483648) ∨
    (c.spellPowerPerLevel.toInt = -1 ∧ (c.gain level).toInt = -2147483647 ∧
      c.linearGain level < -2147483647) := by
  have gained := c.toInt_gain level
  have counted : (0 : Int) ≤ levelSteps level := Int.natCast_nonneg _
  have flat : c.spellPowerPerLevel = 0 ↔ c.spellPowerPerLevel.toInt = 0 := by
    rw [← Int32.toInt_inj]
    rfl
  have few : levelSteps level ≤ 2147483647 ↔ (levelSteps level : Int) ≤ 2147483647 := by omega
  unfold GainFits at clamped
  unfold linearGain at *
  rw [flat, few] at clamped
  generalize c.spellPowerPerLevel.toInt = slope at gained clamped ⊢
  generalize (levelSteps level : Int) = steps at gained clamped counted ⊢
  rcases le_or_gt steps 2147483647 with few | many
  · -- all levels were counted, so that only the product was clamped
    rw [min_eq_left few] at gained
    have rising (h : slope ≤ 0) : slope * steps ≤ 0 := Int.mul_nonpos_of_nonpos_of_nonneg h counted
    have falling (h : -1 ≤ slope) : -steps ≤ slope * steps := by nlinarith
    omega
  · -- not all levels were counted; with the slope -1 the product stops one short of the clamp
    rw [min_eq_right many.le] at gained
    rcases lt_trichotomy slope 0 with falling | flat | rising
    · have least : slope * steps ≤ -steps := by nlinarith
      have less (h : slope < -1) : slope * steps ≤ -(2 * steps) := by nlinarith
      omega
    · rw [flat, zero_mul] at clamped
      omega
    · have most : steps ≤ slope * steps := by nlinarith
      omega

/-- The power at a level is the linear power, clamped once, exactly if the gain fits or leads away
    from zero. In any case it lies between the base and the linear power. -/
theorem spellPower_linear :
    (c.spellPower level = clamp32 (c.linearPower level) ↔ c.GainFits level ∨ c.GrowsOutward) ∧
    (0 ≤ c.spellPowerPerLevel →
      c.baseSpellPower ≤ c.spellPower level ∧
        c.spellPower level ≤ clamp32 (c.linearPower level)) ∧
    (c.spellPowerPerLevel ≤ 0 →
      clamp32 (c.linearPower level) ≤ c.spellPower level ∧
        c.spellPower level ≤ c.baseSpellPower) := by
  have power := c.toInt_spellPower level
  have linear := toInt_clamp32 (c.linearPower level)
  have lower := c.baseSpellPower.le_toInt
  have upper := c.baseSpellPower.toInt_lt
  have gained : 0 ≤ c.spellPowerPerLevel.toInt → 0 ≤ c.linearGain level :=
    fun rising => Int.mul_nonneg rising (Int.natCast_nonneg _)
  have lost : c.spellPowerPerLevel.toInt ≤ 0 → c.linearGain level ≤ 0 :=
    fun falling => Int.mul_nonpos_of_nonpos_of_nonneg falling (Int.natCast_nonneg _)
  have zero : (0 : Int32).toInt = 0 := rfl
  have minusOne : (-1 : Int32).toInt = -1 := rfl
  simp only [GrowsOutward, ← Int32.toInt_inj, Int32.le_iff_toInt_le, Int32.lt_iff_toInt_lt, zero,
    minusOne]
  unfold linearPower at *
  by_cases fits : c.GainFits level
  · have exact := c.toInt_gain_of_fits level fits
    simp only [fits, true_or, iff_true]
    omega
  · have ends := c.gain_of_not_fits level fits
    simp only [fits, false_or]
    omega

def waning : SpellConfig := { baseSpellPower := 2147483647, spellPowerPerLevel := -2 }

/-- The loss over 1073741825 levels is clamped by two, and the power is too high by two. -/
theorem spellPower_waning :
    waning.linearPower 1073741826 = -3 ∧ waning.spellPower 1073741826 = -1 ∧
      waning.spellPower 1073741826 ≠ clamp32 (waning.linearPower 1073741826) := by
  decide

/-- From zero a power that falls by one never reaches the end of the range. -/
example :
    ({ spellPowerPerLevel := -1 } : SpellConfig).spellPower 4294967295 = -2147483647 := by
  decide

/-! ## Higher levels

Each of the three steps keeps the order of levels or reverses it, so the power goes one way. Where
it stands still although a level was added, one of the steps is at the end of its range, and it
stays there up to the last level. -/

section Order

variable {low high : UInt32}

def lastLevel : UInt32 := 4294967295

theorem le_lastLevel (level : UInt32) : level ≤ lastLevel := by
  have last : lastLevel.toNat = 4294967295 := rfl
  have bounded := level.toNat_lt
  rw [UInt32.le_iff_toNat_le, last]
  omega

theorem levelSteps_mono (higher : low ≤ high) : levelSteps low ≤ levelSteps high :=
  Nat.sub_le_sub_right (UInt32.le_iff_toNat_le.1 higher) 1

theorem levelSteps_eq_iff (higher : low ≤ high) :
    levelSteps low = levelSteps high ↔ low = high ∨ high ≤ 1 := by
  have higher := UInt32.le_iff_toNat_le.1 higher
  have one : (1 : UInt32).toNat = 1 := rfl
  rw [← UInt32.toNat_inj, UInt32.le_iff_toNat_le, one]
  unfold levelSteps
  omega

theorem gain_zero : c.gain 0 = 0 := by
  apply Int32.toInt_inj.1
  rw [toInt_gain, show levelSteps 0 = 0 from rfl]
  simp

theorem toInt_gain_lastLevel :
    (c.gain lastLevel).toInt =
      max (-2147483648) (min (c.spellPowerPerLevel.toInt * 2147483647) 2147483647) :=
  c.toInt_gain lastLevel

theorem gain_mono (rising : 0 ≤ c.spellPowerPerLevel) (higher : low ≤ high) :
    c.gain low ≤ c.gain high :=
  satMul_mono rising (clamp32_mono (Int.ofNat_le.2 (levelSteps_mono higher)))

theorem gain_anti (falling : c.spellPowerPerLevel ≤ 0) (higher : low ≤ high) :
    c.gain high ≤ c.gain low :=
  satMul_anti falling (clamp32_mono (Int.ofNat_le.2 (levelSteps_mono higher)))

theorem spellPower_mono (rising : 0 ≤ c.spellPowerPerLevel) (higher : low ≤ high) :
    c.spellPower low ≤ c.spellPower high :=
  satAdd_mono _ (c.gain_mono rising higher)

theorem spellPower_anti (falling : c.spellPowerPerLevel ≤ 0) (higher : low ≤ high) :
    c.spellPower high ≤ c.spellPower low :=
  satAdd_mono _ (c.gain_anti falling higher)

/-- From level 2147483648 on no further level is counted. -/
theorem gain_of_full (full : 2147483647 ≤ levelSteps level) : c.gain level = c.gain lastLevel := by
  have last : levelSteps lastLevel = 4294967294 := rfl
  have counted : clamp32 (levelSteps level) = clamp32 (levelSteps lastLevel) := by
    rw [← Int32.toInt_inj, toInt_clamp32, toInt_clamp32, last]
    omega
  rw [gain, gain, counted]

theorem gain_stands (sloped : c.spellPowerPerLevel ≠ 0) (more : levelSteps low < levelSteps high)
    (same : c.gain low = c.gain high) : c.gain low = c.gain lastLevel := by
  rcases Nat.lt_or_ge (levelSteps low) 2147483647 with counted | full
  · -- a level more is counted, so it is the product that is clamped
    have sloped : c.spellPowerPerLevel.toInt ≠ 0 := fun flat => sloped (Int32.toInt_inj.1 flat)
    have first := c.toInt_gain low
    have second := c.toInt_gain high
    have last := c.toInt_gain_lastLevel
    have counted : (levelSteps low : Int) ≤ 2147483647 := by omega
    have step : (levelSteps low : Int) + 1 ≤ min (levelSteps high : Int) 2147483647 := by omega
    have some : (0 : Int) ≤ levelSteps low := Int.natCast_nonneg _
    rw [min_eq_left counted] at first
    rw [← Int32.toInt_inj] at same ⊢
    generalize c.spellPowerPerLevel.toInt = slope at *
    generalize (levelSteps low : Int) = few at *
    generalize min (levelSteps high : Int) 2147483647 = many at *
    rcases lt_or_gt_of_ne sloped with falling | rising
    · have lost : slope * few ≤ 0 := Int.mul_nonpos_of_nonpos_of_nonneg falling.le some
      have less : slope * many ≤ slope * few + slope :=
        mul_add_one slope few ▸ Int.mul_le_mul_of_nonpos_left falling.le step
      have least : slope * 2147483647 ≤ slope * few :=
        Int.mul_le_mul_of_nonpos_left falling.le counted
      omega
    · have gained : 0 ≤ slope * few := Int.mul_nonneg rising.le some
      have greater : slope * few + slope ≤ slope * many :=
        mul_add_one slope few ▸ Int.mul_le_mul_of_nonneg_left step rising.le
      omega
  · exact c.gain_of_full low full

/-- A power that more levels leave as it is stays so up to the last level. -/
theorem spellPower_stands (sloped : c.spellPowerPerLevel ≠ 0) (higher : low ≤ high)
    (more : levelSteps low < levelSteps high) (same : c.spellPower low = c.spellPower high) :
    c.spellPower low = c.spellPower lastLevel := by
  by_cases gained : c.gain low = c.gain high
  · exact congrArg (satAdd c.baseSpellPower) (c.gain_stands sloped more gained)
  · -- the gains differ, so it is the sum that is clamped
    have first := c.toInt_spellPower low
    have second := c.toInt_spellPower high
    have last := c.toInt_spellPower lastLevel
    have least := c.baseSpellPower.le_toInt
    have most := c.baseSpellPower.toInt_lt
    have none : (c.gain 0).toInt = 0 := congrArg Int32.toInt c.gain_zero
    rw [← Int32.toInt_inj] at gained same ⊢
    rcases Int32.le_total 0 c.spellPowerPerLevel with rising | falling
    · have rises {l l' : UInt32} (higher : l ≤ l') : (c.gain l).toInt ≤ (c.gain l').toInt :=
        Int32.le_iff_toInt_le.1 (c.gain_mono rising higher)
      have started : (c.gain 0).toInt ≤ (c.gain low).toInt := rises UInt32.zero_le
      have risen := rises higher
      have ended := rises (le_lastLevel high)
      omega
    · have falls {l l' : UInt32} (higher : l ≤ l') : (c.gain l').toInt ≤ (c.gain l).toInt :=
        Int32.le_iff_toInt_le.1 (c.gain_anti falling higher)
      have started : (c.gain low).toInt ≤ (c.gain 0).toInt := falls UInt32.zero_le
      have fallen := falls higher
      have ended := falls (le_lastLevel high)
      omega

/-- Once the power of the last level is reached, no level changes it any more. -/
theorem spellPower_eq_of_lastLevel (higher : low ≤ high)
    (reached : c.spellPower low = c.spellPower lastLevel) :
    c.spellPower low = c.spellPower high := by
  rcases Int32.le_total 0 c.spellPowerPerLevel with rising | falling
  · apply Int32.le_antisymm (c.spellPower_mono rising higher)
    rw [reached]
    exact c.spellPower_mono rising (le_lastLevel high)
  · refine Int32.le_antisymm ?_ (c.spellPower_anti falling higher)
    rw [reached]
    exact c.spellPower_anti falling (le_lastLevel high)

/-- At a higher level the power is not lower if levels add to it, and not higher if they take from
    it. Where they do either, two levels have the same power exactly if they are the same level, if
    neither is above the first, or if the lower one has the power of the last level already. -/
theorem spellPower_monotone (higher : low ≤ high) :
    (0 ≤ c.spellPowerPerLevel → c.spellPower low ≤ c.spellPower high) ∧
    (c.spellPowerPerLevel ≤ 0 → c.spellPower high ≤ c.spellPower low) ∧
    (c.spellPowerPerLevel ≠ 0 →
      (c.spellPower low = c.spellPower high ↔
        low = high ∨ high ≤ 1 ∨ c.spellPower low = c.spellPower lastLevel)) := by
  refine ⟨fun rising => c.spellPower_mono rising higher,
    fun falling => c.spellPower_anti falling higher, fun sloped => ?_⟩
  rw [← or_assoc, ← levelSteps_eq_iff higher]
  constructor
  · intro same
    rcases (levelSteps_mono higher).eq_or_lt with alike | more
    · exact .inl alike
    · exact .inr (c.spellPower_stands sloped higher more same)
  · rintro (alike | reached)
    · rw [spellPower, spellPower, alike]
    · exact c.spellPower_eq_of_lastLevel higher reached

def waxing : SpellConfig := { baseSpellPower := -2147483648, spellPowerPerLevel := 3 }

/-- Both powers end at minus one, where their gains are clamped: the rising one has one step to go
    at level 715827883, and the falling one is there at level 1073741825. -/
theorem spellPower_monotone_clamped :
    waxing.spellPower 715827883 ≤ waxing.spellPower 2147483650 ∧
    waxing.spellPower 715827883 ≠ waxing.spellPower 2147483650 ∧
    waning.spellPower 2147483650 ≤ waning.spellPower 0 ∧
    waning.spellPower 1073741825 = waning.spellPower 2147483650 := by
  obtain ⟨rises, -, moves⟩ :=
    waxing.spellPower_monotone (show (715827883 : UInt32) ≤ 2147483650 by decide)
  obtain ⟨-, falls, -⟩ := waning.spellPower_monotone (show (0 : UInt32) ≤ 2147483650 by decide)
  obtain ⟨-, -, stands⟩ :=
    waning.spellPower_monotone (show (1073741825 : UInt32) ≤ 2147483650 by decide)
  exact ⟨rises (by decide), mt (moves (by decide)).1 (by decide), falls (by decide),
    (stands (by decide)).2 (.inr (by decide))⟩

end Order

end SpellConfig

end Spellcraft
