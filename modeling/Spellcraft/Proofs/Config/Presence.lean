import Mathlib.Data.Nat.Bitwise
import Spellcraft.Proofs.Config.Layers

/-! # Presence as a set of bits

A record can also be kept as a whole configuration, beside which a set of bits tells the fields
that count. Whatever is in the configuration, a field that is not in the set is left alone; and a
field in the set counts even if its value is zero.

* `LoadedConfig.defines_mark` — marking a field adds this field to the set and no other;
* `LoadedConfig.value_merge` — a merge takes the fields in the set, each from its own place;
* `LoadedConfig.defines_ofRecord`, `LoadedConfig.merge_ofRecord` — both forms of a record name the
  same fields, and apply in the same way.
-/

namespace Spellcraft

namespace ConfigField

def place (f : ConfigField) : Nat := f.bit.log2

theorem bit_eq (f : ConfigField) : f.bit = 2 ^ f.place := by cases f <;> rfl

theorem place_inj {f g : ConfigField} : f.place = g.place ↔ f = g := by
  cases f <;> cases g <;> decide

end ConfigField

namespace SpellConfig

def takeField (c other : SpellConfig) : ConfigField → SpellConfig
  | .baseManaCost => { c with baseManaCost := other.baseManaCost }
  | .manaCostPerLevel => { c with manaCostPerLevel := other.manaCostPerLevel }
  | .baseSpellPower => { c with baseSpellPower := other.baseSpellPower }
  | .spellPowerPerLevel => { c with spellPowerPerLevel := other.spellPowerPerLevel }
  | .castTime => { c with castTime := other.castTime }
  | .cooldown => { c with cooldown := other.cooldown }

theorem value_takeField (c other : SpellConfig) (f g : ConfigField) :
    (c.takeField other f).value g = if g = f then other.value g else c.value g := by
  cases f <;> cases g <;> rfl

theorem value_foldl_takeField (other : SpellConfig) (fields : List ConfigField) (c : SpellConfig)
    (f : ConfigField) :
    (fields.foldl (·.takeField other ·) c).value f =
      if f ∈ fields then other.value f else c.value f := by
  induction fields generalizing c with
  | nil => rfl
  | cons first rest ih =>
    rw [List.foldl_cons, ih, value_takeField]
    by_cases here : f = first
    · simp [here]
    · simp [here]

end SpellConfig

/-- A configuration with the set of the fields that count in it. -/
structure LoadedConfig where
  config : SpellConfig
  present : Nat

namespace LoadedConfig

def defines (loaded : LoadedConfig) (f : ConfigField) : Bool := loaded.present &&& f.bit == f.bit

def mark (loaded : LoadedConfig) (f : ConfigField) (named : Bool) : LoadedConfig :=
  if named then { loaded with present := loaded.present ||| f.bit } else loaded

def merge (loaded : LoadedConfig) (fallback : SpellConfig) : SpellConfig :=
  (ConfigField.all.filter loaded.defines).foldl (·.takeField loaded.config ·) fallback

def ofRecord (r : OverrideRecord) : LoadedConfig :=
  ConfigField.all.foldl (fun loaded f => loaded.mark f (r.defines f)) ⟨r.config, 0⟩

theorem defines_eq_testBit (loaded : LoadedConfig) (f : ConfigField) :
    loaded.defines f = loaded.present.testBit f.place := by
  have some : 0 ≠ 2 ^ f.place := Nat.ne_of_lt (Nat.two_pow_pos _)
  rw [defines, f.bit_eq, Nat.and_two_pow]
  cases loaded.present.testBit f.place <;> simp [some]

theorem defines_mark (loaded : LoadedConfig) (f : ConfigField) (named : Bool) (g : ConfigField) :
    (loaded.mark f named).defines g = (loaded.defines g || (named && decide (g = f))) := by
  cases named with
  | false => simp [mark]
  | true =>
    rw [mark, if_pos rfl, defines_eq_testBit, defines_eq_testBit, Nat.testBit_or, f.bit_eq,
      Nat.testBit_two_pow]
    simp [ConfigField.place_inj, eq_comm]

theorem defines_foldl_mark (named : ConfigField → Bool) (fields : List ConfigField)
    (loaded : LoadedConfig) (f : ConfigField) :
    (fields.foldl (fun loaded f => loaded.mark f (named f)) loaded).defines f =
      (loaded.defines f || (fields.contains f && named f)) := by
  induction fields generalizing loaded with
  | nil => simp
  | cons first rest ih =>
    rw [List.foldl_cons, ih, defines_mark, List.contains_cons]
    by_cases here : f = first
    · -- a field may be marked twice, which makes no difference
      subst here
      cases named f <;> simp
    · have other : (f == first) = false := beq_false_of_ne here
      simp [here, other]

/-- What counts in a merge is whether a field is in the set, whatever its value is. -/
theorem value_merge (loaded : LoadedConfig) (fallback : SpellConfig) (f : ConfigField) :
    (loaded.merge fallback).value f =
      if loaded.defines f = true then loaded.config.value f else fallback.value f := by
  rw [merge, SpellConfig.value_foldl_takeField]
  simp [f.mem_all]

theorem defines_ofRecord (r : OverrideRecord) (f : ConfigField) :
    (ofRecord r).defines f = r.defines f := by
  have nothing : defines ⟨r.config, 0⟩ f = false := by
    rw [defines_eq_testBit, Nat.zero_testBit]
  rw [ofRecord, defines_foldl_mark, nothing]
  simp [f.mem_all]

theorem config_ofRecord (r : OverrideRecord) : (ofRecord r).config = r.config := by
  unfold ofRecord
  -- marks only touch the bits, whichever bits are set before
  generalize (0 : Nat) = bits
  induction ConfigField.all generalizing bits with
  | nil => rfl
  | cons first rest ih =>
    rw [List.foldl_cons, mark]
    cases r.defines first with
    | false => exact ih bits
    | true => exact ih (bits ||| first.bit)

theorem merge_ofRecord (r : OverrideRecord) (fallback : SpellConfig) :
    (ofRecord r).merge fallback = r.applyTo fallback := by
  refine SpellConfig.ext_value fun f => ?_
  rw [value_merge, defines_ofRecord, config_ofRecord, r.value_applyTo]

end LoadedConfig

end Spellcraft
