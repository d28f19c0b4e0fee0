import Spellcraft.Config.Loader
import Spellcraft.Proofs.Schema.Acceptance

/-! # The layers of a configuration

Each field of the configuration of a cast comes from one of three layers: from the caller, if
the caller named the field and gave it a number; else from the record of the table, if there is
one that names the field; else from the spell itself. What validation filled in for a field that
the caller did not name is in none of the layers.

* `SpellConfig.value_withOverrides`, `OverrideRecord.value_applyTo` — one layer over another,
  field by field;
* `OverrideTable.field?`, `Loader.value_layered` — what a table says about a field, and the field
  under all three layers;
* `Schema.find?_supplied` — the layer of the caller holds no defaults;
* `Layered` — where the value of a field comes from;
* `Loader.layered_resolve` — what a loader resolves is layered.
-/

namespace Spellcraft

theorem ConfigField.isValid_kind (f : ConfigField) (value : Value) :
    f.kind.isValid value = value.isNumeric := by
  cases f <;> rfl

namespace SpellConfig

theorem ext_value {c d : SpellConfig} (same : ∀ f, c.value f = d.value f) : c = d := by
  have manaCost := same .baseManaCost
  have manaPerLevel := same .manaCostPerLevel
  have power := same .baseSpellPower
  have powerPerLevel := same .spellPowerPerLevel
  have castTime := same .castTime
  have cooldown := same .cooldown
  cases c
  cases d
  simp only [value, Value.int.injEq, Value.double.injEq] at *
  simp [*]

theorem value_withOverrides (c : SpellConfig) (params : Parameters) (f : ConfigField) :
    (c.withOverrides params).value f =
      ((params.find? f.key).bind f.kind.normalize).getD (c.value f) := by
  have int (key : String) (default : Int32) :
      Value.int (params.getInt key default) =
        ((params.find? key).bind Kind.int.normalize).getD (.int default) := by
    unfold Parameters.getInt
    cases params.find? key with
    | none => rfl
    | some given => cases reading : given.toInt? <;> simp [Kind.normalize, reading]
  have double (key : String) (default : Binary64) :
      Value.double (params.getDouble key default) =
        ((params.find? key).bind Kind.double.normalize).getD (.double default) := by
    unfold Parameters.getDouble
    cases params.find? key with
    | none => rfl
    | some given => cases reading : given.toDouble? <;> simp [Kind.normalize, reading]
  cases f with
  | cooldown => exact double _ _
  | _ => exact int _ _

end SpellConfig

namespace OverrideRecord

def value? (r : OverrideRecord) : ConfigField → Option Value
  | .baseManaCost => r.baseManaCost.map .int
  | .manaCostPerLevel => r.manaCostPerLevel.map .int
  | .baseSpellPower => r.baseSpellPower.map .int
  | .spellPowerPerLevel => r.spellPowerPerLevel.map .int
  | .castTime => r.castTime.map .int
  | .cooldown => r.cooldown.map .double

theorem defines_eq (r : OverrideRecord) (f : ConfigField) :
    r.defines f = (r.value? f).isSome := by
  cases f <;> exact Option.isSome_map.symm

theorem value_applyTo_getD (r : OverrideRecord) (c : SpellConfig) (f : ConfigField) :
    (r.applyTo c).value f = (r.value? f).getD (c.value f) := by
  have pick {α : Type} (wrap : α → Value) (named : Option α) (own : α) :
      wrap (named.getD own) = (named.map wrap).getD (wrap own) := by
    cases named <;> rfl
  cases f <;> exact pick _ _ _

theorem value_config (r : OverrideRecord) (f : ConfigField) :
    r.config.value f = (r.value? f).getD (SpellConfig.zero.value f) :=
  r.value_applyTo_getD .zero f

theorem value_applyTo (r : OverrideRecord) (c : SpellConfig) (f : ConfigField) :
    (r.applyTo c).value f = if r.defines f = true then r.config.value f else c.value f := by
  rw [value_applyTo_getD, value_config, defines_eq]
  cases r.value? f <;> rfl

end OverrideRecord

namespace OverrideTable

variable {table : OverrideTable} {spell : String} {f : ConfigField}

def field? (table : OverrideTable) (spell : String) (f : ConfigField) : Option Value :=
  (table.find? spell).bind (·.value? f)

theorem field?_of_defines {record : OverrideRecord} (filed : table.find? spell = some record)
    (defined : record.defines f = true) : table.field? spell f = some (record.config.value f) := by
  rw [record.defines_eq] at defined
  obtain ⟨value, named⟩ := Option.isSome_iff_exists.mp defined
  rw [field?, filed, Option.bind_some, record.value_config, named, Option.getD_some]

theorem field?_of_undefined
    (undefined : ∀ record, table.find? spell = some record → record.defines f = false) :
    table.field? spell f = none := by
  rw [field?, Option.bind_eq_none_iff]
  intro record filed
  rw [← Option.not_isSome_iff_eq_none, ← record.defines_eq, undefined record filed]
  exact Bool.false_ne_true

end OverrideTable

namespace Schema

variable (s : Schema)

/-- What a caller supplied, before a field that was named twice counts once. -/
def suppliedPairs (given normal : Parameters) : List (String × Value) :=
  given.keys.filterMap fun key => do
    let name ← s.resolve? key
    let value ← normal.find? name
    return (name, value)

theorem mem_suppliedPairs {given normal : Parameters} {name : String} {value : Value} :
    (name, value) ∈ s.suppliedPairs given normal ↔
      s.Names given name ∧ normal.find? name = some value := by
  simp only [suppliedPairs, List.mem_filterMap, Option.bind_eq_bind, Option.bind_eq_some_iff]
  constructor
  · rintro ⟨key, entered, other, resolved, found, stored, paired⟩
    cases paired
    exact ⟨⟨key, entered, resolved⟩, stored⟩
  · rintro ⟨⟨key, entered, resolved⟩, stored⟩
    exact ⟨key, entered, name, resolved, value, stored, rfl⟩

/-- What a caller supplied is looked up among the normalized values, but only for fields that the
    caller named. -/
theorem find?_supplied (given normal : Parameters) (name : String) :
    (s.supplied given normal).find? name =
      if s.Names given name then normal.find? name else none := by
  have agree : ∀ p ∈ s.suppliedPairs given normal, normal.find? p.1 = some p.2 :=
    fun p member => (s.mem_suppliedPairs.mp member).2
  refine (Entries.find?_ofList agree name).trans ?_
  by_cases named : s.Names given name
  · cases found : normal.find? name with
    | none => simp [named]
    | some value =>
      have member : name ∈ Entries.keys (s.suppliedPairs given normal) :=
        List.mem_map_of_mem (s.mem_suppliedPairs.mpr ⟨named, found⟩)
      simp [named, member]
  · have absent : name ∉ Entries.keys (s.suppliedPairs given normal) := by
      intro member
      obtain ⟨p, among, rfl⟩ := List.mem_map.mp member
      exact named (s.mem_suppliedPairs.mp among).1
    simp [named, absent]

/-- Whether a caller overrides a field: names it, and gives it a number. -/
def Overrides (given normal : Parameters) (name : String) : Prop :=
  s.Names given name ∧ ∃ number, normal.find? name = some number ∧ number.isNumeric = true

end Schema

/-- Where the value of a field in the configuration of a cast comes from: the caller, the record
    of the table, or the live configuration. -/
structure Layered (s : Schema) (given normal : Parameters) (record? : Option OverrideRecord)
    (live config : SpellConfig) (f : ConfigField) : Prop where
  caller : ∀ number, s.Names given f.key → normal.find? f.key = some number →
    number.isNumeric = true → f.kind.normalize number = some (config.value f)
  file : ¬ s.Overrides given normal f.key →
    ∀ record, record? = some record → record.defines f = true →
      config.value f = record.config.value f
  live : ¬ s.Overrides given normal f.key →
    (∀ record, record? = some record → record.defines f = false) →
      config.value f = live.value f

/-- What a caller supplied without overriding a field does not count. -/
theorem Schema.bind_find?_supplied {s : Schema} {given normal : Parameters} {f : ConfigField}
    (silent : ¬ s.Overrides given normal f.key) :
    ((s.supplied given normal).find? f.key).bind f.kind.normalize = none := by
  rw [find?_supplied]
  by_cases named : s.Names given f.key
  · -- it was named, so it can only be that its value is no number
    rw [if_pos named, Option.bind_eq_none_iff]
    intro value found
    rw [← Option.not_isSome_iff_eq_none, Kind.normalize_isSome, f.isValid_kind]
    exact fun numeric => silent ⟨named, value, found, numeric⟩
  · rw [if_neg named]
    rfl

namespace Loader

theorem load_of_table? {l : Loader} {table : OverrideTable} (loaded : l.table? = some table) :
    l.load = ⟨table, l, []⟩ := by
  simp only [load, loaded]

theorem table?_load (l : Loader) : l.load.loader.table? = some l.load.value := by
  unfold load
  cases loaded : l.table? with
  | none => rfl
  | some table => exact loaded

theorem value_layered (table : OverrideTable) (spell : String) (params : Parameters)
    (own : SpellConfig) (f : ConfigField) :
    (layered table spell params own).value f =
      ((params.find? f.key).bind f.kind.normalize).getD
        ((table.field? spell f).getD (own.value f)) := by
  unfold layered OverrideTable.field?
  rw [SpellConfig.value_withOverrides]
  cases table.find? spell with
  | none => rfl
  | some record =>
    dsimp only [Option.bind_some]
    rw [record.value_applyTo_getD]

theorem layered_resolve (l : Loader) (s : Schema) (given normal : Parameters) (spell : String)
    (live : SpellConfig) (f : ConfigField) :
    Layered s given normal (l.load.value.find? spell) live
      (l.resolve spell (s.supplied given normal) live).value f := by
  have value : (l.resolve spell (s.supplied given normal) live).value.value f = _ :=
    value_layered l.load.value spell (s.supplied given normal) live f
  constructor
  · intro number named found numeric
    obtain ⟨own, converted⟩ : ∃ own, f.kind.normalize number = some own := by
      rw [← Option.isSome_iff_exists, Kind.normalize_isSome, f.isValid_kind, numeric]
    rw [value, s.find?_supplied, if_pos named, found, Option.bind_some, converted]
    rfl
  · intro silent record filed defined
    rw [value, Schema.bind_find?_supplied silent, OverrideTable.field?_of_defines filed defined]
    rfl
  · intro silent undefined
    rw [value, Schema.bind_find?_supplied silent, OverrideTable.field?_of_undefined undefined]
    rfl

end Loader

end Spellcraft
