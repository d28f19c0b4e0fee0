import Spellcraft.Proofs.Schema.Declarations
import Spellcraft.Proofs.Schema.Revalidation

/-! # What every built schema is like

A schema keeps its aliases twice: in a table, by which keys are resolved, and with the field that
they stand for, for the description of the schema. The builder writes both at a time, except that
an alias of a cast flag has the table only.

* `Schema.Listed` — the aliases of each field are those of the table that stand for it;
* `Schema.Listed.attachAlias`, `SchemaBuilder.listed_addAliases` — one alias keeps that, and so do
  all of them;
* `Schema.Consistent` — what holds of the names, aliases and defaults of a schema;
* `SchemaBuilder.build_consistent` — it holds of every schema that was built, and the configuration
  fields are in every schema that was built on them.
-/

namespace Spellcraft

namespace Schema

variable {s : Schema}

/-! ## The two copies of the aliases -/

def aliasesOf (aliases : Entries String) (target : String) : List String :=
  Entries.keys (aliases.filter fun e => e.2 == target)

def Listed (s : Schema) : Prop :=
  ∀ field ∈ s.fields, field.aliases = aliasesOf s.aliases field.name

theorem Listed.attachAlias (listed : Listed s) (name target : String) :
    Listed ⟨SchemaBuilder.attachAlias s.fields name target, s.aliases ++ [(name, target)]⟩ := by
  intro field member
  obtain ⟨before, old, rfl⟩ := List.mem_map.mp member
  have kept := listed before old
  -- both copies grow by the name if it stands for this field, and neither does otherwise
  by_cases same : before.name = target
  · simp [same, kept, aliasesOf, Entries.keys]
  · simp [same, Ne.symm same, kept, aliasesOf]

/-- In the table of a sound schema, the aliases of a field are the keys that it resolves to it. -/
theorem aliasesOf_eq (sound : SoundAliases s) (target : String) :
    aliasesOf s.aliases target =
      (Entries.keys s.aliases).filter fun key => s.resolve? key == some target := by
  rw [aliasesOf, Entries.keys, Entries.keys, List.filter_map]
  congr 1
  refine List.filter_congr fun e member => ?_
  have resolved : s.resolve? e.1 = some e.2 := sound.resolve?_iff.mpr (.inr member)
  simp [resolved]

/-! ## Names -/

/-- Everything that may be used as a key: the names of fields, of flags, and the aliases. -/
def names (s : Schema) : List String :=
  s.fields.map FieldDefinition.name ++ globals.map FieldDefinition.name ++ Entries.keys s.aliases

theorem mem_names {key : String} :
    key ∈ s.names ↔ (s.definition? key).isSome = true ∨ key ∈ Entries.keys s.aliases := by
  simp only [names, List.mem_append, isSome_definition?, isGlobal, Bool.or_eq_true,
    hasField_eq_true]

theorem nodup_names (fields : SoundFields s.fields) (aliases : SoundAliases s) :
    s.names.Nodup := by
  rw [names, List.nodup_append, List.nodup_append]
  refine ⟨⟨fields.distinct, by decide, ?_⟩, aliases.distinct, ?_⟩
  · rintro name own _ flag rfl
    obtain ⟨field, member, rfl⟩ := List.mem_map.mp own
    rw [← hasField_eq_true, ← isGlobal, fields.notGlobal field member] at flag
    cases flag
  · -- an alias has no definition, and a name of a field or flag has one
    rintro name known _ further rfl
    have defined : (s.definition? name).isSome = true := by
      simpa [isSome_definition?, isGlobal, hasField_eq_true] using known
    rw [aliases.foreign name further] at defined
    cases defined

theorem name_of_definition? {name : String} {field : FieldDefinition}
    (defined : s.definition? name = some field) : field.name = name := by
  rcases Option.or_eq_some_iff.mp defined with own | ⟨-, flag⟩
  · exact name_of_findField? own
  · exact name_of_findField? flag

theorem normalForm_flagField (flag : CastFlag) {value : Value}
    (default : (flagField flag).default? = some value) :
    NormalForm (flagField flag).kind value := by
  cases default
  exact .boolean _

/-- A schema whose names, aliases and defaults are in order. -/
structure Consistent (s : Schema) : Prop where
  distinct : s.names.Nodup
  resolves : ∀ key, (s.resolve? key).isSome = true ↔ key ∈ s.names
  canonical : ∀ key name, s.resolve? key = some name →
    name ∈ (s.fields ++ globals).map FieldDefinition.name ∧ name ∉ Entries.keys s.aliases ∧
      (∃ field, s.definition? name = some field ∧ field.name = name) ∧
      s.resolve? name = some name
  listed : ∀ field ∈ s.fields, field.aliases =
    (Entries.keys s.aliases).filter fun key => s.resolve? key == some field.name
  normal : ∀ field ∈ s.fields ++ globals, ∀ value, field.default? = some value →
    field.kind.isValid value = true ∧ field.kind.normalize value = some value

theorem Listed.consistent (listed : Listed s) (fields : SoundFields s.fields)
    (aliases : SoundAliases s) : Consistent s where
  distinct := nodup_names fields aliases
  resolves key := by
    rw [mem_names, Option.isSome_iff_exists]
    constructor
    · rintro ⟨name, resolved⟩
      rcases aliases.resolve?_iff.mp resolved with ⟨rfl, defined⟩ | synonym
      · exact .inl defined
      · exact .inr (List.mem_map_of_mem synonym)
    · rintro (defined | further)
      · exact ⟨key, aliases.resolve?_iff.mpr (.inl ⟨rfl, defined⟩)⟩
      · obtain ⟨⟨_, name⟩, synonym, rfl⟩ := List.mem_map.mp further
        exact ⟨name, aliases.resolve?_iff.mpr (.inr synonym)⟩
  canonical key name resolved := by
    obtain ⟨field, defined⟩ := aliases.definition?_of_resolve? resolved
    have known : (s.definition? name).isSome = true := by simp [defined]
    refine ⟨?_, ?_, ⟨field, defined, name_of_definition? defined⟩,
      s.resolve?_of_definition? defined⟩
    · simpa [isSome_definition?, isGlobal, hasField_eq_true] using known
    · intro further
      rw [aliases.foreign name further] at known
      cases known
  listed field member := (listed field member).trans (aliasesOf_eq aliases field.name)
  normal field member value default := by
    have form : NormalForm field.kind value := by
      rcases List.mem_append.mp member with own | flag
      · exact fields.normal field own value default
      · obtain ⟨flag, -, rfl⟩ := List.mem_map.mp flag
        exact normalForm_flagField _ default
    refine ⟨?_, form.normalize⟩
    rw [← Kind.normalize_isSome, form.normalize]
    rfl

end Schema

namespace SchemaBuilder

open Schema

/-! ## Building -/

theorem listed_addAliases {s built : Schema} {aliases : Entries String} (listed : Listed s)
    (added : addAliases s aliases = .ok built) : Listed built := by
  induction aliases generalizing s with
  | nil =>
    cases added
    exact listed
  | cons e rest ih =>
    rw [addAliases_cons] at added
    cases fault : aliasFault? (s.fields.map FieldDefinition.name) s.aliases e with
    | some error => simp [fault] at added
    | none =>
      rw [fault] at added
      exact ih (listed.attachAlias e.1 e.2) added

/-- A field has no aliases before the end. -/
theorem aliases_of_mem_declareAll {b : SchemaBuilder}
    (bare : ∀ field ∈ b.fields, field.aliases = []) (calls : List Declaration) :
    ∀ field ∈ (b.declareAll calls).fields, field.aliases = [] := by
  induction calls generalizing b with
  | nil => exact bare
  | cons call rest ih =>
    refine ih ?_
    obtain ⟨e, -, declared, -⟩ | ⟨new, -, -, added, declared⟩ := declare_cases b call
    · simpa [declared] using bare
    · rw [declared]
      intro field member
      rcases List.mem_append.mp member with old | here
      · exact bare field old
      · exact added field here

theorem Builds.listed {s : Schema} (built : Builds s) : Listed s := by
  obtain ⟨calls, built⟩ := built
  have start : Listed ⟨(empty.declareAll calls).fields, []⟩ := by
    intro field member
    rw [aliases_of_mem_declareAll (by simp [empty]) calls field member]
    rfl
  unfold build at built
  split at built
  · cases built
  · exact listed_addAliases start built

theorem Builds.consistent {s : Schema} (built : Builds s) : Consistent s :=
  built.listed.consistent built.sound built.soundAliases

/-! ## Configuration fields -/

theorem ofConfig_declareAll (defaults : SpellConfig) (calls : List Declaration) :
    (ofConfig defaults).declareAll calls =
      empty.declareAll (configDeclarations defaults ++ calls) :=
  (declareAll_append ..).symm

theorem declaredNames_configDeclarations (defaults : SpellConfig) :
    declaredNames (configDeclarations defaults) = ConfigField.all.map ConfigField.key := rfl

theorem synonyms_configDeclarations (defaults : SpellConfig) :
    synonyms (configDeclarations defaults) =
      ConfigField.all.filterMap fun f => f.alias?.map fun short => (short, f.key) := rfl

/-- Every schema that was built is consistent. If it was built on the configuration fields, these
    are still found under their names and short names, and have the given defaults. -/
theorem build_consistent :
    (∀ s, Builds s → Consistent s) ∧
    ∀ defaults calls s, ((ofConfig defaults).declareAll calls).build = .ok s → ∀ f : ConfigField,
      s.resolve? f.key = some f.key ∧
      (∀ short, f.alias? = some short → s.resolve? short = some f.key) ∧
      ∃ field, s.definition? f.key = some field ∧ field.kind = f.kind ∧
        field.default? = some (defaults.value f) := by
  refine ⟨fun s built => built.consistent, ?_⟩
  intro defaults calls s built f
  -- the configuration fields are declarations like those that follow, only the first ones
  rw [ofConfig_declareAll] at built
  obtain ⟨aliases, declared⟩ := configDefinition_mem built f
  have found : findField? s.fields f.key = some { configDefinition defaults f with aliases } :=
    (Builds.sound ⟨_, built⟩).findField? declared
  refine ⟨?_, ?_, ?_⟩
  · refine (resolve?_of_build built _ _).mpr (.inl ⟨rfl, .inl ?_⟩)
    rw [declaredNames_append, declaredNames_configDeclarations]
    exact List.mem_append_left _ (List.mem_map_of_mem f.mem_all)
  · intro short given
    refine (resolve?_of_build built _ _).mpr (.inr ?_)
    rw [synonyms_append, synonyms_configDeclarations]
    exact List.mem_append_left _ (List.mem_filterMap.mpr ⟨f, f.mem_all, by simp [given]⟩)
  · exact ⟨_, by rw [definition?, found, Option.some_or], rfl, rfl⟩

/-- A strike is consistent, with two more names for its force. Declared on top of a configuration,
    it leaves the power to this. -/
theorem build_consistent_strike :
    Builds strikeSchema ∧ Consistent strikeSchema ∧
    ∃ s, ((ofConfig { baseSpellPower := 5 }).declareAll strikeCalls).build = .ok s ∧
      s.resolve? "power" = some "baseSpellPower" ∧
      ∃ field, s.definition? "baseSpellPower" = some field ∧ field.default? = some (.int 5) := by
  obtain ⟨consistent, configured⟩ := build_consistent
  have built : Builds strikeSchema := ⟨strikeCalls, rfl⟩
  obtain ⟨s, strong⟩ :
      ∃ s, ((ofConfig { baseSpellPower := 5 }).declareAll strikeCalls).build = .ok s := ⟨_, rfl⟩
  obtain ⟨-, short, field, defined, -, default⟩ := configured _ _ s strong .baseSpellPower
  exact ⟨built, consistent _ built, s, strong, short "power" rfl, field, defined, default⟩

end SchemaBuilder

end Spellcraft
