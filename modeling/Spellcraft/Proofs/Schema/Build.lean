import Mathlib.Data.List.Nodup
import Spellcraft.Proofs.Record
import Spellcraft.Proofs.Value.Storage
import Spellcraft.Schema.Builder

/-! # What building a schema guarantees

The checks of the builder leave a schema whose fields have names of their own, and whose
defaults are in the form that their fields store. Its aliases are names of no field, and each
stands for a field.

* `Schema.SoundFields` — what is guaranteed of fields;
* `SchemaBuilder.soundFields_declareAll` — every call on a builder keeps it;
* `Schema.SoundAliases` — what is guaranteed of aliases, which are added at the end;
* `SchemaBuilder.Builds.sound`, `SchemaBuilder.Builds.soundAliases` — so every schema that was
  built has both;
* `SchemaBuilder.mem_build`, `SchemaBuilder.configDefinition_mem` — a declared field is in the
  schema, and so are the configuration fields of a schema that is built on them.
-/

namespace Spellcraft

theorem ConfigField.mem_all (f : ConfigField) : f ∈ ConfigField.all := by
  cases f <;> decide

namespace Schema

theorem hasField_eq_true {fields : List FieldDefinition} {name : String} :
    hasField fields name = true ↔ name ∈ fields.map FieldDefinition.name := by
  unfold hasField findField?
  rw [List.find?_isSome, List.mem_map]
  simp only [beq_iff_eq]

theorem isSome_definition? (s : Schema) (name : String) :
    (s.definition? name).isSome = (hasField s.fields name || isGlobal name) := by
  simp [definition?, hasField, isGlobal, Option.isSome_or]

theorem name_of_findField? {fields : List FieldDefinition} {name : String}
    {field : FieldDefinition} (found : findField? fields name = some field) :
    field.name = name := by
  simpa using List.find?_some found

/-- Fields with distinct names, none of them a flag's, and with normal defaults. -/
structure SoundFields (fields : List FieldDefinition) : Prop where
  distinct : (fields.map FieldDefinition.name).Nodup
  notGlobal : ∀ field ∈ fields, isGlobal field.name = false
  normal : ∀ field ∈ fields, ∀ value, field.default? = some value → NormalForm field.kind value

theorem SoundFields.nil : SoundFields [] where
  distinct := List.nodup_nil
  notGlobal _ member := by cases member
  normal _ member := by cases member

theorem SoundFields.findField? {fields : List FieldDefinition} (sound : SoundFields fields)
    {field : FieldDefinition} (member : field ∈ fields) :
    Schema.findField? fields field.name = some field := by
  unfold Schema.findField?
  cases found : fields.find? fun other => other.name == field.name with
  | none =>
    have absent := List.find?_eq_none.mp found field member
    simp at absent
  | some other =>
    have sameName : other.name = field.name := name_of_findField? found
    have same := List.inj_on_of_nodup_map sound.distinct (List.mem_of_find?_eq_some found) member
      sameName
    rw [same]

/-- Aliases that are names of no field, distinct among themselves, and stand for fields. -/
structure SoundAliases (s : Schema) : Prop where
  known : ∀ e ∈ s.aliases, (s.definition? e.2).isSome = true
  foreign : ∀ name ∈ Entries.keys s.aliases, s.definition? name = none
  distinct : (Entries.keys s.aliases).Nodup

theorem SoundAliases.definition?_of_resolve? {s : Schema} (sound : SoundAliases s)
    {key name : String} (resolved : s.resolve? key = some name) :
    ∃ field, s.definition? name = some field := by
  rw [← Option.isSome_iff_exists]
  unfold resolve? at resolved
  split at resolved
  · next known =>
    cases resolved
    rw [isSome_definition?, known]
  · exact sound.known _ (Entries.mem_of_find? resolved)

theorem SoundAliases.resolve?_iff {s : Schema} (sound : SoundAliases s) {key name : String} :
    s.resolve? key = some name ↔
      key = name ∧ (s.definition? name).isSome = true ∨ (key, name) ∈ s.aliases := by
  unfold resolve?
  rw [← isSome_definition?]
  constructor
  · intro resolved
    split at resolved
    · next own =>
      cases resolved
      exact .inl ⟨rfl, own⟩
    · exact .inr (Entries.mem_of_find? resolved)
  · rintro (⟨rfl, own⟩ | synonym)
    · rw [if_pos own]
    · have foreign := sound.foreign key (List.mem_map_of_mem synonym)
      rw [foreign, if_neg (by simp)]
      exact Entries.find?_of_mem sound.distinct synonym

end Schema

namespace SchemaBuilder

open Schema

theorem normal_defaultOf {name : String} {kind : Kind} {presence : Presence}
    {default? : Option Value} (defined : defaultOf name kind presence = .ok default?) :
    ∀ value, default? = some value → NormalForm kind value := by
  intro value given
  subst given
  unfold defaultOf at defined
  split at defined
  · split at defined
    · next normal normalized =>
      cases defined
      exact Kind.normalForm_of_normalize normalized
    · cases defined
  · cases defined
  · cases defined

/-- A field that passes its check can join the fields before it. -/
theorem soundFields_defineField {fields : List FieldDefinition} {name : String} {kind : Kind}
    {presence : Presence} {description : String} {field : FieldDefinition}
    (sound : SoundFields fields)
    (defined : defineField fields name kind presence description = .ok field) :
    SoundFields (fields ++ [field]) := by
  unfold defineField at defined
  split at defined
  · cases defined
  next own =>
  split at defined
  · cases defined
  next new =>
  split at defined
  · cases defined
  next default? defaulted =>
  cases defined
  rw [hasField_eq_true] at new
  constructor
  · rw [List.map_append, List.nodup_append]
    refine ⟨sound.distinct, List.nodup_singleton _, ?_⟩
    intro before member after last same
    rw [List.map_singleton, List.mem_singleton] at last
    rw [same, last] at member
    exact new member
  · intro field member
    rcases List.mem_append.mp member with before | last
    · exact sound.notGlobal field before
    · rw [List.mem_singleton.mp last]
      simpa using own
  · intro field member
    rcases List.mem_append.mp member with before | last
    · exact sound.normal field before
    · rw [List.mem_singleton.mp last]
      exact normal_defaultOf defaulted

theorem soundFields_declare {b : SchemaBuilder} (sound : SoundFields b.fields)
    (call : Declaration) : SoundFields (b.declare call).fields := by
  cases call with
  | synonym name target => exact sound
  | field name kind presence description =>
    unfold declare field
    dsimp only
    split
    · next defined => exact soundFields_defineField sound defined
    · exact sound

/-- Calls keep the fields sound, also those that fail their check. -/
theorem soundFields_declareAll {b : SchemaBuilder} (sound : SoundFields b.fields)
    (calls : List Declaration) : SoundFields (b.declareAll calls).fields := by
  unfold declareAll
  induction calls generalizing b with
  | nil => exact sound
  | cons call rest ih => exact ih (soundFields_declare sound call)

theorem names_attachAlias (fields : List FieldDefinition) (name target : String) :
    (attachAlias fields name target).map FieldDefinition.name =
      fields.map FieldDefinition.name := by
  rw [attachAlias, List.map_map]
  refine List.map_congr_left fun field _ => ?_
  simp only [Function.comp]
  split <;> rfl

/-- An alias changes neither the names, nor the kinds, nor the defaults of fields. -/
theorem soundFields_attachAlias {fields : List FieldDefinition} (sound : SoundFields fields)
    (name target : String) : SoundFields (attachAlias fields name target) := by
  have kept (field : FieldDefinition) (member : field ∈ attachAlias fields name target) :
      ∃ before ∈ fields, field.name = before.name ∧ field.kind = before.kind ∧
        field.default? = before.default? := by
    obtain ⟨before, old, rfl⟩ := List.mem_map.mp member
    refine ⟨before, old, ?_⟩
    split
    · exact ⟨rfl, rfl, rfl⟩
    · exact ⟨rfl, rfl, rfl⟩
  constructor
  · rw [names_attachAlias]
    exact sound.distinct
  · intro field member
    obtain ⟨before, old, sameName, -, -⟩ := kept field member
    rw [sameName]
    exact sound.notGlobal before old
  · intro field member value given
    obtain ⟨before, old, -, sameKind, sameDefault⟩ := kept field member
    rw [sameKind]
    exact sound.normal before old value (sameDefault ▸ given)

theorem soundFields_addAliases {s built : Schema} {aliases : List (String × String)}
    (sound : SoundFields s.fields) (added : addAliases s aliases = .ok built) :
    SoundFields built.fields := by
  induction aliases generalizing s with
  | nil =>
    cases added
    exact sound
  | cons entry rest ih =>
    obtain ⟨name, target⟩ := entry
    unfold addAliases at added
    split at added
    · cases added
    · split at added
      · cases added
      · exact ih (soundFields_attachAlias sound name target) added

theorem isSome_definition?_attachAlias (s : Schema) (name target other : String)
    (aliases : Entries String) :
    (definition? ⟨attachAlias s.fields name target, aliases⟩ other).isSome =
      (s.definition? other).isSome := by
  have fields : hasField (attachAlias s.fields name target) other = hasField s.fields other := by
    rw [Bool.eq_iff_iff, hasField_eq_true, hasField_eq_true, names_attachAlias]
  rw [isSome_definition?, isSome_definition?, fields]

theorem soundAliases_attachAlias {s : Schema} (sound : SoundAliases s) {name target : String}
    (known : (s.definition? target).isSome = true) (foreign : (s.definition? name).isSome = false)
    (new : name ∉ Entries.keys s.aliases) :
    SoundAliases ⟨attachAlias s.fields name target, s.aliases ++ [(name, target)]⟩ := by
  constructor
  · intro e member
    rw [isSome_definition?_attachAlias]
    rcases List.mem_append.mp member with before | last
    · exact sound.known e before
    · rw [List.mem_singleton.mp last]
      exact known
  · intro other member
    rw [← Option.isNone_iff_eq_none, ← Option.isSome_eq_false_iff, isSome_definition?_attachAlias]
    rw [Entries.keys, List.map_append, List.mem_append] at member
    rcases member with before | last
    · rw [sound.foreign other before]
      rfl
    · rw [List.mem_singleton.mp last]
      exact foreign
  · rw [Entries.keys, List.map_append, List.nodup_append]
    refine ⟨sound.distinct, List.nodup_singleton _, ?_⟩
    intro before member last here same
    rw [same, List.mem_singleton.mp here] at member
    exact new member

theorem soundAliases_addAliases {s built : Schema} {aliases : List (String × String)}
    (sound : SoundAliases s) (added : addAliases s aliases = .ok built) : SoundAliases built := by
  induction aliases generalizing s with
  | nil =>
    cases added
    exact sound
  | cons entry rest ih =>
    obtain ⟨name, target⟩ := entry
    unfold addAliases at added
    split at added
    · cases added
    next known =>
    split at added
    · cases added
    next fresh =>
    rw [Bool.not_eq_true, Bool.not_eq_false', ← isSome_definition?] at known
    rw [Bool.not_eq_true, Bool.or_eq_false_iff, ← isSome_definition?] at fresh
    refine ih (soundAliases_attachAlias sound known fresh.1 ?_) added
    rw [← Entries.contains_iff, fresh.2]
    exact Bool.false_ne_true

/-- A schema that some calls on an empty builder build. -/
def Builds (s : Schema) : Prop := ∃ calls, (empty.declareAll calls).build = .ok s

theorem Builds.sound {s : Schema} (built : Builds s) : SoundFields s.fields := by
  obtain ⟨calls, built⟩ := built
  unfold build at built
  split at built
  · cases built
  · exact soundFields_addAliases (soundFields_declareAll .nil calls) built

theorem Builds.soundAliases {s : Schema} (built : Builds s) : SoundAliases s := by
  obtain ⟨calls, built⟩ := built
  unfold build at built
  split at built
  · cases built
  · have start : SoundAliases ⟨(empty.declareAll calls).fields, []⟩ :=
      ⟨fun _ member => (nomatch member), fun _ member => (nomatch member), List.nodup_nil⟩
    exact soundAliases_addAliases start built

/-! ## What becomes of a declared field -/

/-- Fields are only ever added, whether a call fails its check or not. -/
theorem fields_prefix_declareAll (b : SchemaBuilder) (calls : List Declaration) :
    b.fields <+: (b.declareAll calls).fields := by
  unfold declareAll
  induction calls generalizing b with
  | nil => exact List.prefix_rfl
  | cons call rest ih =>
    refine List.IsPrefix.trans ?_ (ih (b.declare call))
    cases call with
    | synonym name target => exact List.prefix_rfl
    | field name kind presence description =>
      simp only [declare, field]
      split <;> simp

theorem mem_attachAlias {fields : List FieldDefinition} {field : FieldDefinition}
    (member : field ∈ fields) (name target : String) :
    ∃ aliases, { field with aliases } ∈ attachAlias fields name target := by
  by_cases same : field.name = target
  · exact ⟨field.aliases ++ [name], List.mem_map.mpr ⟨field, member, if_pos same⟩⟩
  · exact ⟨field.aliases, List.mem_map.mpr ⟨field, member, if_neg same⟩⟩

theorem mem_addAliases {s built : Schema} {calls : List (String × String)}
    (added : addAliases s calls = .ok built) {field : FieldDefinition}
    (member : field ∈ s.fields) : ∃ aliases, { field with aliases } ∈ built.fields := by
  induction calls generalizing s field with
  | nil =>
    cases added
    exact ⟨field.aliases, member⟩
  | cons entry rest ih =>
    obtain ⟨name, target⟩ := entry
    unfold addAliases at added
    split at added
    · cases added
    · split at added
      · cases added
      · obtain ⟨aliases, attached⟩ := mem_attachAlias member name target
        -- a later alias extends the list of aliases again
        obtain ⟨more, kept⟩ := ih added attached
        exact ⟨more, kept⟩

/-- A declared field is a field of the schema, with the aliases that were declared for it. -/
theorem mem_build {b : SchemaBuilder} {s : Schema} (built : b.build = .ok s)
    {field : FieldDefinition} (member : field ∈ b.fields) :
    ∃ aliases, { field with aliases } ∈ s.fields := by
  unfold build at built
  split at built
  · cases built
  · exact mem_addAliases built member

/-! ## Configuration fields -/

def configDefinition (defaults : SpellConfig) (f : ConfigField) : FieldDefinition where
  name := f.key
  kind := f.kind
  required := false
  default? := some (defaults.value f)
  description := f.description
  aliases := []

theorem fields_ofConfig (defaults : SpellConfig) :
    (ofConfig defaults).fields = ConfigField.all.map (configDefinition defaults) := rfl

/-- A schema that is built on top of the configuration fields has these fields. -/
theorem configDefinition_mem {defaults : SpellConfig} {calls : List Declaration} {s : Schema}
    (built : (empty.declareAll (configDeclarations defaults ++ calls)).build = .ok s)
    (f : ConfigField) :
    ∃ aliases, { configDefinition defaults f with aliases } ∈ s.fields := by
  have declared : configDefinition defaults f ∈ (ofConfig defaults).fields := by
    rw [fields_ofConfig]
    exact List.mem_map_of_mem f.mem_all
  refine mem_build built ?_
  rw [declareAll, List.foldl_append]
  exact (fields_prefix_declareAll _ calls).subset declared

end SchemaBuilder

end Spellcraft
