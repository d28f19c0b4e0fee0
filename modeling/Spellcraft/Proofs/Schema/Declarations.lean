import Spellcraft.Proofs.Schema.Faults

/-! # Which declarations build a schema

The builder checks a field when it is declared, against the fields that it has kept so far, and an
alias at the end, against all fields and the aliases before it. Here the same is said of the calls
alone: which of them are well declared, and which is the first at fault.

* `SchemaBuilder.WellDeclared` — what calls must satisfy together;
* `SchemaBuilder.firstFault?` — the first item at fault after those before it;
* `SchemaBuilder.declare_cases` — all that one call can do to a builder;
* `SchemaBuilder.build_spec` — what is built, or the error, as a function of the calls;
* `SchemaBuilder.build_wellDeclared` — so a schema is built from well-declared calls only, from
  these always, and the place of an alias among them makes no difference.
-/

namespace Spellcraft

namespace Declaration

def fieldName? : Declaration → Option String
  | .field name .. => some name
  | .synonym .. => none

def alias? : Declaration → Option (String × String)
  | .field .. => none
  | .synonym name target => some (name, target)

def hasValidDefault : Declaration → Bool
  | .field _ kind (.optional value) _ => kind.isValid value
  | .field .. | .synonym .. => true

variable (name target description : String) (kind : Kind) (presence : Presence)

@[simp] theorem fieldName?_field :
    (field name kind presence description).fieldName? = some name := rfl

@[simp] theorem fieldName?_synonym : (synonym name target).fieldName? = none := rfl

@[simp] theorem alias?_field : (field name kind presence description).alias? = none := rfl

@[simp] theorem alias?_synonym : (synonym name target).alias? = some (name, target) := rfl

@[simp] theorem hasValidDefault_synonym : (synonym name target).hasValidDefault = true := rfl

end Declaration

namespace SchemaBuilder

open Schema

/-- The names that calls declare as fields, also those that are refused. -/
def declaredNames (calls : List Declaration) : List String :=
  calls.filterMap Declaration.fieldName?

def synonyms (calls : List Declaration) : Entries String :=
  calls.filterMap Declaration.alias?

@[simp] theorem declaredNames_nil : declaredNames [] = [] := rfl

@[simp] theorem declaredNames_cons (call : Declaration) (rest : List Declaration) :
    declaredNames (call :: rest) = call.fieldName?.toList ++ declaredNames rest := by
  cases call <;> rfl

@[simp] theorem declaredNames_append (first second : List Declaration) :
    declaredNames (first ++ second) = declaredNames first ++ declaredNames second :=
  List.filterMap_append

@[simp] theorem synonyms_cons (call : Declaration) (rest : List Declaration) :
    synonyms (call :: rest) = call.alias?.toList ++ synonyms rest := by
  cases call <;> rfl

@[simp] theorem synonyms_append (first second : List Declaration) :
    synonyms (first ++ second) = synonyms first ++ synonyms second :=
  List.filterMap_append

theorem declaredNames_perm {calls other : List Declaration} (permuted : other.Perm calls) :
    (declaredNames other).Perm (declaredNames calls) :=
  permuted.filterMap _

theorem synonyms_perm {calls other : List Declaration} (permuted : other.Perm calls) :
    (synonyms other).Perm (synonyms calls) :=
  permuted.filterMap _

/-- Calls that fit together, whatever their order. -/
structure WellDeclared (calls : List Declaration) : Prop where
  notGlobal : ∀ name ∈ declaredNames calls, isGlobal name = false
  distinct : (declaredNames calls).Nodup
  valid : ∀ call ∈ calls, call.hasValidDefault = true
  known : ∀ e ∈ synonyms calls, e.2 ∈ declaredNames calls ∨ isGlobal e.2 = true
  foreign : ∀ e ∈ synonyms calls, e.1 ∉ declaredNames calls ∧ isGlobal e.1 = false
  single : (Entries.keys (synonyms calls)).Nodup

/-! ## Faults -/

/-- What is wrong with a call that declares a field after some names, if anything is. -/
def fieldFault? (declared : List String) (call : Declaration) : Option SchemaError :=
  match call with
  | .synonym .. => none
  | .field name kind .. =>
    if isGlobal name then some (.shadowsGlobal name)
    else if name ∈ declared then some (.duplicateField name)
    else if call.hasValidDefault then none
    else some (.invalidDefault name kind)

def aliasFault? (declared : List String) (before : Entries String) (e : String × String) :
    Option SchemaError :=
  if e.2 ∉ declared ∧ isGlobal e.2 = false then some (.danglingAlias e.1 e.2)
  else if e.1 ∈ declared ∨ isGlobal e.1 = true ∨ e.1 ∈ Entries.keys before then
    some (.duplicateAlias e.1)
  else none

def firstFault? {α : Type} (fault? : List α → α → Option SchemaError) (before : List α) :
    List α → Option SchemaError
  | [] => none
  | item :: rest => (fault? before item).or (firstFault? fault? (before ++ [item]) rest)

def firstFieldFault? (calls : List Declaration) : Option SchemaError :=
  firstFault? (fun before => fieldFault? (declaredNames before)) [] calls

/-- The first fault of an alias, where those of all calls may stand for any declared field. -/
def firstAliasFault? (calls : List Declaration) : Option SchemaError :=
  firstFault? (aliasFault? (declaredNames calls)) [] (synonyms calls)

/-! ## One call -/

variable {b : SchemaBuilder} {calls : List Declaration}

theorem defaultOf_cases (name : String) (kind : Kind) (presence : Presence)
    (description : String) :
    ((Declaration.field name kind presence description).hasValidDefault = true ∧
      ∃ default?, defaultOf name kind presence = .ok default?) ∨
    ((Declaration.field name kind presence description).hasValidDefault = false ∧
      defaultOf name kind presence = .error (.invalidDefault name kind)) := by
  cases presence with
  | required => exact .inl ⟨rfl, none, rfl⟩
  | optionalUnset => exact .inl ⟨rfl, none, rfl⟩
  | optional value =>
    rw [Declaration.hasValidDefault, ← Kind.normalize_isSome, defaultOf]
    cases kind.normalize value <;> simp

theorem fieldFault?_of_defineField (fields : List FieldDefinition) (name : String) (kind : Kind)
    (presence : Presence) (description : String) :
    fieldFault? (fields.map FieldDefinition.name) (.field name kind presence description) =
      match defineField fields name kind presence description with
      | .error e => some e
      | .ok _ => none := by
  by_cases global : isGlobal name = true
  · simp [fieldFault?, defineField, global]
  by_cases known : name ∈ fields.map FieldDefinition.name
  · simp [fieldFault?, defineField, global, known, hasField_eq_true.mpr known]
  have new : hasField fields name = false := by simpa [← hasField_eq_true] using known
  obtain ⟨valid, default?, defaulted⟩ | ⟨invalid, refused⟩ :=
    defaultOf_cases name kind presence description
  · simp [fieldFault?, defineField, global, known, new, valid, defaulted]
  · simp [fieldFault?, defineField, global, known, new, invalid, refused]

theorem of_defineField {fields : List FieldDefinition} {name : String} {kind : Kind}
    {presence : Presence} {description : String} {definition : FieldDefinition}
    (defined : defineField fields name kind presence description = .ok definition) :
    definition.name = name ∧ definition.aliases = [] := by
  unfold defineField at defined
  split at defined
  · cases defined
  split at defined
  · cases defined
  split at defined
  · cases defined
  · cases defined
    exact ⟨rfl, rfl⟩

/-- A call that is at fault leaves its error, if it is the first, and nothing else. Another one
    adds what it declares. -/
theorem declare_cases (b : SchemaBuilder) (call : Declaration) :
    (∃ e, fieldFault? (b.fields.map FieldDefinition.name) call = some e ∧
      b.declare call = { b with failed? := b.failed?.or (some e) } ∧ call.alias? = none) ∨
    (∃ new : List FieldDefinition,
      fieldFault? (b.fields.map FieldDefinition.name) call = none ∧
      new.map FieldDefinition.name = call.fieldName?.toList ∧
      (∀ field ∈ new, field.aliases = []) ∧
      b.declare call = ⟨b.fields ++ new, b.aliases ++ call.alias?.toList, b.failed?⟩) := by
  cases call with
  | synonym name target =>
    exact .inr ⟨[], rfl, rfl, by simp, by simp [declare, synonym]⟩
  | field name kind presence description =>
    rw [fieldFault?_of_defineField]
    cases defined : defineField b.fields name kind presence description with
    | error e => exact .inl ⟨e, rfl, by simp [declare, field, defined], rfl⟩
    | ok definition =>
      obtain ⟨named, bare⟩ := of_defineField defined
      refine .inr ⟨[definition], rfl, ?_, ?_, ?_⟩
      · simp [named]
      · simp [bare]
      · simp [declare, field, defined]

/-! ## All calls -/

@[simp] theorem declareAll_nil (b : SchemaBuilder) : b.declareAll [] = b := rfl

@[simp] theorem declareAll_cons (b : SchemaBuilder) (call : Declaration)
    (rest : List Declaration) : b.declareAll (call :: rest) = (b.declare call).declareAll rest :=
  rfl

theorem declareAll_append (b : SchemaBuilder) (first second : List Declaration) :
    b.declareAll (first ++ second) = (b.declareAll first).declareAll second :=
  List.foldl_append

theorem aliases_declareAll (b : SchemaBuilder) (calls : List Declaration) :
    (b.declareAll calls).aliases = b.aliases ++ synonyms calls := by
  induction calls generalizing b with
  | nil => simp [synonyms]
  | cons call rest ih =>
    rw [declareAll_cons, ih]
    obtain ⟨e, -, declared, none⟩ | ⟨new, -, -, -, declared⟩ := declare_cases b call
    · simp [declared, none]
    · simp [declared]

/-- Which fields a call adds depends on the fields before it, not on errors. -/
theorem fields_declareAll_congr {b other : SchemaBuilder} (same : b.fields = other.fields)
    (calls : List Declaration) : (b.declareAll calls).fields = (other.declareAll calls).fields := by
  induction calls generalizing b other with
  | nil => simpa using same
  | cons call rest ih =>
    refine ih ?_
    cases call with
    | synonym name target => exact same
    | field name kind presence description =>
      simp only [declare, field, same]
      split <;> simp

theorem failed?_declareAll_of_some {e : SchemaError} (failed : b.failed? = some e)
    (calls : List Declaration) : (b.declareAll calls).failed? = some e := by
  induction calls generalizing b with
  | nil => exact failed
  | cons call rest ih =>
    refine ih ?_
    obtain ⟨_, -, declared, -⟩ | ⟨_, -, -, -, declared⟩ := declare_cases b call <;>
      simp [declared, failed]

/-- As long as no call is at fault, the fields kept are those declared; and the first fault is what
    remains of the first call that is. -/
theorem declareAll_spec {before : List Declaration} (clean : b.failed? = none)
    (kept : b.fields.map FieldDefinition.name = declaredNames before)
    (rest : List Declaration) :
    (b.declareAll rest).failed? =
      firstFault? (fun before => fieldFault? (declaredNames before)) before rest ∧
    ((b.declareAll rest).failed? = none →
      (b.declareAll rest).fields.map FieldDefinition.name = declaredNames (before ++ rest)) := by
  -- until the first fault the builder has kept every name, so it judges by what was declared
  induction rest generalizing b before with
  | nil => simp [clean, kept, firstFault?]
  | cons call rest ih =>
    rw [declareAll_cons, firstFault?, ← kept, List.append_cons before call rest]
    obtain ⟨e, fault, declared, -⟩ | ⟨new, fault, named, -, declared⟩ := declare_cases b call
    · -- this is the first error, and later ones do not replace it
      have failed : (b.declare call).failed? = some e := by simp [declared, clean]
      simp [failed?_declareAll_of_some failed, fault]
    · rw [fault, Option.none_or]
      refine ih (by simpa [declared] using clean) ?_
      simp [declared, kept, named]

/-! ## Aliases -/

theorem addAliases_cons (s : Schema) (e : String × String) (rest : Entries String) :
    addAliases s (e :: rest) =
      match aliasFault? (s.fields.map FieldDefinition.name) s.aliases e with
      | some error => .error error
      | none => addAliases ⟨attachAlias s.fields e.1 e.2, s.aliases ++ [e]⟩ rest := by
  obtain ⟨name, target⟩ := e
  have dangling : (target ∉ s.fields.map FieldDefinition.name ∧ isGlobal target = false) ↔
      (!(hasField s.fields target || isGlobal target)) = true := by
    simp [← hasField_eq_true]
  have taken : (name ∈ s.fields.map FieldDefinition.name ∨ isGlobal name = true ∨
        name ∈ Entries.keys s.aliases) ↔
      (hasField s.fields name || isGlobal name || Entries.contains s.aliases name) = true := by
    simp [← hasField_eq_true, ← Entries.contains_iff, or_assoc]
  simp only [addAliases, aliasFault?, dangling, taken]
  split
  · rfl
  · split <;> rfl

theorem addAliases_spec (s : Schema) (rest : Entries String) :
    match addAliases s rest with
    | .error e =>
      firstFault? (aliasFault? (s.fields.map FieldDefinition.name)) s.aliases rest = some e
    | .ok built =>
      firstFault? (aliasFault? (s.fields.map FieldDefinition.name)) s.aliases rest = none ∧
      built.fields.map FieldDefinition.name = s.fields.map FieldDefinition.name ∧
      built.aliases = s.aliases ++ rest := by
  induction rest generalizing s with
  | nil => simp [addAliases, firstFault?]
  | cons e rest ih =>
    rw [addAliases_cons, firstFault?]
    cases aliasFault? (s.fields.map FieldDefinition.name) s.aliases e with
    | some error => simp
    | none =>
      -- an alias that is added leaves the names of fields, by which the others are judged
      have rest := ih ⟨attachAlias s.fields e.1 e.2, s.aliases ++ [e]⟩
      simpa only [names_attachAlias, List.append_assoc, List.singleton_append, Option.none_or]
        using rest

theorem build_spec (calls : List Declaration) :
    match (empty.declareAll calls).build with
    | .error e => (firstFieldFault? calls).or (firstAliasFault? calls) = some e
    | .ok s =>
      firstFieldFault? calls = none ∧ firstAliasFault? calls = none ∧
      s.fields.map FieldDefinition.name = declaredNames calls ∧ s.aliases = synonyms calls := by
  have declared : (empty.declareAll calls).aliases = synonyms calls := by
    simpa [empty] using aliases_declareAll empty calls
  obtain ⟨failed, kept⟩ := @declareAll_spec empty [] rfl rfl calls
  rw [← firstFieldFault?] at failed
  rw [build, declared]
  cases fault : (empty.declareAll calls).failed? with
  | some e => simp [← failed, fault]
  | none =>
    have added := addAliases_spec ⟨(empty.declareAll calls).fields, []⟩ (synonyms calls)
    have names : (empty.declareAll calls).fields.map FieldDefinition.name = declaredNames calls :=
      kept fault
    simpa [← failed, fault, firstAliasFault?, names] using added

/-! ## Well-declared calls -/

theorem fieldFault?_eq_none_iff {declared : List String} {call : Declaration} :
    fieldFault? declared call = none ↔
      (∀ name ∈ call.fieldName?, isGlobal name = false ∧ name ∉ declared) ∧
      call.hasValidDefault = true := by
  cases call with
  | synonym name target => simp [fieldFault?]
  | field name kind presence description =>
    rw [fieldFault?]
    split
    · simp_all
    · split
      · simp_all
      · simp_all

theorem aliasFault?_eq_none_iff {declared : List String} {before : Entries String}
    {e : String × String} :
    aliasFault? declared before e = none ↔
      (e.2 ∈ declared ∨ isGlobal e.2 = true) ∧ (e.1 ∉ declared ∧ isGlobal e.1 = false) ∧
      e.1 ∉ Entries.keys before := by
  by_cases dangling : e.2 ∉ declared ∧ isGlobal e.2 = false
  · simp [aliasFault?, dangling]
  · have known : e.2 ∈ declared ∨ isGlobal e.2 = true := by
      by_contra unknown
      simp_all
    by_cases taken : e.1 ∈ declared ∨ isGlobal e.1 = true ∨ e.1 ∈ Entries.keys before
    · have refused : aliasFault? declared before e = some (.duplicateAlias e.1) := by
        rw [aliasFault?, if_neg dangling, if_pos taken]
      simp [refused]
      grind
    · simp_all [aliasFault?]

theorem firstFault?_field_eq_none {before calls : List Declaration} :
    firstFault? (fun before => fieldFault? (declaredNames before)) before calls = none ↔
      (∀ name ∈ declaredNames calls, isGlobal name = false ∧ name ∉ declaredNames before) ∧
      (declaredNames calls).Nodup ∧ ∀ call ∈ calls, call.hasValidDefault = true := by
  induction calls generalizing before with
  | nil => simp [firstFault?, declaredNames]
  | cons call rest ih =>
    rw [firstFault?, Option.or_eq_none_iff, ih, fieldFault?_eq_none_iff]
    cases call with
    | synonym name target => simp
    | field name kind presence description =>
      -- a name that comes up again later is at fault there, against the names before it
      have seen (other : String) :
          other ∈ declaredNames (before ++ [.field name kind presence description]) ↔
            other ∈ declaredNames before ∨ other = name := by simp
      have declared : declaredNames (.field name kind presence description :: rest) =
          name :: declaredNames rest := rfl
      simp only [declared, seen, List.nodup_cons, List.forall_mem_cons,
        Declaration.fieldName?_field, Option.mem_def, Option.some.injEq, forall_eq']
      grind

theorem firstFault?_alias_eq_none {declared : List String} {before entries : Entries String} :
    firstFault? (aliasFault? declared) before entries = none ↔
      (∀ e ∈ entries, (e.2 ∈ declared ∨ isGlobal e.2 = true) ∧
        (e.1 ∉ declared ∧ isGlobal e.1 = false) ∧ e.1 ∉ Entries.keys before) ∧
      (Entries.keys entries).Nodup := by
  induction entries generalizing before with
  | nil => simp [firstFault?]
  | cons e rest ih =>
    rw [firstFault?, Option.or_eq_none_iff, ih, aliasFault?_eq_none_iff]
    have seen (other : String) :
        other ∈ Entries.keys (before ++ [e]) ↔ other ∈ Entries.keys before ∨ other = e.1 := by
      simp [Entries.keys]
    have used (other : String) : other ∈ Entries.keys rest ↔ ∃ e ∈ rest, e.1 = other :=
      List.mem_map
    simp only [seen, used, Entries.keys_cons, List.nodup_cons, List.forall_mem_cons]
    grind

theorem wellDeclared_iff : WellDeclared calls ↔
    firstFieldFault? calls = none ∧ firstAliasFault? calls = none := by
  rw [firstFieldFault?, firstFault?_field_eq_none, firstAliasFault?, firstFault?_alias_eq_none]
  constructor
  · intro well
    exact ⟨⟨fun name among => ⟨well.notGlobal name among, List.not_mem_nil⟩, well.distinct,
      well.valid⟩, fun e among => ⟨well.known e among, well.foreign e among, List.not_mem_nil⟩,
      well.single⟩
  · rintro ⟨⟨names, distinct, valid⟩, aliases, single⟩
    exact ⟨fun name among => (names name among).1, distinct, valid,
      fun e among => (aliases e among).1, fun e among => (aliases e among).2.1, single⟩

instance : Decidable (WellDeclared calls) := decidable_of_iff _ wellDeclared_iff.symm

example : WellDeclared [.synonym "at" "target", .field "target" .vec3 .required "Where to"] := by
  decide

theorem build_eq_error_iff {e : SchemaError} : (empty.declareAll calls).build = .error e ↔
    (firstFieldFault? calls).or (firstAliasFault? calls) = some e := by
  have outcome := build_spec calls
  cases built : (empty.declareAll calls).build with
  | error other =>
    rw [built] at outcome
    simp [outcome]
  | ok s =>
    rw [built] at outcome
    simp [outcome.1, outcome.2.1]

theorem of_build {s : Schema} (built : (empty.declareAll calls).build = .ok s) :
    WellDeclared calls ∧ s.fields.map FieldDefinition.name = declaredNames calls ∧
      s.aliases = synonyms calls := by
  have outcome := build_spec calls
  rw [built] at outcome
  obtain ⟨fields, aliases, declared⟩ := outcome
  exact ⟨wellDeclared_iff.mpr ⟨fields, aliases⟩, declared⟩

theorem exists_build_iff :
    (∃ s, (empty.declareAll calls).build = .ok s) ↔ WellDeclared calls := by
  constructor
  · rintro ⟨s, built⟩
    exact (of_build built).1
  · intro well
    obtain ⟨fields, aliases⟩ := wellDeclared_iff.mp well
    cases built : (empty.declareAll calls).build with
    | error e => simp [build_eq_error_iff, fields, aliases] at built
    | ok s => exact ⟨s, rfl⟩

theorem synonym_mem_of_build {s : Schema} (built : (empty.declareAll calls).build = .ok s)
    {e : String × String} (member : e ∈ s.aliases) : .synonym e.1 e.2 ∈ calls := by
  rw [(of_build built).2.2] at member
  obtain ⟨call, among, here⟩ := List.mem_filterMap.mp member
  cases call with
  | field => cases here
  | synonym =>
    cases here
    exact among

theorem isGlobal_of_build {s : Schema} (built : (empty.declareAll calls).build = .ok s)
    {name : String} {kind : Kind} {presence : Presence} {description : String}
    (declared : .field name kind presence description ∈ calls) : isGlobal name = false :=
  (of_build built).1.notGlobal name (List.mem_filterMap.mpr ⟨_, declared, rfl⟩)

theorem WellDeclared.perm {other : List Declaration} (well : WellDeclared calls)
    (permuted : other.Perm calls) : WellDeclared other := by
  have names := declaredNames_perm permuted
  have aliases := synonyms_perm permuted
  constructor
  · intro name among
    exact well.notGlobal name (names.mem_iff.mp among)
  · exact names.nodup_iff.mpr well.distinct
  · intro call among
    exact well.valid call (permuted.mem_iff.mp among)
  · intro e among
    rw [names.mem_iff]
    exact well.known e (aliases.mem_iff.mp among)
  · intro e among
    rw [names.mem_iff]
    exact well.foreign e (aliases.mem_iff.mp among)
  · exact (aliases.map Prod.fst).nodup_iff.mpr well.single

theorem resolve?_of_build {s : Schema} (built : (empty.declareAll calls).build = .ok s)
    (key name : String) :
    s.resolve? key = some name ↔
      key = name ∧ (name ∈ declaredNames calls ∨ isGlobal name = true) ∨
        (key, name) ∈ synonyms calls := by
  have sound : SoundAliases s := Builds.soundAliases ⟨calls, built⟩
  obtain ⟨-, names, aliases⟩ := of_build built
  rw [sound.resolve?_iff, isSome_definition?, Bool.or_eq_true, hasField_eq_true, names, aliases]

theorem resolve?_of_perm {other : List Declaration} (permuted : other.Perm calls)
    {s t : Schema} (built : (empty.declareAll calls).build = .ok s)
    (builtOther : (empty.declareAll other).build = .ok t) : t.resolve? = s.resolve? := by
  funext key
  ext name
  rw [resolve?_of_build built, resolve?_of_build builtOther, (synonyms_perm permuted).mem_iff,
    (declaredNames_perm permuted).mem_iff]

/-- A call that is at fault might as well not have been made, but for its error. -/
theorem declareAll_skip {before after : List Declaration} {call : Declaration} {e : SchemaError}
    (fault : fieldFault? ((b.declareAll before).fields.map FieldDefinition.name) call = some e) :
    (b.declareAll (before ++ call :: after)).fields = (b.declareAll (before ++ after)).fields ∧
    (b.declareAll (before ++ call :: after)).aliases =
      (b.declareAll (before ++ after)).aliases := by
  obtain ⟨_, -, refused, silent⟩ | ⟨_, clean, -⟩ := declare_cases (b.declareAll before) call
  · constructor
    · rw [declareAll_append, declareAll_append, declareAll_cons]
      exact fields_declareAll_congr (by rw [refused]) after
    · have skipped : synonyms (before ++ call :: after) = synonyms (before ++ after) := by
        simp [silent]
      rw [aliases_declareAll, aliases_declareAll, skipped]
  · rw [clean] at fault
    cases fault

/-- A schema is built just from well-declared calls: no field has the name of a flag or of another
    field, every default is a value of its kind, and every alias stands for a field or a flag and
    has a name of its own. Neither this nor what keys stand for depends on the order of the calls,
    so aliases may stand anywhere. Otherwise the error is that of the first field at fault, or if
    there is none, of the first alias at fault. What calls have declared stays as it is under
    later ones, and a call at fault adds nothing to it. -/
theorem build_wellDeclared (calls : List Declaration) :
    ((∃ s, (empty.declareAll calls).build = .ok s) ↔ WellDeclared calls) ∧
    (∀ e, (empty.declareAll calls).build = .error e ↔
      (firstFieldFault? calls).or (firstAliasFault? calls) = some e) ∧
    (∀ other, other.Perm calls →
      ((∃ t, (empty.declareAll other).build = .ok t) ↔
        ∃ s, (empty.declareAll calls).build = .ok s) ∧
      ∀ s t, (empty.declareAll calls).build = .ok s → (empty.declareAll other).build = .ok t →
        t.resolve? = s.resolve?) ∧
    (∀ before call after, calls = before ++ call :: after →
      (empty.declareAll before).fields <+: (empty.declareAll calls).fields ∧
      (empty.declareAll before).aliases <+: (empty.declareAll calls).aliases ∧
      ∀ e, fieldFault? ((empty.declareAll before).fields.map FieldDefinition.name) call = some e →
        (empty.declareAll calls).fields = (empty.declareAll (before ++ after)).fields ∧
        (empty.declareAll calls).aliases = (empty.declareAll (before ++ after)).aliases) := by
  refine ⟨exists_build_iff, fun e => build_eq_error_iff, ?_, ?_⟩
  · intro other permuted
    rw [exists_build_iff, exists_build_iff]
    exact ⟨⟨fun well => well.perm permuted.symm, fun well => well.perm permuted⟩,
      fun s t => resolve?_of_perm permuted⟩
  · rintro before call after rfl
    refine ⟨?_, ?_, fun e => declareAll_skip⟩
    · rw [declareAll_append]
      exact fields_prefix_declareAll _ _
    · rw [declareAll_append, aliases_declareAll (empty.declareAll before)]
      exact List.prefix_append ..

/-- A strike whose force is declared three times, at first with a default in words. -/
def clumsyCalls : List Declaration :=
  [.field "force" .int (.optional (.string "much")) "", .synonym "at" "place",
    .field "force" .int .required "How hard", .field "force" .double .required ""]

/-- The names of a strike may come first and its place last. The clumsy strike is refused for the
    default, and keeps the field that would have been kept without it. -/
theorem build_wellDeclared_strike :
    WellDeclared strikeCalls ∧
    (∃ t, (empty.declareAll strikeCalls.reverse).build = .ok t ∧
      t.resolve? = strikeSchema.resolve?) ∧
    (empty.declareAll clumsyCalls).build = .error (.invalidDefault "force" .int) ∧
    (empty.declareAll clumsyCalls).fields = (empty.declareAll clumsyCalls.tail).fields := by
  obtain ⟨succeeds, -, moved, -⟩ := build_wellDeclared strikeCalls
  obtain ⟨-, fails, -, keeps⟩ := build_wellDeclared clumsyCalls
  have built : (empty.declareAll strikeCalls).build = .ok strikeSchema := rfl
  obtain ⟨also, same⟩ := moved strikeCalls.reverse (List.reverse_perm _)
  obtain ⟨t, reversed⟩ := also.mpr ⟨strikeSchema, built⟩
  refine ⟨succeeds.mp ⟨strikeSchema, built⟩, ⟨t, reversed, same _ t built reversed⟩, ?_, ?_⟩
  · exact (fails _).mpr rfl
  · obtain ⟨-, -, skipped⟩ := keeps [] _ _ rfl
    exact (skipped (.invalidDefault "force" .int) rfl).1

end SchemaBuilder

end Spellcraft
