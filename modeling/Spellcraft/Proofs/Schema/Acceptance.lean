import Mathlib.Data.List.Forall2
import Mathlib.Data.List.Pairwise
import Spellcraft.Proofs.Schema.Faults
import Spellcraft.Proofs.Schema.Revalidation

/-! # What a validation accepts

A validation accepts the parameters that name fields of the schema, each at most once and the
required ones without exception, and give them valid values. What it passes on then are the
given values, each under the name of its field and in the form that the field stores, and after
them the defaults of the fields that were not named.

* `Schema.Names` — whether parameters name a field, by its own name or by an alias;
* `Schema.Accepts` — the parameters that a schema accepts, in four clauses;
* `Schema.faultless_iff` — these are the parameters of which nothing is reported;
* `Schema.entries_checkEntries`, `Schema.entries_fillDefaults` — the two halves of what is passed
  on;
* `Schema.validate_accepts` — the answer of a validation, and what it passes on.
-/

namespace Spellcraft

namespace Schema

variable (s : Schema)

def Names (params : Parameters) (name : String) : Prop :=
  ∃ key ∈ params.keys, s.resolve? key = some name

instance (params : Parameters) (name : String) : Decidable (s.Names params name) :=
  inferInstanceAs (Decidable (∃ key ∈ params.keys, s.resolve? key = some name))

/-- The parameters that a schema accepts. -/
structure Accepts (params : Parameters) : Prop where
  known : ∀ key ∈ params.keys, (s.resolve? key).isSome = true
  valid : ∀ e ∈ params.entries, ∀ name field, s.resolve? e.1 = some name →
    s.definition? name = some field → field.kind.isValid e.2 = true
  distinct : ∀ key ∈ params.keys, ∀ other ∈ params.keys, ∀ name,
    s.resolve? key = some name → s.resolve? other = some name → key = other
  complete : ∀ field ∈ s.fields, field.required = true → s.Names params field.name

/-- The defaults of the optional fields that parameters do not name, in order of declaration. -/
def unnamedDefaults (params : Parameters) : Entries Value :=
  s.fields.filterMap fun field =>
    if field.required = true ∨ s.Names params field.name then none
    else field.default?.map (field.name, ·)

variable {s}

/-! ## Nothing to report -/

theorem fault?_eq_none_iff (sound : SoundAliases s) {before : Entries Value} {key : String}
    {value : Value} :
    s.fault? before key value = none ↔
      ∃ name, s.gives (key, value) name = true ∧ ∀ e ∈ before, ¬ s.gives e name = true := by
  unfold fault?
  cases resolved : s.resolve? key with
  | none => simp [gives, resolved]
  | some name =>
    obtain ⟨field, defined⟩ := sound.definition?_of_resolve? resolved
    cases admitted : s.admits name value with
    | false =>
      suffices ∀ other, s.gives (key, value) other = false by simp [defined, admitted, this]
      intro other
      by_cases same : name = other
      · simp [gives, ← same, admitted]
      · simp [gives, resolved, same]
    | true =>
      have only : ∀ other, s.gives (key, value) other = true ↔ other = name := by
        intro other
        constructor
        · exact name_of_gives resolved
        · rintro rfl
          simp [gives, resolved, admitted]
      simp [admitted, only]

variable (s) in
def Clash (e other : String × Value) : Prop :=
  ∃ name, s.gives e name = true ∧ s.gives other name = true

instance : Std.Symm fun e other => ¬ s.Clash e other where
  symm _ _ apart := fun ⟨name, one, two⟩ => apart ⟨name, two, one⟩

/-- Entries have no faults if each gives its field a valid value, which no other one does. -/
theorem faults_eq_nil_iff (sound : SoundAliases s) {before rest : Entries Value} :
    s.faults before rest = [] ↔
      (∀ e ∈ rest, ∃ name, s.gives e name = true) ∧
      (∀ e ∈ before, ∀ other ∈ rest, ¬ s.Clash e other) ∧
      rest.Pairwise fun e other => ¬ s.Clash e other := by
  -- an entry clashes with one before it, or it is before the entries that it clashes with
  induction rest generalizing before with
  | nil => simp [faults]
  | cons entry rest ih =>
    obtain ⟨key, value⟩ := entry
    rw [faults, List.append_eq_nil_iff, Option.toList_eq_nil_iff, fault?_eq_none_iff sound, ih,
      List.pairwise_cons]
    constructor
    · rintro ⟨⟨name, given, fresh⟩, all, apart, pairwise⟩
      refine ⟨?_, ?_, ?_, pairwise⟩
      · rintro e (_ | ⟨_, member⟩)
        · exact ⟨name, given⟩
        · exact all e member
      · rintro e among other (_ | ⟨_, member⟩)
        · rintro ⟨both, one, two⟩
          rw [name_of_gives (gives_eq_true.mp given).1 two] at one
          exact fresh e among one
        · exact apart e (List.mem_append_left _ among) other member
      · exact fun other member => apart _ (List.mem_append_right _ List.mem_cons_self) other member
    · rintro ⟨all, apart, here, pairwise⟩
      obtain ⟨name, given⟩ := all _ List.mem_cons_self
      refine ⟨⟨name, given, ?_⟩, fun e member => all e (List.mem_cons_of_mem _ member), ?_,
        pairwise⟩
      · exact fun e among one => apart e among _ List.mem_cons_self ⟨name, one, given⟩
      · intro e among other member
        rcases List.mem_append.mp among with old | new
        · exact apart e old other (List.mem_cons_of_mem _ member)
        · rw [List.mem_singleton.mp new]
          exact here other member

theorem Accepts.gives {params : Parameters} (accepts : s.Accepts params)
    (sound : SoundAliases s) {e : String × Value} (member : e ∈ params.entries) {name : String}
    (resolved : s.resolve? e.1 = some name) : s.gives e name = true := by
  obtain ⟨field, defined⟩ := sound.definition?_of_resolve? resolved
  exact gives_eq_true.mpr ⟨resolved, field, defined, accepts.valid e member name field resolved
    defined⟩

theorem Accepts.any_gives {params : Parameters} (accepts : s.Accepts params)
    (sound : SoundAliases s) (name : String) :
    (params.entries.any fun e => s.gives e name) = true ↔ s.Names params name := by
  rw [List.any_eq_true]
  constructor
  · rintro ⟨e, member, given⟩
    exact ⟨e.1, List.mem_map_of_mem member, (gives_eq_true.mp given).1⟩
  · rintro ⟨key, among, resolved⟩
    obtain ⟨e, member, rfl⟩ := List.mem_map.mp among
    exact ⟨e, member, accepts.gives sound member resolved⟩

theorem accepts_of_faultless (sound : SoundAliases s) {params : Parameters}
    (faultless : s.faults [] params.entries = []) (nothing : s.missing params.entries = []) :
    s.Accepts params := by
  obtain ⟨all, -, pairwise⟩ := (faults_eq_nil_iff sound).mp faultless
  have gave (e : String × Value) (member : e ∈ params.entries) (name : String)
      (resolved : s.resolve? e.1 = some name) : s.gives e name = true := by
    obtain ⟨same, given⟩ := all e member
    rwa [name_of_gives resolved given] at given
  constructor
  · intro key among
    obtain ⟨e, member, rfl⟩ := List.mem_map.mp among
    obtain ⟨name, given⟩ := all e member
    simp [(gives_eq_true.mp given).1]
  · intro e member name field resolved defined
    obtain ⟨-, found, definedHere, valid⟩ := gives_eq_true.mp (gave e member name resolved)
    rw [defined, Option.some.injEq] at definedHere
    rwa [definedHere]
  · intro key among other alongside name resolved resolvedOther
    obtain ⟨e, member, rfl⟩ := List.mem_map.mp among
    obtain ⟨f, memberOther, rfl⟩ := List.mem_map.mp alongside
    by_contra different
    refine pairwise.forall member memberOther (fun same => different (by rw [same])) ?_
    exact ⟨name, gave e member name resolved, gave f memberOther name resolvedOther⟩
  · intro field member required
    rw [missing, List.map_eq_nil_iff, List.filter_eq_nil_iff] at nothing
    have supplied := nothing field member
    simp only [required, Bool.true_and, Bool.not_eq_true', Bool.not_eq_false,
      List.any_eq_true] at supplied
    obtain ⟨e, among, given⟩ := supplied
    exact ⟨e.1, List.mem_map_of_mem among, (gives_eq_true.mp given).1⟩

theorem Accepts.faultless {params : Parameters} (accepts : s.Accepts params)
    (sound : SoundAliases s) : s.faults [] params.entries = [] := by
  apply (faults_eq_nil_iff sound).mpr
  refine ⟨?_, fun _ member => (nomatch member), ?_⟩
  · intro e member
    obtain ⟨name, resolved⟩ :=
      Option.isSome_iff_exists.mp (accepts.known e.1 (List.mem_map_of_mem member))
    exact ⟨name, accepts.gives sound member resolved⟩
  · -- the keys of a container are distinct, so two entries that clash have two keys
    have keys : params.entries.Pairwise fun e other => e.1 ≠ other.1 :=
      List.pairwise_map.mp params.values.nodup
    refine keys.imp_of_mem ?_
    rintro e other member memberOther different ⟨name, one, two⟩
    exact different (accepts.distinct e.1 (List.mem_map_of_mem member) other.1
      (List.mem_map_of_mem memberOther) name (gives_eq_true.mp one).1 (gives_eq_true.mp two).1)

theorem Accepts.nothing_missing {params : Parameters} (accepts : s.Accepts params)
    (sound : SoundAliases s) : s.missing params.entries = [] := by
  rw [missing, List.map_eq_nil_iff, List.filter_eq_nil_iff]
  intro field member
  cases required : field.required with
  | false => simp
  | true => simp [(accepts.any_gives sound field.name).mpr (accepts.complete field member required)]

/-- Nothing is reported of exactly the parameters that are accepted. -/
theorem faultless_iff (sound : SoundAliases s) {params : Parameters} :
    s.faults [] params.entries = [] ∧ s.missing params.entries = [] ↔ s.Accepts params := by
  constructor
  · rintro ⟨faultless, nothing⟩
    exact accepts_of_faultless sound faultless nothing
  · intro accepts
    exact ⟨accepts.faultless sound, accepts.nothing_missing sound⟩

/-! ## What is passed on -/

/-- Entries without faults are accepted one by one, each in its canonical form. -/
theorem entries_checkEntries (sound : SoundAliases s) {accepted : Record Value}
    {before rest : Entries Value} (holds : s.Holds accepted before)
    (faultless : s.faults before rest = []) :
    ∃ normal, List.Forall₂ s.Canonical rest normal ∧
      (s.checkEntries accepted rest).1.entries = accepted.entries ++ normal := by
  -- without faults only the second of the two cases of a check is left
  induction rest generalizing accepted before with
  | nil => exact ⟨[], .nil, (List.append_nil _).symm⟩
  | cons entry rest ih =>
    obtain ⟨key, value⟩ := entry
    rw [faults, List.append_eq_nil_iff, Option.toList_eq_nil_iff] at faultless
    obtain ⟨clean, others⟩ := faultless
    rcases checkEntry_cases sound holds key value with
      ⟨error, fault, -⟩ | ⟨first, -, checked, canonical⟩
    · rw [clean] at fault
      cases fault
    · obtain ⟨normal, canonicals, entries⟩ := ih (holds.accept canonical) others
      have new : first.1 ∉ Entries.keys accepted.entries := by
        obtain ⟨name, given, fresh⟩ := (fault?_eq_none_iff sound).mp clean
        rw [← Entries.contains_iff, ← name_of_gives canonical.1 given]
        change ¬ accepted.contains name = true
        simpa [holds name] using fresh
      refine ⟨first :: normal, .cons canonical canonicals, ?_⟩
      rw [checkEntries_cons_of_ok checked, entries]
      change Entries.put _ _ _ ++ normal = _
      rw [Entries.put_of_not_mem _ new, List.append_assoc]
      rfl

theorem entries_fillDefaults {fields : List FieldDefinition}
    (distinct : (fields.map FieldDefinition.name).Nodup) (accepted : Record Value) :
    (fillDefaults accepted fields).1.entries = accepted.entries ++ fields.filterMap fun field =>
      if field.required = true ∨ accepted.contains field.name = true then none
      else field.default?.map (field.name, ·) := by
  induction fields generalizing accepted with
  | nil => exact (List.append_nil _).symm
  | cons field rest ih =>
    rw [List.map_cons, List.nodup_cons] at distinct
    have others := ih distinct.2
    unfold fillDefaults
    cases known : accepted.contains field.name with
    | true => simp [known, others]
    | false =>
      cases required : field.required with
      | true => simp [required, others]
      | false =>
        cases default : field.default? with
        | none => simp [known, required, default, others]
        | some value =>
          have new : field.name ∉ Entries.keys accepted.entries := by
            intro member
            have given : accepted.contains field.name = true := Entries.contains_iff.mpr member
            rw [known] at given
            cases given
          have put : (accepted.put field.name value).entries =
              accepted.entries ++ [(field.name, value)] := Entries.put_of_not_mem value new
          simp only [Bool.false_eq_true, if_false, others, put, List.filterMap_cons, known,
            required, default, Option.map_some, or_self, List.append_assoc,
            List.singleton_append]
          -- the default that was put does not fill in for any of the other fields
          congr 2
          refine List.filterMap_congr fun other member => ?_
          rw [contains_put_of_fresh distinct.1 accepted value member]

/-- What a validation passes on is what was given, in canonical form, and the unnamed defaults. -/
theorem Accepts.normalized {params : Parameters} (accepts : s.Accepts params)
    (built : SchemaBuilder.Builds s) :
    (s.validate params).errors = [] ∧
    (s.validate params).normalized.validated = true ∧
    ∃ normal, List.Forall₂ s.Canonical params.entries normal ∧
      (s.validate params).normalized.entries = normal ++ s.unnamedDefaults params := by
  have sound := built.soundAliases
  obtain ⟨faultless, nothing⟩ := (faultless_iff sound).mpr accepts
  have errors : (s.validate params).errors = [] := by
    rw [errors_validate built, faultless, nothing, List.append_nil]
  obtain ⟨normal, canonicals, entries⟩ := entries_checkEntries sound Holds.empty faultless
  obtain ⟨-, held⟩ := checkEntries_spec sound Holds.empty params.entries
  rw [validate_eq] at errors ⊢
  dsimp only at errors ⊢
  rw [if_pos errors]
  refine ⟨errors, rfl, normal, canonicals, ?_⟩
  change (fillDefaults _ _).1.entries = _
  rw [entries_fillDefaults built.sound.distinct, entries, unnamedDefaults]
  congr 1
  refine List.filterMap_congr fun field _ => ?_
  rw [held field.name, List.nil_append]
  simp only [accepts.any_gives sound]

theorem exists_of_forall₂ {α β : Type} {R : α → β → Prop} {xs : List α} {ys : List β}
    (related : List.Forall₂ R xs ys) {y : β} (member : y ∈ ys) : ∃ x ∈ xs, R x y := by
  induction related with
  | nil => cases member
  | @cons first second xs ys here rest ih =>
    rcases List.mem_cons.mp member with same | later
    · exact ⟨first, List.mem_cons_self, same ▸ here⟩
    · obtain ⟨x, among, relates⟩ := ih later
      exact ⟨x, List.mem_cons_of_mem _ among, relates⟩

theorem mem_unnamedDefaults {params : Parameters} {stored : String × Value}
    (member : stored ∈ s.unnamedDefaults params) :
    ∃ field ∈ s.fields, field.name = stored.1 ∧ field.default? = some stored.2 ∧
      ¬ s.Names params field.name := by
  obtain ⟨field, declared, given⟩ := List.mem_filterMap.mp member
  split at given
  · cases given
  · next unnamed =>
    obtain ⟨value, defaulted, rfl⟩ := Option.map_eq_some_iff.mp given
    exact ⟨field, declared, rfl, defaulted, fun named => unnamed (.inr named)⟩

/-- What a validation passes on goes by names of fields. A cast flag is among them only if it was
    named. -/
theorem Accepts.definition?_of_mem {params : Parameters} {normal : Entries Value}
    (built : SchemaBuilder.Builds s)
    (canonicals : List.Forall₂ s.Canonical params.entries normal) {name : String}
    (member : name ∈ Entries.keys (normal ++ s.unnamedDefaults params)) :
    (s.definition? name).isSome = true ∧ (isGlobal name = true → s.Names params name) := by
  rw [Entries.keys, List.map_append, List.mem_append] at member
  rcases member with given | filled
  · -- what a key stands for has a definition, be it a field or a flag
    obtain ⟨stored, among, rfl⟩ := List.mem_map.mp given
    obtain ⟨e, entered, resolved, field, defined, -⟩ := exists_of_forall₂ canonicals among
    refine ⟨?_, fun _ => ⟨e.1, List.mem_map_of_mem entered, resolved⟩⟩
    rw [defined]
    rfl
  · -- only the schema's own fields are filled in, and none of them is a flag
    obtain ⟨stored, among, rfl⟩ := List.mem_map.mp filled
    obtain ⟨field, declared, named, -, -⟩ := mem_unnamedDefaults among
    rw [← named]
    constructor
    · rw [definition?, built.sound.findField? declared]
      rfl
    · intro flag
      rw [built.sound.notGlobal field declared] at flag
      cases flag

theorem isSuccess_iff (built : SchemaBuilder.Builds s) (params : Parameters) :
    (s.validate params).isSuccess = true ↔ s.Accepts params := by
  rw [← faultless_iff built.soundAliases, ← List.append_eq_nil_iff, ← errors_validate built]
  exact List.isEmpty_iff

/-! ## Looking up what is passed on -/

theorem accepts_of_validate (built : SchemaBuilder.Builds s) {params normal : Parameters}
    (valid : (s.validate params).toExcept = .ok normal) :
    s.Accepts params ∧ normal = (s.validate params).normalized := by
  unfold ValidationResult.toExcept at valid
  split at valid
  · next success =>
    cases valid
    exact ⟨(isSuccess_iff built params).mp success, rfl⟩
  · cases valid

/-- The value of an entry is found under the name of its field, in the form that the field
    stores. -/
theorem find?_of_entry (built : SchemaBuilder.Builds s) {params normal : Parameters}
    (valid : (s.validate params).toExcept = .ok normal) {e : String × Value}
    (entered : e ∈ params.entries) {name : String} (resolved : s.resolve? e.1 = some name) :
    ∃ field stored, s.definition? name = some field ∧ field.kind.normalize e.2 = some stored ∧
      normal.find? name = some stored := by
  obtain ⟨accepts, rfl⟩ := accepts_of_validate built valid
  obtain ⟨-, -, entries, canonicals, normalized⟩ := accepts.normalized built
  obtain ⟨stored, kept, sameName, field, defined, value⟩ :=
    exists_of_forall₂ canonicals.flip entered
  rw [resolved, Option.some.injEq] at sameName
  subst sameName
  refine ⟨field, stored.2, defined, value, ?_⟩
  refine Entries.find?_of_mem (s.validate params).normalized.values.nodup ?_
  change _ ∈ (s.validate params).normalized.entries
  rw [normalized]
  exact List.mem_append_left _ kept

theorem find?_of_names (built : SchemaBuilder.Builds s) {params normal : Parameters}
    (valid : (s.validate params).toExcept = .ok normal) {name : String}
    (named : s.Names params name) :
    ∃ value field, normal.find? name = some value ∧ s.definition? name = some field ∧
      NormalForm field.kind value := by
  obtain ⟨key, among, resolved⟩ := named
  obtain ⟨e, entered, rfl⟩ := List.mem_map.mp among
  obtain ⟨field, stored, defined, normalized, found⟩ := find?_of_entry built valid entered resolved
  exact ⟨stored, field, found, defined, Kind.normalForm_of_normalize normalized⟩

theorem find?_of_not_names (built : SchemaBuilder.Builds s) {params normal : Parameters}
    (valid : (s.validate params).toExcept = .ok normal) {field : FieldDefinition}
    (declared : field ∈ s.fields) (optional : field.required = false) {value : Value}
    (default : field.default? = some value) (silent : ¬ s.Names params field.name) :
    normal.find? field.name = some value := by
  obtain ⟨accepts, rfl⟩ := accepts_of_validate built valid
  obtain ⟨-, -, entries, -, normalized⟩ := accepts.normalized built
  refine Entries.find?_of_mem (s.validate params).normalized.values.nodup ?_
  change _ ∈ (s.validate params).normalized.entries
  rw [normalized]
  refine List.mem_append_right _ (List.mem_filterMap.mpr ⟨field, declared, ?_⟩)
  simp [optional, silent, default]

/-! ## The whole validation -/

/-- A validation succeeds for exactly the parameters that the schema accepts. It passes on their
    values in canonical form and in their order, then the defaults of the fields that they do not
    name, and nothing under an alias, an unknown name, or the name of a flag that was not given. -/
theorem validate_accepts (built : SchemaBuilder.Builds s) (params : Parameters) :
    ((s.validate params).isSuccess = true ↔ s.Accepts params) ∧
    (s.Accepts params →
      (s.validate params).normalized.validated = true ∧
      (∃ normal, List.Forall₂ s.Canonical params.entries normal ∧
        (s.validate params).normalized.entries = normal ++ s.unnamedDefaults params) ∧
      ∀ name ∈ (s.validate params).normalized.keys,
        (s.definition? name).isSome = true ∧ name ∉ Entries.keys s.aliases ∧
        (isGlobal name = true → s.Names params name)) := by
  have sound := built.soundAliases
  constructor
  · exact isSuccess_iff built params
  · intro accepts
    obtain ⟨-, validated, normal, canonicals, entries⟩ := accepts.normalized built
    refine ⟨validated, ⟨normal, canonicals, entries⟩, ?_⟩
    intro name member
    change name ∈ Entries.keys (s.validate params).normalized.entries at member
    rw [entries] at member
    obtain ⟨known, flag⟩ := Accepts.definition?_of_mem built canonicals member
    refine ⟨known, fun isAlias => ?_, flag⟩
    rw [sound.foreign name isAlias] at known
    cases known

def snareCalls : List Declaration :=
  [.field "prey" .entitySelector .required "Whom to hold", .synonym "who" "prey",
    .field "hold" .double .optionalUnset "For how long",
    .field "force" .int (.optional (.int 3)) "How hard"]

def snareSchema : Schema :=
  match (SchemaBuilder.empty.declareAll snareCalls).build with
  | .ok s => s
  | .error _ => .empty

/-- A snare whose prey is given as plain text, and its time and a flag as integers. -/
def snare : Parameters :=
  .ofList [("hold", .int 4), ("showCastBar", .int 0), ("who", .string "@e")]

/-- A snare for two, though either of them could be held. -/
def tangledSnare : Parameters :=
  .ofList [("who", .string "@e"), ("prey", .entitySelector "@p")]

/-- None of the three values is of the kind of its field. They are converted in the caller's
    order, and then comes the force, of which the caller said nothing. -/
theorem validate_accepts_snare :
    SchemaBuilder.Builds snareSchema ∧
    ¬ snareSchema.Accepts tangledSnare ∧
    snareSchema.Accepts snare ∧
    (snareSchema.validate snare).isSuccess = true ∧
    (snareSchema.validate snare).normalized.entries =
      [("hold", .double (Binary.ofInt .double 4)), ("showCastBar", .boolean false),
        ("prey", .entitySelector "@e"), ("force", .int 3)] ∧
    "who" ∉ (snareSchema.validate snare).normalized.keys := by
  have built : SchemaBuilder.Builds snareSchema := ⟨snareCalls, rfl⟩
  have accepts : snareSchema.Accepts snare := (validate_accepts built snare).1.mp rfl
  obtain ⟨-, -, known⟩ := (validate_accepts built snare).2 accepts
  have off : ((Binary.ofInt .double 0).toInt32 != 0) = false := by decide +kernel
  refine ⟨built, ?_, accepts, (validate_accepts built snare).1.mpr accepts, ?_, ?_⟩
  · intro accepted
    cases (validate_accepts built tangledSnare).1.mpr accepted
  · rw [← off]
    rfl
  · intro member
    exact (known "who" member).2.1 (by decide)

end Schema

end Spellcraft
