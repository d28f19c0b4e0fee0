import Spellcraft.Proofs.Schema.Build
import Spellcraft.Schema.Validation

/-! # The problems that a validation reports

Validation goes through its input once and remembers what it accepted. Here the problems are
read off the input alone: an entry is judged by itself, and by the entries before it that give
the same field a valid value.

* `Schema.fault?`, `Schema.faults` — what is wrong with entries;
* `Schema.missing` — the required fields that no entry gives a valid value;
* `Schema.Holds` — what the pass remembers, which is all that the two need to know;
* `Schema.errors_validate` — validation reports just these problems, in this order;
* `Schema.validate_rejected` — so a rejection names every problem once, and no other.
-/

namespace Spellcraft

namespace Schema

variable (s : Schema)

def admits (name : String) (value : Value) : Bool :=
  (s.definition? name).any fun field => field.kind.isValid value

def gives (e : String × Value) (name : String) : Bool :=
  s.resolve? e.1 == some name && s.admits name e.2

/-- What is wrong with an entry after some others, if anything is. -/
def fault? (before : Entries Value) (key : String) (value : Value) : Option ValidationError :=
  match s.resolve? key with
  | none => some (.unknownParameter key)
  | some name =>
    if !s.admits name value then
      (s.definition? name).map fun field => .typeMismatch key field.kind
    else if before.any fun e => s.gives e name then some (.duplicate name)
    else none

def faults (before : Entries Value) : Entries Value → List ValidationError
  | [] => []
  | (key, value) :: rest =>
    (s.fault? before key value).toList ++ faults (before ++ [(key, value)]) rest

/-- The required fields that no entry gives a valid value, in order of declaration. -/
def missing (given : Entries Value) : List ValidationError :=
  (s.fields.filter fun field => field.required && !given.any fun e => s.gives e field.name).map
    fun field => .missingRequired field.name

/-- An entry as validation passes it on: the name of the field that its key stands for, and the
    value in the form that this field stores. -/
def Canonical (e normal : String × Value) : Prop :=
  s.resolve? e.1 = some normal.1 ∧
    ∃ field, s.definition? normal.1 = some field ∧ field.kind.normalize e.2 = some normal.2

variable {s}

theorem gives_eq_true {e : String × Value} {name : String} :
    s.gives e name = true ↔ s.resolve? e.1 = some name ∧
      ∃ field, s.definition? name = some field ∧ field.kind.isValid e.2 = true := by
  simp [gives, admits, Option.any_eq_true]

theorem name_of_gives {e : String × Value} {name other : String}
    (resolved : s.resolve? e.1 = some name) (given : s.gives e other = true) : other = name := by
  obtain ⟨same, -⟩ := gives_eq_true.mp given
  rw [resolved] at same
  exact (Option.some.inj same).symm

theorem Canonical.gives {e normal : String × Value} (canonical : s.Canonical e normal) :
    s.gives e normal.1 = true := by
  obtain ⟨resolved, field, defined, normalized⟩ := canonical
  refine gives_eq_true.mpr ⟨resolved, field, defined, ?_⟩
  rw [← Kind.normalize_isSome, normalized]
  rfl

/-! ## One entry -/

variable (s) in
/-- What was accepted are the fields that some entries give a valid value. -/
def Holds (accepted : Record Value) (before : Entries Value) : Prop :=
  ∀ name, accepted.contains name = before.any fun e => s.gives e name

theorem Holds.empty : s.Holds Record.empty [] := fun _ => rfl

theorem Holds.refuse {accepted : Record Value} {before : Entries Value} {e : String × Value}
    (holds : s.Holds accepted before)
    (known : ∀ name, s.gives e name = true → accepted.contains name = true) :
    s.Holds accepted (before ++ [e]) := by
  intro name
  rw [List.any_append, ← holds name]
  cases given : s.gives e name with
  | false => simp [given]
  | true => simp [known name given]

theorem Holds.accept {accepted : Record Value} {before : Entries Value}
    {e normal : String × Value} (holds : s.Holds accepted before)
    (canonical : s.Canonical e normal) :
    s.Holds (accepted.put normal.1 normal.2) (before ++ [e]) := by
  intro name
  have put : (accepted.put normal.1 normal.2).contains name = true ↔
      name = normal.1 ∨ accepted.contains name = true := Entries.contains_put
  have gives : s.gives e name = true ↔ name = normal.1 := by
    constructor
    · exact name_of_gives canonical.1
    · rintro rfl
      exact canonical.gives
  rw [Bool.eq_iff_iff, put, holds name, List.any_append, Bool.or_eq_true, Or.comm]
  simp [gives]

/-- An entry is refused for its fault, or accepted in its canonical form. The two defensive errors
    of a check do not arise: what a key stands for has a definition, and a valid value has a
    normal form. -/
theorem checkEntry_cases (sound : SoundAliases s) {accepted : Record Value}
    {before : Entries Value} (holds : s.Holds accepted before) (key : String) (value : Value) :
    (∃ error, s.fault? before key value = some error ∧
      s.checkEntry accepted key value = .error error ∧
      ∀ name, s.gives (key, value) name = true → accepted.contains name = true) ∨
    (∃ normal, s.fault? before key value = none ∧
      s.checkEntry accepted key value = .ok normal ∧ s.Canonical (key, value) normal) := by
  unfold fault? checkEntry
  cases resolved : s.resolve? key with
  | none => exact .inl ⟨_, rfl, rfl, fun name given => by simp [gives, resolved] at given⟩
  | some name =>
    obtain ⟨field, defined⟩ := sound.definition?_of_resolve? resolved
    cases valid : field.kind.isValid value with
    | false =>
      left
      simp only [admits, defined, Option.any_some, valid]
      refine ⟨_, rfl, rfl, fun other given => ?_⟩
      -- an invalid value is given to no field
      cases name_of_gives resolved given
      simp [gives, admits, defined, valid] at given
    | true =>
      obtain ⟨normal, normalized⟩ : ∃ normal, field.kind.normalize value = some normal := by
        rw [← Option.isSome_iff_exists, Kind.normalize_isSome, valid]
      simp only [admits, defined, Option.any_some, valid, normalized, ← holds name]
      cases known : accepted.contains name with
      | true =>
        refine .inl ⟨_, rfl, rfl, fun other given => ?_⟩
        rw [name_of_gives resolved given, known]
      | false => exact .inr ⟨_, rfl, rfl, resolved, field, defined, normalized⟩

/-! ## All entries -/

theorem checkEntries_cons_of_error {accepted : Record Value} {key : String} {value : Value}
    {error : ValidationError} (refused : s.checkEntry accepted key value = .error error)
    (rest : Entries Value) :
    s.checkEntries accepted ((key, value) :: rest) =
      ((s.checkEntries accepted rest).1, error :: (s.checkEntries accepted rest).2) := by
  rw [checkEntries, refused]

theorem checkEntries_cons_of_ok {accepted : Record Value} {key : String} {value : Value}
    {normal : String × Value} (checked : s.checkEntry accepted key value = .ok normal)
    (rest : Entries Value) :
    s.checkEntries accepted ((key, value) :: rest) =
      s.checkEntries (accepted.put normal.1 normal.2) rest := by
  rw [checkEntries, checked]

/-- The pass reports the faults of its entries and remembers the fields that they give. -/
theorem checkEntries_spec (sound : SoundAliases s) {accepted : Record Value}
    {before : Entries Value} (holds : s.Holds accepted before) (rest : Entries Value) :
    (s.checkEntries accepted rest).2 = s.faults before rest ∧
      s.Holds (s.checkEntries accepted rest).1 (before ++ rest) := by
  -- an entry moves from the rest to those before it, whether it is accepted or refused
  induction rest generalizing accepted before with
  | nil =>
    rw [List.append_nil]
    exact ⟨rfl, holds⟩
  | cons entry rest ih =>
    obtain ⟨key, value⟩ := entry
    rw [List.append_cons, faults]
    rcases checkEntry_cases sound holds key value with
      ⟨error, fault, refused, known⟩ | ⟨normal, fault, checked, canonical⟩
    · obtain ⟨errors, held⟩ := ih (holds.refuse known)
      rw [checkEntries_cons_of_error refused, fault, errors]
      exact ⟨rfl, held⟩
    · obtain ⟨errors, held⟩ := ih (holds.accept canonical)
      rw [checkEntries_cons_of_ok checked, fault, errors]
      exact ⟨rfl, held⟩

/-! ## Missing fields -/

/-- Filling in the default of one field leaves the fields that follow as they are. -/
theorem contains_put_of_fresh {field : FieldDefinition} {rest : List FieldDefinition}
    (fresh : field.name ∉ rest.map FieldDefinition.name) (accepted : Record Value)
    (value : Value) {other : FieldDefinition} (member : other ∈ rest) :
    (accepted.put field.name value).contains other.name = accepted.contains other.name := by
  have different : other.name ≠ field.name := by
    intro equal
    apply fresh
    rw [← equal]
    exact List.mem_map_of_mem member
  have put : (accepted.put field.name value).contains other.name = true ↔
      other.name = field.name ∨ accepted.contains other.name = true := Entries.contains_put
  rw [Bool.eq_iff_iff, put]
  simp [different]

theorem missing_fillDefaults {fields : List FieldDefinition}
    (distinct : (fields.map FieldDefinition.name).Nodup) (accepted : Record Value) :
    (fillDefaults accepted fields).2 =
      (fields.filter fun field => field.required && !accepted.contains field.name).map
        fun field => .missingRequired field.name := by
  induction fields generalizing accepted with
  | nil => rfl
  | cons field rest ih =>
    rw [List.map_cons, List.nodup_cons] at distinct
    have others := ih distinct.2
    unfold fillDefaults
    cases known : accepted.contains field.name with
    | true => simp [known, others]
    | false =>
      cases required : field.required with
      | true => simp [known, required, others]
      | false =>
        cases default : field.default? with
        | none => simp [required, others]
        | some value =>
          simp only [Bool.false_eq_true, if_false, others, List.filter_cons, required,
            Bool.false_and]
          congr 1
          refine List.filter_congr fun other member => ?_
          rw [contains_put_of_fresh distinct.1 accepted value member]

/-! ## The whole validation -/

theorem validate_eq (params : Parameters) :
    let checked := s.checkEntries Record.empty params.entries
    let filled := fillDefaults checked.1 s.fields
    s.validate params =
      ⟨checked.2 ++ filled.2,
        if checked.2 ++ filled.2 = [] then .ofValidated filled.1 else .empty⟩ := by
  intro checked filled
  unfold validate
  cases problems : checked.2 ++ filled.2 with
  | nil => simp only [checked, filled] at problems ⊢; rw [problems]; rfl
  | cons problem more => simp only [checked, filled] at problems ⊢; rw [problems]; rfl

theorem errors_validate (built : SchemaBuilder.Builds s) (params : Parameters) :
    (s.validate params).errors = s.faults [] params.entries ++ s.missing params.entries := by
  obtain ⟨errors, held⟩ := checkEntries_spec built.soundAliases Holds.empty params.entries
  rw [validate_eq, missing_fillDefaults built.sound.distinct, errors, missing]
  dsimp only
  congr 2
  refine List.filter_congr fun field _ => ?_
  rw [held field.name, List.nil_append]

/-- A fault is one of three kinds: it never blames a valid value, nor what a key stands for. -/
theorem fault?_cases {before : Entries Value} {key : String} {value : Value}
    {error : ValidationError} (faulty : s.fault? before key value = some error) :
    (s.resolve? key = none ∧ error = .unknownParameter key) ∨
      ∃ name, s.resolve? key = some name ∧
        ((∃ kind, error = .typeMismatch key kind) ∨ error = .duplicate name) := by
  unfold fault? at faulty
  cases resolved : s.resolve? key with
  | none =>
    rw [resolved] at faulty
    exact .inl ⟨rfl, (Option.some.inj faulty).symm⟩
  | some name =>
    rw [resolved] at faulty
    refine .inr ⟨name, rfl, ?_⟩
    dsimp only at faulty
    split at faulty
    · obtain ⟨field, -, rfl⟩ := Option.map_eq_some_iff.mp faulty
      exact .inl ⟨field.kind, rfl⟩
    · split at faulty
      · exact .inr (Option.some.inj faulty).symm
      · cases faulty

theorem mem_faults {before rest : Entries Value} {error : ValidationError}
    (member : error ∈ s.faults before rest) :
    ∃ seen, ∃ e ∈ rest, s.fault? seen e.1 e.2 = some error := by
  induction rest generalizing before with
  | nil => cases member
  | cons entry rest ih =>
    obtain ⟨key, value⟩ := entry
    rcases List.mem_append.mp member with here | later
    · exact ⟨before, _, List.mem_cons_self, by simpa using here⟩
    · obtain ⟨seen, e, among, faulty⟩ := ih later
      exact ⟨seen, e, List.mem_cons_of_mem _ among, faulty⟩

theorem mem_missing {given : Entries Value} {error : ValidationError}
    (member : error ∈ s.missing given) : ∃ name, error = .missingRequired name := by
  obtain ⟨field, -, rfl⟩ := List.mem_map.mp member
  exact ⟨field.name, rfl⟩

/-- A validation that rejects its input passes nothing on. It reports, entry by entry, a key that
    stands for no field, a value that the field does not accept, or a field that an entry before
    gave a valid value; and then the required fields that no entry gave a valid value. It never
    calls a valid value unconvertible, and what it calls unknown is a key of the input that stands
    for nothing. -/
theorem validate_rejected (built : SchemaBuilder.Builds s) {params : Parameters}
    (rejected : (s.validate params).isSuccess = false) :
    (s.validate params).normalized = .empty ∧
    (s.validate params).errors = s.faults [] params.entries ++ s.missing params.entries ∧
    (∀ key, .unconvertible key ∉ (s.validate params).errors) ∧
    (∀ key, .unknownParameter key ∈ (s.validate params).errors →
      key ∈ params.keys ∧ s.resolve? key = none) := by
  have errors := errors_validate built params
  -- every error is one of four, so the two others cannot be among them
  have known : ∀ error ∈ (s.validate params).errors,
      (∃ key ∈ params.keys, s.resolve? key = none ∧ error = .unknownParameter key) ∨
      (∃ key kind, error = .typeMismatch key kind) ∨ (∃ name, error = .duplicate name) ∨
      (∃ name, error = .missingRequired name) := by
    intro error member
    rw [errors] at member
    rcases List.mem_append.mp member with faulty | missed
    · obtain ⟨seen, e, among, faulty⟩ := mem_faults faulty
      rcases fault?_cases faulty with ⟨unresolved, rfl⟩ | ⟨name, -, ⟨kind, rfl⟩ | rfl⟩
      · exact .inl ⟨e.1, List.mem_map_of_mem among, unresolved, rfl⟩
      · exact .inr (.inl ⟨_, _, rfl⟩)
      · exact .inr (.inr (.inl ⟨_, rfl⟩))
    · exact .inr (.inr (.inr (mem_missing missed)))
  refine ⟨?_, errors, ?_, ?_⟩
  · rw [validate_eq] at rejected ⊢
    exact if_neg fun clean => by simp [ValidationResult.isSuccess, clean] at rejected
  · intro key member
    rcases known _ member with ⟨_, _, _, same⟩ | ⟨_, _, same⟩ | ⟨_, same⟩ | ⟨_, same⟩ <;> cases same
  · intro key member
    rcases known _ member with ⟨other, among, unresolved, same⟩ | ⟨_, _, same⟩ | ⟨_, same⟩ |
      ⟨_, same⟩ <;> cases same
    exact ⟨among, unresolved⟩

def strikeCalls : List Declaration :=
  [.field "target" .vec3 .required "Where to strike", .synonym "at" "target",
    .field "force" .int (.optional (.int 3)) "How hard", .synonym "strength" "force",
    .synonym "might" "force"]

def strikeSchema : Schema :=
  match (SchemaBuilder.empty.declareAll strikeCalls).build with
  | .ok s => s
  | .error _ => .empty

def wildStrike : Parameters :=
  .ofList [("color", .string "red"), ("strength", .string "much"), ("force", .int 4),
    ("might", .int 5), ("at", .int 7)]

/-- The force in words is no number, so the first number counts and the second repeats it; and a
    number is no place to strike, so the target is missing. -/
theorem validate_rejected_wildStrike :
    SchemaBuilder.Builds strikeSchema ∧
    (strikeSchema.validate wildStrike).isSuccess = false ∧
    (strikeSchema.validate wildStrike).normalized = .empty ∧
    (strikeSchema.validate wildStrike).errors =
      [.unknownParameter "color", .typeMismatch "strength" .int, .duplicate "force",
        .typeMismatch "at" .vec3, .missingRequired "target"] ∧
    ∀ key, .unconvertible key ∉ (strikeSchema.validate wildStrike).errors := by
  have built : SchemaBuilder.Builds strikeSchema := ⟨strikeCalls, rfl⟩
  have rejected : (strikeSchema.validate wildStrike).isSuccess = false := rfl
  obtain ⟨nothing, errors, convertible, -⟩ := validate_rejected built rejected
  exact ⟨built, rejected, nothing, errors.trans rfl, convertible⟩

end Schema

end Spellcraft
