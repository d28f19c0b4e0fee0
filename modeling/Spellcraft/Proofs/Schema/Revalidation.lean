import Spellcraft.Proofs.Record
import Spellcraft.Proofs.Schema.Build
import Spellcraft.Schema.Validation

/-! # Validating what was validated

The result of a validation names every field by its own name, holds normal forms, and leaves no
default to fill in (`Schema.Validated`). Whatever is normalized to such a result, name by name,
is validated to it again (`Schema.validate_of_restores`), the result itself to begin with.
-/

namespace Spellcraft

namespace Schema

variable (s : Schema)

def Stores (name : String) (value : Value) : Prop :=
  ∃ field, s.definition? name = some field ∧ NormalForm field.kind value

/-- Nothing is to be filled in for a field: it has a value, or it need not have one. -/
def Settled (values : Record Value) (field : FieldDefinition) : Prop :=
  values.contains field.name = true ∨ (field.required = false ∧ field.default? = none)

structure Validated (values : Record Value) : Prop where
  stores : ∀ e ∈ values.entries, s.Stores e.1 e.2
  settled : ∀ field ∈ s.fields, Settled values field

theorem resolve?_of_definition? {name : String} {field : FieldDefinition}
    (defined : s.definition? name = some field) : s.resolve? name = some name := by
  have known : (hasField s.fields name || isGlobal name) = true := by
    unfold definition? at defined
    unfold isGlobal hasField
    cases own : findField? s.fields name with
    | some _ => rfl
    | none =>
      rw [own, Option.none_or] at defined
      rw [defined]
      rfl
  rw [resolve?, if_pos known]

/-! ## What validation gives -/

theorem stores_of_checkEntry {accepted : Record Value} {key name : String} {value normal : Value}
    (checked : s.checkEntry accepted key value = .ok (name, normal)) : s.Stores name normal := by
  unfold checkEntry at checked
  split at checked
  · cases checked
  next name' resolved =>
  split at checked
  · cases checked
  next field defined =>
  split at checked
  · cases checked
  split at checked
  · cases checked
  next normal' normalized =>
  split at checked
  · cases checked
  · cases checked
    exact ⟨field, defined, Kind.normalForm_of_normalize normalized⟩

theorem stores_put {values : Record Value} {name : String} {value : Value}
    (stored : ∀ e ∈ values.entries, s.Stores e.1 e.2) (new : s.Stores name value) :
    ∀ e ∈ (values.put name value).entries, s.Stores e.1 e.2 := by
  intro e member
  rcases Entries.mem_put member with old | here
  · exact stored e old
  · rw [here]
    exact new

theorem stores_checkEntries {given : List (String × Value)} {accepted : Record Value}
    (stored : ∀ e ∈ accepted.entries, s.Stores e.1 e.2) :
    ∀ e ∈ (s.checkEntries accepted given).1.entries, s.Stores e.1 e.2 := by
  induction given generalizing accepted with
  | nil => exact stored
  | cons entry rest ih =>
    obtain ⟨key, value⟩ := entry
    unfold checkEntries
    split
    · next name normal checked =>
      exact ih (s.stores_put stored (s.stores_of_checkEntry checked))
    · exact ih stored

variable {s}

theorem contains_fillDefaults {fields : List FieldDefinition} {accepted : Record Value}
    {name : String} (known : accepted.contains name = true) :
    (fillDefaults accepted fields).1.contains name = true := by
  induction fields generalizing accepted with
  | nil => exact known
  | cons field rest ih =>
    unfold fillDefaults
    split
    · exact ih known
    · split
      · exact ih known
      · split
        · exact ih (Entries.contains_put.mpr (.inr known))
        · exact ih known

theorem stores_fillDefaults (sound : SoundFields s.fields) {fields : List FieldDefinition}
    (own : ∀ field ∈ fields, field ∈ s.fields) {accepted : Record Value}
    (stored : ∀ e ∈ accepted.entries, s.Stores e.1 e.2) :
    ∀ e ∈ (fillDefaults accepted fields).1.entries, s.Stores e.1 e.2 := by
  induction fields generalizing accepted with
  | nil => exact stored
  | cons field rest ih =>
    have others := fun other member => own other (List.mem_cons_of_mem _ member)
    unfold fillDefaults
    split
    · exact ih others stored
    · split
      · exact ih others stored
      · split
        · next value default =>
          have here := own field List.mem_cons_self
          have defined : s.definition? field.name = some field := by
            rw [definition?, sound.findField? here, Option.some_or]
          exact ih others (s.stores_put stored
            ⟨field, defined, sound.normal field here value default⟩)
        · exact ih others stored

/-- If no required field is missing, every field is settled afterwards. -/
theorem settled_fillDefaults {fields : List FieldDefinition} {accepted : Record Value}
    (noneMissing : (fillDefaults accepted fields).2 = []) :
    ∀ field ∈ fields, Settled (fillDefaults accepted fields).1 field := by
  induction fields generalizing accepted with
  | nil => exact fun field member => nomatch member
  | cons first rest ih =>
    intro field member
    unfold fillDefaults at noneMissing ⊢
    by_cases given : accepted.contains first.name = true
    · rw [if_pos given] at noneMissing ⊢
      rcases List.mem_cons.mp member with rfl | later
      · exact .inl (contains_fillDefaults given)
      · exact ih noneMissing field later
    rw [if_neg given] at noneMissing ⊢
    by_cases required : first.required = true
    · rw [if_pos required] at noneMissing
      cases noneMissing
    rw [if_neg required] at noneMissing ⊢
    -- what is put for the first field stays there while the rest is filled in
    cases default : first.default? with
    | some value =>
      simp only [default] at noneMissing ⊢
      rcases List.mem_cons.mp member with rfl | later
      · exact .inl (contains_fillDefaults (Entries.contains_put.mpr (.inl rfl)))
      · exact ih noneMissing field later
    | none =>
      simp only [default] at noneMissing ⊢
      rcases List.mem_cons.mp member with rfl | later
      · exact .inr ⟨by simpa using required, default⟩
      · exact ih noneMissing field later

theorem validated_of_validate (sound : SoundFields s.fields) {params normal : Parameters}
    (valid : (s.validate params).toExcept = .ok normal) :
    ∃ values, normal = .ofValidated values ∧ s.Validated values := by
  have empty : ∀ e ∈ (Record.empty : Record Value).entries, s.Stores e.1 e.2 :=
    fun e member => absurd member List.not_mem_nil
  have accepted : ∀ e ∈ (s.checkEntries Record.empty params.entries).1.entries,
      s.Stores e.1 e.2 := s.stores_checkEntries empty
  unfold validate at valid
  generalize s.checkEntries Record.empty params.entries = checked at accepted valid
  obtain ⟨record, errors⟩ := checked
  have stores := stores_fillDefaults sound (fun _ member => member) accepted
  have settled : (fillDefaults record s.fields).2 = [] →
      ∀ field ∈ s.fields, Settled (fillDefaults record s.fields).1 field := settled_fillDefaults
  dsimp only at valid stores settled
  generalize fillDefaults record s.fields = filled at stores settled valid
  obtain ⟨values, missing⟩ := filled
  dsimp only at valid stores settled
  -- success means that neither step found a problem
  cases problems : errors ++ missing with
  | nil =>
    rw [problems] at valid
    cases valid
    exact ⟨values, rfl, stores, settled (List.append_eq_nil_iff.mp problems).2⟩
  | cons problem more =>
    rw [problems] at valid
    cases valid

/-! ## What validates to it -/

/-- Given values which the fields of a schema normalize, name by name, to others. -/
inductive Restores (s : Schema) : Entries Value → Entries Value → Prop where
  | nil : Restores s [] []
  | cons {name : String} {given stored : Value} {rest restStored : Entries Value}
      {field : FieldDefinition} (defined : s.definition? name = some field)
      (normalized : field.kind.normalize given = some stored)
      (others : Restores s rest restStored) :
      Restores s ((name, given) :: rest) ((name, stored) :: restStored)

theorem Restores.keys_eq {given stored : Entries Value} (restores : Restores s given stored) :
    Entries.keys given = Entries.keys stored := by
  induction restores with
  | nil => rfl
  | cons _ _ _ ih => rw [Entries.keys_cons, Entries.keys_cons, ih]

theorem Restores.refl {stored : Entries Value} (stores : ∀ e ∈ stored, s.Stores e.1 e.2) :
    Restores s stored stored := by
  induction stored with
  | nil => exact .nil
  | cons e rest ih =>
    obtain ⟨field, defined, normal⟩ := stores e List.mem_cons_self
    exact .cons defined normal.normalize (ih fun other member =>
      stores other (List.mem_cons_of_mem _ member))

theorem checkEntry_of_normalize {accepted : Record Value} {name : String} {given stored : Value}
    {field : FieldDefinition} (defined : s.definition? name = some field)
    (normalized : field.kind.normalize given = some stored)
    (new : accepted.contains name = false) :
    s.checkEntry accepted name given = .ok (name, stored) := by
  have accepts : field.kind.isValid given = true := by
    rw [← Kind.normalize_isSome, normalized]
    rfl
  simp [checkEntry, s.resolve?_of_definition? defined, defined, accepts, normalized, new]

theorem checkEntries_of_restores {given stored : Entries Value} (restores : Restores s given stored)
    {accepted : Record Value} (distinct : (Entries.keys (accepted.entries ++ stored)).Nodup) :
    s.checkEntries accepted given = (⟨accepted.entries ++ stored, distinct⟩, []) := by
  -- what was accepted and what is still to come keep distinct names throughout
  induction restores generalizing accepted with
  | nil =>
    rw [checkEntries]
    congr 1
    exact Record.ext (List.append_nil _).symm
  | @cons name given stored rest restStored field defined normalized _ ih =>
    have absent : name ∉ Entries.keys accepted.entries := by
      rw [Entries.keys, List.map_append, List.nodup_append] at distinct
      intro member
      exact distinct.2.2 name member name List.mem_cons_self rfl
    have new : accepted.contains name = false := by
      rw [Bool.eq_false_iff, Ne, Record.contains, Entries.contains_iff]
      exact absent
    have appended : (accepted.put name stored).entries = accepted.entries ++ [(name, stored)] :=
      Entries.put_of_not_mem stored absent
    have split : accepted.entries ++ (name, stored) :: restStored =
        (accepted.put name stored).entries ++ restStored := by
      rw [appended, List.append_assoc]
      rfl
    rw [checkEntries, checkEntry_of_normalize defined normalized new]
    dsimp only
    rw [ih (split ▸ distinct)]
    congr 1
    exact Record.ext split.symm

theorem fillDefaults_of_settled {values : Record Value} {fields : List FieldDefinition}
    (settled : ∀ field ∈ fields, Settled values field) :
    fillDefaults values fields = (values, []) := by
  induction fields with
  | nil => rfl
  | cons field rest ih =>
    have others := ih fun other member => settled other (List.mem_cons_of_mem _ member)
    rw [fillDefaults]
    rcases settled field List.mem_cons_self with given | ⟨optional, unset⟩
    · rw [if_pos given, others]
    · split
      · exact others
      · rw [if_neg (by simp [optional]), unset]
        exact others

/-- Parameters that restore validated values are validated to them. -/
theorem validate_of_restores {values : Record Value} (validated : s.Validated values)
    {params : Parameters} (restores : Restores s params.entries values.entries) :
    (s.validate params).toExcept = .ok (.ofValidated values) := by
  have distinct : (Entries.keys ((Record.empty : Record Value).entries ++ values.entries)).Nodup :=
    values.nodup
  have checked : s.checkEntries Record.empty params.entries = (values, []) :=
    checkEntries_of_restores restores distinct
  unfold validate
  rw [checked]
  dsimp only
  rw [fillDefaults_of_settled validated.settled]
  rfl

end Schema

end Spellcraft
