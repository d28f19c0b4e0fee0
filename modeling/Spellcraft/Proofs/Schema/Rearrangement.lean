import Mathlib.Data.List.Perm.Basic
import Spellcraft.Proofs.Schema.Flags

/-! # Order and spelling of parameters

A validation goes through its input in order: of several valid values for one field the first is
kept, and each of the others is reported. Still the order decides only which entries these are. It
decides neither how many there are nor what is passed on, and no more does the choice between the
names of a field.

* `Schema.faults_perm` — entries in another order have the same faults, in another order;
* `Schema.length_faults_respelled` — entries under other names of their fields have as many;
* `Schema.mem_normalized` — what is passed on stays, under the names of the fields;
* `Schema.validate_rearranged` — so order and spelling of the input make no difference.
-/

namespace Spellcraft

namespace Schema

variable (s : Schema)

/-- Two entries that give one value under keys that stand for the same field, or for none. -/
def Respells (e other : String × Value) : Prop :=
  s.resolve? e.1 = s.resolve? other.1 ∧ e.2 = other.2

/-- Parameters whose entries are in another order, and under other keys of their fields. -/
def Rearranges (p q : Parameters) : Prop :=
  ∃ respelled, List.Forall₂ s.Respells p.entries respelled ∧ respelled.Perm q.entries

variable {s} {before before' entries entries' : Entries Value}

/-! ## Another order -/

theorem fault?_of_gives {e : String × Value} {name : String} (given : s.gives e name = true) :
    s.fault? before e.1 e.2 =
      if before.any fun other => s.gives other name then some (.duplicate name) else none := by
  obtain ⟨resolved, field, defined, valid⟩ := gives_eq_true.mp given
  simp [fault?, resolved, admits, defined, valid]

/-- Only entries that clash know of each other. -/
theorem fault?_append_of_not_clash {e other : String × Value} (apart : ¬ s.Clash e other) :
    s.fault? (before ++ [e]) other.1 other.2 = s.fault? before other.1 other.2 := by
  unfold fault?
  cases resolved : s.resolve? other.1 with
  | none => rfl
  | some name =>
    cases admitted : s.admits name other.2 with
    | false => simp [admitted]
    | true =>
      have given : s.gives other name = true := by simp [gives, resolved, admitted]
      have silent : s.gives e name = false :=
        Bool.eq_false_iff.mpr fun one => apart ⟨name, one, given⟩
      have any : ((before ++ [e]).any fun e => s.gives e name) =
          before.any fun e => s.gives e name := by simp [silent]
      simp only [admitted]
      rw [any]

theorem fault?_swap (before : Entries Value) (e other : String × Value) :
    ((s.fault? before e.1 e.2).toList ++ (s.fault? (before ++ [e]) other.1 other.2).toList).Perm
      ((s.fault? before other.1 other.2).toList ++
        (s.fault? (before ++ [other]) e.1 e.2).toList) := by
  by_cases clash : s.Clash e other
  · -- whichever comes second repeats the field, and the first one does if an earlier entry gave it
    obtain ⟨name, one, two⟩ := clash
    simp [fault?_of_gives one, fault?_of_gives two, one, two]
  · have apart : ¬ s.Clash other e := by
      rintro ⟨name, two, one⟩
      exact clash ⟨name, one, two⟩
    rw [fault?_append_of_not_clash clash, fault?_append_of_not_clash apart]
    exact List.perm_append_comm

theorem faults_congr
    (same : ∀ name, (before.any fun e => s.gives e name) = before'.any fun e => s.gives e name) :
    s.faults before entries = s.faults before' entries := by
  induction entries generalizing before before' with
  | nil => rfl
  | cons entry rest ih =>
    obtain ⟨key, value⟩ := entry
    have here : s.fault? before key value = s.fault? before' key value := by
      simp only [fault?, same]
    rw [faults, faults, here, ih]
    intro name
    rw [List.any_append, List.any_append, same]

theorem faults_perm (permuted : entries.Perm entries') (before : Entries Value) :
    (s.faults before entries).Perm (s.faults before entries') := by
  -- two neighbours that change places are the only case with an argument
  induction permuted generalizing before with
  | nil => exact .refl _
  | cons e _ ih => exact (ih (before ++ [e])).append_left _
  | swap e other rest =>
    have tail : s.faults (before ++ [e] ++ [other]) rest =
        s.faults (before ++ [other] ++ [e]) rest := by
      refine faults_congr fun name => ?_
      simp only [List.any_append]
      exact Bool.or_right_comm ..
    simp only [faults, ← List.append_assoc]
    rw [tail]
    exact (fault?_swap before other e).append_right _
  | trans _ _ ih ih' => exact (ih before).trans (ih' before)

/-! ## Other spellings -/

theorem Respells.gives_eq {e other : String × Value} (respells : s.Respells e other)
    (name : String) : s.gives e name = s.gives other name := by
  rw [gives, gives, respells.1, respells.2]

theorem any_gives_respelled (respelled : List.Forall₂ s.Respells entries entries')
    (name : String) :
    (entries.any fun e => s.gives e name) = entries'.any fun e => s.gives e name := by
  induction respelled with
  | nil => rfl
  | cons here _ ih => rw [List.any_cons, List.any_cons, here.gives_eq, ih]

theorem length_fault?_respelled {e other : String × Value} (respells : s.Respells e other)
    (same : ∀ name, (before.any fun e => s.gives e name) = before'.any fun e => s.gives e name) :
    (s.fault? before e.1 e.2).toList.length = (s.fault? before' other.1 other.2).toList.length := by
  obtain ⟨keys, values⟩ := respells
  simp only [fault?, keys, values, same]
  cases s.resolve? other.1 with
  | none => rfl
  | some name =>
    by_cases admitted : s.admits name other.2
    · simp [admitted]
    · -- only the key that a wrong type is reported of may differ
      cases defined : s.definition? name <;> simp [admitted, defined]

/-- Entries under other names of their fields have as many faults. -/
theorem length_faults_respelled (respelled : List.Forall₂ s.Respells entries entries')
    (same : ∀ name, (before.any fun e => s.gives e name) = before'.any fun e => s.gives e name) :
    (s.faults before entries).length = (s.faults before' entries').length := by
  induction respelled generalizing before before' with
  | nil => rfl
  | @cons e other _ _ here _ ih =>
    rw [faults, faults, List.length_append, List.length_append, length_fault?_respelled here same]
    congr 1
    apply ih
    intro name
    rw [List.any_append, List.any_append, same, List.any_cons, List.any_cons, here.gives_eq]

/-! ## Rearranged parameters -/

variable {p q : Parameters}

theorem Rearranges.of_perm (permuted : p.entries.Perm q.entries) : s.Rearranges p q :=
  ⟨p.entries, List.forall₂_same.mpr fun _ _ => ⟨rfl, rfl⟩, permuted⟩

theorem Rearranges.symm (rearranged : s.Rearranges p q) : s.Rearranges q p := by
  obtain ⟨respelled, spelling, permuted⟩ := rearranged
  -- the permutation is undone first, and the spelling then
  obtain ⟨entries, spelling', permuted'⟩ := List.perm_comp_forall₂ permuted.symm
    (spelling.flip.imp fun _ _ respells => (⟨respells.1.symm, respells.2.symm⟩ : s.Respells _ _))
  exact ⟨entries, spelling', permuted'⟩

theorem Rearranges.exists_mem (rearranged : s.Rearranges p q) {e : String × Value}
    (member : e ∈ p.entries) : ∃ other ∈ q.entries, s.Respells e other := by
  obtain ⟨respelled, spelling, permuted⟩ := rearranged
  obtain ⟨other, among, respells⟩ := exists_of_forall₂ spelling.flip member
  exact ⟨other, permuted.mem_iff.mp among, respells⟩

theorem Rearranges.names (rearranged : s.Rearranges p q) {name : String}
    (named : s.Names p name) : s.Names q name := by
  obtain ⟨key, among, resolved⟩ := named
  obtain ⟨e, member, rfl⟩ := List.mem_map.mp among
  obtain ⟨other, member', same, -⟩ := rearranged.exists_mem member
  exact ⟨other.1, List.mem_map_of_mem member', same ▸ resolved⟩

theorem Rearranges.unnamedDefaults_eq (rearranged : s.Rearranges p q) :
    s.unnamedDefaults p = s.unnamedDefaults q := by
  refine List.filterMap_congr fun field _ => ?_
  have same : s.Names p field.name ↔ s.Names q field.name :=
    ⟨rearranged.names, rearranged.symm.names⟩
  simp only [same]

theorem Rearranges.missing_eq (rearranged : s.Rearranges p q) :
    s.missing p.entries = s.missing q.entries := by
  obtain ⟨respelled, spelling, permuted⟩ := rearranged
  simp only [missing, any_gives_respelled spelling, permuted.any_eq]

variable (built : SchemaBuilder.Builds s)

include built

theorem length_errors_rearranged (rearranged : s.Rearranges p q) :
    (s.validate p).errors.length = (s.validate q).errors.length := by
  obtain ⟨respelled, spelling, permuted⟩ := id rearranged
  rw [errors_validate built, errors_validate built, List.length_append, List.length_append,
    rearranged.missing_eq, length_faults_respelled spelling fun _ => rfl,
    (faults_perm permuted []).length_eq]

theorem isSuccess_rearranged (rearranged : s.Rearranges p q) :
    (s.validate p).isSuccess = (s.validate q).isSuccess := by
  have same := length_errors_rearranged built rearranged
  unfold ValidationResult.isSuccess
  rw [Bool.eq_iff_iff, List.isEmpty_iff_length_eq_zero, List.isEmpty_iff_length_eq_zero, same]

theorem mem_normalized (accepts : s.Accepts p) (accepts' : s.Accepts q)
    (rearranged : s.Rearranges p q) {stored : String × Value}
    (member : stored ∈ (s.validate p).normalized.entries) :
    stored ∈ (s.validate q).normalized.entries := by
  obtain ⟨-, -, normal, canonicals, entries⟩ := accepts.normalized built
  obtain ⟨-, -, normal', canonicals', entries'⟩ := accepts'.normalized built
  rw [entries, List.mem_append] at member
  rw [entries', List.mem_append]
  rcases member with given | filled
  · -- the canonical form of an entry is read off the field of its key, however this is spelled
    left
    obtain ⟨e, among, canonical⟩ := exists_of_forall₂ canonicals given
    obtain ⟨other, among', respells⟩ := rearranged.exists_mem among
    obtain ⟨stored', given', canonical'⟩ := exists_of_forall₂ canonicals'.flip among'
    have kept : s.Canonical other stored := ⟨respells.1 ▸ canonical.1, respells.2 ▸ canonical.2⟩
    rwa [Canonical.unique kept canonical']
  · right
    rwa [← rearranged.unnamedDefaults_eq]

theorem find?_normalized_rearranged (rearranged : s.Rearranges p q) (name : String) :
    (s.validate p).normalized.find? name = (s.validate q).normalized.find? name := by
  have same := isSuccess_rearranged built rearranged
  cases success : (s.validate p).isSuccess with
  | false =>
    rw [(validate_rejected built success).1, (validate_rejected built (same ▸ success)).1]
  | true =>
    have accepts := (isSuccess_iff built p).mp success
    have accepts' := (isSuccess_iff built q).mp (same ▸ success)
    refine Entries.find?_congr (s.validate p).normalized.values.nodup
      (s.validate q).normalized.values.nodup (fun _ => ?_) name
    exact ⟨mem_normalized built accepts accepts' rearranged,
      mem_normalized built accepts' accepts rearranged.symm⟩

/-- In another order the same parameters have the same problems, in another order. Under other names
    of their fields, in any order, they are accepted just as well, and the same values are passed on
    under the names of the fields. -/
theorem validate_rearranged (p q : Parameters) :
    (p.entries.Perm q.entries →
      s.Rearranges p q ∧ (s.validate p).errors.Perm (s.validate q).errors) ∧
    (s.Rearranges p q →
      (s.validate p).isSuccess = (s.validate q).isSuccess ∧
      ∀ name, (s.validate p).normalized.find? name = (s.validate q).normalized.find? name) := by
  constructor
  · intro permuted
    have rearranged : s.Rearranges p q := .of_perm permuted
    refine ⟨rearranged, ?_⟩
    rw [errors_validate built, errors_validate built, rearranged.missing_eq]
    exact (faults_perm permuted []).append_right _
  · intro rearranged
    exact ⟨isSuccess_rearranged built rearranged, find?_normalized_rearranged built rearranged⟩

def tersePunch : Parameters :=
  .ofList [("might", .int 5), ("at", .vec3 ⟨.zero _, .zero _, .zero _⟩)]

def plainPunch : Parameters :=
  .ofList [("target", .vec3 ⟨.zero _, .zero _, .zero _⟩), ("strength", .int 5)]

/-- From behind, the second number of the wild strike is the one that counts. -/
def wildStrikeReversed : Parameters :=
  .ofList [("at", .int 7), ("might", .int 5), ("force", .int 4), ("strength", .string "much"),
    ("color", .string "red")]

omit built in
/-- Both punches are accepted, and the wild strike is blamed for the same in either direction. -/
theorem validate_rearranged_punch :
    SchemaBuilder.Builds strikeSchema ∧
    wildStrike.entries.Perm wildStrikeReversed.entries ∧
    (strikeSchema.validate wildStrike).errors.Perm
      (strikeSchema.validate wildStrikeReversed).errors ∧
    (strikeSchema.validate wildStrikeReversed).errors =
      [.typeMismatch "at" .vec3, .duplicate "force", .typeMismatch "strength" .int,
        .unknownParameter "color", .missingRequired "target"] ∧
    strikeSchema.Rearranges tersePunch plainPunch ∧
    (strikeSchema.validate tersePunch).isSuccess = true ∧
    (strikeSchema.validate plainPunch).isSuccess = true ∧
    ∀ name, (strikeSchema.validate tersePunch).normalized.find? name =
      (strikeSchema.validate plainPunch).normalized.find? name := by
  have built : SchemaBuilder.Builds strikeSchema := ⟨strikeCalls, rfl⟩
  have reversed : wildStrike.entries.Perm wildStrikeReversed.entries := by
    have same : wildStrikeReversed.entries = wildStrike.entries.reverse := rfl
    rw [same]
    exact (List.reverse_perm _).symm
  have punch : strikeSchema.Rearranges tersePunch plainPunch := by
    refine ⟨[("strength", .int 5), ("target", .vec3 ⟨.zero _, .zero _, .zero _⟩)], ?_, .swap _ _ _⟩
    exact .cons ⟨rfl, rfl⟩ (.cons ⟨rfl, rfl⟩ .nil)
  obtain ⟨-, errors⟩ := (validate_rearranged built wildStrike wildStrikeReversed).1 reversed
  obtain ⟨same, values⟩ := (validate_rearranged built tersePunch plainPunch).2 punch
  have success : (strikeSchema.validate tersePunch).isSuccess = true := rfl
  exact ⟨built, reversed, errors, rfl, punch, success, same ▸ success, values⟩

end Schema

end Spellcraft
