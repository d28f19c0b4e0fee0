import Spellcraft.Proofs.Schema.Acceptance

/-! # Cast flags among the parameters

Every schema accepts the cast flags, so they can be put to parameters that name none of them. This
changes nothing else about a validation: the same problems are reported, and the same values are
passed on under the names of fields.

* `Parameters.withFlags` — parameters and, after them, settings of flags;
* `Schema.errors_withFlags` — the settings are no problem, nor do they hide or repair one;
* `Schema.validate_withFlags` — what is passed on with them.
-/

namespace Spellcraft

theorem CastFlag.isGlobal_key (flag : CastFlag) : Schema.isGlobal flag.key = true := by
  cases flag <;> decide

theorem CastFlag.key_injective : Function.Injective CastFlag.key := by
  intro one other same
  cases one <;> cases other <;> first | rfl | exact absurd same (by decide)

namespace Parameters

def withFlags (params : Parameters) (settings : List (CastFlag × Bool)) : Parameters :=
  settings.foldl (fun params setting => params.put setting.1.key (.boolean setting.2)) params

def flagEntries (settings : List (CastFlag × Bool)) : Entries Value :=
  settings.map fun setting => (setting.1.key, .boolean setting.2)

theorem mem_flagEntries {settings : List (CastFlag × Bool)} {e : String × Value}
    (member : e ∈ flagEntries settings) : ∃ flag enabled, e = (CastFlag.key flag, .boolean enabled) := by
  obtain ⟨⟨flag, enabled⟩, -, rfl⟩ := List.mem_map.mp member
  exact ⟨flag, enabled, rfl⟩

theorem isGlobal_of_mem_keys {settings : List (CastFlag × Bool)} {name : String}
    (among : name ∈ Entries.keys (flagEntries settings)) : Schema.isGlobal name = true := by
  obtain ⟨e, member, rfl⟩ := List.mem_map.mp among
  obtain ⟨flag, enabled, rfl⟩ := mem_flagEntries member
  exact flag.isGlobal_key

theorem entries_withFlags {params : Parameters} {settings : List (CastFlag × Bool)}
    (distinct : (settings.map Prod.fst).Nodup)
    (unflagged : ∀ setting ∈ settings, setting.1.key ∉ params.keys) :
    (params.withFlags settings).entries = params.entries ++ flagEntries settings := by
  unfold withFlags
  induction settings generalizing params with
  | nil => simp [flagEntries]
  | cons setting rest ih =>
    obtain ⟨flag, enabled⟩ := setting
    simp only [List.map_cons, List.nodup_cons] at distinct
    have new : flag.key ∉ Entries.keys params.entries := unflagged _ List.mem_cons_self
    have put : (params.put flag.key (.boolean enabled)).entries =
        params.entries ++ [(flag.key, .boolean enabled)] := Entries.put_of_not_mem _ new
    rw [List.foldl_cons, ih distinct.2, put]
    · simp [flagEntries]
    · -- the flag that was just put is not among those that follow
      intro other among held
      change other.1.key ∈ Entries.keys (params.put flag.key (.boolean enabled)).entries at held
      rw [put, Entries.keys, List.map_append, List.mem_append] at held
      rcases held with before | here
      · exact unflagged other (List.mem_cons_of_mem _ among) before
      · apply distinct.1
        rw [← CastFlag.key_injective (List.mem_singleton.mp here)]
        exact List.mem_map_of_mem among

end Parameters

namespace Schema

variable {s : Schema}

open Parameters

/-! ## One flag -/

theorem resolve?_of_isGlobal {key : String} (foreign : isGlobal key = true) :
    s.resolve? key = some key := by
  rw [resolve?, foreign, Bool.or_true, if_pos rfl]

theorem resolve?_flag (s : Schema) (flag : CastFlag) : s.resolve? flag.key = some flag.key :=
  resolve?_of_isGlobal flag.isGlobal_key

theorem definition?_flag (sound : SoundFields s.fields) (flag : CastFlag) :
    s.definition? flag.key = some (flagField flag) := by
  have own : findField? s.fields flag.key = none := by
    cases found : findField? s.fields flag.key with
    | none => rfl
    | some field =>
      have foreign := sound.notGlobal field (List.mem_of_find?_eq_some found)
      rw [name_of_findField? found, flag.isGlobal_key] at foreign
      cases foreign
  rw [definition?, own]
  cases flag <;> rfl

theorem canonical_flag (sound : SoundFields s.fields) (flag : CastFlag) (enabled : Bool) :
    s.Canonical (flag.key, .boolean enabled) (flag.key, .boolean enabled) :=
  ⟨s.resolve?_flag flag, flagField flag, definition?_flag sound flag, rfl⟩

theorem gives_flag (sound : SoundFields s.fields) (flag : CastFlag) (enabled : Bool)
    (name : String) : s.gives (flag.key, .boolean enabled) name = true ↔ name = flag.key := by
  constructor
  · exact name_of_gives (s.resolve?_flag flag)
  · rintro rfl
    exact (canonical_flag sound flag enabled).gives

theorem Canonical.unique : Relator.RightUnique s.Canonical := by
  rintro e ⟨name, value⟩ ⟨other, stored⟩ ⟨resolved, field, defined, normal⟩
    ⟨resolved', field', defined', normal'⟩
  obtain rfl : name = other := Option.some.inj (resolved.symm.trans resolved')
  obtain rfl : field = field' := Option.some.inj (defined.symm.trans defined')
  obtain rfl : value = stored := Option.some.inj (normal.symm.trans normal')
  rfl

theorem find?_flag (built : SchemaBuilder.Builds s) {params normal : Parameters}
    (valid : (s.validate params).toExcept = .ok normal) (flag : CastFlag)
    (silent : ¬ s.Names params flag.key) : normal.find? flag.key = none := by
  obtain ⟨accepts, rfl⟩ := accepts_of_validate built valid
  obtain ⟨-, -, entries, canonicals, normalized⟩ := accepts.normalized built
  refine Entries.find?_eq_none_iff.mpr fun member => silent ?_
  change flag.key ∈ Entries.keys (s.validate params).normalized.entries at member
  rw [normalized] at member
  exact (Accepts.definition?_of_mem built canonicals member).2 flag.isGlobal_key

/-! ## Flags after other entries -/

theorem faults_append (before first second : Entries Value) :
    s.faults before (first ++ second) =
      s.faults before first ++ s.faults (before ++ first) second := by
  induction first generalizing before with
  | nil => simp [faults]
  | cons e rest ih =>
    obtain ⟨key, value⟩ := e
    rw [List.cons_append, faults, faults, ih, List.append_assoc, List.append_assoc]
    rfl

section

variable {params : Parameters} {settings : List (CastFlag × Bool)}
  (built : SchemaBuilder.Builds s) (distinct : (settings.map Prod.fst).Nodup)
  (silent : ∀ flag : CastFlag, ¬ s.Names params flag.key)

include built distinct silent

theorem faults_flagEntries : s.faults params.entries (flagEntries settings) = [] := by
  apply (faults_eq_nil_iff built.soundAliases).mpr
  have given := gives_flag (s := s) built.sound
  refine ⟨?_, ?_, ?_⟩
  · intro e member
    obtain ⟨flag, enabled, rfl⟩ := mem_flagEntries member
    exact ⟨flag.key, (given flag enabled _).mpr rfl⟩
  · -- an entry that gives a flag names it
    rintro e among other member ⟨name, one, two⟩
    obtain ⟨flag, enabled, rfl⟩ := mem_flagEntries member
    rw [(given flag enabled name).mp two] at one
    exact silent flag ⟨e.1, List.mem_map_of_mem among, (gives_eq_true.mp one).1⟩
  · -- two entries that give the same flag are settings of it
    apply List.pairwise_map.mpr
    refine (List.pairwise_map.mp distinct).imp ?_
    rintro ⟨flag, enabled⟩ ⟨other, setting⟩ different ⟨name, one, two⟩
    have here := (given flag enabled name).mp one
    have there := (given other setting name).mp two
    exact different (CastFlag.key_injective (here.symm.trans there))

omit distinct silent in
theorem missing_flagEntries (given : Entries Value) :
    s.missing (given ++ flagEntries settings) = s.missing given := by
  unfold missing
  congr 1
  refine List.filter_congr fun field declared => ?_
  have none : ((flagEntries settings).any fun e => s.gives e field.name) = false := by
    rw [List.any_eq_false]
    intro e member named
    obtain ⟨flag, enabled, rfl⟩ := mem_flagEntries member
    have foreign := built.sound.notGlobal field declared
    rw [(gives_flag built.sound flag enabled field.name).mp named, flag.isGlobal_key] at foreign
    cases foreign
  rw [List.any_append, none, Bool.or_false]

omit built distinct in
theorem unflagged_of_silent : ∀ setting ∈ settings, setting.1.key ∉ params.keys :=
  fun setting _ held => silent setting.1 ⟨_, held, s.resolve?_flag setting.1⟩

/-- The settings of flags are no problem, nor do they hide or repair one. -/
theorem errors_withFlags :
    (s.validate (params.withFlags settings)).errors = (s.validate params).errors := by
  rw [errors_validate built, errors_validate built,
    entries_withFlags distinct (unflagged_of_silent silent), faults_append,
    missing_flagEntries built, List.nil_append, faults_flagEntries built distinct silent,
    List.append_nil]

omit built in
/-- Of names that are no flag's, the same are named. -/
theorem names_withFlags {name : String} (own : isGlobal name = false) :
    s.Names (params.withFlags settings) name ↔ s.Names params name := by
  have keys : (params.withFlags settings).keys =
      params.keys ++ Entries.keys (flagEntries settings) := by
    change Entries.keys (params.withFlags settings).entries = _
    rw [entries_withFlags distinct (unflagged_of_silent silent), Entries.keys, List.map_append]
    rfl
  constructor
  · rintro ⟨key, among, resolved⟩
    rw [keys, List.mem_append] at among
    rcases among with given | added
    · exact ⟨key, given, resolved⟩
    · -- the key of a flag is resolved to itself, and is no name of a field
      have foreign := isGlobal_of_mem_keys added
      rw [resolve?_of_isGlobal foreign, Option.some.injEq] at resolved
      rw [← resolved, foreign] at own
      cases own
  · rintro ⟨key, among, resolved⟩
    exact ⟨key, keys ▸ List.mem_append_left _ among, resolved⟩

theorem unnamedDefaults_withFlags :
    s.unnamedDefaults (params.withFlags settings) = s.unnamedDefaults params := by
  refine List.filterMap_congr fun field declared => ?_
  simp only [names_withFlags distinct silent (built.sound.notGlobal field declared)]

theorem toExcept_withFlags_error {errors : ValidationErrors}
    (invalid : (s.validate params).toExcept = .error errors) :
    (s.validate (params.withFlags settings)).toExcept = .error errors := by
  unfold ValidationResult.toExcept ValidationResult.isSuccess at invalid ⊢
  rw [errors_withFlags built distinct silent]
  split at invalid
  · cases invalid
  · next problems => rw [if_neg problems, invalid]

/-- With settings of flags the same parameters are valid. What is passed on then are the settings,
    and what is passed on without them. -/
theorem validate_withFlags {normal : Parameters}
    (valid : (s.validate params).toExcept = .ok normal) :
    ∃ flagged, (s.validate (params.withFlags settings)).toExcept = .ok flagged ∧
      (∀ name, isGlobal name = false → flagged.find? name = normal.find? name) ∧
      ∀ setting ∈ settings, flagged.find? setting.1.key = some (.boolean setting.2) := by
  obtain ⟨accepts, rfl⟩ := accepts_of_validate built valid
  have clean : (s.validate (params.withFlags settings)).isSuccess = true := by
    rw [ValidationResult.isSuccess, errors_withFlags built distinct silent]
    exact (isSuccess_iff built params).mpr accepts
  have accepts' := (isSuccess_iff built _).mp clean
  obtain ⟨-, -, given, canonicals, entries⟩ := accepts.normalized built
  obtain ⟨-, -, given', canonicals', entries'⟩ := accepts'.normalized built
  -- a flag is passed on as it is, so the canonical entries are the former ones and the flags
  have flags : List.Forall₂ s.Canonical (flagEntries settings) (flagEntries settings) := by
    rw [List.forall₂_same]
    intro e member
    obtain ⟨flag, enabled, rfl⟩ := mem_flagEntries member
    exact canonical_flag built.sound flag enabled
  have same : given' = given ++ flagEntries settings := by
    rw [entries_withFlags distinct (unflagged_of_silent silent)] at canonicals'
    exact List.right_unique_forall₂' Canonical.unique canonicals' (List.rel_append canonicals flags)
  rw [same, unnamedDefaults_withFlags built distinct silent] at entries'
  refine ⟨(s.validate (params.withFlags settings)).normalized, if_pos clean, ?_, ?_⟩
  · intro name own
    have absent : Entries.find? (flagEntries settings) name = none := by
      rw [Entries.find?_eq_none_iff]
      intro held
      rw [isGlobal_of_mem_keys held] at own
      cases own
    change Entries.find? (s.validate _).normalized.entries name =
      Entries.find? (s.validate params).normalized.entries name
    rw [entries, entries', Entries.find?_append, Entries.find?_append, Entries.find?_append, absent,
      Option.or_none]
  · intro setting member
    refine Entries.find?_of_mem (s.validate _).normalized.values.nodup ?_
    change _ ∈ (s.validate _).normalized.entries
    rw [entries']
    apply List.mem_append_left
    exact List.mem_append_right _ (List.mem_map_of_mem member)

end

end Schema

end Spellcraft
