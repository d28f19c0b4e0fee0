import Mathlib.Data.List.Forall2
import Spellcraft.Config.Table
import Spellcraft.Proofs.Config.Presence
import Spellcraft.Proofs.Parameters.IntegerText

/-! # Override tables in JSON

A record that is an object names a field if it has a value for it other than null, and names it
whatever that value is. An integer field takes every integer literal that has a number, clamped to
32 bits: the number may be an integer of 64 bits or a double, and both are clamped to the same
integer. Of two records of one spell the last one stands, as a whole and in the place of the first.

* `Json.IntegerLiteral.toInt32_of_number?` — an integer literal on each of its routes;
* `OverrideRecord.single?_of_ofMembers?`, `OverrideRecord.ofMembers?_isSome` — what a field is read
  as, and when a record can be read, in any format;
* `OverrideRecord.FromObject` — what is read of an object;
* `OverrideTable.parse_json` — what is read of a table, and how its records apply.
-/

namespace Spellcraft

open BinaryFormat

/-! ## Integers -/

/-- A number beyond 32 bits is clamped to the end on its own side, be it an integer or a double. -/
theorem clamp32_of_large {n : Nat} (large : 0x100000000 ≤ n) (negative : Bool) :
    clamp32 (if negative = true then -(n : Int) else n) =
      if negative = true then Int32.minValue else Int32.maxValue := by
  unfold clamp32
  cases negative with
  | true =>
    rw [if_pos rfl, if_pos rfl, if_pos (by omega)]
  | false =>
    simp only [Bool.false_eq_true, if_false]
    rw [if_neg (by omega), if_pos (by omega)]

theorem Binary.toInt32_of_units {x : Binary64} (number : x.isNaN = false)
    (large : 0x100000000 * double.one ≤ x.units) :
    x.toInt32 = if x.negative = true then Int32.minValue else Int32.maxValue := by
  have whole : 0x100000000 ≤ x.units / double.one :=
    (Nat.le_div_iff_mul_le BinaryFormat.one_pos).mpr large
  rw [toInt32, truncate, number, if_neg Bool.false_ne_true]
  exact clamp32_of_large whole _

namespace Json.IntegerLiteral

variable {l : IntegerLiteral}

/-- A literal beyond 64 bits is a double of the sign that it is written with. -/
theorem sign_of_real? (beyond : fits64 l.value = false) {x : Binary64}
    (read : l.parts.real? = some x) : x.isNaN = false ∧ x.negative = l.negative := by
  rw [real?_of_not_fits beyond, Option.ite_none_right_eq_some] at read
  obtain ⟨⟨inRange, -⟩, same⟩ := read
  have number : l.scaled.isNaN = false := l.near_significand.isNaN_mul (near_tenTo inRange)
  have natural : l.scaled.negative = false := l.near_significand.negative_mul (near_tenTo inRange)
  rw [← Option.some.inj same]
  cases l.negative with
  | true =>
    rw [if_pos rfl, Binary.isNaN_neg, Binary.negative_neg, number, natural]
    exact ⟨rfl, rfl⟩
  | false =>
    rw [if_neg Bool.false_ne_true]
    exact ⟨number, natural⟩

/-- Whichever number a literal has, as a 32-bit integer it is the literal's own one, clamped. -/
theorem toInt32_of_number? {n : Number} (read : l.number? = some n) :
    n.toInt32 = clamp32 l.value := by
  cases fits : fits64 l.value with
  | true =>
    by_cases zero : l.negative = true ∧ l.value = 0
    · -- minus zero is a double although it fits
      rw [l.number?_minus_zero zero.1 zero.2, Option.some_inj] at read
      rw [← read, zero.2]
      decide +kernel
    · rw [l.number?_eq, if_pos ⟨fits, zero⟩, Option.some_inj] at read
      rw [← read]
      rfl
  | false =>
    rw [l.number?_of_not_fits fits] at read
    obtain ⟨x, real, rfl⟩ := Option.map_eq_some_iff.mp read
    obtain ⟨number, sign⟩ := sign_of_real? fits real
    have large := l.magnitude_of_not_fits fits
    -- the literal and its double are beyond the same end
    rw [Number.toInt32, Binary.toInt32_of_units number (units_of_real? fits real), sign, value]
    exact (clamp32_of_large (by omega) _).symm

theorem integer_text (l : IntegerLiteral) :
    OverrideTable.jsonReading.integer l.text = l.number?.map fun _ => some (clamp32 l.value) := by
  have parsed : Json.parse? l.text = l.number?.map .number := Json.parse?_number l.read_text
  unfold OverrideTable.jsonReading
  dsimp only
  rw [parsed]
  cases number : l.number? with
  | none => rfl
  | some n => simp [toInt32_of_number? number]

end Json.IntegerLiteral

/-! ## One field -/

def FieldReading.value? {α : Type} (reading : FieldReading α) (f : ConfigField) (given : α) :
    Option (Option Value) :=
  match f with
  | .cooldown => (reading.real given).map (·.map .double)
  | _ => (reading.integer given).map (·.map .int)

theorem FieldReading.value?_of_int {α : Type} (reading : FieldReading α) {f : ConfigField}
    (whole : f.kind = .int) (given : α) :
    reading.value? f given = (reading.integer given).map (·.map .int) := by
  cases f with
  | cooldown => cases whole
  | _ => rfl

namespace OverrideRecord

section

variable {α : Type} {reading : FieldReading α} {members : Entries α}

/-- A field can be read if it has at most one value, and this can be. -/
theorem readField_isSome {β : Type} {read : α → Option (Option β)} {f : ConfigField} :
    (readField read members f).isSome = true ↔ (Entries.keys members).count f.key ≤ 1 ∧
      ∀ given, (f.key, given) ∈ members → (read given).isSome = true := by
  rw [← Entries.single?_isSome, readField]
  cases single : Entries.single? members f.key with
  | none => simp
  | some given? =>
    simp only [Entries.mem_of_single? single]
    cases given? <;> simp

theorem single?_of_readField {β : Type} {read : α → Option (Option β)} {f : ConfigField}
    {named : Option β} (wrap : β → Value) (found : readField read members f = some named) :
    ∃ given?, Entries.single? members f.key = some given? ∧
      given?.elim (some none) (fun given => (read given).map (·.map wrap)) =
        some (named.map wrap) := by
  unfold readField at found
  split at found
  · next given single => exact ⟨some given, single, by rw [Option.elim_some, found]; rfl⟩
  · next single =>
    cases found
    exact ⟨none, single, rfl⟩
  · cases found

/-- A field of a record is what its only value is read as, if it has one. -/
theorem single?_of_ofMembers? {record : OverrideRecord}
    (read : ofMembers? reading members = some record) (f : ConfigField) :
    ∃ given?, Entries.single? members f.key = some given? ∧
      given?.elim (some none) (reading.value? f) = some (record.value? f) := by
  simp only [ofMembers?, Option.bind_eq_bind, Option.bind_eq_some_iff, Option.pure_def,
    Option.some_inj] at read
  obtain ⟨_, manaCost, _, manaPerLevel, _, power, _, powerPerLevel, _, castTime, _, cooldown, rfl⟩ :=
    read
  cases f with
  | baseManaCost => exact single?_of_readField .int manaCost
  | manaCostPerLevel => exact single?_of_readField .int manaPerLevel
  | baseSpellPower => exact single?_of_readField .int power
  | spellPowerPerLevel => exact single?_of_readField .int powerPerLevel
  | castTime => exact single?_of_readField .int castTime
  | cooldown => exact single?_of_readField .double cooldown

theorem ofMembers?_isSome : (ofMembers? reading members).isSome = true ↔
    ∀ f : ConfigField, (Entries.keys members).count f.key ≤ 1 ∧
      ∀ given, (f.key, given) ∈ members → (reading.value? f given).isSome = true := by
  constructor
  · intro read f
    obtain ⟨record, read⟩ := Option.isSome_iff_exists.mp read
    obtain ⟨given?, single, value⟩ := single?_of_ofMembers? read f
    refine ⟨Entries.single?_isSome.mp (by rw [single]; rfl), fun given member => ?_⟩
    rw [(Entries.mem_of_single? single given).mp member] at value
    exact Option.isSome_iff_exists.mpr ⟨_, value⟩
  · intro each
    have integer (f : ConfigField) (whole : f.kind = .int) :
        (readField reading.integer members f).isSome = true := by
      refine readField_isSome.mpr ⟨(each f).1, fun given member => ?_⟩
      have own := (each f).2 given member
      rwa [reading.value?_of_int whole, Option.isSome_map] at own
    have real : (readField reading.real members .cooldown).isSome = true := by
      refine readField_isSome.mpr ⟨(each .cooldown).1, fun given member => ?_⟩
      have own := (each .cooldown).2 given member
      rwa [FieldReading.value?, Option.isSome_map] at own
    obtain ⟨_, manaCost⟩ := Option.isSome_iff_exists.mp (integer .baseManaCost rfl)
    obtain ⟨_, manaPerLevel⟩ := Option.isSome_iff_exists.mp (integer .manaCostPerLevel rfl)
    obtain ⟨_, power⟩ := Option.isSome_iff_exists.mp (integer .baseSpellPower rfl)
    obtain ⟨_, powerPerLevel⟩ := Option.isSome_iff_exists.mp (integer .spellPowerPerLevel rfl)
    obtain ⟨_, castTime⟩ := Option.isSome_iff_exists.mp (integer .castTime rfl)
    obtain ⟨_, cooldown⟩ := Option.isSome_iff_exists.mp real
    simp [ofMembers?, manaCost, manaPerLevel, power, powerPerLevel, castTime, cooldown]

end

/-! ## One record -/

end OverrideRecord

def ConfigField.ofNumber (f : ConfigField) (n : Json.Number) : Value :=
  match f with
  | .cooldown => .double n.toDouble
  | _ => .int n.toInt32

theorem OverrideTable.value?_jsonReading (f : ConfigField) (raw : List Char) :
    jsonReading.value? f raw = match Json.parse? raw with
      | some .null => some none
      | some (.number n) => some (some (f.ofNumber n))
      | _ => none := by
  unfold FieldReading.value? jsonReading
  dsimp only
  cases Json.parse? raw with
  | none => cases f <;> rfl
  | some value => cases f <;> cases value <;> rfl

theorem OverrideTable.value?_jsonReading_isSome {f : ConfigField} {raw : List Char} :
    (jsonReading.value? f raw).isSome = true ↔
      Json.parse? raw = some .null ∨ ∃ n, Json.parse? raw = some (.number n) := by
  rw [value?_jsonReading]
  cases Json.parse? raw with
  | none => simp
  | some value => cases value <;> simp

/-- Whether a field has a value other than null among the members of an object. -/
def Json.Gives (members : Entries (List Char)) (f : ConfigField) : Prop :=
  ∃ raw, (f.key, raw) ∈ members ∧ Json.parse? raw ≠ some .null

namespace OverrideRecord

/-- A record that is read of the members of an object: which fields it names, which values they
    have, and how it applies, in this form and in the one with a set of bits. -/
structure FromObject (members : Entries (List Char)) (record : OverrideRecord) : Prop where
  once : ∀ f : ConfigField, (Entries.keys members).count f.key ≤ 1
  defines : ∀ f, record.defines f = true ↔ Json.Gives members f
  marked : ∀ f, (LoadedConfig.ofRecord record).defines f = true ↔ Json.Gives members f
  number : ∀ f raw n, (f.key, raw) ∈ members → Json.parse? raw = some (.number n) →
    record.config.value f = f.ofNumber n
  integer : ∀ f (l : Json.IntegerLiteral), f.kind = .int → (f.key, l.text) ∈ members →
    record.config.value f = .int (clamp32 l.value)
  own : ∀ fallback f, Json.Gives members f →
    (record.applyTo fallback).value f = record.config.value f
  other : ∀ fallback f, ¬ Json.Gives members f →
    (record.applyTo fallback).value f = fallback.value f
  merge : ∀ fallback, (LoadedConfig.ofRecord record).merge fallback = record.applyTo fallback

variable {members : Entries (List Char)} {record : OverrideRecord}
  (read : ofMembers? OverrideTable.jsonReading members = some record)

include read

theorem value?_of_mem {f : ConfigField} {raw : List Char} (member : (f.key, raw) ∈ members) :
    OverrideTable.jsonReading.value? f raw = some (record.value? f) := by
  obtain ⟨given?, single, value⟩ := single?_of_ofMembers? read f
  rw [(Entries.mem_of_single? single raw).mp member] at value
  exact value

theorem defines_iff_gives (f : ConfigField) : record.defines f = true ↔ Json.Gives members f := by
  rw [record.defines_eq]
  constructor
  · intro named
    obtain ⟨given?, single, value⟩ := single?_of_ofMembers? read f
    cases given? with
    | none =>
      -- without a member nothing is named
      rw [← Option.some.inj value] at named
      cases named
    | some raw =>
      have member := (Entries.mem_of_single? single raw).mpr rfl
      refine ⟨raw, member, fun null => ?_⟩
      have value := value?_of_mem read member
      rw [OverrideTable.value?_jsonReading, null] at value
      rw [← Option.some.inj value] at named
      cases named
  · rintro ⟨raw, member, some⟩
    have value := value?_of_mem read member
    rw [OverrideTable.value?_jsonReading] at value
    split at value
    · next null => exact absurd null some
    · -- a number is named, whichever it is
      rw [← Option.some.inj value]
      rfl
    · cases value

theorem config_of_number {f : ConfigField} {raw : List Char} {n : Json.Number}
    (member : (f.key, raw) ∈ members) (number : Json.parse? raw = some (.number n)) :
    record.config.value f = f.ofNumber n := by
  have value := value?_of_mem read member
  rw [OverrideTable.value?_jsonReading, number] at value
  rw [record.value_config, ← Option.some.inj value]
  rfl

theorem config_of_integer {f : ConfigField} {l : Json.IntegerLiteral} (whole : f.kind = .int)
    (member : (f.key, l.text) ∈ members) : record.config.value f = .int (clamp32 l.value) := by
  have value := value?_of_mem read member
  rw [FieldReading.value?_of_int _ whole, l.integer_text] at value
  rw [record.value_config]
  -- a literal without a number would not have been read at all
  cases number : l.number? with
  | none =>
    rw [number] at value
    cases value
  | some n =>
    rw [number] at value
    rw [← Option.some.inj value]
    rfl

theorem fromObject_of_ofMembers? : FromObject members record where
  once f := by
    obtain ⟨given?, single, -⟩ := single?_of_ofMembers? read f
    exact Entries.single?_isSome.mp (by rw [single]; rfl)
  defines := defines_iff_gives read
  marked f := by
    rw [LoadedConfig.defines_ofRecord]
    exact defines_iff_gives read f
  number _ _ _ := config_of_number read
  integer _ _ := config_of_integer read
  own fallback f gives := by
    rw [record.value_applyTo, if_pos ((defines_iff_gives read f).mpr gives)]
  other fallback f silent := by
    rw [record.value_applyTo, if_neg (mt (defines_iff_gives read f).mp silent)]
  merge := LoadedConfig.merge_ofRecord record

end OverrideRecord

/-! ## The table -/

namespace OverrideTable

variable {α : Type} {read : α → Option OverrideRecord} {records : Entries α} {table : OverrideTable}

theorem forall₂_of_ofRecords? (done : ofRecords? read records = some table) :
    ∃ pairs, List.Forall₂ (fun r p => r.1 = p.1 ∧ read r.2 = some p.2) records pairs ∧
      table = Record.ofList pairs := by
  obtain ⟨pairs, all, rfl⟩ := Option.map_eq_some_iff.mp done
  refine ⟨pairs, ?_, rfl⟩
  -- every record is read, also one that a later one is going to replace
  clear done
  induction records generalizing pairs with
  | nil =>
    cases all
    exact .nil
  | cons r rest ih =>
    simp only [List.mapM_cons, Option.bind_eq_bind, Option.bind_eq_some_iff, Option.map_eq_some_iff,
      Option.pure_def, Option.some_inj] at all
    obtain ⟨_, ⟨record, here, rfl⟩, others, later, rfl⟩ := all
    exact .cons ⟨rfl, here⟩ (ih others later)

theorem find?_of_forall₂ {pairs : Entries OverrideRecord}
    (all : List.Forall₂ (fun r p => r.1 = p.1 ∧ read r.2 = some p.2) records pairs) (id : String) :
    Entries.find? pairs id = (Entries.find? records id).bind read := by
  induction all with
  | nil => rfl
  | @cons r p _ _ here _ ih =>
    rw [Entries.find?, Entries.find?, ih, here.1]
    split
    · exact here.2.symm
    · rfl

theorem keys_of_forall₂ {pairs : Entries OverrideRecord}
    (all : List.Forall₂ (fun r p => r.1 = p.1 ∧ read r.2 = some p.2) records pairs) :
    Entries.keys pairs = Entries.keys records := by
  induction all with
  | nil => rfl
  | cons here _ ih => rw [Entries.keys_cons, Entries.keys_cons, ih, here.1]

/-- Of the records of one spell the last one stands, in the place of the first. -/
theorem keys_find?_of_ofRecords? (done : ofRecords? read records = some table) :
    table.keys = Entries.names records ∧
      ∀ id, table.find? id = (Entries.last? records id).bind read := by
  obtain ⟨pairs, all, rfl⟩ := forall₂_of_ofRecords? done
  constructor
  · refine (Entries.keys_ofList pairs).trans ?_
    rw [Entries.names, keys_of_forall₂ all]
    rfl
  · intro id
    refine (Entries.find?_ofList_eq_last? pairs id).trans ?_
    exact find?_of_forall₂ (List.forall₂_reverse_iff.mpr all) id

theorem exists_of_ofRecords? (done : ofRecords? read records = some table) {r : String × α}
    (member : r ∈ records) : ∃ record, read r.2 = some record := by
  obtain ⟨pairs, all, -⟩ := forall₂_of_ofRecords? done
  obtain ⟨p, -, -, this⟩ := Schema.exists_of_forall₂ all.flip member
  exact ⟨p.2, this⟩

/-- A table is read of an object of records. It has each spell in the place of its first record
    with all that is read of its last one and nothing else. Every record that is an object names
    the fields that have a value, and applies just in these. An object can be read if no field has
    two values, and those that there are are null and numbers; and an integer literal is read as
    its integer, clamped to 32 bits, unless it is too large for a double. -/
theorem parse_json {text : String} (accepted : parse .json text = .ok table) :
    (∃ records, Json.splitObject text.toList = some records ∧
      table.keys = Entries.names records ∧
      (∀ id, table.find? id = (Entries.last? records id).bind jsonRecord?) ∧
      ∀ id raw, (id, raw) ∈ records → ∃ record, jsonRecord? raw = some record ∧
        ∀ members, Json.splitObject raw = some members →
          OverrideRecord.FromObject members record) ∧
    (∀ raw members, Json.splitObject raw = some members →
      ((jsonRecord? raw).isSome = true ↔ ∀ f : ConfigField,
        (Entries.keys members).count f.key ≤ 1 ∧ ∀ own, (f.key, own) ∈ members →
          Json.parse? own = some .null ∨ ∃ n, Json.parse? own = some (.number n))) ∧
    ∀ l : Json.IntegerLiteral,
      jsonReading.integer l.text = l.number?.map (fun _ => some (clamp32 l.value)) ∧
      (l.magnitude < 2 ^ 1024 - 2 ^ 973 → l.number?.isSome = true) ∧
      (2 ^ 1024 + 2 ^ 973 ≤ l.magnitude → l.number? = none) := by
  refine ⟨?_, fun raw members object => ?_,
    fun l => ⟨l.integer_text, fun small => ?_, l.number?_of_le_magnitude⟩⟩
  · have read : ofJson? text = some table := by
      unfold parse at accepted
      dsimp only at accepted
      cases read : ofJson? text with
      | none => simp [read] at accepted
      | some table' => simpa [read] using accepted
    obtain ⟨records, split, done⟩ := Option.bind_eq_some_iff.mp read
    obtain ⟨keys, find?⟩ := keys_find?_of_ofRecords? done
    refine ⟨records, split, keys, find?, fun id raw member => ?_⟩
    obtain ⟨record, own⟩ := exists_of_ofRecords? done member
    refine ⟨record, own, fun members object => ?_⟩
    rw [jsonRecord?, object] at own
    exact OverrideRecord.fromObject_of_ofMembers? own
  · rw [jsonRecord?, object]
    simp only [OverrideRecord.ofMembers?_isSome, value?_jsonReading_isSome]
  · rw [Option.isSome_iff_ne_none]
    intro none
    exact absurd (l.le_magnitude_of_number? none) (Nat.not_le_of_lt small)

def calmText : String := "\x7b\"baseSpellPower\": 0, \"manaCostPerLevel\": null\x7d"

def gustText : String := "\x7b\"castTime\": -99999999999999999999\x7d"

def windText : String :=
  "\x7b\"gust\": \x7b\"castTime\": 7, \"cooldown\": 1\x7d, " ++
    "\"calm\": " ++ calmText ++ ", \"gust\": " ++ gustText ++ "\x7d"

def windTable : OverrideTable :=
  .ofList [("gust", { castTime := some Int32.minValue }), ("calm", { baseSpellPower := some 0 })]

/-- The gust comes first, but its cooldown is gone; a zero counts for the calm, and null does not. -/
theorem parse_json_wind :
    parse .json windText = .ok windTable ∧ windTable.keys = ["gust", "calm"] ∧
      OverrideRecord.FromObject [("castTime", "-99999999999999999999".toList)]
        { castTime := some Int32.minValue } ∧
      OverrideRecord.FromObject
        [("baseSpellPower", "0".toList), ("manaCostPerLevel", "null".toList)]
        { baseSpellPower := some 0 } := by
  have read : ofJson? windText = some windTable := by decide +kernel
  have accepted : parse .json windText = .ok windTable := by
    unfold parse
    dsimp only
    rw [read]
  obtain ⟨⟨records, split, keys, -, objects⟩, -⟩ := parse_json accepted
  have members : Json.splitObject windText.toList = some
      [("gust", "\x7b\"castTime\": 7, \"cooldown\": 1\x7d".toList), ("calm", calmText.toList),
        ("gust", gustText.toList)] := by
    decide +kernel
  rw [members, Option.some_inj] at split
  subst split
  refine ⟨accepted, keys.trans (by decide +kernel), ?_, ?_⟩
  · obtain ⟨record, own, object⟩ := objects "gust" gustText.toList (by simp)
    have same : jsonRecord? gustText.toList = some { castTime := some Int32.minValue } := by
      decide +kernel
    rw [Option.some.inj (own.symm.trans same)] at object
    exact object _ (by decide +kernel)
  · obtain ⟨record, own, object⟩ := objects "calm" calmText.toList (by simp)
    have same : jsonRecord? calmText.toList = some { baseSpellPower := some 0 } := by
      decide +kernel
    rw [Option.some.inj (own.symm.trans same)] at object
    exact object _ (by decide +kernel)

end OverrideTable

end Spellcraft
