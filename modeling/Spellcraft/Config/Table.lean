import Spellcraft.Config.Loader
import Spellcraft.Content
import Spellcraft.Json
import Spellcraft.Ron.Document
import Spellcraft.Toml.Document

/-! # Override tables in files

An override table is a table of records by spell id, in one of three formats. The formats differ
in how a table and a record are written, and agree on the rest:

* integer fields take any number, truncated and clamped;
* a field that is set to nothing counts as left out;
* a field of a record may be written once; fields that are not known do not count;
* of two records of one spell the last one counts, in the place of the first.

JSON and TOML also take a record as the list of its six values.
-/

namespace Spellcraft

/-- How the values of a format are read as fields. A value that is no reading of a field fails;
    one that leaves the field out gives nothing. -/
structure FieldReading (α : Type) where
  integer : α → Option (Option Int32)
  real : α → Option (Option Binary64)

namespace OverrideRecord

variable {α : Type} (reading : FieldReading α)

def readField {β : Type} (read : α → Option (Option β)) (members : Entries α)
    (field : ConfigField) : Option (Option β) :=
  match Entries.single? members field.key with
  | some (some value) => read value
  | some none => some none
  | none => none

def ofMembers? (members : Entries α) : Option OverrideRecord := do
  return {
    baseManaCost := ← readField reading.integer members .baseManaCost
    manaCostPerLevel := ← readField reading.integer members .manaCostPerLevel
    baseSpellPower := ← readField reading.integer members .baseSpellPower
    spellPowerPerLevel := ← readField reading.integer members .spellPowerPerLevel
    castTime := ← readField reading.integer members .castTime
    cooldown := ← readField reading.real members .cooldown }

def ofItems? : List α → Option OverrideRecord
  | [a, b, c, d, e, f] => do
    return {
      baseManaCost := ← reading.integer a
      manaCostPerLevel := ← reading.integer b
      baseSpellPower := ← reading.integer c
      spellPowerPerLevel := ← reading.integer d
      castTime := ← reading.integer e
      cooldown := ← reading.real f }
  | _ => none

end OverrideRecord

namespace OverrideTable

def ofRecords? {α : Type} (read : α → Option OverrideRecord) (records : Entries α) :
    Option OverrideTable :=
  (records.mapM fun r => (read r.2).map (r.1, ·)).map Record.ofList

/-! ## JSON -/

def jsonReading : FieldReading (List Char) where
  integer raw := match Json.parse? raw with
    | some .null => some none
    | some (.number n) => some (some n.toInt32)
    | _ => none
  real raw := match Json.parse? raw with
    | some .null => some none
    | some (.number n) => some (some n.toDouble)
    | _ => none

/-- A JSON record: an object, or an array of six values. -/
def jsonRecord? (raw : List Char) : Option OverrideRecord :=
  match Json.splitObject raw with
  | some members => OverrideRecord.ofMembers? jsonReading members
  | none => (Json.splitArray raw).bind (OverrideRecord.ofItems? jsonReading)

def ofJson? (text : String) : Option OverrideTable :=
  (Json.splitObject text.toList).bind (ofRecords? jsonRecord?)

/-! ## TOML -/

def tomlReading : FieldReading Toml where
  integer
    | .integer i => if fits64 i then some (some (clamp32 i)) else none
    | .float x => some (some x.toInt32)
    | _ => none
  real value := value.toDouble?.map some

/-- A TOML record: a table, or an array that begins with six values. -/
def tomlRecord? (value : Toml) : Option OverrideRecord :=
  match value.toTable? with
  | some entries => OverrideRecord.ofMembers? tomlReading entries
  | none => value.toItems?.bind fun items => OverrideRecord.ofItems? tomlReading (items.take 6)

def ofToml? (text : String) : Option OverrideTable :=
  (Toml.parse? text).bind fun root => root.toTable?.bind (ofRecords? tomlRecord?)

/-! ## RON -/

def ronInt? (value : Ron) : Option Int32 :=
  match value.toNumber? with
  | some (.integer i) => some (clamp32 i)
  | some (.real x) => some x.toInt32
  | none => none

def ronReading : FieldReading Ron where
  integer value := match value.toOption with
    | some inner => (ronInt? inner).map some
    | none => some none
  real value := match value.toOption with
    | some inner => (inner.toFloat? .double).map some
    | none => some none

def ronRecord? (value : Ron) : Option OverrideRecord :=
  (value.toFields? "ParameterRecord").bind (OverrideRecord.ofMembers? ronReading)

def ofRon? (text : String) : Option OverrideTable :=
  (Ron.parse? text).bind fun root => root.toPairs?.bind (ofRecords? ronRecord?)

/-! ## By format -/

def parse (format : TableFormat) (text : String) : Except ContentError OverrideTable :=
  let table? := match format with
    | .json => ofJson? text
    | .toml => ofToml? text
    | .ron => ofRon? text
  match table? with
  | some table => .ok table
  | none => .error (.malformedTable format)

def ofFile (files : Files) (path : String) : Except ContentError OverrideTable :=
  files.parse path (parse (TableFormat.ofPath path))

end OverrideTable

namespace TableSource

/-- What a file answers as a source of a table; the errors do not repeat its name. -/
def answerOfFile (files : Files) (path : String) : Except LoadError OverrideTable :=
  match files path with
  | .error .missing => .error (.notFound path)
  | .error failure => .error (.malformed path failure.message)
  | .ok text =>
    (OverrideTable.parse (TableFormat.ofPath path) text).mapError fun e =>
      .malformed path e.message

def ofFile (files : Files) (path : String) : TableSource := .constant (answerOfFile files path)

end TableSource

end Spellcraft
