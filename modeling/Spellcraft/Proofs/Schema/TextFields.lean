import Spellcraft.Proofs.Parameters.Members
import Spellcraft.Proofs.Schema.Acceptance
import Spellcraft.Proofs.Uuid

/-! # Strings under fields

Parameter text is read without a schema, so a string that looks like an id becomes one, whatever
field it is meant for. The field then makes a text of it again if it wants one. On the way the
letters of the id become small, and nothing else is lost.

* `Value.text_ofText` — the text of what a string becomes;
* `Schema.isSuccess_of_put` — a validation that some value of a key would pass is decided by the
  value that is there;
* `Schema.TakesString` — what becomes of a string under a field;
* `Schema.validate_strings` — this becomes of all strings, under every key.
-/

namespace Spellcraft

/-! ## Ids among strings -/

namespace Uuid

instance (s : String) : Decidable (IsCanonical s) := decidable_of_iff _ (isSome_parse?_iff s)

def lowered (s : String) : String := if IsCanonical s then asciiLower s else s

end Uuid

theorem Value.text_ofText (s : String) : (ofText s).text = Uuid.lowered s := by
  have canonical := Uuid.isSome_parse?_iff s
  unfold ofText Uuid.lowered
  cases read : Uuid.parse? s with
  | none =>
    have plain : ¬ Uuid.IsCanonical s := by simpa [read] using canonical
    simp [text, plain]
  | some u =>
    have held : Uuid.IsCanonical s := canonical.mp (by rw [read]; rfl)
    simp [text, held, Uuid.text_of_parse? read]

def Kind.holding? : Kind → String → Option Value
  | .string, text => some (.string text)
  | .entitySelector, text => some (.entitySelector text)
  | .dimension, text => some (.dimension text)
  | _, _ => none

theorem Kind.normalize_of_holding? {kind : Kind} {s : String} {value : Value}
    (holding : kind.holding? (Uuid.lowered s) = some value) :
    kind.normalize (Value.ofText s) = some value := by
  rw [← Value.text_ofText] at holding
  cases kind with
  | string | entitySelector | dimension => exact holding
  | _ => cases holding

theorem Kind.normalize_uuid_ofText (s : String) :
    Kind.uuid.normalize (Value.ofText s) = (Uuid.parse? s).map .uuid := by
  unfold Value.ofText
  cases read : Uuid.parse? s with
  | none => simp [normalize, Value.toUuid?, read]
  | some u => simp [normalize, Value.toUuid?]

/-! ## One entry among others -/

namespace Schema

variable {s : Schema} (built : SchemaBuilder.Builds s)

section

variable {p : Parameters} {key name : String} {old value : Value} {field : FieldDefinition}
  (here : p.find? key = some old) (resolved : s.resolve? key = some name)
  (defined : s.definition? name = some field)

include here

theorem keys_put_of_find? : (p.put key value).keys = p.keys := by
  have member : key ∈ Entries.keys p.entries :=
    List.mem_map_of_mem (f := Prod.fst) (Entries.mem_of_find? here)
  have keys := Entries.keys_put p.entries key value
  rwa [if_pos member] at keys

include resolved defined

theorem Accepts.of_put (accepts : s.Accepts (p.put key value))
    (valid : field.kind.isValid old = true) : s.Accepts p := by
  have keys : (p.put key value).keys = p.keys := keys_put_of_find? here
  obtain ⟨known, others, distinct, complete⟩ := accepts
  rw [keys] at known distinct
  refine ⟨known, ?_, distinct, ?_⟩
  · intro e member name' field' resolved' defined'
    have there : p.find? e.1 = some e.2 := Entries.find?_of_mem p.values.nodup member
    by_cases same : e.1 = key
    · rw [same, here, Option.some.injEq] at there
      rw [same, resolved, Option.some.injEq] at resolved'
      rw [← resolved', defined, Option.some.injEq] at defined'
      rwa [← there, ← defined']
    · -- any other entry is untouched by the value that was put
      have kept : (p.put key value).find? e.1 = some e.2 := by
        rw [← there]
        exact Entries.find?_put_of_ne p.entries value same
      exact others e (Entries.mem_of_find? kept) name' field' resolved' defined'
  · intro required member mandatory
    obtain ⟨other, among, stands⟩ := complete required member mandatory
    exact ⟨other, keys ▸ among, stands⟩

include built

/-- A validation that some value of a key would pass is decided by the value that is there. -/
theorem isSuccess_of_put (passes : (s.validate (p.put key value)).isSuccess = true) :
    (s.validate p).isSuccess = (field.kind.normalize old).isSome := by
  have member : (key, old) ∈ p.entries := Entries.mem_of_find? here
  rw [Kind.normalize_isSome, Bool.eq_iff_iff, isSuccess_iff built]
  constructor
  · intro accepts
    exact accepts.valid _ member name field resolved defined
  · exact ((isSuccess_iff built _).mp passes).of_put here resolved defined

theorem find?_normalized {normal : Value} (success : (s.validate p).isSuccess = true)
    (normalized : field.kind.normalize old = some normal) :
    (s.validate p).normalized.find? name = some normal := by
  -- the field and the value of the entry determine what is stored
  obtain ⟨field', stored, defined', same, found⟩ :=
    find?_of_entry built (if_pos success) (Entries.mem_of_find? here) resolved
  rw [defined, Option.some.injEq] at defined'
  rw [← defined', normalized] at same
  rw [found, same]

end

/-! ## Strings -/

/-- What becomes of a string under a field, in parameters that are valid but for it: a field of a
    text kind holds it, a field for ids takes the canonical ones, and the letters of an id are
    small. -/
structure TakesString (s : Schema) (p : Parameters) (name : String) (kind : Kind)
    (str : String) : Prop where
  text : ∀ value, kind.holding? (Uuid.lowered str) = some value →
    (s.validate p).isSuccess = true ∧ (s.validate p).normalized.find? name = some value
  id : kind = .uuid → ((s.validate p).isSuccess = true ↔ Uuid.IsCanonical str) ∧
    ((s.validate p).isSuccess = true → ∃ u,
      (s.validate p).normalized.find? name = some (.uuid u) ∧ u.text = asciiLower str)

include built in
theorem takesString {p : Parameters} {key name str : String} {field : FieldDefinition}
    (here : p.find? key = some (Value.ofText str)) (resolved : s.resolve? key = some name)
    (defined : s.definition? name = some field)
    (rest : ∃ value, (s.validate (p.put key value)).isSuccess = true) :
    s.TakesString p name field.kind str := by
  obtain ⟨value, passes⟩ := rest
  have success := isSuccess_of_put built here resolved defined passes
  constructor
  · intro value holding
    have normalized := Kind.normalize_of_holding? holding
    rw [normalized] at success
    exact ⟨success, find?_normalized built here resolved defined success normalized⟩
  · intro kind
    have normalized := Kind.normalize_uuid_ofText str
    rw [← kind] at normalized
    rw [normalized, Option.isSome_map] at success
    constructor
    · rw [success, Uuid.isSome_parse?_iff]
    · intro passed
      obtain ⟨u, read⟩ := Option.isSome_iff_exists.mp (success.symm.trans passed)
      rw [read] at normalized
      exact ⟨u, find?_normalized built here resolved defined passed normalized,
        Uuid.text_of_parse? read⟩

end Schema

/-! ## Parameter text -/

namespace Json

theorem readValue_quoted (depth : Nat) (text : String) (rest : List Char) :
    readValue strict depth (quoted text ++ rest) = some (.string text, rest) := by
  have read := readString_quoted text rest
  have opened : quoted text ++ rest = '"' :: (text.toList.flatMap escaped ++ ['"'] ++ rest) := rfl
  rw [opened] at read ⊢
  unfold readValue
  simp only [strict, read, Option.map_some]

theorem parse?_quoted (text : String) : parse? (quoted text) = some (.string text) := by
  have read := readValue_quoted maxDepth text []
  have tight : skipSpace (quoted text) = quoted text := rfl
  rw [List.append_nil] at read
  simp only [parse?, parseWithin?, tight, read]
  rfl

theorem readRaw_quoted (text : String) (rest : List Char) :
    readRaw (quoted text ++ rest) = some (quoted text, rest) := by
  obtain ⟨-, _, extent⟩ := covers_readValue maxDepth (quoted text ++ rest).length _ _ _
    (Nat.le_refl _) (readValue_quoted maxDepth text rest)
  rw [readRaw, skipValue, extent]
  simp

/-- So every string can be supplied under every key. -/
theorem isField_quoted (key text : String) :
    IsField (fieldText key (quoted text)) key (quoted text) :=
  isField_fieldText key rfl (readRaw_quoted text _)

end Json

namespace Parameters

/-- Members that give a name a string, however this is written. -/
def GiveString (members : List (String × List Char)) (key str : String) : Prop :=
  ∃ raw, Entries.last? members key = some raw ∧ Json.parse? raw = some (.string str)

variable {text key str : String} {members : List (String × List Char)}

theorem GiveString.decodes (given : GiveString members key str) :
    Decodes members key (Value.ofText str) := by
  obtain ⟨raw, last, parsed⟩ := given
  exact ⟨raw, last, by rw [decodeRaw, parsed]; rfl⟩

theorem Decodes.mem_names {value : Value} (decodes : Decodes members key value) :
    key ∈ Entries.names members := by
  obtain ⟨raw, last, -⟩ := decodes
  have member := List.mem_reverse.mp (Entries.mem_of_find? last)
  exact Entries.mem_names.mpr (List.mem_map_of_mem (f := Prod.fst) member)

theorem Decodes.unique {value value' : Value} (decodes : Decodes members key value)
    (decodes' : Decodes members key value') : value = value' := by
  obtain ⟨raw, last, decoded⟩ := decodes
  obtain ⟨raw', last', decoded'⟩ := decodes'
  rw [last, Option.some.injEq] at last'
  rw [last', decoded', Except.ok.injEq] at decoded
  exact decoded.symm

/-- A string never stands in the way of reading the rest. -/
theorem GiveString.ofText_iff (given : GiveString members key str)
    (splits : Json.splitObject text.toList = some members) :
    (∃ p, ofText text = .ok p) ↔ ∀ other ∈ Entries.names members, other ≠ key →
      ∃ value, Decodes members other value := by
  rw [(readsMembers_ofText splits).succeeds]
  constructor
  · exact fun all other among _ => all other among
  · intro others other among
    by_cases same : other = key
    · exact ⟨_, same ▸ given.decodes⟩
    · exact others other among same

theorem GiveString.find? (given : GiveString members key str)
    (splits : Json.splitObject text.toList = some members) {p : Parameters}
    (read : ofText text = .ok p) : p.find? key = some (Value.ofText str) := by
  obtain ⟨-, -, values⟩ := (readsMembers_ofText splits).holds p read
  obtain ⟨value, decodes, there⟩ := values key given.decodes.mem_names
  rw [there, decodes.unique given.decodes]

end Parameters

namespace Schema

/-- Every id is read back from its text. Every string can be supplied under every key, as long as
    the other entries can be read it is read with them, and where they are valid it is taken for
    what it is. -/
theorem validate_strings {s : Schema} (built : SchemaBuilder.Builds s) :
    (∀ u : Uuid, Uuid.parse? u.text = some u) ∧
    (∀ key str, Json.IsField (Json.fieldText key (Json.quoted str)) key (Json.quoted str) ∧
      Json.parse? (Json.quoted str) = some (.string str)) ∧
    ∀ text members key str, Json.splitObject text.toList = some members →
      Parameters.GiveString members key str →
      ((∃ p, Parameters.ofText text = .ok p) ↔ ∀ other ∈ Entries.names members, other ≠ key →
        ∃ value, Parameters.Decodes members other value) ∧
      ∀ p name field, Parameters.ofText text = .ok p → s.resolve? key = some name →
        s.definition? name = some field →
        (∃ value, (s.validate (p.put key value)).isSuccess = true) →
        s.TakesString p name field.kind str := by
  refine ⟨Uuid.parse?_text, fun key str => ⟨Json.isField_quoted key str, Json.parse?_quoted str⟩,
    fun text members key str splits given => ⟨given.ofText_iff splits, ?_⟩⟩
  intro p name field read resolved defined rest
  exact takesString built (given.find? splits read) resolved defined rest

def letterCalls : List Declaration :=
  [.field "note" .string .required "What it says", .field "owner" .uuid .required "Whose it is",
    .field "reader" .entitySelector .required "Who may read it",
    .field "place" .dimension (.optional (.string "nether")) "Where it is",
    .synonym "text" "note"]

def letterSchema : Schema :=
  match (SchemaBuilder.empty.declareAll letterCalls).build with
  | .ok s => s
  | .error _ => .empty

def letterMembers : List (String × List Char) :=
  [("text", "\"6BA7B810-9DAD-11D1-80\\u00424-00C04FD430C8\"".toList),
    ("reader", "\"@a\"".toList), ("owner", "\"6ba7b810-9DAD-11d1-80b4-00c04fd430C8\"".toList)]

/-- A letter with an id for its note, in capital letters, one of which is escaped. -/
def letterText : String :=
  "\x7b\"text\": \"6BA7B810-9DAD-11D1-80\\u00424-00C04FD430C8\", \"reader\": \"@a\", " ++
    "\"owner\": \"6ba7b810-9DAD-11d1-80b4-00c04fd430C8\"\x7d"

/-- The letter as it is read: the note has become an id like the owner. -/
def letter : Parameters :=
  let id : Uuid := ⟨0x6ba7b8109dad11d180b400c04fd430c8, by decide⟩
  .ofList [("text", .uuid id), ("reader", .string "@a"), ("owner", .uuid id)]

/-- The note is a text again, in small letters; the reader is as it was, and the owner an id. -/
theorem validate_strings_letter :
    SchemaBuilder.Builds letterSchema ∧
    Json.splitObject letterText.toList = some letterMembers ∧
    Parameters.ofText letterText = .ok letter ∧
    (letterSchema.validate letter).isSuccess = true ∧
    (letterSchema.validate letter).normalized.find? "note" =
      some (.string "6ba7b810-9dad-11d1-80b4-00c04fd430c8") ∧
    (letterSchema.validate letter).normalized.find? "reader" = some (.entitySelector "@a") ∧
    ∃ u, (letterSchema.validate letter).normalized.find? "owner" = some (.uuid u) ∧
      u.text = "6ba7b810-9dad-11d1-80b4-00c04fd430c8" ∧ Uuid.parse? u.text = some u := by
  have built : SchemaBuilder.Builds letterSchema := ⟨letterCalls, rfl⟩
  have splits : Json.splitObject letterText.toList = some letterMembers := by decide +kernel
  have read : Parameters.ofText letterText = .ok letter := by
    rw [Parameters.ofText_of_splits splits]
    rfl
  obtain ⟨roundTrip, -, strings⟩ := validate_strings built
  have note := (strings letterText letterMembers "text" "6BA7B810-9DAD-11D1-80B4-00C04FD430C8"
    splits ⟨_, rfl, rfl⟩).2 letter "note" _ read rfl rfl ⟨.string "", rfl⟩
  have reader := (strings letterText letterMembers "reader" "@a" splits ⟨_, rfl, rfl⟩).2
    letter "reader" _ read rfl rfl ⟨.string "", rfl⟩
  have owner := (strings letterText letterMembers "owner" "6ba7b810-9DAD-11d1-80b4-00c04fd430C8"
    splits ⟨_, rfl, rfl⟩).2 letter "owner" _ read rfl rfl ⟨.uuid .nil, rfl⟩
  have lowered : Uuid.lowered "6BA7B810-9DAD-11D1-80B4-00C04FD430C8" =
      "6ba7b810-9dad-11d1-80b4-00c04fd430c8" := by decide +kernel
  have plain : Uuid.lowered "@a" = "@a" := by decide +kernel
  have canonical : Uuid.IsCanonical "6ba7b810-9DAD-11d1-80b4-00c04fd430C8" := by decide +kernel
  obtain ⟨success, noted⟩ := note.text (.string _) (by rw [lowered]; rfl)
  obtain ⟨-, held⟩ := reader.text (.entitySelector _) (by rw [plain]; rfl)
  obtain ⟨accepted, taken⟩ := owner.id rfl
  obtain ⟨u, there, text⟩ := taken (accepted.mpr canonical)
  have small : asciiLower "6ba7b810-9DAD-11d1-80b4-00c04fd430C8" =
      "6ba7b810-9dad-11d1-80b4-00c04fd430c8" := by decide +kernel
  exact ⟨built, splits, read, success, noted, held, u, there, text.trans small, roundTrip u⟩

end Schema

end Spellcraft
