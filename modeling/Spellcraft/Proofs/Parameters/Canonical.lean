import Spellcraft.Proofs.Parameters.Storage

/-! # Parameters in storage

Storage has no schema: it writes every value by its form and reads it back by its form. What
that does to parameters is said here without tags. Selectors and dimensions come back as text,
compounds that were not understood do not come back, and all else is as it was.

* `Value.stored?` — what storage gives back of one value;
* `Parameters.ofCompound_toCompound` — what it gives back of parameters;
* `Compound.canonical` — a compound read and written again, the form that storage has for it;
* `Parameters.storage_canonical` — reading after writing, and writing after reading.
-/

namespace Spellcraft

namespace Value

def stored? : Value → Option Value
  | .entitySelector s | .dimension s => some (.string s)
  | .compound _ => none
  | value => some value

/-- Whether a value is anything but a compound that is passed through. -/
def isUnderstood : Value → Bool
  | .compound _ => false
  | _ => true

theorem ofTag_toTag? (key : String) (value : Value) :
    value.toTag?.map (ofTag key) = value.stored?.map .ok := by
  cases value with
  | boolean b => cases b <;> rfl
  | uuid u => exact congrArg (some ∘ Except.ok) (ofCompound_ofUuid u)
  | _ => rfl

/-- What storage gives back is written as the value was that it was given. -/
theorem bind_stored?_toTag? (value : Value) : value.stored?.bind toTag? = value.toTag? := by
  cases value <;> rfl

theorem ofCompound_cases (entries : Compound) :
    (∃ v, ofCompound entries = .vec3 v) ∨ (∃ u, ofCompound entries = .uuid u) ∨
      ofCompound entries = .compound entries := by
  unfold ofCompound
  split
  · exact .inl ⟨_, rfl⟩
  · right
    split
    · split
      · exact .inl ⟨_, rfl⟩
      · exact .inr rfl
    · exact .inr rfl

/-- No tag is read as a selector or a dimension, so storage only drops from what was read. -/
theorem stored?_of_ofTag {key : String} {tag : Tag} {value : Value}
    (decoded : ofTag key tag = .ok value) : value.stored? = Option.guard isUnderstood value := by
  cases tag with
  | long | intArray => cases decoded
  | compound entries =>
    cases decoded
    obtain ⟨v, read⟩ | ⟨u, read⟩ | read := ofCompound_cases entries
    · rw [read]; rfl
    · rw [read]; rfl
    · rw [read]; rfl
  | _ => cases decoded; rfl

end Value

namespace Parameters

/-- What storage gives back of parameters. Nothing that was read counts as validated. -/
def stored (p : Parameters) : Parameters := ⟨p.values.filterMap Value.stored?, false⟩

def understood (p : Parameters) : Parameters :=
  ⟨p.values.filterMap (Option.guard Value.isUnderstood), false⟩

theorem decodeAll_ofValues (values : Entries Value) :
    decodeAll Value.ofTag (Compound.ofValues values) =
      .ok (values.filterMap fun e => e.2.stored?.map (e.1, ·)) := by
  induction values with
  | nil => rfl
  | cons e rest ih =>
    obtain ⟨name, value⟩ := e
    have decoded := Value.ofTag_toTag? name value
    cases written : value.toTag? with
    | none =>
      rw [written] at decoded
      have dropped : value.stored? = none := Option.map_eq_none_iff.mp decoded.symm
      simpa [Compound.ofValues, written, dropped] using ih
    | some tag =>
      rw [written] at decoded
      obtain ⟨given, kept, same⟩ := Option.map_eq_some_iff.mp decoded.symm
      rw [Compound.ofValues_cons written, decodeAll, ← same]
      simp [ih, kept]

theorem ofCompound_toCompound (p : Parameters) : ofCompound p.toCompound = .ok p.stored := by
  have distinct := (p.values.filterMap Value.stored?).nodup
  rw [ofCompound, toCompound_eq, decodeAll_ofValues]
  simp only [ofList, stored, Except.ok.injEq, Parameters.mk.injEq, and_true]
  exact Record.ext (Entries.ofList_of_nodup distinct)

theorem toCompound_stored (p : Parameters) : p.stored.toCompound = p.toCompound := by
  simp only [toCompound, stored, Record.filterMap, List.filterMap_filterMap]
  apply List.filterMap_congr
  intro e _
  rw [← Value.bind_stored?_toTag? e.2]
  cases e.2.stored? <;> rfl

theorem mem_decodeAll {α : Type} {decode : String → α → Except DecodeError Value}
    {raws : List (String × α)} {values : List (String × Value)}
    (decoded : decodeAll decode raws = .ok values) {e : String × Value} (member : e ∈ values) :
    ∃ raw, decode e.1 raw = .ok e.2 := by
  induction raws generalizing values with
  | nil => cases decoded; cases member
  | cons first rest ih =>
    obtain ⟨key, raw⟩ := first
    unfold decodeAll at decoded
    cases here : decode key raw with
    | error e => rw [here] at decoded; cases decoded
    | ok value =>
      cases later : decodeAll decode rest with
      | error e => rw [here, later] at decoded; cases decoded
      | ok others =>
        rw [here, later] at decoded
        cases decoded
        rcases List.mem_cons.mp member with first | among
        · exact ⟨raw, first ▸ here⟩
        · exact ih later among

/-- Of parameters that were read, storage gives back all that was understood. -/
theorem stored_of_ofCompound {c : Compound} {p : Parameters} (decoded : ofCompound c = .ok p) :
    p.stored = p.understood := by
  unfold ofCompound at decoded
  cases read : decodeAll Value.ofTag c with
  | error e => rw [read] at decoded; cases decoded
  | ok values =>
    rw [read] at decoded
    cases decoded
    simp only [stored, understood, Record.filterMap, Parameters.mk.injEq, Record.mk.injEq, and_true]
    apply List.filterMap_congr
    intro e member
    obtain ⟨tag, same⟩ := mem_decodeAll read (Entries.mem_of_mem_ofList member)
    rw [Value.stored?_of_ofTag same]

end Parameters

def Compound.canonical (c : Compound) : Except DecodeError Compound :=
  (Parameters.ofCompound c).map Parameters.toCompound

/-- Parameters that were written can be read, and what is read are the stored ones: the same
    names and values in the same order, but for selectors and dimensions, which are text now, and
    for compounds, which are gone. A compound that can be read is canonical once it was written
    again: it is read as what was understood of it, and a further round leaves it as it is. -/
theorem Parameters.storage_canonical (p : Parameters) (c : Compound) :
    ofCompound p.toCompound = .ok p.stored ∧
      ∀ q, ofCompound c = .ok q →
        c.canonical = .ok q.toCompound ∧ ofCompound q.toCompound = .ok q.understood ∧
          q.toCompound.canonical = .ok q.toCompound := by
  refine ⟨ofCompound_toCompound p, fun q decoded => ?_⟩
  have again : ofCompound q.toCompound = .ok q.understood := by
    rw [ofCompound_toCompound, stored_of_ofCompound decoded]
  refine ⟨?_, again, ?_⟩
  · rw [Compound.canonical, decoded]
    rfl
  · rw [Compound.canonical, ofCompound_toCompound]
    exact congrArg Except.ok (toCompound_stored q)

/-- A truth value that is not written as one, a position of mixed numbers with a name beside
    them, an id, and a compound that stands for nothing. -/
def oddments : Compound :=
  [("brave", .byte 7),
    ("spot", .compound
      [("x", .int 1), ("name", .string "well"), ("y", .byte 2), ("z", .long 3)]),
    ("owner", .compound (Compound.ofUuid .nil)),
    ("scrap", .compound [("ink", .string "red")])]

def tidied : Compound :=
  [("brave", .byte 1),
    ("spot", .compound
      [("x", .double (.ofInt .double (1 : Int32).toInt)),
        ("y", .double (.ofInt .double (2 : Int8).toInt)),
        ("z", .double (.ofInt .double (3 : Int64).toInt))]),
    ("owner", .compound (Compound.ofUuid .nil))]

def strays : Parameters :=
  .ofList [("whom", .entitySelector "@a"), ("scrap", .compound [("ink", .string "red")]),
    ("where", .dimension "nether"), ("heat", .float (.zero .single))]

/-- Tidied once, oddments stay as they are; and of the strays, the texts and the number remain. -/
theorem storage_canonical_oddments :
    strays.stored = .ofList
        [("whom", .string "@a"), ("where", .string "nether"), ("heat", .float (.zero .single))] ∧
      Parameters.ofCompound strays.toCompound = .ok strays.stored ∧
      ∃ read, Parameters.ofCompound oddments = .ok read ∧ read.values.size = 4 ∧
        oddments.canonical = .ok tidied ∧ tidied.canonical = .ok tidied ∧
        Parameters.ofCompound tidied = .ok read.understood ∧ read.understood.values.size = 3 := by
  obtain ⟨restored, canonical⟩ := Parameters.storage_canonical strays oddments
  obtain ⟨written, understood, again⟩ := canonical _ rfl
  exact ⟨rfl, restored, _, rfl, rfl, written, again, understood, rfl⟩

end Spellcraft
