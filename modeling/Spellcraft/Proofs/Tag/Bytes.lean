import Spellcraft.Tag.Bytes
import Spellcraft.Proofs.Record

/-! # Reading what was written

Every reader takes back what its writer wrote, and leaves the bytes that follow. Two things are
asked of a compound for that: that names are distinct at every level, as records keep them, and
that lengths fit the eight bytes in which they are written, which they do if all the bytes can
be counted so. The names matter only at the end of a compound, where the entries that were read
are put into a record; the reading itself is that of `ByteReader.writtenTag`.

* `ByteReader.littleEndian_append`, `ByteReader.text_append` — numbers and texts;
* `ByteReader.many_append` — rows of items, each of which its reader takes back;
* `ByteReader.tag_eq` — a tag is read as it is written, and then merged;
* `ByteReader.writtenTag_append` — tags, by induction on the depth that the reader allows;
* `Compound.ofBytes?_append` — whole compounds.
-/

namespace Spellcraft

/-- The number of bytes that eight bytes can count. -/
def byteLimit : Nat := Nat.pow 256 8

theorem length_littleEndian (count n : Nat) : (littleEndian count n).length = count := by
  induction count generalizing n with
  | zero => rfl
  | succ count ih => rw [littleEndian, List.length_cons, ih]

theorem Compound.entryBytes_eq (c : Compound) :
    Compound.entryBytes c = c.flatMap fun e => textBytes e.1 ++ e.2.toBytes := by
  induction c with
  | nil => rfl
  | cons e rest ih =>
    obtain ⟨key, tag⟩ := e
    rw [Compound.entryBytes, List.flatMap_cons, ih]

namespace ByteReader

variable {α : Type}

theorem littleEndian_append (count n : Nat) (rest : List UInt8) (fits : n < Nat.pow 256 count) :
    littleEndian count (Spellcraft.littleEndian count n ++ rest) = some (n, rest) := by
  induction count generalizing n with
  | zero =>
    have zero : n = 0 := Nat.lt_one_iff.mp fits
    rw [zero]
    rfl
  | succ count ih =>
    have high : n / 256 < Nat.pow 256 count := by
      rw [Nat.pow_eq, Nat.pow_succ] at fits
      exact Nat.div_lt_of_lt_mul (Nat.mul_comm .. ▸ fits)
    rw [Spellcraft.littleEndian, List.cons_append, littleEndian, ih _ high]
    simp only [UInt8.toNat_ofNat', Option.some.injEq, Prod.mk.injEq, and_true]
    omega

theorem take_append (raw rest : List UInt8) : take raw.length (raw ++ rest) = some (raw, rest) := by
  have enough : raw.length ≤ (raw ++ rest).length := by
    rw [List.length_append]
    omega
  rw [take, if_pos enough, List.take_left, List.drop_left]

theorem text_append (s : String) (rest : List UInt8) (fits : (textBytes s).length < byteLimit) :
    text (textBytes s ++ rest) = some (s, rest) := by
  unfold textBytes at fits ⊢
  generalize written : s.toUTF8.data.toList = raw at fits ⊢
  have short : raw.length < Nat.pow 256 8 := by
    rw [List.length_append] at fits
    exact Nat.lt_of_le_of_lt (Nat.le_add_left ..) fits
  have bytes : ByteArray.mk raw.toArray = s.toByteArray := by
    rw [← written]
    simp
  -- a string carries the proof that its bytes are UTF-8
  have valid : s.toByteArray.IsValidUTF8 := s.isValidUTF8
  rw [List.append_assoc, text, littleEndian_append _ _ _ short]
  simp only [take_append, bytes, String.fromUTF8?, dif_pos valid]
  rfl

/-- A row of items is read back if each item is. -/
theorem many_append {item : ByteReader α} {write : α → List UInt8} {items : List α}
    (readBack : ∀ a ∈ items, ∀ rest, item (write a ++ rest) = some (a, rest))
    (rest : List UInt8) :
    many item items.length (items.flatMap write ++ rest) = some (items, rest) := by
  induction items with
  | nil => rfl
  | cons a more ih =>
    have first := readBack a List.mem_cons_self (more.flatMap write ++ rest)
    have others := ih fun b member => readBack b (List.mem_cons_of_mem _ member)
    rw [List.flatMap_cons, List.append_assoc, List.length_cons, many, first]
    simp only [others]

theorem counted_append {item : ByteReader α} {write : α → List UInt8} {items : List α}
    (readBack : ∀ a ∈ items, ∀ rest, item (write a ++ rest) = some (a, rest))
    (few : items.length < byteLimit) (rest : List UInt8) :
    counted item (Spellcraft.littleEndian 8 items.length ++ (items.flatMap write ++ rest)) =
      some (items, rest) := by
  rw [counted, littleEndian_append _ _ _ few]
  exact many_append readBack rest

theorem int32_append (i : Int32) (rest : List UInt8) :
    int32 (Spellcraft.littleEndian 4 i.toUInt32.toNat ++ rest) = some (i, rest) := by
  have fits : i.toUInt32.toNat < Nat.pow 256 4 := i.toUInt32.toNat_lt
  rw [int32, littleEndian_append _ _ _ fits]
  simp

end ByteReader

inductive Tag.Distinct : Tag → Prop where
  | leaf {tag : Tag} (simple : ∀ entries, tag ≠ .compound entries) : Distinct tag
  | compound {entries : Compound} (keys : (Entries.keys entries).Nodup)
    (inner : ∀ e ∈ entries, Distinct e.2) : Distinct (.compound entries)

/-- A compound whose names are distinct, at every level. -/
structure Compound.Distinct (c : Compound) : Prop where
  keys : (Entries.keys c).Nodup
  inner : ∀ e ∈ c, e.2.Distinct

/-! ## Names that repeat -/

mutual

/-- The tag in which the names of every compound were given in turn, as a record takes them. -/
def Tag.merged : Tag → Tag
  | .compound entries => .compound (Entries.ofList (Compound.mergedTags entries))
  | tag => tag

def Compound.mergedTags : List (String × Tag) → List (String × Tag)
  | [] => []
  | (key, tag) :: rest => (key, tag.merged) :: Compound.mergedTags rest

end

theorem Compound.mergedTags_eq (c : Compound) :
    Compound.mergedTags c = List.map (fun e => (e.1, e.2.merged)) c := by
  induction c with
  | nil => rfl
  | cons e rest ih =>
    obtain ⟨key, tag⟩ := e
    rw [Compound.mergedTags, ih]
    rfl

def Compound.merged (c : Compound) : Compound := Entries.ofList (Compound.mergedTags c)

theorem Compound.merged_of_inner {c : Compound} (keys : (Entries.keys c).Nodup)
    (inner : ∀ e ∈ c, e.2.merged = e.2) : c.merged = c := by
  have same : Compound.mergedTags c = c := by
    rw [mergedTags_eq]
    refine (List.map_congr_left fun e member => ?_).trans (List.map_id c)
    rw [inner e member]
    rfl
  rw [merged, same, Entries.ofList_of_nodup keys]

theorem Tag.Distinct.merged {t : Tag} (distinct : t.Distinct) : t.merged = t := by
  induction distinct with
  | @leaf t simple =>
    cases t with
    | compound entries => exact absurd rfl (simple entries)
    | byte v | int v | long v | float v | double v | string v | intArray v => rfl
  | compound keys _ ih => exact congrArg Tag.compound (Compound.merged_of_inner keys ih)

theorem Compound.Distinct.merged {c : Compound} (distinct : c.Distinct) : c.merged = c :=
  Compound.merged_of_inner distinct.keys fun e member => (distinct.inner e member).merged

/-! ## Lengths -/

theorem Tag.four_le_length (tag : Tag) : 4 ≤ tag.toBytes.length := by
  cases tag <;> simp only [toBytes, List.length_append, length_littleEndian] <;> omega

theorem Compound.length_of_mem {c : Compound} {e : String × Tag} (member : e ∈ c) :
    (textBytes e.1).length + e.2.toBytes.length ≤ (Compound.entryBytes c).length := by
  rw [entryBytes_eq]
  induction c with
  | nil => cases member
  | cons first rest ih =>
    rw [List.flatMap_cons, List.length_append, List.length_append]
    rcases List.mem_cons.mp member with here | later
    · subst here
      omega
    · have := ih later
      omega

theorem Compound.tag_length_le {c : Compound} {e : String × Tag} (member : e ∈ c) :
    e.2.toBytes.length ≤ c.toBytes.length := by
  have part := length_of_mem member
  rw [toBytes, List.length_append]
  omega

theorem Compound.length_le (c : Compound) : c.length ≤ (Compound.entryBytes c).length := by
  induction c with
  | nil => exact Nat.zero_le _
  | cons e rest ih =>
    obtain ⟨key, tag⟩ := e
    have := tag.four_le_length
    rw [entryBytes, List.length_append, List.length_append, List.length_cons]
    omega

/-! ## Tags -/

namespace ByteReader

variable {α β : Type}

theorem map_map {γ : Type} (g : β → γ) (h : α → β) (reader : ByteReader α) :
    map g (map h reader) = map (g ∘ h) reader := by
  funext bytes
  simp only [map]
  cases reader bytes <;> rfl

theorem map_simple {h : α → Tag} {reader : ByteReader α} (simple : ∀ a, (h a).merged = h a) :
    map Tag.merged (map h reader) = map h reader := by
  rw [map_map]
  exact congrArg (map · reader) (funext simple)

theorem many_map (g : α → β) (item : ByteReader α) (count : Nat) :
    many (map g item) count = map (List.map g) (many item count) := by
  induction count with
  | zero => rfl
  | succ count ih =>
    funext bytes
    simp only [many, map, ih]
    cases item bytes with
    | none => rfl
    | some first =>
      obtain ⟨a, bytes⟩ := first
      dsimp only
      cases many item count bytes <;> rfl

theorem counted_map (g : α → β) (item : ByteReader α) :
    counted (map g item) = map (List.map g) (counted item) := by
  funext bytes
  simp only [counted, map]
  cases littleEndian 8 bytes with
  | none => rfl
  | some first => exact congrFun (many_map g item first.1) first.2

theorem entry_map (g : α → β) (item : ByteReader α) :
    entry (map g item) = map (fun e => (e.1, g e.2)) (entry item) := by
  funext bytes
  simp only [entry, map]
  cases text bytes with
  | none => rfl
  | some first =>
    obtain ⟨key, bytes⟩ := first
    dsimp only
    cases item bytes <;> rfl

/-- Reads the content of a tag as it is written, with every entry of a compound. -/
def writtenContent (nested : ByteReader Tag) (variant : Nat) : ByteReader Tag :=
  if variant = 7 then map .compound (counted (entry nested)) else content nested variant

theorem writtenContent_of_ne {variant : Nat} (other : variant ≠ 7) (nested : ByteReader Tag) :
    writtenContent nested variant = content nested variant := if_neg other

def writtenTag : Nat → ByteReader Tag
  | 0 => fun _ => none
  | depth + 1 => fun bytes =>
    match littleEndian 4 bytes with
    | some (variant, bytes) => writtenContent (writtenTag depth) variant bytes
    | none => none

theorem content_merged (nested : ByteReader Tag) (variant : Nat) :
    content (map Tag.merged nested) variant =
      map Tag.merged (writtenContent nested variant) := by
  match variant with
  | 0 | 1 | 2 | 3 | 4 | 5 | 6 => exact (map_simple fun _ => rfl).symm
  | 7 =>
    change map _ (counted (entry (map Tag.merged nested))) = map _ (map _ _)
    rw [entry_map, counted_map, map_map, map_map]
    refine congrArg (map · _) (funext fun pairs => ?_)
    exact congrArg (fun tags => Tag.compound (Entries.ofList tags))
      (Compound.mergedTags_eq pairs).symm
  | n + 8 => rfl

theorem tag_eq (depth : Nat) : tag depth = map Tag.merged (writtenTag depth) := by
  induction depth with
  | zero => rfl
  | succ depth ih =>
    funext bytes
    simp only [tag, writtenTag, map]
    cases littleEndian 4 bytes with
    | none => rfl
    | some first =>
      dsimp only
      rw [ih, content_merged]
      rfl

theorem length_words (words : List Int32) :
    (words.flatMap fun w => Spellcraft.littleEndian 4 w.toUInt32.toNat).length =
      4 * words.length := by
  induction words with
  | nil => rfl
  | cons w rest ih =>
    rw [List.flatMap_cons, List.length_append, length_littleEndian, ih, List.length_cons]
    omega

theorem entries_append {item : ByteReader Tag} {c : Compound}
    (countable : c.toBytes.length < byteLimit)
    (inner : ∀ e ∈ c, ∀ rest, item (e.2.toBytes ++ rest) = some (e.2, rest))
    (rest : List UInt8) : counted (entry item) (c.toBytes ++ rest) = some (c, rest) := by
  rw [Compound.toBytes, List.length_append] at countable
  have few := Compound.length_le c
  have readBack : ∀ e ∈ c, ∀ after,
      entry item (textBytes e.1 ++ e.2.toBytes ++ after) = some (e, after) := by
    intro e member after
    have part := Compound.length_of_mem member
    rw [List.append_assoc, entry, text_append e.1 _ (by omega)]
    simp only [inner e member after]
  rw [Compound.toBytes, List.append_assoc, Compound.entryBytes_eq,
    counted_append readBack (by omega)]

/-- A reader that allows as many levels as there are bytes takes back a tag. -/
theorem writtenTag_append (depth : Nat) {t : Tag} (deep : t.toBytes.length ≤ depth)
    (countable : t.toBytes.length < byteLimit) (rest : List UInt8) :
    writtenTag depth (t.toBytes ++ rest) = some (t, rest) := by
  induction depth generalizing t rest with
  | zero =>
    -- every tag has bytes, so this depth is never reached
    have := t.four_le_length
    omega
  | succ depth ih =>
    have variant (v : Nat) (small : v < Nat.pow 256 4) (content : List UInt8) :
        writtenTag (depth + 1) (Spellcraft.littleEndian 4 v ++ content) =
          writtenContent (writtenTag depth) v content := by
      rw [writtenTag]
      dsimp only
      rw [littleEndian_append _ _ _ small]
    cases t with
    | byte v =>
      have fits : v.toUInt8.toNat < Nat.pow 256 1 := v.toUInt8.toNat_lt
      rw [Tag.toBytes, List.append_assoc, variant 0 (by decide),
        writtenContent_of_ne (by decide), content, map, littleEndian_append _ _ _ fits]
      simp
    | int v =>
      rw [Tag.toBytes, List.append_assoc, variant 1 (by decide),
        writtenContent_of_ne (by decide), content, map, int32_append]
    | long v =>
      have fits : v.toUInt64.toNat < Nat.pow 256 8 := v.toUInt64.toNat_lt
      rw [Tag.toBytes, List.append_assoc, variant 2 (by decide),
        writtenContent_of_ne (by decide), content, map, littleEndian_append _ _ _ fits]
      simp
    | float v =>
      rw [Tag.toBytes, List.append_assoc, variant 3 (by decide),
        writtenContent_of_ne (by decide), content, map, littleEndian_append _ _ _ v.isLt]
      simp only [Binary.ofBits_bits]
    | double v =>
      rw [Tag.toBytes, List.append_assoc, variant 4 (by decide),
        writtenContent_of_ne (by decide), content, map, littleEndian_append _ _ _ v.isLt]
      simp only [Binary.ofBits_bits]
    | string s =>
      rw [Tag.toBytes, List.length_append] at countable
      rw [Tag.toBytes, List.append_assoc, variant 5 (by decide),
        writtenContent_of_ne (by decide), content, map, text_append s rest (by omega)]
    | intArray words =>
      rw [Tag.toBytes, List.length_append, length_words] at countable
      rw [Tag.toBytes, List.append_assoc, List.append_assoc, variant 6 (by decide),
        writtenContent_of_ne (by decide), content, map,
        counted_append (fun w _ => int32_append w) (by omega)]
    | compound entries =>
      have split : (Tag.compound entries).toBytes =
          Spellcraft.littleEndian 4 7 ++ Compound.toBytes entries := rfl
      rw [split, List.length_append, length_littleEndian] at deep countable
      -- an entry is shorter than its compound, which pays for one level
      have inner : ∀ e ∈ entries, ∀ rest,
          writtenTag depth (e.2.toBytes ++ rest) = some (e.2, rest) := by
        intro e member
        have part := Compound.tag_length_le member
        exact ih (by omega) (by omega)
      rw [split, List.append_assoc, variant 7 (by decide), writtenContent, if_pos rfl, map,
        entries_append (by omega) inner]

def written (depth : Nat) : ByteReader Compound := counted (entry (writtenTag depth))

theorem written_append {c : Compound} {depth : Nat} (deep : c.toBytes.length ≤ depth)
    (countable : c.toBytes.length < byteLimit) (rest : List UInt8) :
    written depth (c.toBytes ++ rest) = some (c, rest) := by
  refine entries_append countable (fun e member => ?_) rest
  have part := Compound.tag_length_le member
  exact writtenTag_append depth (by omega) (by omega)

end ByteReader

def Compound.written? (bytes : List UInt8) : Option Compound :=
  (ByteReader.written bytes.length bytes).map Prod.fst

theorem Compound.ofBytes?_eq (bytes : List UInt8) :
    Compound.ofBytes? bytes = (Compound.written? bytes).map Compound.merged := by
  unfold ofBytes? written? ByteReader.written
  rw [ByteReader.tag_eq, ByteReader.entry_map, ByteReader.counted_map, ByteReader.map]
  cases ByteReader.counted (ByteReader.entry (ByteReader.writtenTag bytes.length)) bytes with
  | none => rfl
  | some first => exact congrArg (some <| Entries.ofList ·) (Compound.mergedTags_eq first.1).symm

theorem Compound.written?_append {c : Compound} (countable : c.toBytes.length < byteLimit)
    (rest : List UInt8) : Compound.written? (c.toBytes ++ rest) = some c := by
  have deep : c.toBytes.length ≤ (c.toBytes ++ rest).length := by
    rw [List.length_append]
    omega
  rw [written?, ByteReader.written_append deep countable rest]
  rfl

/-- A compound is read back from its bytes, whatever follows them. -/
theorem Compound.ofBytes?_append {c : Compound} (distinct : c.Distinct)
    (countable : c.toBytes.length < byteLimit) (rest : List UInt8) :
    Compound.ofBytes? (c.toBytes ++ rest) = some c := by
  rw [ofBytes?_eq, written?_append countable, Option.map_some, distinct.merged]

end Spellcraft
