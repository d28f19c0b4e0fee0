import Spellcraft.Parameters
import Spellcraft.Proofs.Tag.Bytes

/-! # One encoding for each tag

A reader is canonical if it accepts nothing but what its writer writes: the bytes it takes off
the front are the encoding of the value it returns. Together with the reading of what was
written this makes encodings prefix free, so an encoding that is cut short is no encoding at all.

* `ByteReader.Canonical.many`, `.counted`, `.entry` — canonical readers put together;
* `ByteReader.writtenTag_canonical` — tags, by induction on the depth that the reader allows;
* `Compound.ofBytes?_front` — an encoding that is cut short is not read;
* `Compound.bytes_canonical` — what is read, what is refused, and that nothing else is read.

A compound whose names repeat is read like any other, but the record that is returned no longer
says what was written. `Compound.written?` does.
-/

namespace Spellcraft

namespace ByteReader

variable {α β : Type}

/-- The bytes that the reader takes are what is written for the value it returns. -/
structure Canonical (reader : ByteReader α) (write : α → List UInt8) : Prop where
  taken : ∀ {bytes a rest}, reader bytes = some (a, rest) → bytes = write a ++ rest

theorem littleEndian_canonical {count n : Nat} {bytes rest : List UInt8}
    (read : littleEndian count bytes = some (n, rest)) :
    bytes = Spellcraft.littleEndian count n ++ rest ∧ n < Nat.pow 256 count := by
  induction count generalizing bytes n with
  | zero =>
    cases read
    exact ⟨rfl, Nat.one_pos⟩
  | succ count ih =>
    cases bytes with
    | nil => cases read
    | cons b bytes =>
      rw [littleEndian] at read
      cases upper : littleEndian count bytes with
      | none =>
        rw [upper] at read
        cases read
      | some first =>
        obtain ⟨high, after⟩ := first
        rw [upper] at read
        cases read
        obtain ⟨same, fits⟩ := ih upper
        -- the first byte is the lowest digit, so division tells it from the others again
        have low : b.toNat < 256 := b.toNat_lt
        have quotient : (b.toNat + 256 * high) / 256 = high := by omega
        have digit : UInt8.ofNat (b.toNat + 256 * high) = b := by
          apply UInt8.toNat_inj.mp
          rw [UInt8.toNat_ofNat']
          omega
        constructor
        · rw [Spellcraft.littleEndian, quotient, digit, List.cons_append, same]
        · rw [Nat.pow_eq] at fits
          rw [Nat.pow_eq, Nat.pow_succ]
          omega

theorem map_eq_some {g : α → β} {reader : ByteReader α} {bytes rest : List UInt8} {b : β}
    (read : map g reader bytes = some (b, rest)) :
    ∃ a, reader bytes = some (a, rest) ∧ g a = b := by
  rw [map] at read
  cases inner : reader bytes with
  | none =>
    rw [inner] at read
    cases read
  | some first =>
    rw [inner] at read
    cases read
    exact ⟨first.1, rfl, rfl⟩

theorem int32_canonical :
    Canonical int32 fun i => Spellcraft.littleEndian 4 i.toUInt32.toNat where
  taken {bytes i rest} read := by
    rw [int32] at read
    split at read
    · rename_i n after number
      cases read
      obtain ⟨split, fits⟩ := littleEndian_canonical number
      have small : n < 2 ^ 32 := fits
      rw [UInt32.toUInt32_toInt32, UInt32.toNat_ofNat', Nat.mod_eq_of_lt small]
      exact split
    · cases read

theorem take_canonical {count : Nat} {bytes raw rest : List UInt8}
    (read : take count bytes = some (raw, rest)) : bytes = raw ++ rest ∧ raw.length = count := by
  rw [take] at read
  split at read
  · cases read
    exact ⟨(List.take_append_drop count bytes).symm, List.length_take_of_le ‹_›⟩
  · cases read

theorem toUTF8_of_fromUTF8? {raw : List UInt8} {s : String}
    (valid : String.fromUTF8? (ByteArray.mk raw.toArray) = some s) :
    s.toUTF8.data.toList = raw := by
  unfold String.fromUTF8? at valid
  split at valid
  · cases valid
    rfl
  · cases valid

theorem text_canonical : Canonical text textBytes := by
  constructor
  intro bytes s rest read
  rw [text] at read
  split at read
  · cases read
  · rename_i count after length
    split at read
    · cases read
    · rename_i raw remaining content
      split at read
      · rename_i valid
        cases read
        obtain ⟨split, -⟩ := littleEndian_canonical length
        obtain ⟨parts, size⟩ := take_canonical content
        rw [textBytes, toUTF8_of_fromUTF8? valid, size, List.append_assoc, ← parts]
        exact split
      · cases read

namespace Canonical

variable {item : ByteReader α} {write : α → List UInt8} (canonical : Canonical item write)

include canonical

theorem many {count : Nat} {bytes rest : List UInt8} {items : List α}
    (read : many item count bytes = some (items, rest)) :
    bytes = items.flatMap write ++ rest ∧ items.length = count := by
  induction count generalizing bytes items with
  | zero =>
    cases read
    exact ⟨rfl, rfl⟩
  | succ count ih =>
    rw [ByteReader.many] at read
    split at read
    · cases read
    · rename_i a after first
      split at read
      · rename_i others remaining more
        cases read
        obtain ⟨split, size⟩ := ih more
        rw [List.flatMap_cons, List.append_assoc, ← split, List.length_cons, size]
        exact ⟨canonical.taken first, rfl⟩
      · cases read

theorem counted :
    Canonical (ByteReader.counted item) fun items =>
      Spellcraft.littleEndian 8 items.length ++ items.flatMap write := by
  constructor
  intro bytes items rest read
  rw [ByteReader.counted] at read
  split at read
  · rename_i count after length
    obtain ⟨split, size⟩ := canonical.many read
    rw [size, List.append_assoc, ← split]
    exact (littleEndian_canonical length).1
  · cases read

theorem entry : Canonical (ByteReader.entry item) fun e => textBytes e.1 ++ write e.2 := by
  constructor
  intro bytes e rest read
  rw [ByteReader.entry] at read
  split at read
  · cases read
  · rename_i key after name
    split at read
    · rename_i a remaining value
      cases read
      rw [List.append_assoc, ← canonical.taken value]
      exact text_canonical.taken name
    · cases read

end Canonical

theorem Canonical.tagged {reader : ByteReader α} {write : α → List UInt8}
    (canonical : Canonical reader write) {g : α → Tag} {variant : Nat}
    (same : ∀ a, (g a).toBytes = Spellcraft.littleEndian 4 variant ++ write a)
    {bytes rest : List UInt8} {t : Tag} (read : map g reader bytes = some (t, rest)) :
    Spellcraft.littleEndian 4 variant ++ bytes = t.toBytes ++ rest := by
  obtain ⟨a, content, rfl⟩ := map_eq_some read
  rw [same, List.append_assoc, ← canonical.taken content]

theorem littleEndian_tagged {count variant : Nat} {g : Nat → Tag}
    (same : ∀ n < Nat.pow 256 count, (g n).toBytes =
      Spellcraft.littleEndian 4 variant ++ Spellcraft.littleEndian count n)
    {bytes rest : List UInt8} {t : Tag}
    (read : map g (littleEndian count) bytes = some (t, rest)) :
    Spellcraft.littleEndian 4 variant ++ bytes = t.toBytes ++ rest := by
  obtain ⟨n, number, rfl⟩ := map_eq_some read
  obtain ⟨split, fits⟩ := littleEndian_canonical number
  rw [same n fits, List.append_assoc, ← split]

theorem Canonical.entries {item : ByteReader Tag} (canonical : Canonical item Tag.toBytes) :
    Canonical (ByteReader.counted (ByteReader.entry item)) Compound.toBytes := by
  have same : Compound.toBytes = fun c => Spellcraft.littleEndian 8 c.length ++
      c.flatMap fun e => textBytes e.1 ++ e.2.toBytes := by
    funext c
    rw [Compound.toBytes, Compound.entryBytes_eq]
  rw [same]
  exact canonical.entry.counted

theorem writtenContent_canonical {nested : ByteReader Tag} (inner : Canonical nested Tag.toBytes)
    {variant : Nat} {bytes rest : List UInt8} {t : Tag}
    (read : writtenContent nested variant bytes = some (t, rest)) :
    Spellcraft.littleEndian 4 variant ++ bytes = t.toBytes ++ rest := by
  match variant with
  | 0 =>
    refine littleEndian_tagged (fun n fits => ?_) read
    have small : n < 2 ^ 8 := fits
    rw [Tag.toBytes, UInt8.toUInt8_toInt8, UInt8.toNat_ofNat', Nat.mod_eq_of_lt small]
  | 1 => exact int32_canonical.tagged (fun _ => rfl) read
  | 2 =>
    refine littleEndian_tagged (fun n fits => ?_) read
    have small : n < 2 ^ 64 := fits
    rw [Tag.toBytes, UInt64.toUInt64_toInt64, UInt64.toNat_ofNat', Nat.mod_eq_of_lt small]
  | 3 =>
    refine littleEndian_tagged (fun n fits => ?_) read
    have small : n < 2 * BinaryFormat.single.signWeight := fits
    rw [Tag.toBytes, Binary.ofBits]
    dsimp only
    rw [Nat.mod_eq_of_lt small]
  | 4 =>
    refine littleEndian_tagged (fun n fits => ?_) read
    have small : n < 2 * BinaryFormat.double.signWeight := fits
    rw [Tag.toBytes, Binary.ofBits]
    dsimp only
    rw [Nat.mod_eq_of_lt small]
  | 5 => exact text_canonical.tagged (fun _ => rfl) read
  | 6 =>
    refine int32_canonical.counted.tagged (fun words => ?_) read
    rw [Tag.toBytes, List.append_assoc]
  | 7 =>
    rw [writtenContent, if_pos rfl] at read
    exact inner.entries.tagged (fun _ => rfl) read
  | n + 8 => cases read

theorem writtenTag_canonical (depth : Nat) : Canonical (writtenTag depth) Tag.toBytes := by
  induction depth with
  | zero =>
    constructor
    intro bytes t rest read
    cases read
  | succ depth ih =>
    constructor
    intro bytes t rest read
    rw [writtenTag] at read
    dsimp only at read
    split at read
    · rename_i variant after number
      rw [← writtenContent_canonical ih read]
      exact (littleEndian_canonical number).1
    · cases read

theorem written_canonical (depth : Nat) : Canonical (written depth) Compound.toBytes :=
  (writtenTag_canonical depth).entries

end ByteReader

namespace Compound

/-- The bytes that are read start with what they say. -/
theorem written?_canonical {bytes : List UInt8} {w : Compound} (read : written? bytes = some w) :
    w.toBytes <+: bytes := by
  obtain ⟨⟨c, rest⟩, taken, rfl⟩ := Option.map_eq_some_iff.mp read
  exact ⟨rest, ((ByteReader.written_canonical _).taken taken).symm⟩

/-- The front of an encoding is read only if it is all of it. -/
theorem written?_front {c w : Compound} (countable : c.toBytes.length < byteLimit)
    {front : List UInt8} (part : front <+: c.toBytes) (read : written? front = some w) :
    front = c.toBytes := by
  have starts : w.toBytes <+: front := written?_canonical read
  -- reading all of `c` finds `w` in front of it, and takes back `c`
  obtain ⟨after, whole⟩ := starts.trans part
  have small : w.toBytes.length < byteLimit :=
    Nat.lt_of_le_of_lt (starts.trans part).length_le countable
  have same : some w = some c := by
    rw [← written?_append small after, whole, ← written?_append countable [], List.append_nil]
  cases same
  exact part.eq_of_length_le starts.length_le

theorem ofBytes?_front {c : Compound} (countable : c.toBytes.length < byteLimit)
    {front : List UInt8} (part : front <+: c.toBytes) (short : front ≠ c.toBytes) :
    ofBytes? front = none := by
  rw [ofBytes?_eq]
  cases read : written? front with
  | none => rfl
  | some w => exact absurd (written?_front countable part read) short

/-- A compound with distinct names, whose bytes can be counted like those of any compound in memory,
    is read back from its encoding, whatever follows, and no encoding that was cut short is read.
    Conversely, bytes that are read start with the encoding of what is written there, and if no
    name repeats in that, it is the result. -/
theorem bytes_canonical :
    (∀ c : Compound, c.Distinct → c.toBytes.length < byteLimit →
      (∀ rest, ofBytes? (c.toBytes ++ rest) = some c) ∧
      ∀ front, front <+: c.toBytes → front ≠ c.toBytes →
        ofBytes? front = none ∧ Parameters.ofBytes front = .error .malformedBytes) ∧
    ∀ bytes c, ofBytes? bytes = some c → ∃ w,
      written? bytes = some w ∧ w.toBytes <+: bytes ∧ c = w.merged ∧
        (w.Distinct → c.toBytes <+: bytes) := by
  constructor
  · intro c distinct countable
    refine ⟨ofBytes?_append distinct countable, fun front part short => ?_⟩
    have refused := ofBytes?_front countable part short
    refine ⟨refused, ?_⟩
    rw [Parameters.ofBytes, refused]
  · intro bytes c read
    rw [ofBytes?_eq] at read
    obtain ⟨w, found, rfl⟩ := Option.map_eq_some_iff.mp read
    have starts := written?_canonical found
    refine ⟨w, found, starts, rfl, fun distinct => ?_⟩
    rw [distinct.merged]
    exact starts

-- a name that was written twice is there once, and would be written once
example : ofBytes? (toBytes [("a", .byte 1), ("a", .byte 2)]) = some [("a", .byte 2)] := rfl

def emberRecord : Compound :=
  [("name", .string "ember"), ("target", .compound [("y", .byte 1), ("x", .byte 2)])]

theorem emberRecord_distinct : emberRecord.Distinct where
  keys := by decide
  inner e member := by
    simp only [emberRecord, List.mem_cons, List.not_mem_nil, or_false] at member
    rcases member with rfl | rfl
    · exact .leaf fun _ => Tag.noConfusion
    · refine .compound (by decide) fun e member => ?_
      simp only [List.mem_cons, List.not_mem_nil, or_false] at member
      rcases member with rfl | rfl <;> exact .leaf fun _ => Tag.noConfusion

theorem bytes_canonical_ember :
    emberRecord.Distinct ∧ emberRecord.toBytes.length < byteLimit ∧
      ofBytes? (emberRecord.toBytes ++ [0]) = some emberRecord ∧
      ofBytes? (emberRecord.toBytes.take 40) = none ∧
      ∃ w, written? (emberRecord.toBytes ++ [0]) = some w ∧ emberRecord = w.merged := by
  have countable : emberRecord.toBytes.length < byteLimit := by decide +kernel
  have short : emberRecord.toBytes.take 40 ≠ emberRecord.toBytes := by decide +kernel
  obtain ⟨forth, back⟩ := bytes_canonical
  obtain ⟨restored, refused⟩ := forth emberRecord emberRecord_distinct countable
  have read := restored [0]
  obtain ⟨w, found, -, same, -⟩ := back _ _ read
  exact ⟨emberRecord_distinct, countable, read,
    (refused _ ⟨_, List.take_append_drop 40 _⟩ short).1, w, found, same⟩

end Compound

end Spellcraft
