import Catwalk.Proofs.Encodings
import Catwalk.Proofs.Listings

/-!
# Packing and parsing

Packing and parsing are each other's inverse. A record that is packed where it fits is parsed back
as the entry's, fields modulo a word, and nothing around it changes; one that does not fit changes
nothing. A record that parses, whatever the bytes, is packed again from what was parsed, to the same
bytes but for its padding (`pack_parse`).
-/

namespace Catwalk

namespace Bytes

theorem overwrite_nil (buffer : Bytes) (offset : Nat) : buffer.overwrite offset [] = buffer := by
  simp only [overwrite, List.take_nil, List.append_nil, List.length_nil, Nat.add_zero,
    List.take_append_drop]

/-- Data that fits changes the bytes that it is written over, and no others. -/
theorem getElem?_overwrite {buffer data : Bytes} {offset : Nat}
    (fits : offset + data.length ≤ buffer.length) (i : Nat) :
    (buffer.overwrite offset data)[i]? =
      if offset ≤ i ∧ i < offset + data.length then data[i - offset]? else buffer[i]? := by
  have whole : data.take (buffer.length - offset) = data := List.take_of_length_le (by omega)
  have front : (buffer.take offset).length = offset := by
    rw [List.length_take]
    omega
  rw [overwrite, whole, List.append_assoc]
  by_cases before : i < offset
  · rw [if_neg (by omega), List.getElem?_append_left (by omega), List.getElem?_take,
      if_pos before]
  · rw [List.getElem?_append_right (by omega), front]
    by_cases inside : i < offset + data.length
    · rw [if_pos (by omega), List.getElem?_append_left (by omega)]
    · rw [if_neg (by omega), List.getElem?_append_right (by omega), List.getElem?_drop]
      congr 1
      omega

end Bytes

namespace Stored

variable {record : Stored} {buffer : Bytes} {offset : Nat}

/-- A record that is written where it fits stands there. -/
private theorem standsAt_overwrite (fits : offset + record.extent ≤ buffer.length)
    (ended : (0 : UInt8) ∉ record.name) :
    record.StandsAt (buffer.overwrite offset record.cell) offset := by
  have row : Row (buffer.overwrite offset ([record].flatMap Stored.cell)) offset [record] :=
    Row.of_overwrite (.inr fits) fun other member => List.mem_singleton.mp member ▸ ended
  rw [List.flatMap_singleton] at row
  exact row.1

/-- The bytes of a record: those that matter, and then zeros. -/
private theorem getElem?_cell (record : Stored) {i : Nat} (inside : i < record.extent) :
    record.cell[i]? =
      if i < record.spelling.length then record.spelling[i]? else some 0 := by
  have front : (record.header.bytes ++ record.name).length =
      Record.nameOffset + record.name.length := by
    rw [List.length_append, Header.length_bytes, Record.nameOffset]
  have zero : Record.nameOffset + record.name.length ≤ i → record.cell[i]? = some 0 := by
    intro late
    rw [cell, List.getElem?_append_right (by omega), front, Bytes.zeros,
      List.getElem?_replicate, if_pos (by omega)]
  have length := record.length_spelling
  by_cases early : i < Record.nameOffset + record.name.length
  · rw [if_pos (by omega)]
    exact (List.getElem?_append_left (by omega)).trans
      (List.getElem?_append_left (by omega)).symm
  · rw [zero (by omega)]
    split
    · rw [spelling, List.getElem?_append_right (by omega), front,
        show i - (Record.nameOffset + record.name.length) = 0 by omega]
      rfl
    · rfl

/-- The entry that a record is read as. -/
def entry (record : Stored) : Entry where
  name := Text.decode record.name
  objectType := record.header.objectType.val
  load := record.header.load.val
  exec := record.header.exec.val
  length := record.header.length.val
  attributes := record.header.attributes.val

private theorem header_entry (record : Stored) : record.entry.header = record.header := by
  simp only [entry, Entry.header, Word.ofInt_val]

/-- Writing a record where it stands clears its padding. -/
private theorem StandsAt.getElem?_overwrite (stands : record.StandsAt buffer offset) (i : Nat) :
    (buffer.overwrite offset record.cell)[i]? =
      if offset + record.spelling.length ≤ i ∧ i < offset + record.extent then some 0
      else buffer[i]? := by
  have inside := stands.inside
  have short := record.length_spelling_le
  have size := record.length_cell
  rw [Bytes.getElem?_overwrite (by omega), size]
  by_cases within' : offset ≤ i ∧ i < offset + record.extent
  · rw [if_pos within', record.getElem?_cell (by omega)]
    by_cases early : i - offset < record.spelling.length
    · obtain ⟨tail, split⟩ := stands.spelt
      have there : buffer[i]? = (buffer.drop offset)[i - offset]? := by
        rw [List.getElem?_drop, Nat.add_sub_cancel' within'.1]
      rw [if_pos early, if_neg (by omega), there, ← split, List.getElem?_append_left early]
    · rw [if_neg early, if_pos (by omega)]
  · rw [if_neg within', if_neg (by omega)]

end Stored

namespace Entry

variable {entry : Entry} {buffer raw : Bytes} {offset : Nat}

/-- An entry whose record fits is packed as that record. -/
private theorem pack_of_le (encoded : Text.encode? entry.name = some raw)
    (word : 0 ≤ entry.objectType ∧ entry.objectType < 0x100000000)
    (fits : offset + Record.extent raw.length ≤ buffer.length) :
    entry.pack buffer offset = (buffer.overwrite offset (Stored.cell ⟨entry.header, raw⟩),
      .ok (offset + Record.extent raw.length)) := by
  have room : ¬ (buffer.length : Int) - offset < Record.extent raw.length := by omega
  have record : entry.record raw = ⟨Stored.cell ⟨entry.header, raw⟩, .ok ()⟩ := by
    rw [Entry.record, if_pos word]
    rfl
  unfold pack deposit storedName
  simp only [encoded]
  rw [if_neg room, record]
  rfl

/-- An entry whose record does not fit is not packed. -/
private theorem pack_of_lt (encoded : Text.encode? entry.name = some raw)
    (full : buffer.length < offset + Record.extent raw.length) :
    entry.pack buffer offset = (buffer,
      .error (.overflow (Record.extent raw.length) ((buffer.length : Int) - offset))) := by
  have room : (buffer.length : Int) - offset < Record.extent raw.length := by omega
  unfold pack deposit storedName
  simp only [encoded]
  rw [if_pos room]
  exact Prod.ext (Bytes.overwrite_nil buffer offset) rfl

/-- An object type that is not a word does not go into a record. -/
private theorem pack_of_not_word (encoded : Text.encode? entry.name = some raw)
    (word : ¬ (0 ≤ entry.objectType ∧ entry.objectType < 0x100000000))
    (fits : offset + Record.extent raw.length ≤ buffer.length) :
    (entry.pack buffer offset).2 = .error .layout := by
  have room : ¬ (buffer.length : Int) - offset < Record.extent raw.length := by omega
  unfold pack deposit storedName
  simp only [encoded]
  rw [if_neg room, Entry.record, if_neg word]
  rfl

/-- The header's fields are the entry's, modulo a word. -/
structure HasHeader (entry : Entry) (header : Header) : Prop where
  load : (header.load.val : Int) = entry.load % 0x100000000
  exec : (header.exec.val : Int) = entry.exec % 0x100000000
  length : (header.length.val : Int) = entry.length % 0x100000000
  attributes : (header.attributes.val : Int) = entry.attributes % 0x100000000
  objectType : (header.objectType.val : Int) = entry.objectType % 0x100000000

private theorem hasHeader (entry : Entry) : entry.HasHeader entry.header := by
  have field : ∀ n : Int, ((Word.ofInt n).val : Int) = n % 0x100000000 := by
    intro n
    simp only [Word.ofInt]
    omega
  exact ⟨field _, field _, field _, field _, field _⟩

end Entry

/-- The buffer holds the record of an entry at an offset, and otherwise what another buffer holds.
-/
structure PackedAt (entry : Entry) (raw before after : Bytes) (offset : Nat) : Prop where
  header : ∃ header, Record.header after offset = .ok header ∧ entry.HasHeader header
  nameLength : Record.nameLength after offset = .ok raw.length
  name : Record.name after offset raw.length = Text.decode raw
  length : after.length = before.length
  outside : ∀ i : Nat, i < offset ∨ offset + Record.size raw.length ≤ i → after[i]? = before[i]?

/-- A record that parses at an offset of a buffer, with the header that it has. -/
structure ParsedAt (buffer : Bytes) (offset nameLength : Nat) (header : Header) : Prop where
  header : Record.header buffer offset = .ok header
  inside : offset + Record.size nameLength ≤ buffer.length
  nameSize : (Record.nameBytes buffer offset nameLength).length = nameLength
  ended : (0 : UInt8) ∉ Record.nameBytes buffer offset nameLength
  terminator : buffer[offset + Record.nameOffset + nameLength]? = some 0

/-- Packing an entry where its record fits writes that record and nothing else, unless the object
type is not a word, and packing it elsewhere is refused and writes nothing. A record that parses is
packed again from what was parsed; only its padding may change, to zeros. -/
theorem pack_parse (buffer : Bytes) (offset : Nat) :
    (∀ (entry : Entry) (raw : Bytes), Text.encode? entry.name = some raw →
      (0 : CodePoint) ∉ entry.name →
      (offset + Record.size raw.length ≤ buffer.length →
        if 0 ≤ entry.objectType ∧ entry.objectType < 0x100000000 then
          ∃ (after : Bytes) (next : Nat), entry.pack buffer offset = (after, .ok next) ∧
            (next : Int) = offset + Record.size raw.length ∧
            PackedAt entry raw buffer after offset
        else (entry.pack buffer offset).2 = .error .layout) ∧
      ((buffer.length : Int) < offset + Record.size raw.length →
        entry.pack buffer offset = (buffer, .error
          (.overflow (Record.size raw.length) ((buffer.length : Int) - offset))))) ∧
    ∀ length, Record.nameLength buffer offset = .ok length →
      ∃ header, ParsedAt buffer offset length header ∧
        ∃ (after : Bytes) (next : Nat),
          Entry.pack
            { name := Record.name buffer offset length
              objectType := header.objectType.val
              load := header.load.val
              exec := header.exec.val
              length := header.length.val
              attributes := header.attributes.val } buffer offset = (after, .ok next) ∧
          (next : Int) = offset + Record.size length ∧ after.length = buffer.length ∧
          ∀ i : Nat, after[i]? =
            if offset + Record.nameOffset + length < i ∧ i < next then some 0
            else buffer[i]? := by
  constructor
  · intro entry raw encoded nonzero
    have ended := Text.zero_not_mem_encode nonzero encoded
    rw [Record.size_natCast]
    constructor
    · intro fits
      have fits : offset + Record.extent raw.length ≤ buffer.length := by omega
      split
      case isFalse word => exact Entry.pack_of_not_word encoded word fits
      rename_i word
      have stands : Stored.StandsAt ⟨entry.header, raw⟩ _ offset :=
        Stored.standsAt_overwrite fits ended
      refine ⟨_, _, Entry.pack_of_le encoded word fits, by omega, ⟨_, stands.header,
        entry.hasHeader⟩, stands.nameLength, ?_, Bytes.length_overwrite _ _ _, ?_⟩
      · exact congrArg Text.decode stands.nameBytes
      · intro i elsewhere
        rw [Record.size_natCast] at elsewhere
        have size : (Stored.cell ⟨entry.header, raw⟩).length = Record.extent raw.length :=
          Stored.length_cell _
        rw [Bytes.getElem?_overwrite (by omega), if_neg (by omega)]
    · intro full
      exact Entry.pack_of_lt encoded (by omega)
  · intro length parsed
    obtain ⟨record, stands, rfl⟩ := Stored.exists_standsAt parsed
    have inside : offset + Record.extent record.name.length ≤ buffer.length := stands.inside
    have nameBytes := stands.nameBytes
    have parsedAt : ParsedAt buffer offset record.name.length record.header := by
      obtain ⟨tail, split⟩ := stands.drop_nameOffset
      refine ⟨stands.header, by rw [Record.size_natCast]; omega, by rw [nameBytes],
        by rw [nameBytes]; exact stands.ended, ?_⟩
      rw [← List.getElem?_drop, split, List.getElem?_append_right (Nat.le_refl _), Nat.sub_self]
      rfl
    have small := record.header.objectType.isLt
    have packed : record.entry.pack buffer offset = _ :=
      Entry.pack_of_le (Text.encode?_decode record.name)
      ⟨Int.natCast_nonneg _, Int.ofNat_lt.mpr small⟩ inside
    rw [record.header_entry] at packed
    have named : Record.name buffer offset record.name.length = Text.decode record.name :=
      congrArg Text.decode nameBytes
    refine ⟨record.header, parsedAt, buffer.overwrite offset record.cell,
      offset + Record.extent record.name.length, ?_, ?_, Bytes.length_overwrite _ _ _, ?_⟩
    · rw [named]
      exact packed
    · rw [Record.size_natCast]
      omega
    · intro i
      have padding : offset + (Record.nameOffset + record.name.length + 1) ≤ i ↔
          offset + Record.nameOffset + record.name.length < i := by omega
      rw [stands.getElem?_overwrite, record.length_spelling]
      simp only [padding, Stored.extent]

/-- A record at the end of a buffer, with fields that are cut to words; one that has no room there;
and the first one packed again, over padding that was not clear. -/
theorem pack_parse_of_full_buffer :
    let buffer := List.replicate 28 0xFF
    let entry : Entry := ⟨[0x61], 2, -1, 0x1_0000_0001, 5, 0⟩
    let record : Bytes := [0xFF, 0xFF, 0xFF, 0xFF, 1, 0, 0, 0, 5, 0, 0, 0, 0, 0, 0, 0, 2, 0, 0, 0,
      0x61, 0]
    let packed := [0xFF, 0xFF, 0xFF, 0xFF] ++ record ++ [0, 0]
    entry.pack buffer 4 = (packed, .ok 28) ∧ PackedAt entry [0x61] buffer packed 4 ∧
    entry.pack buffer 8 = (buffer, .error (.overflow 24 20)) ∧
    ParsedAt (record ++ [7, 7]) 0 1 ⟨0xFFFFFFFF, 1, 5, 0, 2⟩ ∧
    Entry.pack ⟨[0x61], 2, 0xFFFFFFFF, 1, 5, 0⟩ (record ++ [7, 7]) 0 =
      (record ++ [0, 0], .ok 24) := by
  intro buffer entry record packed
  have whole : entry.pack buffer 4 = (packed, .ok 28) :=
    (Entry.pack_of_le (show Text.encode? [0x61] = some [0x61] by decide) (by decide)
      (by decide)).trans
      (congrArg (·, Except.ok 28) (by decide +kernel))
  have again : Entry.pack ⟨[0x61], 2, 0xFFFFFFFF, 1, 5, 0⟩ (record ++ [7, 7]) 0 =
      (record ++ [0, 0], .ok 24) :=
    (Entry.pack_of_le (show Text.encode? [0x61] = some [0x61] by decide) (by decide)
      (by decide)).trans
      (congrArg (·, Except.ok 24) (by decide +kernel))
  obtain ⟨first, -⟩ := (pack_parse buffer 4).1 entry [0x61] (by decide) (by decide)
  obtain ⟨-, second⟩ := (pack_parse buffer 8).1 entry [0x61] (by decide) (by decide)
  obtain ⟨after, next, is, -, packedAt⟩ := first (by decide)
  obtain ⟨header, parsedAt, -⟩ := (pack_parse (record ++ [7, 7]) 0).2 1 (by rfl)
  have parsed : Record.header (record ++ [7, 7]) 0 = .ok ⟨0xFFFFFFFF, 1, 5, 0, 2⟩ := by rfl
  have same : after = packed := congrArg Prod.fst (is.symm.trans whole)
  have same' : header = ⟨0xFFFFFFFF, 1, 5, 0, 2⟩ :=
    Except.ok.inj (parsedAt.header.symm.trans parsed)
  exact ⟨whole, same ▸ packedAt, second (by decide), same' ▸ parsedAt, again⟩

end Catwalk
