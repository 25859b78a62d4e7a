import Catwalk.Record

/-!
# Records in a buffer

A record stands at an offset of a buffer when the bytes there spell its header, its name and a zero
byte, and the buffer does not end before the record does. Whatever parses stands there
(`exists_standsAt`), what stands there parses (`StandsAt.header`, `StandsAt.nameLength`), and a row
of records is what `Record.check` accepts (`check_eq_ok_iff`). Only the bytes up to the zero byte
matter, so that rows survive what happens to a buffer before and behind them.
-/

namespace Catwalk

/-- A record as it is stored. -/
structure Stored where
  header : Header
  name : Bytes
deriving DecidableEq, Repr

namespace Word

theorem ofBytes_of_bytes {w : Word} {a b c d : UInt8} (spelt : w.bytes = [a, b, c, d]) :
    ofBytes a b c d = w := by
  have bound := w.isLt
  simp only [bytes, List.cons.injEq, and_true] at spelt
  obtain ⟨rfl, rfl, rfl, rfl⟩ := spelt
  apply Fin.ext
  simp only [ofBytes, UInt8.toNat_ofNat']
  omega

/-- Four bytes are some word's. -/
private theorem exists_bytes (bytes : Bytes) (long : 4 ≤ bytes.length) :
    ∃ (w : Word) (rest : Bytes), bytes = w.bytes ++ rest := by
  match bytes with
  | a :: b :: c :: d :: rest => exact ⟨.ofBytes a b c d, rest, by rw [bytes_ofBytes]; rfl⟩
  | [] | [_] | [_, _] | [_, _, _] => simp at long

end Word

namespace Record

private theorem header?_bytes (header : Header) (tail : Bytes) :
    header? (header.bytes ++ tail) = some header := by
  simp only [Header.bytes, Word.bytes, List.cons_append, List.nil_append, header?]
  rw [Word.ofBytes_of_bytes (w := header.load) rfl, Word.ofBytes_of_bytes (w := header.exec) rfl,
    Word.ofBytes_of_bytes (w := header.length) rfl,
    Word.ofBytes_of_bytes (w := header.attributes) rfl,
    Word.ofBytes_of_bytes (w := header.objectType) rfl]

/-- Twenty bytes are some header's. -/
private theorem exists_header (bytes : Bytes) (long : nameOffset ≤ bytes.length) :
    ∃ header : Header, bytes = header.bytes ++ bytes.drop nameOffset := by
  simp only [nameOffset] at long
  obtain ⟨load, b1, rfl⟩ := Word.exists_bytes bytes (by omega)
  simp only [List.length_append, Word.length_bytes] at long
  obtain ⟨exec, b2, rfl⟩ := Word.exists_bytes b1 (by omega)
  simp only [List.length_append, Word.length_bytes] at long
  obtain ⟨length, b3, rfl⟩ := Word.exists_bytes b2 (by omega)
  simp only [List.length_append, Word.length_bytes] at long
  obtain ⟨attributes, b4, rfl⟩ := Word.exists_bytes b3 (by omega)
  simp only [List.length_append, Word.length_bytes] at long
  obtain ⟨objectType, b5, rfl⟩ := Word.exists_bytes b4 (by omega)
  exact ⟨⟨load, exec, length, attributes, objectType⟩, rfl⟩

end Record

namespace Stored

/-- The size of the record. -/
def extent (record : Stored) : Nat := Record.extent record.name.length

/-- The record's bytes as far as they matter. -/
def spelling (record : Stored) : Bytes := record.header.bytes ++ record.name ++ [0]

theorem length_spelling (record : Stored) :
    record.spelling.length = Record.nameOffset + record.name.length + 1 := by
  simp only [spelling, List.length_append, Header.length_bytes, List.length_singleton,
    Record.nameOffset]

theorem length_spelling_le (record : Stored) : record.spelling.length ≤ record.extent := by
  rw [length_spelling]
  exact Record.nameOffset_lt_extent record.name.length

theorem extent_pos (record : Stored) : 0 < record.extent := by
  have := record.length_spelling_le
  rw [length_spelling] at this
  omega

/-- The record stands at an offset of a buffer. -/
structure StandsAt (record : Stored) (buffer : Bytes) (offset : Nat) : Prop where
  spelt : record.spelling <+: buffer.drop offset
  ended : (0 : UInt8) ∉ record.name
  inside : offset + record.extent ≤ buffer.length

namespace StandsAt

variable {record : Stored} {buffer other : Bytes} {offset place : Nat}

theorem header (stands : record.StandsAt buffer offset) :
    Record.header buffer offset = .ok record.header := by
  obtain ⟨tail, split⟩ := stands.spelt
  rw [Record.header, ← split, spelling, List.append_assoc, List.append_assoc,
    Record.header?_bytes]

/-- What follows the header. -/
theorem drop_nameOffset (stands : record.StandsAt buffer offset) :
    ∃ tail, buffer.drop (offset + Record.nameOffset) = record.name ++ 0 :: tail := by
  obtain ⟨tail, split⟩ := stands.spelt
  refine ⟨tail, ?_⟩
  rw [← List.drop_drop, ← split, spelling, List.append_assoc, List.append_assoc,
    List.drop_left' (show record.header.bytes.length = Record.nameOffset from rfl)]
  rfl

theorem nameBytes (stands : record.StandsAt buffer offset) :
    Record.nameBytes buffer offset record.name.length = record.name := by
  obtain ⟨tail, split⟩ := stands.drop_nameOffset
  rw [Record.nameBytes, Bytes.slice, split, List.take_left]

theorem nameLength (stands : record.StandsAt buffer offset) :
    Record.nameLength buffer offset = .ok record.name.length := by
  obtain ⟨tail, split⟩ := stands.drop_nameOffset
  have inside := stands.inside
  have fits := Record.nameOffset_lt_extent record.name.length
  have found : (buffer.drop (offset + Record.nameOffset)).findIdx? (· == 0)
      = some record.name.length := by
    rw [split, List.findIdx?_append, List.findIdx?_eq_none_iff.mpr]
    · simp [List.findIdx?_cons]
    · intro byte member
      have other : byte ≠ 0 := fun zero => stands.ended (zero ▸ member)
      simpa using other
  unfold extent at inside
  unfold Record.nameLength
  simp only [found]
  rw [if_neg (by omega), if_neg (by omega)]

/-- A record stands in every buffer that begins with the same bytes up to its end. -/
private theorem of_take {size : Nat} (stands : record.StandsAt buffer offset)
    (covered : offset + record.extent ≤ size) (same : other.take size = buffer.take size)
    (long : size ≤ other.length) : record.StandsAt other offset := by
  refine ⟨?_, stands.ended, by omega⟩
  have short := record.length_spelling_le
  have spelt : record.spelling <+: (buffer.drop offset).take (size - offset) :=
    List.prefix_take_iff.mpr ⟨stands.spelt, by omega⟩
  rw [← List.drop_take, ← same, List.drop_take] at spelt
  exact spelt.trans (List.take_prefix _ _)

end StandsAt

/-- Whatever has a name of some length is a record. -/
theorem exists_standsAt {buffer : Bytes} {offset length : Nat}
    (parsed : Record.nameLength buffer offset = .ok length) :
    ∃ record : Stored, record.StandsAt buffer offset ∧ record.name.length = length := by
  unfold Record.nameLength at parsed
  dsimp only at parsed
  split at parsed
  · cases parsed
  · next start =>
    split at parsed
    · cases parsed
    · next found search =>
      split at parsed
      · cases parsed
      · next inside =>
        cases parsed
        obtain ⟨header, split⟩ := Record.exists_header (buffer.drop offset)
          (by rw [List.length_drop]; omega)
        rw [List.drop_drop] at split
        generalize buffer.drop (offset + Record.nameOffset) = rest at search split
        rw [List.findIdx?_eq_some_iff_getElem] at search
        obtain ⟨short, zero, before⟩ := search
        have size : (rest.take length).length = length := by
          rw [List.length_take]
          omega
        refine ⟨⟨header, rest.take length⟩, ⟨?_, ?_, ?_⟩, size⟩
        · refine ⟨rest.drop (length + 1), ?_⟩
          have zero : rest[length] = 0 := by simpa using zero
          calc header.bytes ++ rest.take length ++ [0] ++ rest.drop (length + 1)
              = header.bytes ++ (rest.take length ++ rest[length] :: rest.drop (length + 1)) := by
                rw [zero, List.append_assoc, List.append_assoc, List.singleton_append]
            _ = buffer.drop offset := by
                rw [← List.drop_eq_getElem_cons short, List.take_append_drop, split]
        · intro member
          obtain ⟨i, bound, is⟩ := List.getElem_of_mem member
          have early : i < length := size ▸ bound
          have nonzero := before i early
          rw [List.getElem_take] at is
          simp [is] at nonzero
        · change offset + Record.extent (rest.take length).length ≤ buffer.length
          rw [size]
          omega

end Stored

/-- Records that stand back to back from an offset on. -/
def Row (buffer : Bytes) : Nat → List Stored → Prop
  | _, [] => True
  | offset, record :: records =>
    record.StandsAt buffer offset ∧ Row buffer (offset + record.extent) records

namespace Row

/-- The size of a row. -/
def extent (records : List Stored) : Nat := (records.map Stored.extent).foldr (· + ·) 0

variable {buffer other : Bytes} {offset : Nat} {records : List Stored}

theorem check (row : Row buffer offset records) :
    Record.check buffer records.length offset = .ok () := by
  induction records generalizing offset with
  | nil => rfl
  | cons record records ih =>
    obtain ⟨stands, rest⟩ := row
    rw [List.length_cons, Record.check, stands.nameLength]
    exact ih rest

theorem of_check {count : Nat} (checked : Record.check buffer count offset = .ok ()) :
    ∃ records, records.length = count ∧ Row buffer offset records := by
  induction count generalizing offset with
  | zero => exact ⟨[], rfl, trivial⟩
  | succ count ih =>
    rw [Record.check] at checked
    cases parsed : Record.nameLength buffer offset with
    | error fault => rw [parsed] at checked; cases checked
    | ok length =>
      rw [parsed] at checked
      obtain ⟨record, stands, size⟩ := Stored.exists_standsAt parsed
      have further : Record.check buffer count (offset + Record.extent length) = .ok () := checked
      obtain ⟨records, number, row⟩ := ih further
      refine ⟨record :: records, by simp [number], stands, ?_⟩
      rw [Stored.extent, size]
      exact row

/-- What `Record.check` accepts is a row. -/
theorem check_eq_ok_iff {count : Nat} :
    Record.check buffer count offset = .ok () ↔
      ∃ records, records.length = count ∧ Row buffer offset records := by
  constructor
  · exact of_check
  · rintro ⟨records, rfl, row⟩
    exact row.check

/-- A row stands in every buffer that begins with the same bytes up to its end. -/
theorem of_take {size : Nat} (row : Row buffer offset records)
    (covered : offset + extent records ≤ size) (same : other.take size = buffer.take size)
    (long : size ≤ other.length) : Row other offset records := by
  induction records generalizing offset with
  | nil => trivial
  | cons record records ih =>
    simp only [extent, List.map_cons, List.foldr_cons] at covered
    exact ⟨row.1.of_take (by omega) same long, ih row.2 (by simp only [extent]; omega)⟩

/-- Two rows of the same length at the same place are the same. -/
theorem unique {others : List Stored} (left : Row buffer offset records)
    (right : Row buffer offset others) (number : records.length = others.length) :
    records = others := by
  induction records generalizing offset others with
  | nil => exact (List.eq_nil_of_length_eq_zero number.symm).symm
  | cons record records ih =>
    cases others with
    | nil => cases number
    | cons other others =>
      obtain ⟨stands, rest⟩ := left
      obtain ⟨stands', rest'⟩ := right
      have header : record.header = other.header :=
        Except.ok.inj (stands.header.symm.trans stands'.header)
      have length : record.name.length = other.name.length :=
        Except.ok.inj (stands.nameLength.symm.trans stands'.nameLength)
      have name : record.name = other.name := by
        rw [← stands.nameBytes, ← stands'.nameBytes, length]
      have same : record = other := by
        cases record
        cases other
        cases header
        cases name
        rfl
      subst same
      rw [ih rest rest' (Nat.succ.inj number)]

theorem append_iff {more : List Stored} : Row buffer offset (records ++ more) ↔
    Row buffer offset records ∧ Row buffer (offset + extent records) more := by
  induction records generalizing offset with
  | nil => simp [Row, extent]
  | cons record records ih =>
    simp only [List.cons_append, Row, ih, extent, List.map_cons, List.foldr_cons, and_assoc,
      Nat.add_assoc]

end Row

/-- Parses `count` records that stand back to back from `offset` on. -/
def Record.parse (buffer : Bytes) : Nat → Nat → Except Fault (List Stored)
  | 0, _ => .ok []
  | count + 1, offset => do
    let length ← nameLength buffer offset
    let header ← header buffer offset
    let records ← parse buffer count (offset + extent length)
    return ⟨header, nameBytes buffer offset length⟩ :: records

namespace Row

variable {buffer : Bytes} {offset : Nat} {records : List Stored}

/-- A row is parsed as what it is. -/
theorem parse (row : Row buffer offset records) :
    Record.parse buffer records.length offset = .ok records := by
  induction records generalizing offset with
  | nil => rfl
  | cons record records ih =>
    obtain ⟨stands, rest⟩ := row
    have further : Record.parse buffer records.length
        (offset + Record.extent record.name.length) = .ok records := ih rest
    rw [List.length_cons, Record.parse]
    simp only [stands.nameLength, stands.header, stands.nameBytes, bind, Except.bind]
    rw [further]
    rfl

end Row

namespace Record

variable {buffer : Bytes} {count offset : Nat} {records : List Stored}

/-- Parsing checks a row on the way. -/
private theorem check_of_parse (parsed : parse buffer count offset = .ok records) :
    check buffer count offset = .ok () := by
  induction count generalizing offset records with
  | zero => rfl
  | succ count ih =>
    rw [parse] at parsed
    rw [check]
    simp only [bind, Except.bind] at parsed ⊢
    cases length : nameLength buffer offset with
    | error fault => simp [length] at parsed
    | ok length' =>
      cases header' : header buffer offset with
      | error fault => simp [length, header'] at parsed
      | ok found =>
        cases rest : parse buffer count (offset + extent length') with
        | error fault => simp [length, header', rest] at parsed
        | ok later => exact ih rest

/-- What is parsed are the records that stand there. -/
theorem parse_eq_ok_iff : parse buffer count offset = .ok records ↔
    records.length = count ∧ Row buffer offset records := by
  constructor
  · intro parsed
    obtain ⟨others, rfl, row⟩ := Row.check_eq_ok_iff.mp (check_of_parse parsed)
    obtain rfl := Except.ok.inj (parsed.symm.trans row.parse)
    exact ⟨rfl, row⟩
  · rintro ⟨rfl, row⟩
    exact row.parse

end Record

end Catwalk
