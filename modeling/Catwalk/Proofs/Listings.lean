import Catwalk.Reader
import Catwalk.Proofs.Records

/-!
# Answers from a listing

What `ReadCall.fill` deposits when every entry of the listing can be stored: the records of the
entries that match, from the cursor on and as far as they fit, and the cursor behind those entries
(`fill_cases`). It overflows only when the first entry to be deposited does not fit.
-/

namespace Catwalk

/-! ## Records of entries -/

namespace Stored

/-- The record's bytes with the zero bytes at its end. -/
def cell (record : Stored) : Bytes :=
  record.header.bytes ++ record.name ++
    Bytes.zeros (record.extent - Record.nameOffset - record.name.length)

theorem length_cell (record : Stored) : record.cell.length = record.extent := by
  have fits := record.length_spelling_le
  rw [length_spelling] at fits
  simp only [cell, List.length_append, Header.length_bytes, Bytes.zeros, List.length_replicate,
    Record.nameOffset] at fits ⊢
  omega

private theorem spelling_prefix_cell (record : Stored) : record.spelling <+: record.cell := by
  have fits := record.length_spelling_le
  rw [length_spelling] at fits
  obtain ⟨n, more⟩ : ∃ n, record.extent - Record.nameOffset - record.name.length = n + 1 :=
    ⟨record.extent - Record.nameOffset - record.name.length - 1, by omega⟩
  refine ⟨Bytes.zeros n, ?_⟩
  rw [spelling, cell, more, List.append_assoc]
  rfl

end Stored

theorem Row.length_cells (records : List Stored) :
    (records.flatMap Stored.cell).length = Row.extent records := by
  induction records with
  | nil => rfl
  | cons record records ih =>
    rw [List.flatMap_cons, List.length_append, ih, record.length_cell]
    rfl

/-- Records stand where their bytes do. -/
theorem Row.of_cells {buffer : Bytes} {offset : Nat} {records : List Stored}
    (spelt : records.flatMap Stored.cell <+: buffer.drop offset)
    (ended : ∀ record ∈ records, (0 : UInt8) ∉ record.name) : Row buffer offset records := by
  induction records generalizing offset with
  | nil => trivial
  | cons record records ih =>
    have long := spelt.length_le
    rw [Row.length_cells, List.length_drop, Row.extent, List.map_cons, List.foldr_cons] at long
    have positive := record.extent_pos
    rw [List.flatMap_cons] at spelt
    refine ⟨⟨?_, ended record List.mem_cons_self, by omega⟩, ih ?_ ?_⟩
    · exact record.spelling_prefix_cell.trans ((List.prefix_append _ _).trans spelt)
    · obtain ⟨tail, split⟩ := spelt
      refine ⟨tail, ?_⟩
      rw [← List.drop_drop, ← split, List.append_assoc, List.drop_left' record.length_cell]
    · exact fun other member => ended other (List.mem_cons_of_mem _ member)

/-- Records that are written where they fit stand there. -/
theorem Row.of_overwrite {buffer : Bytes} {offset : Nat} {records : List Stored}
    (fits : records = [] ∨ offset + Row.extent records ≤ buffer.length)
    (ended : ∀ record ∈ records, (0 : UInt8) ∉ record.name) :
    Row (buffer.overwrite offset (records.flatMap Stored.cell)) offset records := by
  rcases fits with rfl | fits
  · trivial
  · rw [← Row.length_cells] at fits
    exact Row.of_cells (List.prefix_iff_eq_take.mpr (Bytes.slice_overwrite fits).symm) ended

namespace Entry

/-- The entry's record as it is stored. -/
def stored (entry : Entry) : Stored := ⟨entry.header, (Text.encode? entry.name).getD []⟩

/-- The entry has a record, whose name is read back as the entry's. -/
structure Storable (entry : Entry) : Prop where
  encoded : Text.encode? entry.name = some entry.stored.name
  ended : (0 : UInt8) ∉ entry.stored.name
  decoded : Text.decode entry.stored.name = entry.name
  objectType : 0 ≤ entry.objectType ∧ entry.objectType < 0x100000000

/-- The entry has a record. -/
structure Packable (entry : Entry) : Prop where
  encoded : Text.encode? entry.name = some entry.stored.name
  objectType : 0 ≤ entry.objectType ∧ entry.objectType < 0x100000000

instance decidablePackable (entry : Entry) : Decidable entry.Packable :=
  decidable_of_iff (Text.encode? entry.name = some entry.stored.name ∧
      0 ≤ entry.objectType ∧ entry.objectType < 0x100000000)
    ⟨fun both => ⟨both.1, both.2⟩, fun packable => ⟨packable.encoded, packable.objectType⟩⟩

variable {entry : Entry}

theorem Storable.packable (storable : entry.Storable) : entry.Packable :=
  ⟨storable.encoded, storable.objectType⟩

theorem Packable.storedName (packable : entry.Packable) :
    entry.storedName = .ok entry.stored.name := by
  rw [Entry.storedName, packable.encoded]

private theorem Packable.record (packable : entry.Packable) :
    entry.record entry.stored.name = ⟨entry.stored.cell, .ok ()⟩ := by
  rw [Entry.record, if_pos packable.objectType]
  rfl

/-- What is written has a record. -/
private theorem packable_of_record {raw : Bytes} (named : entry.storedName = .ok raw)
    (written : (entry.record raw).result = .ok ()) : entry.Packable := by
  constructor
  · unfold storedName at named
    unfold stored
    cases encoded : Text.encode? entry.name with
    | none =>
      rw [encoded] at named
      cases named
    | some bytes => rfl
  · refine Decidable.byContradiction fun outside => ?_
    rw [Entry.record, if_neg outside] at written
    cases written

/-- The entries that match a pattern. -/
def listed (pattern : Option Text) (entries : List Entry) : List Entry :=
  entries.filter fun entry => Pattern.matchesName pattern entry.name

private theorem listed_cons_of_matched {pattern : Option Text} {entries : List Entry}
    (matched : Pattern.matchesName pattern entry.name = true) :
    listed pattern (entry :: entries) = entry :: listed pattern entries :=
  List.filter_cons_of_pos matched

private theorem listed_cons_of_unmatched {pattern : Option Text} {entries : List Entry}
    (unmatched : ¬ Pattern.matchesName pattern entry.name = true) :
    listed pattern (entry :: entries) = listed pattern entries :=
  List.filter_cons_of_neg unmatched

/-- The records of entries. -/
def records (entries : List Entry) : List Stored := entries.map Entry.stored

end Entry

/-! ## Depositing records -/

namespace ReadCall

open Entry

/-- A batch is cut where its records no longer fit. The entry behind the cut, if there is one,
matches and has no room. -/
structure Cut (pattern : Option Text) (room : Int) (batch seen rest : List Entry) : Prop where
  split : batch = seen ++ rest
  fits : listed pattern seen = [] ∨ (Row.extent (records (listed pattern seen)) : Int) ≤ room
  full : ∀ next later, rest = next :: later → Pattern.matchesName pattern next.name = true ∧
    room < Row.extent (records (listed pattern seen)) + next.stored.extent

/-- An entry that does not match may stand in front. -/
private theorem Cut.cons_unmatched {pattern : Option Text} {room : Int} {entry : Entry}
    {batch seen rest : List Entry} (cut : Cut pattern room batch seen rest)
    (unmatched : ¬ Pattern.matchesName pattern entry.name = true) :
    Cut pattern room (entry :: batch) (entry :: seen) rest := by
  refine ⟨by rw [cut.split, List.cons_append], ?_, ?_⟩
  · rw [listed_cons_of_unmatched unmatched]
    exact cut.fits
  · rw [listed_cons_of_unmatched unmatched]
    exact cut.full

/-- An entry that matches may stand in front if there is room for its record. -/
private theorem Cut.cons_matched {pattern : Option Text} {room : Int} {entry : Entry}
    {batch seen rest : List Entry} (cut : Cut pattern (room - entry.stored.extent) batch seen rest)
    (found : Pattern.matchesName pattern entry.name = true)
    (fits : (entry.stored.extent : Int) ≤ room) :
    Cut pattern room (entry :: batch) (entry :: seen) rest := by
  have extent : Row.extent (records (listed pattern (entry :: seen))) =
      entry.stored.extent + Row.extent (records (listed pattern seen)) := by
    rw [listed_cons_of_matched found]
    rfl
  refine ⟨by rw [cut.split, List.cons_append], .inr ?_, ?_⟩
  · rw [extent]
    rcases cut.fits with none' | more
    · simp only [none', records, Row.extent, List.map_nil, List.foldr_nil]
      omega
    · omega
  · intro next later behind
    obtain ⟨matched, full⟩ := cut.full next later behind
    rw [extent]
    exact ⟨matched, by omega⟩

/-- Gathering ends where the batch is cut, and overflows if it is to be cut before its first entry
that matches. -/
private theorem gather_cases (pattern : Option Text) {entries : List Entry}
    (packable : ∀ entry ∈ entries, entry.Packable) (room : Int) (index count : Nat) :
    (∃ seen rest, Cut pattern room entries seen rest ∧
      (rest ≠ [] → count + (listed pattern seen).length ≠ 0) ∧
      gather pattern entries room index count =
        ⟨(records (listed pattern seen)).flatMap Stored.cell,
          .ok (count + (listed pattern seen).length, index + seen.length)⟩) ∨
    ∃ seen entry rest, entries = seen ++ entry :: rest ∧ listed pattern seen = [] ∧
      Pattern.matchesName pattern entry.name = true ∧ count = 0 ∧ room < entry.stored.extent ∧
      gather pattern entries room index count = .refuse (.overflow entry.stored.extent room) := by
  induction entries generalizing room index count with
  | nil => exact .inl ⟨[], [], ⟨rfl, .inl rfl, nofun⟩, fun more => absurd rfl more, rfl⟩
  | cons entry entries ih =>
    have others := fun other member => packable other (List.mem_cons_of_mem entry member)
    have here := packable entry List.mem_cons_self
    unfold gather
    by_cases found : Pattern.matchesName pattern entry.name = true
    · rw [if_pos found, here.storedName]
      dsimp only
      by_cases full : room < entry.stored.extent
      · have full' : room < Record.extent entry.stored.name.length := full
        rw [if_pos full']
        by_cases nothing : count = 0
        · rw [if_pos nothing]
          exact .inr ⟨[], entry, entries, rfl, rfl, found, nothing, full, rfl⟩
        · rw [if_neg nothing]
          refine .inl ⟨[], entry :: entries, ⟨rfl, .inl rfl, ?_⟩, fun _ => nothing, rfl⟩
          rintro _ _ ⟨⟩
          refine ⟨found, ?_⟩
          change room < (0 : Nat) + (entry.stored.extent : Int)
          omega
      · have fits : ¬ room < Record.extent entry.stored.name.length := full
        rw [if_neg fits, here.record]
        dsimp only
        rcases ih others (room - Record.extent entry.stored.name.length) (index + 1)
            (count + 1) with
          ⟨seen, rest, cut, some', gathered⟩ | ⟨-, -, -, -, -, -, nothing, -⟩
        · have cons : records (listed pattern (entry :: seen)) =
              entry.stored :: records (listed pattern seen) := by
            rw [listed_cons_of_matched found]
            rfl
          refine .inl ⟨entry :: seen, rest, cut.cons_matched found (Int.not_lt.mp full), ?_, ?_⟩
          · intro _
            rw [listed_cons_of_matched found, List.length_cons]
            omega
          · rw [gathered, cons, listed_cons_of_matched found, List.flatMap_cons, List.length_cons,
              List.length_cons]
            simp only [Deposit.after, Nat.add_assoc, Nat.add_comm 1]
        · cases nothing
    · rw [if_neg found]
      rcases ih others room (index + 1) count with
        ⟨seen, rest, cut, some', gathered⟩ | ⟨seen, other, rest, split, unlisted, overflow⟩
      · refine .inl ⟨entry :: seen, rest, cut.cons_unmatched found, ?_, ?_⟩
        · rwa [listed_cons_of_unmatched found]
        · rw [listed_cons_of_unmatched found, gathered, List.length_cons]
          simp only [Nat.add_assoc, Nat.add_comm 1]
      · refine .inr ⟨entry :: seen, other, rest, by rw [split, List.cons_append], ?_, overflow⟩
        rw [listed_cons_of_unmatched found, unlisted]

/-- The records of entries stand where a call deposits them if they fit. -/
theorem row_of_fits (call : ReadCall) {entries : List Entry}
    (fits : entries = [] ∨ (Row.extent (records entries) : Int) ≤ call.room)
    (ended : ∀ entry ∈ entries, (0 : UInt8) ∉ entry.stored.name) :
    Row (call.buffer.overwrite call.offset ((records entries).flatMap Stored.cell)) call.offset
      (records entries) := by
  refine Row.of_overwrite ?_ fun record member => ?_
  · refine fits.imp (fun none' => by rw [none']; rfl) fun fits => ?_
    unfold room at fits
    omega
  · obtain ⟨entry, found, rfl⟩ := List.mem_map.mp member
    exact ended entry found

/-- Whatever else is in the listing: gathering that does not fail has deposited the records of
entries that have one. -/
private theorem gather_of_ok (pattern : Option Text) {entries : List Entry} {room : Int}
    {index count : Nat} {counted : Nat × Nat}
    (ok : (gather pattern entries room index count).result = .ok counted) :
    ∃ found : List Entry, found ⊆ entries ∧ (∀ entry ∈ found, entry.Packable) ∧
      (found = [] ∨ (Row.extent (records found) : Int) ≤ room) ∧
      counted.1 = count + found.length ∧
      (gather pattern entries room index count).bytes =
        (records found).flatMap Stored.cell := by
  induction entries generalizing room index count with
  | nil =>
    cases ok
    exact ⟨[], by simp, by simp, .inl rfl, rfl, rfl⟩
  | cons entry entries ih =>
    unfold gather at ok ⊢
    by_cases matched : Pattern.matchesName pattern entry.name = true
    · simp only [if_pos matched] at ok ⊢
      cases named : entry.storedName with
      | error fault =>
        simp only [named] at ok
        cases ok
      | ok raw =>
        simp only [named] at ok ⊢
        by_cases full : room < Record.extent raw.length
        · simp only [if_pos full] at ok ⊢
          by_cases nothing : count = 0
          · simp only [if_pos nothing] at ok
            cases ok
          · simp only [if_neg nothing] at ok ⊢
            cases ok
            exact ⟨[], by simp, by simp, .inl rfl, rfl, rfl⟩
        · simp only [if_neg full] at ok ⊢
          cases written : (entry.record raw).result with
          | error fault =>
            simp only [written] at ok
            cases ok
          | ok =>
            simp only [written] at ok ⊢
            have packable := Entry.packable_of_record named written
            obtain rfl : entry.stored.name = raw := by
              simpa [packable.storedName] using named
            obtain ⟨found, inside, all, fits, number, bytes⟩ := ih ok
            refine ⟨entry :: found, ?_, ?_, .inr ?_, ?_, ?_⟩
            · exact List.cons_subset_cons entry inside
            · exact List.forall_mem_cons.mpr ⟨packable, all⟩
            · change ((entry.stored.extent + Row.extent (records found) : Nat) : Int) ≤ room
              have own : (entry.stored.extent : Int) ≤ room := Int.not_lt.mp full
              have same : entry.stored.extent = Record.extent entry.stored.name.length := rfl
              rcases fits with rfl | fits
              · simpa [records, Row.extent] using own
              · omega
            · rw [number, List.length_cons]
              omega
            · simp [Deposit.after, bytes, packable.record, records]
    · simp only [if_neg matched] at ok ⊢
      obtain ⟨found, inside, rest⟩ := ih ok
      exact ⟨found, List.subset_cons_of_subset entry inside, rest⟩

/-- The records that an answer deposits and counts are those of entries. -/
theorem exists_of_fill (call : ReadCall) {listing : List Entry} {batch : Batch}
    {fresh : List Stored} (ended : ∀ entry ∈ listing, (0 : UInt8) ∉ entry.stored.name)
    (result : (call.fill listing).result = .ok batch) (number : fresh.length = batch.count)
    (row : Row ((call.fill listing).into call.buffer call.offset) call.offset fresh) :
    ∀ record ∈ fresh, ∃ entry ∈ listing, entry.Packable ∧ entry.stored = record := by
  unfold fill at result row
  by_cases before : call.cursor < 0
  · rw [if_pos before] at result
    cases result
  · rw [if_neg before] at result row
    dsimp only at result row
    cases gathered : (gather call.pattern ((listing.drop call.cursor.toNat).take
      call.maxEntries.toNat) call.room call.cursor.toNat 0).result with
    | error fault =>
      rw [gathered] at result
      cases result
    | ok counted =>
      rw [gathered] at result
      cases result
      obtain ⟨found, inside, packable, fits, counts, bytes⟩ := gather_of_ok call.pattern gathered
      have listed : ∀ entry ∈ found, entry ∈ listing := fun entry member =>
        List.mem_of_mem_drop (List.mem_of_mem_take (inside member))
      have deposited := call.row_of_fits fits fun entry member => ended entry (listed entry member)
      unfold Deposit.into at row
      rw [bytes] at row
      have same := row.unique deposited (by simp [number, counts, records])
      intro record member
      rw [same] at member
      obtain ⟨entry, own, rfl⟩ := List.mem_map.mp member
      exact ⟨entry, listed entry own, packable entry own, rfl⟩

/-- The cursor in front of an entry, or behind the last of them. -/
def cursorAt (listing : List Entry) (index : Nat) : Int :=
  if listing.length ≤ index then cursorEnd else index

/-- An answer from a cursor on deposits the records of a batch as far as they fit, or overflows if
not one does. -/
theorem fill_of_batch (call : ReadCall) {listing : List Entry}
    (packable : ∀ entry ∈ listing, entry.Packable) (start : 0 ≤ call.cursor) :
    let batch := (listing.drop call.cursor.toNat).take call.maxEntries.toNat
    (∃ seen rest, Cut call.pattern call.room batch seen rest ∧
      (rest ≠ [] → listed call.pattern seen ≠ []) ∧
      call.fill listing =
        ⟨(records (listed call.pattern seen)).flatMap Stored.cell,
          .ok ⟨(listed call.pattern seen).length,
            cursorAt listing (call.cursor.toNat + seen.length)⟩⟩) ∨
    ∃ seen entry rest, batch = seen ++ entry :: rest ∧ listed call.pattern seen = [] ∧
      Pattern.matchesName call.pattern entry.name = true ∧ call.room < entry.stored.extent ∧
      call.fill listing = .refuse (.overflow entry.stored.extent call.room) := by
  intro batch
  have covered : ∀ entry ∈ batch, entry ∈ listing := fun entry member =>
    List.mem_of_mem_drop (List.mem_of_mem_take member)
  unfold fill
  rw [if_neg (by omega)]
  dsimp only
  rcases gather_cases call.pattern (fun entry member => packable entry (covered entry member))
      call.room call.cursor.toNat 0 with
    ⟨seen, rest, cut, some', gathered⟩ |
      ⟨seen, entry, rest, split, unlisted, matched, -, full, overflow⟩
  · refine .inl ⟨seen, rest, cut, ?_, ?_⟩
    · intro more none'
      rw [none'] at some'
      exact some' more rfl
    · rw [gathered, Nat.zero_add]
      rfl
  · refine .inr ⟨seen, entry, rest, split, unlisted, matched, full, ?_⟩
    rw [overflow]
    rfl

/-- The entries of a listing that a cursor has not passed. -/
def Unread (listing : List Entry) (cursor : Int) (unread : List Entry) : Prop :=
  if cursor = cursorEnd then unread = []
  else 0 ≤ cursor ∧ listing.drop cursor.toNat = unread

/-- An answer deposits the records of the next entries that match, and its cursor has passed these
entries; or it overflows because not one record fits. -/
theorem fill_cases (call : ReadCall) {listing unread : List Entry}
    (packable : ∀ entry ∈ listing, entry.Packable) (looks : 1 ≤ call.maxEntries)
    (more : call.cursor ≠ cursorEnd) (left : Unread listing call.cursor unread) :
    (∃ seen rest next, unread = seen ++ rest ∧ (rest ≠ [] → seen ≠ []) ∧
      (listed call.pattern seen = [] ∨
        (Row.extent (records (listed call.pattern seen)) : Int) ≤ call.room) ∧
      (next ≠ cursorEnd → rest ≠ []) ∧ Unread listing next rest ∧
      call.fill listing =
        ⟨(records (listed call.pattern seen)).flatMap Stored.cell,
          .ok ⟨(listed call.pattern seen).length, next⟩⟩) ∨
    ∃ entry ∈ listed call.pattern listing, call.room < entry.stored.extent ∧
      call.fill listing = .refuse (.overflow entry.stored.extent call.room) := by
  rw [Unread, if_neg more] at left
  obtain ⟨start, dropped⟩ := left
  have looks' : call.maxEntries.toNat ≠ 0 := by omega
  have batch := fill_of_batch call packable start
  rw [dropped] at batch
  rcases batch with ⟨seen, short, ⟨split, fits, -⟩, some', filled⟩ |
    ⟨seen, entry, rest, split, -, matched, full, overflow⟩
  · left
    generalize later : short ++ unread.drop call.maxEntries.toNat = rest
    have whole : unread = seen ++ rest := by
      rw [← later, ← List.append_assoc, ← split, List.take_append_drop]
    have behind : listing.drop (call.cursor.toNat + seen.length) = rest := by
      rw [← List.drop_drop, dropped, whole, List.drop_left]
    refine ⟨seen, rest, _, whole, ?_, fits, ?_, ?_, filled⟩
    · rintro left rfl
      rw [List.nil_append] at split whole
      have nothing : short = [] := Decidable.byContradiction fun other => some' other rfl
      rw [nothing, List.take_eq_nil_iff] at split
      exact left (whole ▸ split.resolve_left looks')
    · unfold cursorAt
      split
      · next ended => exact fun other => absurd rfl other
      · next further =>
        rintro - rfl
        exact further (List.drop_eq_nil_iff.mp behind)
    · unfold Unread cursorAt
      split
      · next ended =>
        rw [if_pos rfl, ← behind]
        exact List.drop_eq_nil_iff.mpr ended
      · rw [if_neg (by simp only [cursorEnd]; omega)]
        exact ⟨Int.natCast_nonneg _, behind⟩
  · right
    refine ⟨entry, List.mem_filter.mpr ⟨?_, matched⟩, full, overflow⟩
    have passed : entry ∈ listing.drop call.cursor.toNat := by
      rw [dropped]
      exact List.mem_of_mem_take (split ▸ List.mem_append_right _ List.mem_cons_self)
    exact List.mem_of_mem_drop passed

end ReadCall

end Catwalk
