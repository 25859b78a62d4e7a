import Catwalk.Proofs.Names
import Catwalk.Proofs.Packing

/-!
# Chains of calls

A listing is read by a chain of calls, each from the cursor that the one before has left, and each
with a buffer, an offset and a limit of its own. A call overflows just when its batch has an entry
that matches and the first of these does not fit (`fill_overflows_iff`), and every other call moves
the cursor on. At the end of the listing the calls have delivered the entries that match, each of
them once (`chain_delivers`).
-/

namespace Catwalk.ReadCall

open Entry

/-- The buffer that a call leaves. -/
def leaves (call : ReadCall) (listing : List Entry) : Bytes :=
  (call.fill listing).into call.buffer call.offset

/-- The cursor for the next call: the one behind the entries that were read, or the same again after
a failure. -/
def resume (call : ReadCall) (listing : List Entry) : Int :=
  match (call.fill listing).result with
  | .ok batch => batch.next
  | .error _ => call.cursor

/-- The records that a call delivers: as many as it says parse from its offset on. -/
def delivered (listing : List Entry) (call : ReadCall) : Except Fault (List Stored) :=
  match (call.fill listing).result with
  | .ok batch => Record.parse (call.leaves listing) batch.count call.offset
  | .error _ => .ok []

/-- The first entry that matches among those that a call looks at. -/
def first? (call : ReadCall) (listing : List Entry) : Option Entry :=
  ((listing.drop call.cursor.toNat).take call.maxEntries.toNat).find?
    fun entry => Pattern.matchesName call.pattern entry.name

/-- A call that reads on from a cursor. -/
structure ReadsOn (call : ReadCall) (pattern : Option Text) (cursor : Int) : Prop where
  cursor : call.cursor = cursor
  pattern : call.pattern = pattern
  looks : 1 ≤ call.maxEntries

/-- Calls that read a listing from its start on, and the cursor that they have come to. -/
inductive Chain (listing : List Entry) (pattern : Option Text) : List ReadCall → Int → Prop
  | start : Chain listing pattern [] cursorStart
  | next {calls : List ReadCall} {cursor : Int} {call : ReadCall} :
      Chain listing pattern calls cursor → call.ReadsOn pattern cursor →
      Chain listing pattern (calls ++ [call]) (call.resume listing)

variable {call : ReadCall} {listing unread : List Entry} {pattern : Option Text} {cursor : Int}
  {batch : Batch} {fault : Fault}

private theorem leaves_of_refuse (refused : call.fill listing = .refuse fault) :
    call.leaves listing = call.buffer := by
  simp [leaves, refused, Deposit.refuse, Deposit.into, Bytes.overwrite_nil]

private theorem resume_of_refuse (refused : call.fill listing = .refuse fault) :
    call.resume listing = call.cursor := by
  simp [resume, refused, Deposit.refuse]

private theorem delivered_of_refuse (refused : call.fill listing = .refuse fault) :
    call.delivered listing = .ok [] := by
  simp [delivered, refused, Deposit.refuse]

/-! ## One call -/

/-- At the end of a listing a call is refused. -/
private theorem fill_of_ended (ended : call.cursor = cursorEnd) :
    call.fill listing = .refuse (.badCursor cursorEnd) := by
  unfold fill
  rw [ended]
  rfl

/-- The first entry that matches is the first that is listed, if one is. -/
private theorem find?_append_listed (pattern : Option Text) (seen rest : List Entry) :
    (seen ++ rest).find? (fun entry => Pattern.matchesName pattern entry.name) =
      (listed pattern seen).head?.or
        (rest.find? fun entry => Pattern.matchesName pattern entry.name) := by
  rw [List.find?_append, listed, List.head?_filter]

/-- A call overflows just when its batch has an entry that matches and the first of these does not
fit. -/
theorem fill_overflows_iff (packable : ∀ entry ∈ listing, entry.Packable)
    (start : 0 ≤ call.cursor) :
    (∃ needed room, (call.fill listing).result = .error (.overflow needed room)) ↔
      ∃ entry, call.first? listing = some entry ∧
        call.buffer.length < call.offset + entry.stored.extent := by
  unfold first?
  rcases fill_of_batch call packable start with
    ⟨seen, rest, ⟨split, fits, -⟩, some', filled⟩ |
      ⟨seen, entry, rest, split, unlisted, matched, full, overflow⟩
  · rw [filled, split, find?_append_listed]
    constructor
    · rintro ⟨needed, room, ⟨⟩⟩
    · rintro ⟨entry, found, full⟩
      exfalso
      cases some'' : listed call.pattern seen with
      | nil =>
        have ended : rest = [] := Decidable.byContradiction fun more => some' more some''
        rw [some'', ended] at found
        cases found
      | cons first others =>
        rw [some''] at found fits
        cases found
        have room := fits.resolve_left (List.cons_ne_nil _ _)
        simp only [records, Row.extent, List.map_cons, List.foldr_cons, ReadCall.room] at room
        omega
  · rw [overflow, split, find?_append_listed, unlisted, List.find?_cons, matched]
    unfold room at full
    exact ⟨fun _ => ⟨entry, rfl, by omega⟩, fun _ => ⟨_, _, rfl⟩⟩

/-- A cursor that has not come to the end and has passed an entry is further on. -/
private theorem lt_of_unread {next : Int} {seen rest : List Entry} (more : cursor ≠ cursorEnd)
    (left : Unread listing cursor (seen ++ rest)) (left' : Unread listing next rest)
    (further : next ≠ cursorEnd) (passed : seen ≠ []) (behind : rest ≠ []) : cursor < next := by
  rw [Unread, if_neg more] at left
  rw [Unread, if_neg further] at left'
  have whole := congrArg List.length left.2
  have part := congrArg List.length left'.2
  have some' := List.length_pos_iff.mpr passed
  have some'' := List.length_pos_iff.mpr behind
  rw [List.length_drop, List.length_append] at whole
  rw [List.length_drop] at part
  omega

/-- What a call writes are the records of the entries that it has read; the bytes around them are
those that were there. -/
private theorem leaves_of_fill {entries : List Entry}
    (fits : entries = [] ∨ (Row.extent (records entries) : Int) ≤ call.room)
    (ended : ∀ entry ∈ entries, (0 : UInt8) ∉ entry.stored.name)
    (count : batch.count = entries.length)
    (filled : call.fill listing = ⟨(records entries).flatMap Stored.cell, .ok batch⟩) :
    Record.parse (call.leaves listing) batch.count call.offset = .ok (records entries) ∧
      (call.leaves listing).length = call.buffer.length ∧
      ∀ i, i < call.offset ∨ call.offset + Row.extent (records entries) ≤ i →
        (call.leaves listing)[i]? = call.buffer[i]? := by
  have written : call.leaves listing =
      call.buffer.overwrite call.offset ((records entries).flatMap Stored.cell) := by
    rw [leaves, filled]
    rfl
  have number : batch.count = (records entries).length := by
    rw [count, records, List.length_map]
  rw [written, number, Bytes.length_overwrite]
  refine ⟨(row_of_fits call fits ended).parse, rfl, fun i outside => ?_⟩
  rcases fits with rfl | fits
  · exact congrArg (·[i]?) (Bytes.overwrite_nil call.buffer call.offset)
  · unfold room at fits
    rw [Bytes.getElem?_overwrite (by rw [Row.length_cells]; omega), Row.length_cells,
      if_neg (by omega)]

/-- A call from inside a listing reads on or overflows. -/
private theorem readsOn_cases (packable : ∀ entry ∈ listing, entry.Packable)
    (free : ∀ entry ∈ listing, (0 : CodePoint) ∉ entry.name) (reads : call.ReadsOn pattern cursor)
    (more : cursor ≠ cursorEnd) (left : Unread listing cursor unread) :
    (∃ seen rest batch, unread = seen ++ rest ∧ Unread listing batch.next rest ∧
      (batch.next = cursorEnd ∨ cursor < batch.next) ∧
      (call.fill listing).result = .ok batch ∧
      Record.parse (call.leaves listing) batch.count call.offset =
        .ok (records (listed pattern seen)) ∧
      (call.leaves listing).length = call.buffer.length ∧
      ∀ i, i < call.offset ∨ call.offset + Row.extent (records (listed pattern seen)) ≤ i →
        (call.leaves listing)[i]? = call.buffer[i]?) ∨
    ∃ needed room, call.fill listing = .refuse (.overflow needed room) := by
  obtain ⟨rfl, rfl, looks⟩ := reads
  rcases fill_cases call packable looks more left with
    ⟨seen, rest, next, rfl, progress, fits, behind, left', filled⟩ | ⟨entry, -, -, overflow⟩
  · have ended : ∀ entry ∈ listed call.pattern seen, (0 : UInt8) ∉ entry.stored.name := by
      intro entry member
      have passed := left
      rw [Unread, if_neg more] at passed
      have known : entry ∈ listing := by
        refine List.mem_of_mem_drop (i := call.cursor.toNat) ?_
        rw [passed.2]
        exact List.mem_append_left rest (List.mem_filter.mp member).1
      exact Text.zero_not_mem_encode (free entry known) (packable entry known).encoded
    refine .inl ⟨seen, rest, _, rfl, left', ?_, congrArg Deposit.result filled,
      leaves_of_fill fits ended rfl filled⟩
    by_cases further : next = cursorEnd
    · exact .inl further
    · exact .inr (lt_of_unread more left left' further (progress (behind further))
        (behind further))
  · exact .inr ⟨_, _, overflow⟩

/-! ## All calls -/

/-- What a chain has delivered are the entries that match among those in front of its cursor. -/
private theorem Chain.delivers (packable : ∀ entry ∈ listing, entry.Packable)
    (free : ∀ entry ∈ listing, (0 : CodePoint) ∉ entry.name) {calls : List ReadCall}
    (chain : Chain listing pattern calls cursor) :
    ∃ seen unread deliveries, listing = seen ++ unread ∧ Unread listing cursor unread ∧
      calls.mapM (delivered listing) = .ok deliveries ∧
      deliveries.flatten = records (listed pattern seen) := by
  induction chain with
  | start => exact ⟨[], listing, [], rfl, ⟨Int.le_refl 0, rfl⟩, rfl, rfl⟩
  | @next calls cursor call _ reads ih =>
    obtain ⟨seen, unread, deliveries, split, left, before, delivers⟩ := ih
    have added : ∀ fresh, call.delivered listing = .ok fresh →
        (calls ++ [call]).mapM (delivered listing) = .ok (deliveries ++ [fresh]) := by
      intro fresh delivered
      rw [List.mapM_append, before, List.mapM_cons, delivered]
      rfl
    -- a call that fails delivers nothing and is to be made again
    have failed : ∀ fault, call.fill listing = .refuse fault →
        ∃ seen unread deliveries, listing = seen ++ unread ∧
          Unread listing (call.resume listing) unread ∧
          (calls ++ [call]).mapM (delivered listing) = .ok deliveries ∧
          deliveries.flatten = records (listed pattern seen) := by
      intro fault refused
      have again : call.resume listing = cursor := (resume_of_refuse refused).trans reads.cursor
      refine ⟨seen, unread, _, split, again ▸ left, added [] (delivered_of_refuse refused), ?_⟩
      rw [List.flatten_append, delivers, List.flatten_singleton, List.append_nil]
    by_cases ended : cursor = cursorEnd
    · exact failed _ (fill_of_ended (reads.cursor.trans ended))
    · rcases readsOn_cases packable free reads ended left with
        ⟨passed, rest, batch, rfl, left', -, result, parsed, -⟩ | ⟨needed, room, overflow⟩
      · have fresh : call.delivered listing = .ok (records (listed pattern passed)) := by
          rw [delivered, result]
          exact parsed
        have on : call.resume listing = batch.next := by
          rw [resume, result]
        refine ⟨seen ++ passed, rest, _, ?_, on ▸ left', added _ fresh, ?_⟩
        · rw [split, List.append_assoc]
        · rw [List.flatten_append, delivers, List.flatten_singleton, records, records, records,
            listed, listed, listed, List.filter_append, List.map_append]
      · exact failed _ overflow

/-- A call that goes on with a chain returns the end of the listing or a cursor further on, unless
its batch has an entry that matches and the first of these does not fit. That is when it overflows,
and it leaves the buffer as it was. What it writes are as many records as it says, and the bytes
around them stay. A chain that has come to the end has delivered the records of the entries that
match, in their order and each of them once. -/
theorem chain_delivers (packable : ∀ entry ∈ listing, entry.Packable)
    (free : ∀ entry ∈ listing, (0 : CodePoint) ∉ entry.name) {calls : List ReadCall}
    (chain : Chain listing pattern calls cursor) :
    (∀ call : ReadCall, call.ReadsOn pattern cursor →
      (∀ batch, (call.fill listing).result = .ok batch →
        (batch.next = cursorEnd ∨ cursor < batch.next) ∧
        ∃ fresh, Record.parse (call.leaves listing) batch.count call.offset = .ok fresh ∧
          (call.leaves listing).length = call.buffer.length ∧
          ∀ i, i < call.offset ∨ call.offset + Row.extent fresh ≤ i →
            (call.leaves listing)[i]? = call.buffer[i]?) ∧
      ((∃ needed room, (call.fill listing).result = .error (.overflow needed room)) ↔
        cursor ≠ cursorEnd ∧ ∃ entry, call.first? listing = some entry ∧
          call.buffer.length < call.offset + entry.stored.extent) ∧
      ∀ fault, (call.fill listing).result = .error fault →
        call.leaves listing = call.buffer ∧
        (cursor = cursorEnd ∨ ∃ needed room, fault = .overflow needed room)) ∧
    (cursor = cursorEnd → ∃ deliveries, calls.mapM (delivered listing) = .ok deliveries ∧
      deliveries.flatten = records (listed pattern listing)) := by
  obtain ⟨seen, unread, deliveries, split, left, before, delivers⟩ :=
    chain.delivers packable free
  refine ⟨fun call reads => ?_, fun ended => ⟨deliveries, before, ?_⟩⟩
  · by_cases ended : cursor = cursorEnd
    · have filled : call.fill listing = .refuse (.badCursor cursorEnd) :=
        fill_of_ended (reads.cursor.trans ended)
      have unchanged := leaves_of_refuse filled
      rw [filled]
      exact ⟨nofun, ⟨nofun, fun inside => absurd ended inside.1⟩,
        fun _ _ => ⟨unchanged, .inl ended⟩⟩
    · have start : 0 ≤ call.cursor := by
        rw [Unread, if_neg ended] at left
        exact reads.cursor ▸ left.1
      refine ⟨fun batch result => ?_, ?_, fun fault result => ?_⟩
      · rcases readsOn_cases packable free reads ended left with
          ⟨passed, rest, other, -, -, on, result', kept⟩ | ⟨needed, room, overflow⟩
        · cases result.symm.trans result'
          exact ⟨on, _, kept⟩
        · rw [overflow] at result
          cases result
      · rw [fill_overflows_iff packable start]
        exact ⟨fun full => ⟨ended, full⟩, fun full => full.2⟩
      · rcases readsOn_cases packable free reads ended left with
          ⟨passed, rest, other, -, -, -, result', -⟩ | ⟨needed, room, overflow⟩
        · cases result.symm.trans result'
        · refine ⟨leaves_of_refuse overflow, .inr ⟨needed, room, ?_⟩⟩
          rw [overflow] at result
          cases result
          rfl
  · rw [Unread, if_pos ended] at left
    rw [delivers, split, left, List.append_nil]

/-- A file `k` is passed over, a file `ab` overflows once and then leaves no room for a file `a`,
which comes with a file `abc` in the last call. -/
theorem chain_delivers_behind_overflow :
    let file (name : Text) : Entry := ⟨name, 1, 0, 0, 0, 0⟩
    let listing := [file [0x6B], file [0x61, 0x62], file [0x61], file [0x61, 0x62, 0x63]]
    let call (size offset : Nat) (cursor maxEntries : Int) : ReadCall :=
      ⟨[], List.replicate size 7, offset, cursor, maxEntries, some [0x61, 0x2A]⟩
    let calls := [call 10 0 0 1, call 10 3 1 2, call 30 3 1 5, call 49 1 2 5]
    Chain listing (some [0x61, 0x2A]) calls cursorEnd ∧
    (call 10 3 1 2).first? listing = some (file [0x61, 0x62]) ∧
    (∃ needed room, ((call 10 3 1 2).fill listing).result = .error (.overflow needed room)) ∧
    ∃ deliveries, calls.mapM (delivered listing) = .ok deliveries ∧
      deliveries.flatten =
        records [file [0x61, 0x62], file [0x61], file [0x61, 0x62, 0x63]] := by
  intro file listing call calls
  have packable : ∀ entry ∈ listing, entry.Packable := by decide
  have first : Chain listing (some [0x61, 0x2A]) [call 10 0 0 1] 1 :=
    .next .start ⟨rfl, rfl, by decide⟩
  have second : Chain listing (some [0x61, 0x2A]) [call 10 0 0 1, call 10 3 1 2] 1 :=
    .next first ⟨rfl, rfl, by decide⟩
  have third : Chain listing (some [0x61, 0x2A])
      [call 10 0 0 1, call 10 3 1 2, call 30 3 1 5] 2 :=
    .next second ⟨rfl, rfl, by decide⟩
  have chain : Chain listing (some [0x61, 0x2A]) calls cursorEnd :=
    .next third ⟨rfl, rfl, by decide⟩
  have full : (call 10 3 1 2).first? listing = some (file [0x61, 0x62]) := by decide
  have overflows := ((chain_delivers packable (by decide) first).1 (call 10 3 1 2)
    ⟨rfl, rfl, by decide⟩).2.1.mpr ⟨by decide, _, full, by decide⟩
  exact ⟨chain, full, overflows, (chain_delivers packable (by decide) chain).2 rfl⟩

end Catwalk.ReadCall
