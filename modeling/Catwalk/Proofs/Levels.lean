import Catwalk.Level.Refill
import Catwalk.Proofs.Records

/-!
# What a level holds

A level holds the records from its current one on: they stand back to back in its buffer, and the
place of the current one says how many they are and how long its name is. A level that holds a
record answers every question about it, and advancing drops it. Of the records only the bytes up to
their end matter, so a refill may move, lengthen and cut the buffer around them
(`Holds.moveToFront`, `Fronts.extends_holds`).
-/

namespace Catwalk.Level

/-- The level holds these records, the current one first. -/
def Holds (level : Level) (records : List Stored) : Prop :=
  match level.current, records with
  | none, [] => True
  | some place, record :: later =>
    place.nameLength = record.name.length ∧ place.later = later.length ∧
      Row level.buffer place.offset (record :: later)
  | _, _ => False

variable {level : Level} {record : Stored} {records : List Stored}

theorem holds_nil_iff : level.Holds [] ↔ level.current = none := by
  unfold Holds
  cases level.current <;> simp

theorem holds_cons_iff : level.Holds (record :: records) ↔
    ∃ offset, level.current = some ⟨offset, record.name.length, records.length⟩ ∧
      Row level.buffer offset (record :: records) := by
  unfold Holds
  cases found : level.current with
  | none => simp
  | some place =>
    constructor
    · rintro ⟨size, later, row⟩
      exact ⟨place.offset, by rw [← size, ← later], row⟩
    · rintro ⟨offset, same, row⟩
      cases same
      exact ⟨rfl, rfl, row⟩

namespace Holds

theorem remaining (holds : level.Holds records) : level.remaining = records.length := by
  cases records with
  | nil => rw [Level.remaining, holds_nil_iff.mp holds, List.length_nil]
  | cons record records =>
    obtain ⟨offset, current, -⟩ := holds_cons_iff.mp holds
    rw [Level.remaining, current, List.length_cons]

theorem header (holds : level.Holds (record :: records)) : level.header = .ok record.header := by
  obtain ⟨offset, current, row⟩ := holds_cons_iff.mp holds
  rw [Level.header, Level.place, current]
  exact row.1.header

theorem objectType (holds : level.Holds (record :: records)) :
    level.objectType = .ok record.header.objectType := by
  rw [Level.objectType, holds.header]
  rfl

theorem storedName (holds : level.Holds (record :: records)) :
    level.storedName = .ok record.name := by
  obtain ⟨offset, current, row⟩ := holds_cons_iff.mp holds
  rw [Level.storedName, Level.place, current]
  exact congrArg Except.ok row.1.nameBytes

theorem name (holds : level.Holds (record :: records)) :
    level.name = .ok (Text.decode record.name) := by
  obtain ⟨offset, current, row⟩ := holds_cons_iff.mp holds
  rw [Level.name, Level.place, current]
  exact congrArg (fun bytes => Except.ok (Text.decode bytes)) row.1.nameBytes

/-- What a level holds is settled by its buffer and its current place. -/
theorem unique {others : List Stored} (holds : level.Holds records)
    (holds' : level.Holds others) : records = others := by
  have number : records.length = others.length := holds.remaining.symm.trans holds'.remaining
  cases records with
  | nil => exact (List.eq_nil_of_length_eq_zero number.symm).symm
  | cons record records =>
    cases others with
    | nil => cases number
    | cons other others =>
      obtain ⟨offset, current, row⟩ := holds_cons_iff.mp holds
      obtain ⟨offset', current', row'⟩ := holds_cons_iff.mp holds'
      have same : offset = offset' :=
        congrArg Place.offset (Option.some.inj (current.symm.trans current'))
      exact row.unique (same ▸ row') number

/-- Advancing drops the current record and nothing else. -/
theorem advance (holds : level.Holds (record :: records)) :
    ∃ current, level.advance = .ok { level with current } ∧
      { level with current }.Holds records := by
  obtain ⟨offset, current, row⟩ := holds_cons_iff.mp holds
  cases records with
  | nil =>
    refine ⟨none, ?_, holds_nil_iff.mpr rfl⟩
    rw [Level.advance, Level.place, current]
    rfl
  | cons next later =>
    obtain ⟨-, rest⟩ := row
    refine ⟨some ⟨offset + record.extent, next.name.length, later.length⟩, ?_,
      holds_cons_iff.mpr ⟨_, rfl, rest⟩⟩
    rw [Level.advance, Level.place, current]
    change (do
      let length ← Record.nameLength level.buffer (offset + record.extent)
      return { level with current := some ⟨offset + record.extent, length, later.length⟩ }) = _
    rw [rest.1.nameLength]
    rfl

end Holds

/-! ## A level while it is refilled -/

/-- A level differs from one with its current record at the front in its buffer at most: nothing has
been cut off, and what comes before the records to be read is the same. -/
structure Extends (front level : Level) : Prop where
  frame : level = { front with buffer := level.buffer }
  kept : level.buffer.take front.keep = front.buffer.take front.keep
  long : front.buffer.length ≤ level.buffer.length

namespace Extends

variable {front : Level}

protected theorem refl (level : Level) : level.Extends level := ⟨rfl, rfl, Nat.le_refl _⟩

private theorem current (extended : front.Extends level) : level.current = front.current := by
  rw [extended.frame]

theorem keep (extended : front.Extends level) : level.keep = front.keep := by
  rw [Level.keep, Level.keep, extended.current]

/-- Whatever is written behind the records that are kept. -/
theorem write (extended : front.Extends level) (deposit : Deposit α) :
    front.Extends { level with buffer := deposit.into level.buffer level.keep } := by
  refine ⟨by rw [extended.frame], ?_, ?_⟩
  · rw [← extended.kept, ← extended.keep]
    exact Bytes.take_overwrite level.buffer level.keep deposit.bytes
  · rw [Deposit.into, Bytes.length_overwrite]
    exact extended.long

theorem grow (extended : front.Extends level) (fits : front.keep ≤ front.buffer.length)
    (more : Bytes) : front.Extends { level with buffer := level.buffer ++ more } := by
  have long := extended.long
  refine ⟨by rw [extended.frame], ?_, ?_⟩
  · rw [← extended.kept]
    exact List.take_append_of_le_length (by omega)
  · simp only [List.length_append]
    omega

/-- The buffer back at its first size. -/
theorem shrink (extended : front.Extends level) (fits : front.keep ≤ front.buffer.length) :
    front.Extends { level with buffer := level.buffer.take front.buffer.length } ∧
      (level.buffer.take front.buffer.length).length = front.buffer.length := by
  have long := extended.long
  have length : (level.buffer.take front.buffer.length).length = front.buffer.length := by
    rw [List.length_take]
    omega
  refine ⟨⟨by rw [extended.frame], ?_, ?_⟩, length⟩
  · rw [← extended.kept, List.take_take]
    congr 1
    omega
  · exact Nat.le_of_eq length.symm

end Extends

/-- The current record goes to the front with its own size. -/
theorem keep_moveToFront (level : Level) : level.moveToFront.keep = level.keep := by
  unfold keep moveToFront
  cases found : level.current <;> simp [found]

/-- A level with its current record at the front of its buffer, ready to be refilled. -/
structure Fronts (level front : Level) (records : List Stored) : Prop where
  holds : front.Holds records
  first : ∀ place, front.current = some place → place.offset = 0
  keep : front.keep = Row.extent records
  fits : front.keep ≤ front.buffer.length
  pathLength : front.pathLength = level.pathLength
  cursor : front.cursor = level.cursor
  size : front.buffer.length = level.buffer.length

/-- A level keeps what it holds while its record moves. -/
theorem Holds.moveToFront (holds : level.Holds records) (last : records.length ≤ 1) :
    level.Fronts level.moveToFront records := by
  rcases Nat.le_one_iff_eq_zero_or_eq_one.mp last with none | one
  · obtain rfl := List.length_eq_zero_iff.mp none
    have current := holds_nil_iff.mp holds
    have same : level.moveToFront = level := by
      rw [Level.moveToFront, current]
    have keep : level.keep = 0 := by
      rw [Level.keep, current]
    rw [same]
    refine ⟨holds, ?_, keep, by omega, rfl, rfl, rfl⟩
    intro place found
    rw [current] at found
    cases found
  · obtain ⟨record, rfl⟩ := List.length_eq_one_iff.mp one
    obtain ⟨offset, current, stands, -⟩ := holds_cons_iff.mp holds
    have inside := stands.inside
    have short := record.length_spelling_le
    have size := Bytes.length_overwrite level.buffer 0 record.spelling
    have slice : level.buffer.slice offset record.spelling.length = record.spelling :=
      (List.prefix_iff_eq_take.mp stands.spelt).symm
    have fits : 0 + record.spelling.length ≤ level.buffer.length := by omega
    have written : record.spelling <+: level.buffer.overwrite 0 record.spelling :=
      List.prefix_iff_eq_take.mpr (Bytes.slice_overwrite fits).symm
    have front : record.StandsAt (level.buffer.overwrite 0 record.spelling) 0 :=
      ⟨written, stands.ended, by omega⟩
    have moved : level.moveToFront =
        { level with
          buffer := level.buffer.overwrite 0 record.spelling
          current := some ⟨0, record.name.length, 0⟩ } := by
      rw [Level.moveToFront, current]
      simp only [List.length_nil]
      rw [← record.length_spelling, slice]
    have keep : level.moveToFront.keep = record.extent := by
      rw [moved]
      rfl
    rw [moved] at keep ⊢
    refine ⟨holds_cons_iff.mpr ⟨0, rfl, front, trivial⟩, ?_, ?_, ?_, rfl, rfl, size⟩
    · intro place found
      cases found
      rfl
    · rw [keep]
      rfl
    · change Level.keep _ ≤ (level.buffer.overwrite 0 record.spelling).length
      omega

namespace Fronts

variable {front fetched : Level}

/-- What stands at the front stays whatever is read behind it. -/
theorem extends_holds (ready : level.Fronts front records) (extended : front.Extends fetched) :
    fetched.Holds records := by
  have holds := ready.holds
  have long := extended.long
  have fits := ready.fits
  have keep := ready.keep
  cases records with
  | nil => exact holds_nil_iff.mpr (extended.current.trans (holds_nil_iff.mp holds))
  | cons record records =>
    obtain ⟨offset, current, row⟩ := holds_cons_iff.mp holds
    have first : offset = 0 := ready.first _ current
    subst first
    exact holds_cons_iff.mpr ⟨0, extended.current.trans current,
      row.of_take (by omega) extended.kept (by omega)⟩

/-- A batch of records that were read and checked joins those that were kept, at the front of the
buffer. -/
theorem accept (ready : level.Fronts front records) (extended : front.Extends fetched)
    {batch : Batch} {fresh : List Stored} (number : fresh.length = batch.count)
    (row : Row fetched.buffer fetched.keep fresh) :
    ∃ current, fetched.accept batch = .ok { fetched with cursor := batch.next, current } ∧
      (∀ place, current = some place → place.offset = 0) ∧
      { fetched with cursor := batch.next, current }.Holds (records ++ fresh) := by
  have holds := ready.extends_holds extended
  have keep := extended.keep.trans ready.keep
  rw [keep] at row
  cases records with
  | nil =>
    have none' := holds_nil_iff.mp holds
    cases fresh with
    | nil =>
      refine ⟨none, ?_, nofun, holds_nil_iff.mpr rfl⟩
      simp only [Level.accept, none', ← number, List.length_nil]
    | cons record later =>
      refine ⟨some ⟨0, record.name.length, later.length⟩, ?_, fun _ same => by cases same; rfl,
        holds_cons_iff.mpr ⟨0, rfl, row⟩⟩
      have parsed : Record.nameLength fetched.buffer 0 = .ok record.name.length :=
        row.1.nameLength
      rw [Level.accept, none', ← number, List.length_cons, parsed]
      rfl
  | cons record later =>
    obtain ⟨offset, current, stands⟩ := holds_cons_iff.mp holds
    have first : offset = 0 := ready.first _ (extended.current ▸ current)
    subst first
    refine ⟨some ⟨0, record.name.length, later.length + batch.count⟩, ?_,
      fun _ same => by cases same; rfl, ?_⟩
    · rw [Level.accept, current]
    · rw [List.cons_append, holds_cons_iff, List.length_append, number]
      have joined : Row fetched.buffer 0 ((record :: later) ++ fresh) := by
        refine Row.append_iff.mpr ⟨stands, ?_⟩
        rw [Nat.zero_add]
        exact row
      exact ⟨0, rfl, joined⟩

end Fronts

end Catwalk.Level
