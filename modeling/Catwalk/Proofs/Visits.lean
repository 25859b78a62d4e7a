import Catwalk.Proofs.Accounts
import Catwalk.Proofs.Listings

/-!
# Records visited after a refill

A level is visited by advancing it from record to record. After a refill of a level on its last
record, by any reader at all, the visit meets that record again and then the records that parse back
to back behind it, as many as the refill said (`refill_visits`). A refill that fails leaves
everything that can be asked of the level as it was, and the ledger with it.
-/

namespace Catwalk.Level

/-- The records that a level shows on its way `count` records on, and the level then. -/
def visit : Nat → Level → Except Fault (List Stored × Level)
  | 0, level => .ok ([], level)
  | count + 1, level => do
    let header ← level.header
    let name ← level.storedName
    let (records, left) ← visit count (← level.advance)
    return (⟨header, name⟩ :: records, left)

variable {ρ : Type} {level : Level} {records : List Stored}

/-- A level shows what it holds, and then has no current record. -/
private theorem Holds.visit (holds : level.Holds records) :
    level.visit level.remaining = .ok (records, { level with current := none }) := by
  rw [holds.remaining]
  induction records generalizing level with
  | nil =>
    have current := holds_nil_iff.mp holds
    have same : level = { level with current := none } := by rw [← current]
    rw [← same]
    rfl
  | cons record records ih =>
    obtain ⟨current, advanced, rest⟩ := holds.advance
    have further := ih rest
    rw [List.length_cons, Level.visit]
    simp only [holds.header, holds.storedName, advanced, bind, Except.bind]
    rw [further]
    rfl

/-- Levels that hold the same records answer alike. -/
private theorem Holds.answers {other : Level} (holds : level.Holds records)
    (holds' : other.Holds records) : other.remaining = level.remaining ∧
      other.header = level.header ∧ other.storedName = level.storedName := by
  refine ⟨holds'.remaining.trans holds.remaining.symm, ?_⟩
  cases records with
  | nil =>
    have none' := holds_nil_iff.mp holds
    have none'' := holds_nil_iff.mp holds'
    constructor
    · rw [Level.header, Level.header, Level.place, Level.place, none', none'']
      rfl
    · rw [Level.storedName, Level.storedName, Level.place, Level.place, none', none'']
      rfl
  | cons record records =>
    exact ⟨holds'.header.trans holds.header.symm, holds'.storedName.trans holds.storedName.symm⟩

/-- Whatever the reader does, a refill that succeeds keeps the current record, at the front of the
buffer, and adds as many records as it says. These parse back to back behind the one that was kept,
a visit meets them after it, and the ledger counts what the buffer has grown by. A refill that fails
for any cause leaves the cursor, what the level answers, the size of its buffer and the bytes in use
as they were. -/
theorem refill_visits (reader : Reader ρ) (patience : Nat) (request : Request) (world : World ρ)
    {kept : List Stored} (holds : level.Holds kept) :
    (refill reader patience request).Meets (level, world)
      (fun n s =>
        (0 < level.remaining → s.1.header = level.header ∧ s.1.storedName = level.storedName) ∧
        (∀ place, s.1.current = some place → place.offset = 0) ∧
        s.1.remaining = level.remaining + n ∧
        (∃ fresh, Record.parse s.1.buffer n level.keep = .ok fresh ∧
          s.1.visit s.1.remaining = .ok (kept ++ fresh, { s.1 with current := none })) ∧
        level.buffer.length ≤ s.1.buffer.length ∧
        s.2.ledger.used = world.ledger.used + (s.1.buffer.length - level.buffer.length))
      fun _ s => s.1.cursor = level.cursor ∧ s.1.remaining = level.remaining ∧
        s.1.header = level.header ∧ s.1.storedName = level.storedName ∧
        s.1.buffer.length = level.buffer.length ∧ s.2.ledger.used = world.ledger.used := by
  by_cases unfit : level.isExhausted = true ∨ 1 < level.remaining
  · obtain ⟨fault, run⟩ := refill_refuses reader patience request world unfit
    refine Act.meets_iff.mpr ⟨fun n s ran => ?_, fun other s ran => ?_⟩
    · cases run.symm.trans ran
    · cases run.symm.trans ran
      exact ⟨rfl, rfl, rfl, rfl, rfl, rfl⟩
  · rw [not_or, Bool.not_eq_true, holds.remaining] at unfit
    obtain ⟨more, few⟩ := unfit
    have last : kept.length ≤ 1 := Nat.not_lt.mp few
    have ready := holds.moveToFront last
    have reads : (fetch reader request patience level.cursor).Meets (level.moveToFront, world)
        _ _ := fetch_meets (Terms.any ρ) (Terms.any_covers reader) ready.fits (Extends.refl _)
      trivial
    have used : world.Uses (fun _ => True) world.ledger.used := ⟨trivial, rfl⟩
    have both := (refill_meets_of_reads holds last more reads).and
      (refill_grows_meets reader.steady holds last more used)
    refine both.mono ?_ ?_
    · rintro n ⟨left, w⟩ ⟨⟨fresh, batch, fetched, rfl, count, row, extended, -,
        ⟨current, rfl, first⟩, holds'⟩, long, uses, -⟩
      have number := holds'.remaining
      rw [List.length_append, ← holds.remaining] at number
      refine ⟨fun some' => ?_, first, number, ⟨fresh, ?_, holds'.visit⟩, long, uses.used⟩
      · rw [holds.remaining] at some'
        cases kept with
        | nil => exact absurd some' (Nat.lt_irrefl 0)
        | cons record others =>
          exact ⟨holds'.header.trans holds.header.symm,
            holds'.storedName.trans holds.storedName.symm⟩
      · rw [← keep_moveToFront, ← extended.keep]
        exact row.parse
    · rintro fault ⟨left, w⟩ ⟨⟨-, -, -, -, -, holds', -, cursor, -⟩, size, uses⟩
      obtain ⟨remaining, header, storedName⟩ := holds.answers holds'
      exact ⟨cursor, remaining, header, storedName, size, uses.used⟩

/-- A reader that writes three bytes and overflows before it answers with a file `a`. The level
stands on the last of two files; the ledger counts fewer bytes than the level has. -/
theorem refill_visits_after_overflow :
    let file (name : Text) : Entry := ⟨name, 1, 0, 0, 0, 0⟩
    let reader : Reader Bool :=
      { separator := []
        read := fun _ overflowed =>
          if overflowed then (⟨(file [0x61]).stored.cell, .ok ⟨1, 7⟩⟩, true)
          else (⟨[1, 2, 3], .error (.overflow 24 0)⟩, true) }
    let request : Request := ⟨[], none, 1⟩
    let level : Level :=
      ⟨0, (file [0x6B]).stored.cell ++ (file [0x6C]).stored.cell, 2, some ⟨24, 1, 0⟩⟩
    let world : World Bool := ⟨⟨some 100, 5, 0, none⟩, false⟩
    level.Holds [(file [0x6C]).stored] ∧
    ∃ after world', refill reader 2 request (level, world) = .ok 1 (after, world') ∧
      after.remaining = 2 ∧ after.header = level.header ∧ after.storedName = level.storedName ∧
      Record.parse after.buffer 1 24 = .ok [(file [0x61]).stored] ∧
      after.visit 2 =
        .ok ([(file [0x6C]).stored, (file [0x61]).stored], { after with current := none }) ∧
      after.buffer.length = 96 ∧ world'.ledger.used = 53 := by
  intro file reader request level world
  have holds : level.Holds [(file [0x6C]).stored] :=
    ⟨rfl, rfl, ⟨⟨[0, 0], by decide⟩, by decide, by decide⟩, trivial⟩
  refine ⟨holds, ((refill reader 2 request).leaves (level, world)).1,
    ((refill reader 2 request).leaves (level, world)).2, ?_⟩
  generalize left : (refill reader 2 request).leaves (level, world) = s
  have run : refill reader 2 request (level, world) = .ok 1 s := by
    rw [← left]
    decide +kernel
  have size : s.1.buffer.length = 96 := by
    rw [← left]
    decide +kernel
  obtain ⟨answers, -, number, ⟨fresh, parsed, shown⟩, -, used⟩ :=
    (refill_visits _ _ _ _ holds).of_ok run
  have keep : level.keep = 24 := rfl
  have length : level.buffer.length = 48 := by decide
  have parsed' : Record.parse s.1.buffer 1 24 = .ok [(file [0x61]).stored] := by
    rw [← left]
    decide +kernel
  rw [keep] at parsed
  cases parsed.symm.trans parsed'
  rw [number] at shown
  have same := answers (by decide)
  rw [size, length] at used
  exact ⟨run, number, same.1, same.2, parsed', shown, size, used⟩

end Catwalk.Level
