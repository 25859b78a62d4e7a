import Catwalk.Proofs.Levels
import Catwalk.Proofs.Outcomes

/-!
# Refills

A refill either takes fresh records in behind the one it kept, or fails and leaves what the level
holds, its cursor and the size of its buffer as they were (`refill_meets`). This holds of every
reader. What is known of the world around the level, and of the faults that may come out of it, is
said by `Terms`, so that one pass over the code serves readers without restriction as well as those
that never fail.
-/

namespace Catwalk

variable {ρ : Type}

/-- What holds of the world while a walk is under way, whatever is reserved and released, and what
is known of the faults of reservations that are refused. -/
structure Terms (ρ : Type) where
  world : World ρ → Prop
  cause : Fault → Prop
  reserve : ∀ (size : Int) (w : World ρ), world w →
    (World.charging (Ledger.reserve size)).Meets w (fun _ => world) fun fault w =>
      world w ∧ cause fault
  release : ∀ (size : Int) (w : World ρ), world w → world (w.updateLedger (Ledger.release size))

/-- The terms are those of a reader: it keeps to the world, and its faults are among those known. -/
structure Terms.Covers (terms : Terms ρ) (reader : Reader ρ) : Prop where
  source : ∀ call world, terms.world world →
    terms.world { world with source := (reader.read call world.source).2 }
  fault : ∀ call source fault, (reader.read call source).1.result = .error fault →
    fault.kind ≠ .overflow → terms.cause fault
  malformed : ∀ offset, terms.cause (.malformedRecord offset)
  patience : terms.cause .outOfPatience

namespace Record

/-- A row is refused for one of its records. -/
private theorem check_error {buffer : Bytes} {count offset : Nat} {fault : Fault}
    (refused : check buffer count offset = .error fault) :
    ∃ place, fault = .malformedRecord place := by
  induction count generalizing offset with
  | zero => cases refused
  | succ count ih =>
    rw [check] at refused
    cases parsed : nameLength buffer offset with
    | ok length =>
      rw [parsed] at refused
      exact ih refused
    | error cause =>
      rw [parsed] at refused
      cases refused
      unfold nameLength at parsed
      dsimp only at parsed
      split at parsed
      · cases parsed; exact ⟨_, rfl⟩
      · split at parsed
        · cases parsed; exact ⟨_, rfl⟩
        · split at parsed
          · cases parsed; exact ⟨_, rfl⟩
          · cases parsed

end Record

namespace Level

variable {reader : Reader ρ} {request : Request} {patience : Nat}

/-- The call that a read makes. -/
def call (request : Request) (level : Level) (cursor : Int) : ReadCall :=
  { path := request.path
    buffer := level.buffer
    offset := level.keep
    cursor
    maxEntries := request.maxEntries
    pattern := request.pattern }

private theorem ask_meets {cursor : Int} {level : Level} {world : World ρ}
    {done : Batch → Level × World ρ → Prop} {failed : Fault → Level × World ρ → Prop} :
    (ask reader request cursor).Meets (level, world) done failed ↔
      let answer := reader.read (call request level cursor) world.source
      let state := ({ level with buffer := answer.1.into level.buffer level.keep },
        { world with source := answer.2 })
      match answer.1.result with
      | .ok batch => done batch state
      | .error fault => failed fault state := by
  unfold Act.Meets ask
  simp only [call]
  cases (reader.read _ world.source).1.result <;> rfl

theorem growInPlace_meets (terms : Terms ρ) {front level : Level} {world : World ρ}
    (extended : front.Extends level) (fits : front.keep ≤ front.buffer.length)
    (w : terms.world world) :
    growInPlace.Meets (level, world)
      (fun _ s => front.Extends s.1 ∧ terms.world s.2 ∧
        s.1.buffer.length = 2 * level.buffer.length)
      fun fault s => front.Extends s.1 ∧ terms.world s.2 ∧ terms.cause fault := by
  have reserved := terms.reserve level.buffer.length world w
  unfold growInPlace grow World.charging at *
  simp only [Act.meets_bind, Act.meets_within, Act.meets_get, Act.meets_modify, Act.meets_pure]
    at reserved ⊢
  refine reserved.mono ?_ ?_
  · intro _ ledger w
    refine ⟨extended.grow fits _, w, ?_⟩
    simp only [List.length_append, Bytes.zeros, List.length_replicate]
    omega
  · rintro fault ledger ⟨w, cause⟩
    exact ⟨extended, w, cause⟩

/-- A fetch reads once, and goes on behind a batch without records, or with a larger buffer after an
overflow. -/
theorem fetch_succ_meets {cursor : Int} {level : Level} {world : World ρ}
    {done : Batch → Level × World ρ → Prop} {failed : Fault → Level × World ρ → Prop} :
    (fetch reader request (patience + 1) cursor).Meets (level, world) done failed ↔
      let answer := reader.read (call request level cursor) world.source
      let state := ({ level with buffer := answer.1.into level.buffer level.keep },
        { world with source := answer.2 })
      match answer.1.result with
      | .ok batch =>
        if batch.count = 0 ∧ batch.next ≠ cursorEnd then
          (fetch reader request patience batch.next).Meets state done failed
        else done batch state
      | .error fault =>
        if fault.kind = .overflow then
          growInPlace.Meets state
            (fun _ grown => (fetch reader request patience cursor).Meets grown done failed) failed
        else failed fault state := by
  rw [fetch]
  simp only [Act.meets_bind, Act.meets_outcome]
  rw [ask_meets]
  dsimp only
  split
  · next batch result =>
    by_cases again : batch.count = 0 ∧ batch.next ≠ cursorEnd
    · rw [if_pos again, if_pos again]
    · rw [if_neg again, if_neg again, Act.meets_pure]
  · next fault result =>
    by_cases overflow : fault.kind = .overflow
    · rw [if_pos overflow, if_pos overflow, Act.meets_bind]
    · rw [if_neg overflow, if_neg overflow, Act.meets_throw]

/-- A refill ends as its reads do. Records that were read and stand in a row behind those kept are
taken in; after a fault, of the reads or of a record, the level holds what it held and gives back
what its buffer has grown by. -/
theorem refill_meets_of_reads {level : Level} {world : World ρ} {kept : List Stored}
    {Read : Batch → Level × World ρ → Prop} {Failed : Fault → Level × World ρ → Prop}
    (holds : level.Holds kept) (last : kept.length ≤ 1) (more : level.isExhausted = false)
    (reads : (fetch reader request patience level.cursor).Meets (level.moveToFront, world)
      (fun batch s => level.moveToFront.Extends s.1 ∧ Read batch s)
      fun fault s => level.moveToFront.Extends s.1 ∧ Failed fault s) :
    (refill reader patience request).Meets (level, world)
      (fun n s => ∃ fresh batch fetched,
        fresh.length = n ∧ batch.count = n ∧ Row fetched.buffer fetched.keep fresh ∧
        level.moveToFront.Extends fetched ∧ Read batch (fetched, s.2) ∧
        (∃ current, s.1 = { fetched with cursor := batch.next, current } ∧
          ∀ place, current = some place → place.offset = 0) ∧
        s.1.Holds (kept ++ fresh))
      fun fault s => ∃ fetched w, level.moveToFront.Extends fetched ∧
        (Failed fault (fetched, w) ∨ ∃ batch, Read batch (fetched, w) ∧
          Record.check fetched.buffer batch.count fetched.keep = .error fault) ∧
        s.2 = w.updateLedger
          (·.release ((fetched.buffer.length - level.buffer.length : Nat) : Int)) ∧
        s.1.Holds kept ∧ s.1.pathLength = level.pathLength ∧ s.1.cursor = level.cursor ∧
        s.1.buffer.length = level.buffer.length := by
  have ready := holds.moveToFront last
  have few : ¬ 1 < level.remaining := by
    rw [holds.remaining]
    omega
  -- a fetched level that is cut back is what the refill leaves when it fails
  have cut : ∀ (fetched : Level), level.moveToFront.Extends fetched →
      let left := { fetched with
        buffer := fetched.buffer.take level.moveToFront.buffer.length }
      left.Holds kept ∧ left.pathLength = level.pathLength ∧ left.cursor = level.cursor ∧
        left.buffer.length = level.buffer.length := by
    intro fetched extended
    obtain ⟨shrunk, size⟩ := extended.shrink ready.fits
    refine ⟨ready.extends_holds shrunk, ?_, ?_, ?_⟩
    · exact (congrArg Level.pathLength shrunk.frame).trans ready.pathLength
    · exact (congrArg Level.cursor shrunk.frame).trans ready.cursor
    · exact size.trans ready.size
  unfold refill
  simp only [Act.meets_bind, Act.meets_get]
  rw [if_neg (by rw [more]; exact Bool.false_ne_true), if_neg few]
  simp only [Act.meets_bind, Act.meets_get, Act.meets_pure, Act.meets_modify, Act.meets_onFault,
    Act.meets_ofExcept, shrink]
  rw [ready.cursor]
  refine reads.mono ?_ ?_
  · rintro batch ⟨fetched, w⟩ ⟨extended, read⟩
    have keep := extended.keep
    cases checked : Record.check fetched.buffer batch.count level.moveToFront.keep with
    | error fault =>
      rw [← keep] at checked
      exact ⟨fetched, w, extended, .inr ⟨batch, read, checked⟩, by rw [← ready.size],
        cut fetched extended⟩
    | ok _ =>
      rw [← keep] at checked
      obtain ⟨fresh, number, row⟩ := Row.of_check checked
      obtain ⟨current, accepted, first, holds'⟩ := ready.accept extended number row
      rw [accepted]
      exact ⟨fresh, batch, fetched, number, rfl, row, extended, read, ⟨current, rfl, first⟩,
        holds'⟩
  · rintro fault ⟨fetched, w⟩ ⟨extended, failed⟩
    exact ⟨fetched, w, extended, .inl failed, by rw [← ready.size], cut fetched extended⟩

/-- What is known of a refill once it is known what its reads yield. `Fetched` speaks of the last
batch and of the level into which it was read. -/
theorem refill_meets_of_fetch (terms : Terms ρ) {level : Level} {world : World ρ}
    {kept : List Stored} (Fetched : Batch → Level → Prop) (holds : level.Holds kept)
    (last : kept.length ≤ 1) (more : level.isExhausted = false)
    (fetches : (fetch reader request patience level.cursor).Meets (level.moveToFront, world)
      (fun batch s => level.moveToFront.Extends s.1 ∧ Fetched batch s.1 ∧ terms.world s.2)
      fun fault s => level.moveToFront.Extends s.1 ∧ terms.world s.2 ∧ terms.cause fault)
    (checks : ∀ batch fetched fault, level.moveToFront.Extends fetched → Fetched batch fetched →
      Record.check fetched.buffer batch.count fetched.keep = .error fault → terms.cause fault) :
    (refill reader patience request).Meets (level, world)
      (fun n s => terms.world s.2 ∧ ∃ fresh batch fetched,
        fresh.length = n ∧ batch.count = n ∧ Row fetched.buffer fetched.keep fresh ∧
        level.moveToFront.Extends fetched ∧ Fetched batch fetched ∧
        (∃ current, s.1 = { fetched with cursor := batch.next, current }) ∧
        s.1.Holds (kept ++ fresh))
      fun fault s => terms.world s.2 ∧ terms.cause fault ∧ s.1.Holds kept ∧
        s.1.pathLength = level.pathLength ∧ s.1.cursor = level.cursor ∧
        s.1.buffer.length = level.buffer.length := by
  refine (refill_meets_of_reads holds last more fetches).mono ?_ ?_
  · rintro n s ⟨fresh, batch, fetched, number, count, row, extended, ⟨found, held⟩,
      ⟨current, same, -⟩, holds'⟩
    exact ⟨held, fresh, batch, fetched, number, count, row, extended, found, ⟨current, same⟩,
      holds'⟩
  · rintro fault ⟨left, _⟩ ⟨fetched, w, extended, failed, rfl, kept'⟩
    rcases failed with ⟨held, cause⟩ | ⟨batch, ⟨found, held⟩, refused⟩
    · exact ⟨terms.release _ w held, cause, kept'⟩
    · exact ⟨terms.release _ w held, checks batch fetched fault extended found refused, kept'⟩

/-! ## Any reader -/

/-- Reads yield records, or nothing at the end of the catalogue, or a fault of the reader's. -/
theorem fetch_meets (terms : Terms ρ) (covers : terms.Covers reader) {front : Level}
    (fits : front.keep ≤ front.buffer.length) {cursor : Int} {level : Level} {world : World ρ}
    (extended : front.Extends level) (w : terms.world world) :
    (fetch reader request patience cursor).Meets (level, world)
      (fun batch s => front.Extends s.1 ∧ (batch.count = 0 → batch.next = cursorEnd) ∧
        terms.world s.2)
      fun fault s => front.Extends s.1 ∧ terms.world s.2 ∧ terms.cause fault := by
  induction patience generalizing cursor level world with
  | zero => exact ⟨extended, w, covers.patience⟩
  | succ patience ih =>
    rw [fetch_succ_meets]
    have read := covers.source (call request level cursor) world w
    have written := extended.write (reader.read (call request level cursor) world.source).1
    dsimp only
    split
    · next batch result =>
      by_cases again : batch.count = 0 ∧ batch.next ≠ cursorEnd
      · rw [if_pos again]
        exact ih written read
      · rw [if_neg again]
        exact ⟨written, fun none' => Decidable.byContradiction fun other => again ⟨none', other⟩,
          read⟩
    · next fault result =>
      by_cases overflow : fault.kind = .overflow
      · rw [if_pos overflow]
        refine (growInPlace_meets terms written fits read).mono ?_ ?_
        · rintro _ ⟨grown, w⟩ ⟨extended, w, -⟩
          exact ih extended w
        · intro fault s failed
          exact failed
      · rw [if_neg overflow]
        exact ⟨written, read, covers.fault _ _ _ result overflow⟩

/-- A refill takes in what it reads behind what it kept, and takes in nothing only at the end of the
catalogue; one that fails leaves the level as it was but for the bytes behind its record. -/
theorem refill_meets (terms : Terms ρ) (covers : terms.Covers reader) {level : Level}
    {world : World ρ} {kept : List Stored} (holds : level.Holds kept) (last : kept.length ≤ 1)
    (more : level.isExhausted = false) (w : terms.world world) :
    (refill reader patience request).Meets (level, world)
      (fun n s => terms.world s.2 ∧ s.1.pathLength = level.pathLength ∧
        (n = 0 → s.1.isExhausted) ∧ ∃ fresh, fresh.length = n ∧ s.1.Holds (kept ++ fresh))
      fun fault s => terms.world s.2 ∧ terms.cause fault ∧ s.1.Holds kept ∧
        s.1.pathLength = level.pathLength ∧ s.1.cursor = level.cursor ∧
        s.1.buffer.length = level.buffer.length := by
  have ready := holds.moveToFront last
  have fetched : (fetch reader request patience level.cursor).Meets
      (level.moveToFront, world) _ _ :=
    fetch_meets terms covers ready.fits (Extends.refl _) w
  refine (refill_meets_of_fetch terms (fun batch _ => batch.count = 0 → batch.next = cursorEnd)
    holds last more fetched ?_).mono ?_ fun _ _ failed => failed
  · intro batch fetched fault _ _ refused
    obtain ⟨place, rfl⟩ := Record.check_error refused
    exact covers.malformed place
  · rintro n ⟨left, world⟩ ⟨w, fresh, batch, fetched, number, count, -, extended, ended,
      ⟨current, rfl⟩, holds'⟩
    refine ⟨w, (congrArg Level.pathLength extended.frame).trans ready.pathLength, ?_, fresh,
      number, holds'⟩
    intro none'
    simp only [isExhausted, decide_eq_true_eq]
    exact ended (by omega)

/-- A refill in a world that keeps to the terms has succeeded. -/
def Filled (level : Level) (terms : Terms ρ) (reader : Reader ρ) (request : Request)
    (filled : Level) : Prop :=
  ∃ patience world world' n, terms.world world ∧
    refill reader patience request (level, world) = .ok n (filled, world')

/-- At most, a refill in such a world has been tried. -/
def Tried (level : Level) (terms : Terms ρ) (reader : Reader ρ) (request : Request)
    (tried : Level) : Prop :=
  tried = level ∨ ∃ patience world, terms.world world ∧
    tried = ((refill reader patience request).leaves (level, world)).1

variable {terms : Terms ρ}

theorem Filled.tried {level filled : Level} (run : level.Filled terms reader request filled) :
    level.Tried terms reader request filled := by
  obtain ⟨patience, world, world', n, w, run⟩ := run
  refine .inr ⟨patience, world, w, ?_⟩
  rw [Act.leaves, run]

theorem Tried.of_error {level tried : Level} {world world' : World ρ} {fault : Fault}
    (w : terms.world world)
    (run : refill reader patience request (level, world) = .error fault (tried, world')) :
    level.Tried terms reader request tried := by
  refine .inr ⟨patience, world, w, ?_⟩
  rw [Act.leaves, run]

/-- A level that is not to be refilled refuses and stays as it is. -/
theorem refill_refuses (reader : Reader ρ) (patience : Nat) (request : Request) {level : Level}
    (world : World ρ) (unfit : level.isExhausted = true ∨ 1 < level.remaining) :
    ∃ fault, refill reader patience request (level, world) = .error fault (level, world) := by
  by_cases ended : level.isExhausted = true
  · refine ⟨.levelAtEnd, ?_⟩
    unfold refill
    rw [Act.get_bind]
    simp only [ended, if_true]
    rfl
  · have many : 1 < level.remaining := unfit.resolve_left ended
    refine ⟨.levelNotLast, ?_⟩
    unfold refill
    rw [Act.get_bind]
    simp only [ended, many, if_true]
    rfl

end Level

namespace Terms

/-- Nothing is known of the world or of faults. -/
def any (ρ : Type) : Terms ρ where
  world _ := True
  cause _ := True
  reserve _ _ _ := Act.meets_iff.mpr ⟨fun _ _ _ => trivial, fun _ _ _ => ⟨trivial, trivial⟩⟩
  release _ _ _ := trivial

theorem any_covers (reader : Reader ρ) : (any ρ).Covers reader :=
  ⟨fun _ _ _ => trivial, fun _ _ _ _ _ => trivial, fun _ => trivial, trivial⟩

end Terms

/-- Trying to refill a level leaves what it holds in front of what it may have taken in. -/
theorem Level.Tried.holds {terms : Terms ρ} {reader : Reader ρ} {request : Request}
    {level tried : Level} {kept : List Stored}
    (attempt : level.Tried terms reader request tried) (holds : level.Holds kept) :
    tried.pathLength = level.pathLength ∧ ∃ fresh, tried.Holds (kept ++ fresh) := by
  obtain rfl | ⟨patience, world, -, rfl⟩ := attempt
  · exact ⟨rfl, [], by rwa [List.append_nil]⟩
  · by_cases unfit : level.isExhausted = true ∨ 1 < level.remaining
    · obtain ⟨fault, run⟩ := Level.refill_refuses reader patience request world unfit
      rw [Act.leaves, run]
      exact ⟨rfl, [], by rwa [List.append_nil]⟩
    · rw [not_or, Bool.not_eq_true, holds.remaining] at unfit
      have outcome : (Level.refill reader patience request).Meets (level, world) _ _ :=
        Level.refill_meets (Terms.any ρ) (Terms.any_covers reader) holds (Nat.not_lt.mp unfit.2)
          unfit.1 trivial
      cases run : Level.refill reader patience request (level, world) with
      | ok n s =>
        obtain ⟨-, pathLength, -, fresh, -, holds⟩ := outcome.of_ok run
        rw [Act.leaves, run]
        exact ⟨pathLength, fresh, holds⟩
      | error fault s =>
        obtain ⟨-, -, holds, pathLength, -⟩ := outcome.of_error run
        rw [Act.leaves, run]
        exact ⟨pathLength, [], by rwa [List.append_nil]⟩

end Catwalk
