import Catwalk.Proofs.Histories

/-!
# Accounts

A walk is charged for its pattern, for its path and for its levels. Whatever a call does, and
whether it succeeds or fails, the bytes that are in use change as the charges of the walk do
(`advance_accounts_meets`, `reset_accounts_meets`), from a start that may charge nothing in the end
(`start_uses_meets`) to a close that gives all back (`close_uses`). A refill that fails gives back
what its buffer has grown by, and one of a sparing reader that brings in nothing has grown by
nothing; but a path that has grown keeps its room.
-/

namespace Catwalk

variable {ρ : Type} {source : ρ → Prop} {sparing : Prop} {reader : Reader ρ} {patience : Nat}
  {base bytes : Nat} {world : World ρ}

/-- The source of a world is as it should be, and so many bytes are in use. -/
structure World.Uses (source : ρ → Prop) (bytes : Nat) (world : World ρ) : Prop where
  source : source world.source
  used : world.ledger.used = bytes

/-- A reader keeps its source as it should be. If it is sparing, a call that it answers without
records is one that no other room would make it overflow on. -/
structure Reader.Steady (reader : Reader ρ) (source : ρ → Prop) (sparing : Prop) : Prop where
  keeps : ∀ call s, source s → source (reader.read call s).2
  sparing : sparing → ∀ (call : ReadCall) (buffer : Bytes) (s t : ρ) (batch : Batch)
    (fault : Fault), source s → source t → (reader.read call s).1.result = .ok batch →
    (reader.read { call with buffer } t).1.result = .error fault → fault.kind = .overflow →
    batch.count ≠ 0

theorem World.Uses.congr {other : Nat} (uses : world.Uses source bytes) (same : bytes = other) :
    world.Uses source other := same ▸ uses

theorem Reader.steady (reader : Reader ρ) : reader.Steady (fun _ => True) False :=
  ⟨fun _ _ _ => trivial, False.elim⟩

/-! ## The ledger -/

private theorem World.Uses.reserve_meets (uses : world.Uses source bytes) (size : Nat) :
    (World.charging (Ledger.reserve size)).Meets world (fun _ => World.Uses source (bytes + size))
      fun _ => World.Uses source bytes := by
  obtain ⟨held, used⟩ := uses
  unfold World.charging
  rw [Act.meets_within]
  refine (Ledger.reserve_used_meets size world.ledger).mono ?_ ?_
  · intro _ left granted
    exact ⟨held, by rw [granted, used]⟩
  · intro _ left refused
    exact ⟨held, refused.trans used⟩

private theorem World.Uses.release {size : Nat} (uses : world.Uses source (bytes + size)) :
    (world.updateLedger (Ledger.release size)).Uses source bytes := by
  obtain ⟨held, used⟩ := uses
  refine ⟨held, ?_⟩
  rw [World.updateLedger, Ledger.release_eq, used, Int.toNat_natCast, Nat.add_sub_cancel]

/-- What the levels of a stack are charged. -/
def LevelStack.charge (levels : LevelStack) : Nat := (levels.map Level.charge).foldr (· + ·) 0

namespace LevelStack

variable {level : Level} {levels others : LevelStack}

@[simp] theorem charge_nil : charge [] = 0 := rfl

@[simp] theorem charge_cons : charge (level :: levels) = level.charge + charge levels := rfl

@[simp] theorem charge_append : charge (levels ++ others) = charge levels + charge others := by
  induction levels with
  | nil => simp
  | cons level levels ih => simp [ih, Nat.add_assoc]

end LevelStack

private theorem World.Uses.releaseAll {levels : LevelStack}
    (uses : world.Uses source (bytes + levels.charge)) :
    (world.updateLedger (LevelStack.release levels)).Uses source bytes := by
  induction levels generalizing world with
  | nil => exact uses
  | cons level levels ih =>
    have first : (world.updateLedger (Ledger.release level.charge)).Uses source
        (bytes + LevelStack.charge levels) := by
      refine World.Uses.release ?_
      rw [LevelStack.charge_cons] at uses
      rwa [Nat.add_assoc, Nat.add_comm (LevelStack.charge levels)]
    exact ih first

/-! ## Levels -/

namespace Level

variable {request : Request}

private theorem charge_eq_of_length {level other : Level}
    (same : other.buffer.length = level.buffer.length) : other.charge = level.charge := by
  simp only [charge, same]

private theorem allocate_uses_meets (pathLength size : Nat) (uses : world.Uses source base) :
    (World.charging (allocate pathLength size)).Meets world
      (fun level w => w.Uses source (base + level.charge) ∧ level = fresh pathLength size)
      fun _ => World.Uses source base := by
  have reserved := uses.reserve_meets (headerSize + size)
  have whole : ¬ (size : Int) < 0 := by omega
  unfold World.charging allocate Ledger.reserveFor at *
  simp only [Act.meets_within, Act.meets_bind, Act.meets_get, if_neg whole, Act.meets_pure]
    at reserved ⊢
  refine reserved.mono ?_ fun _ _ failed => failed
  intro _ ledger uses
  simpa [charge, fresh, Bytes.zeros] using uses

/-- At a cursor where a fetch has had to make room, a read has overflowed. -/
def Overflowed (reader : Reader ρ) (source : ρ → Prop) (request : Request) (level : Level)
    (cursor : Int) : Prop :=
  ∃ buffer s fault, source s ∧
    (reader.read { call request level cursor with buffer } s).1.result = .error fault ∧
    fault.kind = .overflow

private theorem growInPlace_uses_meets {front level : Level}
    (fits : front.keep ≤ front.buffer.length) (extended : front.Extends level)
    (uses : world.Uses source (bytes + (level.buffer.length - front.buffer.length))) :
    growInPlace.Meets (level, world)
      (fun _ s => front.Extends s.1 ∧
        s.2.Uses source (bytes + (s.1.buffer.length - front.buffer.length)))
      fun _ s => front.Extends s.1 ∧
        s.2.Uses source (bytes + (s.1.buffer.length - front.buffer.length)) := by
  have long := extended.long
  have reserved := uses.reserve_meets level.buffer.length
  unfold growInPlace grow World.charging at *
  simp only [Act.meets_bind, Act.meets_within, Act.meets_get, Act.meets_modify, Act.meets_pure]
    at reserved ⊢
  refine reserved.mono ?_ fun _ _ uses => ⟨extended, uses⟩
  intro _ ledger uses
  refine ⟨extended.grow fits _, uses.congr ?_⟩
  simp only [List.length_append, Bytes.zeros, List.length_replicate]
  omega

/-- Whatever a fetch adds to the buffer is charged. A sparing reader that has overflowed brings in a
record, so a fetch that brings in nothing has added nothing. -/
private theorem fetch_uses_meets (steady : reader.Steady source sparing) {front level : Level}
    {cursor : Int} (fits : front.keep ≤ front.buffer.length) (extended : front.Extends level)
    (uses : world.Uses source (bytes + (level.buffer.length - front.buffer.length)))
    (small : sparing → level.buffer.length = front.buffer.length ∨
      Overflowed reader source request front cursor) :
    (fetch reader request patience cursor).Meets (level, world)
      (fun batch s => front.Extends s.1 ∧
        s.2.Uses source (bytes + (s.1.buffer.length - front.buffer.length)) ∧
        (sparing → batch.count = 0 → s.1.buffer.length = front.buffer.length))
      fun _ s => front.Extends s.1 ∧
        s.2.Uses source (bytes + (s.1.buffer.length - front.buffer.length)) := by
  induction patience generalizing cursor level world with
  | zero => exact ⟨extended, uses⟩
  | succ patience ih =>
    rw [fetch_succ_meets]
    generalize answered : reader.read (call request level cursor) world.source = answer
    have written := extended.write answer.1
    have held := uses.source
    have kept : source answer.2 := answered ▸ steady.keeps _ _ held
    have length : (answer.1.into level.buffer level.keep).length = level.buffer.length :=
      Bytes.length_overwrite _ _ _
    have asked : call request level cursor =
        { call request front cursor with buffer := level.buffer } := by
      simp only [call, extended.keep]
    have uses' : World.Uses source
        (bytes + ((answer.1.into level.buffer level.keep).length - front.buffer.length))
        { world with source := answer.2 } := by
      rw [length]
      exact ⟨kept, uses.used⟩
    dsimp only
    split
    · next batch result =>
      -- an answer without records shows that there was no overflow before
      have nothing : sparing → batch.count = 0 → level.buffer.length = front.buffer.length := by
        intro spare none'
        refine (small spare).resolve_right ?_
        rintro ⟨buffer, s, fault, started, overflowed, kind⟩
        rw [← answered, asked] at result
        exact steady.sparing spare _ buffer world.source s batch fault held started result
          overflowed kind none'
      by_cases again : batch.count = 0 ∧ batch.next ≠ cursorEnd
      · rw [if_pos again]
        exact ih written uses' fun spare => .inl (length.trans (nothing spare again.1))
      · rw [if_neg again]
        exact ⟨written, uses', fun spare none' => length.trans (nothing spare none')⟩
    · next fault result =>
      by_cases overflow : fault.kind = .overflow
      · rw [if_pos overflow]
        refine (growInPlace_uses_meets fits written uses').mono ?_ fun _ _ failed => failed
        rintro _ ⟨grown, world'⟩ ⟨extended, uses⟩
        refine ih extended uses fun _ => .inr ⟨level.buffer, world.source, fault, held, ?_,
          overflow⟩
        rw [← asked, answered]
        exact result
      · rw [if_neg overflow]
        exact ⟨written, uses'⟩

/-- Beside what was in use, a refill uses what its buffer has grown by, and one that fails uses
nothing: what has been added to the buffer is cut off and given back. -/
theorem refill_grows_meets (steady : reader.Steady source sparing) {level : Level}
    {kept : List Stored} (holds : level.Holds kept) (last : kept.length ≤ 1)
    (more : level.isExhausted = false) (uses : world.Uses source bytes) :
    (refill reader patience request).Meets (level, world)
      (fun n s => level.buffer.length ≤ s.1.buffer.length ∧
        s.2.Uses source (bytes + (s.1.buffer.length - level.buffer.length)) ∧
        (sparing → n = 0 → s.1.buffer.length = level.buffer.length))
      fun _ s => s.1.buffer.length = level.buffer.length ∧ s.2.Uses source bytes := by
  have ready := holds.moveToFront last
  have size := ready.size
  have reads : (fetch reader request patience level.cursor).Meets (level.moveToFront, world)
      (fun batch s => level.moveToFront.Extends s.1 ∧
        s.2.Uses source (bytes + (s.1.buffer.length - level.moveToFront.buffer.length)) ∧
        (sparing → batch.count = 0 → s.1.buffer.length = level.moveToFront.buffer.length))
      fun _ s => level.moveToFront.Extends s.1 ∧
        s.2.Uses source (bytes + (s.1.buffer.length - level.moveToFront.buffer.length)) := by
    refine fetch_uses_meets steady ready.fits (.refl _) ?_ fun _ => .inl rfl
    rwa [Nat.sub_self, Nat.add_zero]
  rw [size] at reads
  refine (refill_meets_of_reads holds last more reads).mono ?_ ?_
  · rintro n ⟨left, w⟩ ⟨fresh, batch, fetched, number, count, row, extended, ⟨uses, nothing⟩,
      ⟨current, rfl, -⟩, -⟩
    exact ⟨size ▸ extended.long, uses, fun spare none' => nothing spare (count.trans none')⟩
  · rintro fault ⟨left, _⟩ ⟨fetched, w, extended, failed, rfl, -, -, -, same⟩
    have uses : w.Uses source (bytes + (fetched.buffer.length - level.buffer.length)) := by
      rcases failed with uses | ⟨batch, ⟨uses, -⟩, -⟩
      · exact uses
      · exact uses
    exact ⟨same, uses.release⟩

/-- A refill leaves the level charged for the buffer that it has. One that fails has changed nothing
in that, nor has one of a sparing reader that brings in nothing. -/
private theorem refill_uses_meets (steady : reader.Steady source sparing) {level : Level}
    {kept : List Stored} (holds : level.Holds kept) (last : kept.length ≤ 1)
    (more : level.isExhausted = false) (uses : world.Uses source (base + level.charge)) :
    (refill reader patience request).Meets (level, world)
      (fun n s => s.2.Uses source (base + s.1.charge) ∧
        (sparing → n = 0 → s.1.charge = level.charge))
      fun _ s => s.2.Uses source (base + level.charge) ∧ s.1.charge = level.charge := by
  refine (refill_grows_meets steady holds last more uses).mono ?_ ?_
  · rintro n ⟨left, w⟩ ⟨long, uses, nothing⟩
    dsimp only at long
    refine ⟨uses.congr ?_, fun spare none' => charge_eq_of_length (nothing spare none')⟩
    simp only [charge]
    omega
  · rintro fault ⟨left, w⟩ ⟨same, uses⟩
    exact ⟨uses, charge_eq_of_length same⟩

/-- A directory that is entered charges its level, and one that is not charges nothing. -/
private theorem enter?_uses_meets (steady : reader.Steady source sparing) {pathLength size : Nat}
    (uses : world.Uses source base) :
    (enter? reader patience request pathLength size).Meets world
      (fun found w => w.Uses source (base + LevelStack.charge found.toList))
      fun _ w => w.Uses source base := by
  refine Act.meets_bind.mpr ((allocate_uses_meets pathLength size uses).mono ?_
    fun _ _ failed => failed)
  rintro _ world ⟨uses, rfl⟩
  have filled : (refill reader patience request).Meets (fresh pathLength size, world) _ _ :=
    refill_uses_meets steady (fresh_holds pathLength size) (Nat.zero_le _) rfl uses
  unfold Act.Meets
  dsimp only
  cases run : refill reader patience request (fresh pathLength size, world) with
  | ok n s =>
    obtain ⟨uses, -⟩ := filled.of_ok run
    dsimp only
    by_cases empty : s.1.remaining = 0
    · rw [if_pos empty]
      exact uses.release
    · rw [if_neg empty]
      exact uses
  | error fault s =>
    obtain ⟨uses, same⟩ := filled.of_error run
    rw [← same] at uses
    exact uses.release

end Level

/-! ## Paths -/

private theorem PathBuffer.capacity_of_truncate {buffer path : PathBuffer} {length : Int}
    (cut : buffer.truncate length = .ok path) : path.capacity = buffer.capacity := by
  unfold truncate at cut
  split at cut
  · cases cut
    rfl
  · cases cut

private theorem PathBuffer.capacity_of_restore {buffer path : PathBuffer} {text : Text}
    (restored : buffer.restore text = .ok path) : path.capacity = buffer.capacity := by
  unfold restore at restored
  split at restored
  · cases restored
  · cases restored
    rfl

/-- What a buffer grows by is charged, and it grows only for a text that does not fit. -/
private theorem PathBuffer.append_uses_meets (buffer : PathBuffer) (text : Text)
    (uses : world.Uses source (base + buffer.capacity)) :
    (World.charging (buffer.append text)).Meets world
      (fun path w => w.Uses source (base + path.capacity) ∧
        (path.capacity = buffer.capacity ∨ buffer.capacity ≤ path.text.length))
      fun _ w => w.Uses source (base + buffer.capacity) := by
  have room := (buffer.le_capacityFor (buffer.text.length + text.length + 1)).2
  have reserved := uses.reserve_meets
    (buffer.capacityFor (buffer.text.length + text.length + 1) - buffer.capacity)
  unfold World.charging append at *
  simp only [Act.meets_within, Act.meets_bind, Act.meets_pure] at reserved ⊢
  refine reserved.mono ?_ fun _ _ failed => failed
  intro _ ledger uses
  rw [Nat.add_assoc, Nat.add_sub_cancel' room] at uses
  refine ⟨uses, ?_⟩
  by_cases fits : buffer.text.length + text.length + 1 ≤ buffer.capacity
  · left
    simp [capacityFor, fits]
  · right
    rw [List.length_append]
    omega

private theorem PathBuffer.appendSeparated_uses_meets (buffer : PathBuffer) (separator text : Text)
    (uses : world.Uses source (base + buffer.capacity)) :
    (World.charging (buffer.appendSeparated separator text)).Meets world
      (fun path w => w.Uses source (base + path.capacity) ∧
        (path.capacity = buffer.capacity ∨ buffer.capacity ≤ path.text.length))
      fun _ w => w.Uses source (base + buffer.capacity) := by
  unfold appendSeparated
  split
  · exact buffer.append_uses_meets _ uses
  · exact buffer.append_uses_meets _ uses

namespace Walk

variable {walk : Walk} {root : Text} {deeper shallower done left : LevelStack} {level : Level}

theorem charge_eq (walk : Walk) : walk.charge =
    walk.settings.patternCharge + walk.path.capacity + LevelStack.charge walk.levels := rfl

/-- Beside what others use, just what the walk is charged is in use. -/
def Accounts (source : ρ → Prop) (base : Nat) (s : Scene ρ) : Prop :=
  s.2.Uses source (base + s.1.charge)

/-- What a failure leaves: accounts that are in order, a path with as much room as before and, if
the reader is sparing and no level was given up, levels that are charged as much as before. -/
structure Spent (source : ρ → Prop) (sparing : Prop) (base : Nat) (before : Walk) (s : Scene ρ) :
    Prop where
  accounts : Accounts source base s
  capacity : s.1.path.capacity = before.path.capacity
  levels : sparing → s.1.depth = before.depth →
    LevelStack.charge s.1.levels = LevelStack.charge before.levels

private theorem Accounts.spent {s : Scene ρ} (accounts : Accounts source base s)
    (capacity : s.1.path.capacity = walk.path.capacity) (same : s.1.levels = walk.levels) :
    Spent source sparing base walk s :=
  ⟨accounts, capacity, fun _ _ => congrArg LevelStack.charge same⟩

private theorem Spent.of_charge {after : Walk} {s : Scene ρ}
    (spent : Spent source sparing base after s)
    (capacity : after.path.capacity = walk.path.capacity) (depth : after.depth = walk.depth)
    (same : sparing → LevelStack.charge after.levels = LevelStack.charge walk.levels) :
    Spent source sparing base walk s := by
  refine ⟨spent.accounts, spent.capacity.trans capacity, ?_⟩
  intro spare deep
  exact (spent.levels spare (deep.trans depth.symm)).trans (same spare)

/-- The path of the object that the walk stands on has no room in its path buffer. -/
def Outgrown (walk : Walk) : Prop :=
  ∃ level shallower record records, walk.levels = level :: shallower ∧
    level.Holds (record :: records) ∧ walk.path.capacity ≤ (walk.childPath record).length

/-- The same levels, with more room for the path if it was outgrown. -/
structure Lengthened (before after : Walk) : Prop where
  levels : after.levels = before.levels
  capacity : after.path.capacity = before.path.capacity ∨ before.Outgrown

private theorem openDirectory_uses_meets (steady : reader.Steady source sparing)
    (uses : world.Uses source bytes) :
    (openDirectory reader patience).Meets (walk, world)
      (fun found s => s.1 = walk ∧ s.2.Uses source (bytes + LevelStack.charge found.toList))
      fun _ s => s.1 = walk ∧ s.2.Uses source bytes := by
  unfold openDirectory getWalk around
  simp only [Act.meets_bind, Act.meets_get, Act.meets_pure, Act.meets_within]
  exact (Level.enter?_uses_meets steady uses).mono (fun _ _ uses => ⟨trivial, uses⟩)
    fun _ _ uses => ⟨trivial, uses⟩

/-- A directory below that is entered is charged beside the walk. -/
private theorem descend?_accounts_meets (steady : reader.Steady source sparing) {record : Stored}
    {records : List Stored} (levels : walk.levels = level :: shallower)
    (holds : level.Holds (record :: records)) (accounts : Accounts source base (walk, world)) :
    (descend? reader patience level).Meets (walk, world)
      (fun found s => walk.Lengthened s.1 ∧
        s.2.Uses source (base + s.1.charge + LevelStack.charge found.toList))
      fun _ s => walk.Lengthened s.1 ∧ Accounts source base s := by
  have unchanged : walk.Lengthened walk := ⟨rfl, .inl rfl⟩
  unfold descend? getWalk
  simp only [Act.meets_bind, Act.meets_get, Act.meets_pure, Act.meets_ofExcept, holds.objectType,
    holds.name]
  by_cases enters : walk.settings.enters record.header.objectType = true
  · rw [if_pos enters]
    unfold around change undoPath change
    simp only [Act.meets_bind, Act.meets_within, Act.meets_ofExcept, Act.meets_modify]
    -- the path is charged apart from the pattern and the levels
    have paid : world.Uses source (base + walk.settings.patternCharge +
        LevelStack.charge walk.levels + walk.path.capacity) := by
      refine accounts.congr ?_
      simp only [charge_eq]
      omega
    have w : (Terms.any ρ).world world := trivial
    have appended : (World.charging (walk.path.appendSeparated walk.settings.separator
        (Text.decode record.name))).Meets world _ _ :=
      (walk.path.appendSeparated_meets walk.settings _ w).and
        (walk.path.appendSeparated_uses_meets walk.settings.separator _ paid)
    refine appended.mono ?_ ?_
    · rintro path world ⟨⟨-, text, -⟩, uses, capacity⟩
      have accounts : Accounts source base ({ walk with path }, world) := by
        refine uses.congr ?_
        simp only [charge_eq]
        omega
      have lengthened : ∀ after : Walk, after.levels = walk.levels →
          after.path.capacity = path.capacity → walk.Lengthened after := by
        intro after same room
        refine ⟨same, ?_⟩
        rcases capacity with kept | grown
        · exact .inl (room.trans kept)
        · rw [text] at grown
          exact .inr ⟨level, shallower, record, records, levels, holds, grown⟩
      have opened : (openDirectory reader patience).Meets ({ walk with path }, world) _ _ :=
        openDirectory_uses_meets steady accounts
      simp only [Act.meets_onFault, Act.meets_modify]
      refine opened.mono ?_ ?_
      · rintro found ⟨_, world⟩ ⟨rfl, uses⟩
        cases found with
        | some inner => exact ⟨lengthened _ rfl rfl, uses⟩
        | none => exact ⟨lengthened _ rfl rfl, uses⟩
      · rintro fault ⟨_, world⟩ ⟨rfl, uses⟩
        exact ⟨lengthened _ rfl rfl, uses⟩
    · rintro fault world ⟨-, uses⟩
      refine ⟨unchanged, uses.congr ?_⟩
      simp only [charge_eq]
      omega
  · rw [if_neg enters]
    exact ⟨unchanged, accounts⟩

/-! ## Going up -/

/-- A change of the path within its capacity. -/
private theorem changePath_accounts_meets {update : PathBuffer → Except Fault PathBuffer}
    (within' : ∀ path path', update path = .ok path' → path'.capacity = path.capacity)
    (accounts : Accounts source base (walk, world)) :
    (changePath update).Meets (walk, world)
      (fun _ s => Accounts source base s ∧ s.1.path.capacity = walk.path.capacity ∧
        s.1.levels = walk.levels)
      fun _ s => Accounts source base s ∧ s.1.path.capacity = walk.path.capacity ∧
        s.1.levels = walk.levels := by
  unfold changePath getWalk change
  simp only [Act.meets_bind, Act.meets_get, Act.meets_pure, Act.meets_modify, Act.meets_ofExcept]
  cases changed : update walk.path with
  | error fault => exact ⟨accounts, trivial, trivial⟩
  | ok path =>
    have room := within' _ _ changed
    refine ⟨accounts.congr ?_, room, trivial⟩
    rw [charge_eq, charge_eq, room]

private theorem settle_accounts_meets (levels : walk.levels = done ++ left)
    (accounts : Accounts source base (walk, world)) :
    (settle done left).Meets (walk, world) (fun _ => Accounts source base)
      fun _ s => Accounts source base s ∧ s.1.path.capacity = walk.path.capacity ∧
        s.1.levels = left := by
  have given : (world.updateLedger (LevelStack.release done)).Uses source
      (base + { walk with levels := left }.charge) := by
    refine World.Uses.releaseAll (accounts.congr ?_)
    simp only [charge_eq, levels, LevelStack.charge_append]
    omega
  unfold settle getWalk
  simp only [Act.meets_bind, Act.meets_get, Act.meets_pure, Act.meets_modify]
  exact (changePath_accounts_meets (fun _ _ => PathBuffer.capacity_of_truncate) given).mono
    (fun _ _ done => done.1) fun _ _ failed => failed

private theorem refillBetween_accounts_meets (steady : reader.Steady source sparing)
    {deeper : LevelStack} {kept : List Stored} (levels : walk.levels = deeper ++ level :: shallower)
    (holds : level.Holds kept) (last : kept.length ≤ 1) (more : level.isExhausted = false)
    (accounts : Accounts source base (walk, world)) :
    (refillBetween reader patience deeper level shallower).Meets (walk, world)
      (fun filled s => Accounts source base s ∧ s.1.levels = deeper ++ filled :: shallower ∧
        s.1.path = walk.path ∧ (∃ fresh, filled.Holds (kept ++ fresh)) ∧
        (sparing → filled.remaining = level.remaining → filled.charge = level.charge))
      fun _ s => Spent source sparing base walk s := by
  have apart : world.Uses source (base + walk.settings.patternCharge + walk.path.capacity +
      LevelStack.charge deeper + LevelStack.charge shallower + level.charge) := by
    refine accounts.congr ?_
    simp only [charge_eq, levels, LevelStack.charge_append, LevelStack.charge_cons]
    omega
  have joined : ∀ (other : Level) (w : World ρ),
      w.Uses source (base + walk.settings.patternCharge + walk.path.capacity +
        LevelStack.charge deeper + LevelStack.charge shallower + other.charge) →
      Accounts source base ({ walk with levels := deeper ++ other :: shallower }, w) := by
    intro other w uses
    refine uses.congr ?_
    simp only [charge_eq, LevelStack.charge_append, LevelStack.charge_cons]
    omega
  have filled : (Level.refill reader patience (walk.settings.request walk.path.text)).Meets
      (level, world) _ _ :=
    (Level.refill_meets (Terms.any ρ) (Terms.any_covers reader) holds last more trivial).and
      (Level.refill_uses_meets steady holds last more apart)
  unfold Act.Meets refillBetween
  dsimp only
  cases run : Level.refill reader patience (walk.settings.request walk.path.text)
      (level, world) with
  | ok n s =>
    obtain ⟨⟨-, -, -, fresh, number, left⟩, uses, nothing⟩ := filled.of_ok run
    refine ⟨joined s.1 s.2 uses, rfl, rfl, ⟨fresh, left⟩, fun spare same => nothing spare ?_⟩
    rw [left.remaining, holds.remaining, List.length_append] at same
    omega
  | error fault s =>
    obtain ⟨-, uses, same⟩ := filled.of_error run
    refine ⟨joined s.1 s.2 (same ▸ uses), rfl, fun _ _ => ?_⟩
    simp only [levels, LevelStack.charge_append, LevelStack.charge_cons, same]

private theorem refillAbove_accounts_meets (steady : reader.Steady source sparing)
    {deeper : LevelStack} (levels : walk.levels = deeper ++ level :: shallower)
    (holds : level.Holds []) (more : level.isExhausted = false)
    (accounts : Accounts source base (walk, world)) :
    (refillAbove reader patience deeper level shallower).Meets (walk, world)
      (fun filled s => Accounts source base s ∧ s.1.path.capacity = walk.path.capacity ∧
        s.1.levels = deeper ++ filled :: shallower ∧
        (sparing → filled.remaining = level.remaining → filled.charge = level.charge))
      fun _ s => Spent source sparing base walk s := by
  unfold refillAbove
  rw [Act.meets_bind]
  refine (changePath_accounts_meets (fun _ _ => PathBuffer.capacity_of_truncate) accounts).mono ?_
    fun _ _ failed => failed.1.spent failed.2.1 failed.2.2
  rintro _ ⟨cut, world⟩ ⟨accounts, room, same⟩
  have filled : (refillBetween reader patience deeper level shallower).Meets (cut, world) _ _ :=
    refillBetween_accounts_meets steady (same.trans levels) holds (Nat.zero_le _) more accounts
  unfold undoPath change
  simp only [Act.meets_bind, Act.meets_onFault, Act.meets_modify, Act.meets_pure]
  refine filled.mono ?_ ?_
  · rintro filled ⟨left, world⟩ ⟨accounts, levels, path, -, nothing⟩
    exact ⟨accounts, (congrArg PathBuffer.capacity path).trans room, levels, nothing⟩
  · rintro fault ⟨left, world⟩ spent
    refine Spent.of_charge ⟨spent.accounts, spent.capacity, spent.levels⟩ room ?_ fun _ => ?_
    · rw [depth, depth, same]
    · rw [same]

/-- Once the levels that were done are given up, the walk is less deep than it was. -/
private theorem settle_spent_meets {done left : LevelStack} {now : Walk} (some' : done ≠ [])
    (length : walk.levels.length = (done ++ left).length) (levels : now.levels = done ++ left)
    (room : now.path.capacity = walk.path.capacity) (accounts : Accounts source base (now, world)) :
    (settle done left).Meets (now, world) (fun _ => Accounts source base)
      fun _ => Spent source sparing base walk := by
  refine (settle_accounts_meets levels accounts).mono (fun _ _ done => done) ?_
  rintro fault s ⟨accounts, room', left'⟩
  refine ⟨accounts, room'.trans room, fun _ same => absurd same ?_⟩
  have shorter := List.length_pos_iff.mpr some'
  rw [List.length_append] at length
  unfold depth
  rw [left', length]
  omega

/-- Going up gives back what the levels that it leaves are charged, or leaves none. -/
private theorem climb_accounts_meets (steady : reader.Steady source sparing) {left : LevelStack} :
    ∀ {done : LevelStack} {walk : Walk} {world : World ρ},
    (∀ level ∈ left, ∃ kept, level.Holds kept) → done ≠ [] → walk.levels = done ++ left →
    Accounts source base (walk, world) →
    (climb reader patience done left).Meets (walk, world) (fun _ => Accounts source base)
      fun _ => Spent source sparing base walk := by
  induction left with
  | nil =>
    intro done walk world _ some' levels accounts
    exact settle_spent_meets some' (congrArg List.length levels) levels rfl accounts
  | cons level shallower ih =>
    intro done walk world holds some' levels accounts
    obtain ⟨kept, held⟩ := holds level List.mem_cons_self
    have others := fun other member => holds other (List.mem_cons_of_mem level member)
    have more' : ∀ spent : Level, done ++ [spent] ≠ [] := fun spent => by simp
    unfold climb
    by_cases standing : 0 < level.remaining
    · rw [if_pos standing]
      exact settle_spent_meets some' (congrArg List.length levels) levels rfl accounts
    rw [if_neg standing]
    by_cases ended : level.isExhausted = true
    · rw [if_pos ended]
      exact ih others (more' level) (by rw [levels, List.append_assoc]; rfl) accounts
    rw [if_neg ended, Act.meets_bind]
    have none' : level.remaining = 0 := Nat.eq_zero_of_not_pos standing
    have nothing : kept = [] := by
      rw [held.remaining] at none'
      exact List.eq_nil_of_length_eq_zero none'
    subst nothing
    refine (refillAbove_accounts_meets steady levels held (Bool.not_eq_true _ ▸ ended)
      accounts).mono ?_ fun _ _ failed => failed
    rintro filled ⟨after, world⟩ ⟨accounts, room, levels', same⟩
    change after.levels = done ++ filled :: shallower at levels'
    have length : walk.levels.length = (done ++ filled :: shallower).length := by
      rw [levels, List.length_append, List.length_append, List.length_cons, List.length_cons]
    by_cases found : 0 < filled.remaining
    · rw [if_pos found]
      exact settle_spent_meets some' length levels' room accounts
    · rw [if_neg found]
      refine (ih others (more' filled) (by rw [levels', List.append_assoc]; rfl) accounts).mono
        (fun _ _ done => done) ?_
      intro fault s spent
      refine spent.of_charge room ?_ fun spare => ?_
      · unfold depth
        rw [levels', length]
      · have equal := same spare (by omega)
        simp only [levels', levels, LevelStack.charge_append, LevelStack.charge_cons, equal]

/-! ## One step -/

/-- Moving on once the deepest level has been refilled, if that was to be done. -/
private theorem moveOn_filled_accounts_meets (steady : reader.Steady source sparing)
    (levels : walk.levels = level :: shallower)
    (others : ∀ level ∈ shallower, ∃ kept, level.Holds kept) {filled : Level} {begun : Walk}
    {record : Stored} {rest : List Stored} (left : filled.Holds (record :: rest))
    (levels' : begun.levels = filled :: shallower)
    (room : begun.path.capacity = walk.path.capacity)
    (accounts : Accounts source base (begun, world))
    (same : sparing → filled.remaining < 2 → filled.charge = level.charge) :
    Act.Meets (if filled.remaining < 2 then climb reader patience [filled] shallower
      else do
        let level ← Act.ofExcept filled.advance
        change fun walk => { walk with levels := level :: shallower }) (begun, world)
      (fun _ => Accounts source base) fun _ => Spent source sparing base walk := by
  by_cases few : filled.remaining < 2
  · rw [if_pos few]
    refine (climb_accounts_meets steady others (List.cons_ne_nil _ _) levels' accounts).mono
      (fun _ _ done => done) fun _ _ spent => spent.of_charge room ?_ fun spare => ?_
    · rw [depth, depth, levels', levels, List.length_cons, List.length_cons]
    · rw [levels', levels, LevelStack.charge_cons, LevelStack.charge_cons, same spare few]
  · rw [if_neg few]
    obtain ⟨current, advanced, -⟩ := left.advance
    unfold change
    simp only [Act.meets_bind, Act.meets_ofExcept, advanced, Act.meets_modify]
    refine accounts.congr ?_
    simp only [charge_eq, levels', LevelStack.charge_cons, Level.charge]

private theorem moveOn_accounts_meets (steady : reader.Steady source sparing) {record : Stored}
    {records : List Stored} (levels : walk.levels = level :: shallower)
    (holds : level.Holds (record :: records))
    (others : ∀ level ∈ shallower, ∃ kept, level.Holds kept)
    (accounts : Accounts source base (walk, world)) :
    (moveOn reader patience level shallower).Meets (walk, world) (fun _ => Accounts source base)
      fun _ => Spent source sparing base walk := by
  unfold moveOn
  dsimp only
  by_cases refills : level.remaining < 2 ∧ (!level.isExhausted) = true
  · obtain ⟨few, more⟩ := refills
    have ended : level.isExhausted = false := by
      rwa [Bool.not_eq_true'] at more
    have last : (record :: records).length ≤ 1 := by
      rw [← holds.remaining]
      omega
    rw [if_pos ⟨few, more⟩, Act.meets_bind]
    have filled : (refillBetween reader patience [] level shallower).Meets (walk, world) _ _ :=
      refillBetween_accounts_meets steady levels holds last ended accounts
    refine filled.mono ?_ fun _ _ failed => failed
    rintro filled ⟨begun, world⟩ ⟨accounts, levels', path, ⟨fresh, left⟩, same⟩
    refine moveOn_filled_accounts_meets steady levels others left levels'
      (congrArg PathBuffer.capacity path) accounts fun spare few' => ?_
    have none' := left.remaining
    have one := holds.remaining
    rw [List.cons_append, List.length_cons] at none'
    rw [List.length_cons] at one
    exact same spare (by omega)
  · rw [if_neg refills]
    exact moveOn_filled_accounts_meets steady levels others holds levels rfl accounts
      fun _ _ => rfl

/-- A step keeps the accounts in order. One that fails has spent nothing, but on its path if that
was outgrown. -/
private theorem step_accounts_meets (steady : reader.Steady source sparing)
    (sound : walk.Sound root) (accounts : Accounts source base (walk, world)) :
    (step reader patience).Meets (walk, world) (fun _ => Accounts source base)
      fun _ s => ∃ begun, walk.Lengthened begun ∧ Spent source sparing base begun s := by
  unfold step getWalk
  simp only [Act.meets_bind, Act.meets_get, Act.meets_pure]
  cases levels : walk.levels with
  | nil => exact accounts
  | cons level shallower =>
    obtain ⟨record, records, holds⟩ := sound.exists_record levels
    have others : ∀ level ∈ shallower, ∃ kept, level.Holds kept := by
      intro other member
      exact sound.stack.holds other (levels ▸ List.mem_cons_of_mem level member)
    dsimp only
    rw [Act.meets_bind]
    refine (descend?_accounts_meets steady levels holds accounts).mono ?_ ?_
    · rintro found ⟨begun, world⟩ ⟨lengthened, uses⟩
      have same : begun.levels = walk.levels := lengthened.levels
      cases found with
      | some inner =>
        obtain ⟨current, advanced, -⟩ := holds.advance
        unfold change
        simp only [Act.meets_bind, Act.meets_ofExcept, advanced, Act.meets_modify]
        refine uses.congr ?_
        simp only [charge_eq, same, levels, LevelStack.charge_cons, LevelStack.charge_nil,
          Option.toList_some, Level.charge]
        omega
      | none =>
        exact (moveOn_accounts_meets steady (same.trans levels) holds others uses).mono
          (fun _ _ done => done) fun _ _ spent => ⟨begun, lengthened, spent⟩
    · rintro fault s ⟨lengthened, accounts⟩
      exact ⟨s.1, lengthened, accounts.spent rfl rfl⟩

/-! ## Whole calls -/

/-- Passing over records keeps the accounts in order, even where it fails. -/
private theorem skipUnmatched_accounts_meets (steady : reader.Steady source sparing)
    {start : Option Position} {n : Nat} (sound : walk.Sound root)
    (accounts : Accounts source base (walk, world)) :
    (skipUnmatched reader patience start n).Meets (walk, world) (fun _ => Accounts source base)
      fun _ => Accounts source base := by
  induction n generalizing walk world with
  | zero =>
    obtain ⟨unmatched, decided⟩ := sound.exists_isUnmatched
    unfold skipUnmatched
    rw [Act.meets_bind, passesOver_meets decided]
    cases unmatched <;> exact accounts
  | succ n ih =>
    obtain ⟨unmatched, decided⟩ := sound.exists_isUnmatched
    unfold skipUnmatched
    rw [Act.meets_bind, passesOver_meets decided]
    cases unmatched with
    | false => exact accounts
    | true =>
      have held := sound.holdOn (walk.held.or start)
      rw [if_pos rfl, if_pos rfl, Act.meets_bind]
      have stepped : (step reader patience).Meets
          ({ walk with held := walk.held.or start }, world) _ _ :=
        (step_sound_meets (Terms.any_covers reader) held trivial).and
          (step_accounts_meets steady held accounts)
      refine stepped.mono ?_ ?_
      · rintro _ ⟨next, world⟩ ⟨⟨-, -, sound⟩, accounts⟩
        exact ih sound accounts
      · rintro fault s ⟨-, begun, -, spent⟩
        exact spent.accounts

private theorem openRoot_accounts_meets (steady : reader.Steady source sparing)
    (accounts : Accounts source base (walk, world)) :
    (openRoot reader patience).Meets (walk, world) (fun _ => Accounts source base)
      fun _ s => s.1 = walk ∧ Accounts source base s := by
  unfold openRoot change
  rw [Act.meets_bind]
  refine (openDirectory_uses_meets steady accounts).mono ?_ ?_
  · rintro found ⟨_, world⟩ ⟨rfl, uses⟩
    cases found with
    | some inner =>
      refine uses.congr ?_
      simp only [charge_eq, LevelStack.charge_cons, LevelStack.charge_nil, Option.toList_some]
      omega
    | none => exact uses
  · rintro fault ⟨_, world⟩ ⟨rfl, uses⟩
    exact ⟨rfl, uses⟩

private theorem opening_accounts_meets (steady : reader.Steady source sparing)
    (sound : walk.Sound root)
    (bare : walk.levels = []) (accounts : Accounts source base (walk, world)) :
    (opening reader patience).Meets (walk, world) (fun _ => Accounts source base)
      fun _ s => Accounts source base s ∧ (walk.settings.filters = false → s.1 = walk) := by
  have covers := Terms.any_covers reader
  have opened : (openRoot reader patience).Meets (walk, world) _ _ :=
    (openRoot_meets trivial bare (covers.serves _ (Level.fresh_holds _ _))).and
      (openRoot_accounts_meets steady accounts)
  unfold opening
  rw [Act.meets_bind]
  refine opened.mono ?_ fun _ _ failed => ⟨failed.2.2, fun _ => failed.2.1⟩
  rintro _ ⟨next, world⟩ ⟨⟨-, outcome⟩, accounts⟩
  by_cases filters : walk.settings.filters = true
  · refine (skipUnmatched_accounts_meets steady (outcome.sound sound bare) accounts).mono
      (fun _ _ done => done) ?_
    intro _ s failed
    exact ⟨failed, fun shows => absurd filters (by simp [shows])⟩
  · have shows : next.settings.filters = false := by
      rw [outcome.sameSetup.settings]
      exact eq_false_of_ne_true filters
    exact skipUnmatched_of_not_filters shows accounts

/-- An advance keeps the accounts in order. If the walk shows every record, one that fails has spent
nothing, but on its path if that was outgrown. -/
theorem advance_accounts_meets (steady : reader.Steady source sparing) (sound : walk.Sound root)
    (accounts : Accounts source base (walk, world)) :
    (advance reader patience).Meets (walk, world) (fun _ => Accounts source base)
      fun _ s => Accounts source base s ∧ (walk.settings.filters = false →
        ∃ begun, walk.Lengthened begun ∧ Spent source sparing base begun s) := by
  have stepped : (step reader patience).Meets (walk, world) _ _ :=
    (step_sound_meets (Terms.any_covers reader) sound trivial).and
      (step_accounts_meets steady sound accounts)
  have onwards : ∀ start : Option Position, Act.Meets (do
        step reader patience
        skipUnmatched reader patience start patience) (walk, world)
      (fun _ => Accounts source base)
      fun _ s => Accounts source base s ∧ (walk.settings.filters = false →
        ∃ begun, walk.Lengthened begun ∧ Spent source sparing base begun s) := by
    intro start
    rw [Act.meets_bind]
    refine stepped.mono ?_ ?_
    · rintro _ ⟨next, world⟩ ⟨⟨-, same, sound⟩, accounts⟩
      by_cases filters : walk.settings.filters = true
      · refine (skipUnmatched_accounts_meets steady sound accounts).mono (fun _ _ done => done) ?_
        intro _ s failed
        exact ⟨failed, fun shows => absurd filters (by simp [shows])⟩
      · exact skipUnmatched_of_not_filters (same.settings ▸ eq_false_of_ne_true filters) accounts
    · rintro fault s ⟨-, begun, lengthened, spent⟩
      exact ⟨spent.accounts, fun _ => ⟨begun, lengthened, spent⟩⟩
  have unmoved : Accounts source base (walk, world) ∧ (walk.settings.filters = false →
      ∃ begun, walk.Lengthened begun ∧ Spent source sparing base begun (walk, world)) :=
    ⟨accounts, fun _ => ⟨walk, ⟨rfl, .inl rfl⟩, accounts.spent rfl rfl⟩⟩
  unfold advance getWalk
  simp only [Act.meets_bind, Act.meets_get, Act.meets_pure]
  by_cases closed : walk.closed = true
  · rw [if_pos closed]
    exact unmoved
  rw [if_neg closed]
  by_cases ended : walk.isEmpty = true
  · rw [if_pos ended]
    exact accounts
  rw [if_neg ended]
  cases walk.held with
  | some held => exact onwards (some held)
  | none =>
    by_cases filters : walk.settings.filters = true
    · rw [if_pos filters, Act.meets_bind, Act.meets_ofExcept]
      cases walk.livePosition with
      | ok shown => exact onwards shown
      | error fault => exact unmoved
    · rw [if_neg filters]
      exact onwards none

/-- What a reset has charged in vain is given back. -/
private theorem takeBack_accounts_meets {before : Walk}
    (accounts : Accounts source (base + LevelStack.charge before.levels) (walk, world)) :
    (takeBack before).Meets (walk, world)
      (fun _ s => Accounts source base s ∧ s.1.path.capacity = walk.path.capacity)
      fun _ s => Accounts source base s ∧ s.1.path.capacity = walk.path.capacity := by
  have given : Accounts source base
      ({ walk with levels := before.levels, held := before.held },
        world.updateLedger (LevelStack.release walk.levels)) := by
    refine World.Uses.releaseAll (accounts.congr ?_)
    simp only [charge_eq]
    omega
  unfold takeBack
  rw [Act.meets_bind, Act.meets_modify]
  exact (changePath_accounts_meets (fun _ _ => PathBuffer.capacity_of_restore) given).mono
    (fun _ _ done => ⟨done.1, done.2.1⟩) fun _ _ failed => ⟨failed.1, failed.2.1⟩

/-- A reset keeps the accounts in order. If the walk shows every record, one that fails has not
touched the room of its path. -/
theorem reset_accounts_meets (steady : reader.Steady source sparing) (sound : walk.Sound root)
    (opened : walk.closed = false) (accounts : Accounts source base (walk, world)) :
    (reset reader patience).Meets (walk, world) (fun _ => Accounts source base)
      fun _ s => Accounts source base s ∧
        (walk.settings.filters = false → s.1.path.capacity = walk.path.capacity) := by
  have rooted := sound.rooted opened
  -- the levels before are in use beside those of the walk that sets out anew
  have beside : Accounts source (base + LevelStack.charge walk.levels)
      (walk.atRoot root, world) := by
    refine accounts.congr ?_
    simp only [charge_eq, atRoot, LevelStack.charge_nil]
    omega
  refine (reset_meets_iff sound opened).mpr
    ((opening_accounts_meets steady rooted.sound rooted.bare beside).mono ?_ ?_)
  · rintro _ ⟨after, world⟩ accounts
    refine World.Uses.releaseAll (accounts.congr ?_)
    dsimp only
    omega
  · rintro _ ⟨after, world⟩ ⟨accounts, unmoved⟩
    have room : walk.settings.filters = false → after.path.capacity = walk.path.capacity :=
      fun shows => congrArg (fun walk => walk.path.capacity) (unmoved shows)
    refine (takeBack_accounts_meets accounts).mono ?_ ?_
    · exact fun _ _ taken => ⟨taken.1, fun shows => taken.2.trans (room shows)⟩
    · exact fun _ _ taken => ⟨taken.1, fun shows => taken.2.trans (room shows)⟩

private theorem release_uses (accounts : Accounts source base (walk, world)) :
    (world.updateLedger walk.release).Uses source base := by
  have levels : (world.updateLedger (LevelStack.release walk.levels)).Uses source
      (base + walk.settings.patternCharge + walk.path.capacity) := by
    refine World.Uses.releaseAll (accounts.congr ?_)
    simp only [charge_eq]
    omega
  exact levels.release.release

/-- A start that succeeds has charged what the walk has; one that fails has charged nothing. -/
theorem start_uses_meets (steady : reader.Steady source sparing) {plan : Plan}
    (uses : world.Uses source base) :
    (start reader patience plan).Meets world (fun walk w => w.Uses source (base + walk.charge))
      fun _ w => w.Uses source base := by
  cases checked : plan.settings? reader.separator with
  | error fault =>
    unfold start
    simp only [Act.meets_bind, Act.meets_ofExcept, checked]
    exact uses
  | ok settings =>
    refine (start_meets_iff checked).mpr ((uses.reserve_meets settings.patternCharge).mono ?_
      fun _ _ failed => failed)
    intro _ world uses
    have w : (Terms.any ρ).world world := trivial
    have paid : world.Uses source (base + settings.patternCharge + PathBuffer.empty.capacity) :=
      uses
    have appended : (World.charging (PathBuffer.empty.append plan.path)).Meets world _ _ :=
      (PathBuffer.empty.append_meets plan.path w).and
        (PathBuffer.empty.append_uses_meets plan.path paid)
    refine setOut_meets_iff.mpr (appended.mono ?_ ?_)
    · rintro path world ⟨⟨-, text, -, -, fits⟩, uses, -⟩
      have rooted := rooted_of_text settings text fits
      have accounts : Accounts source base
          ({ unstarted settings with path, rootLength := path.text.length }, world) := by
        refine uses.congr ?_
        simp only [charge_eq, unstarted, LevelStack.charge_nil]
        omega
      refine (opening_accounts_meets steady rooted.sound rooted.bare accounts).mono
        (fun _ _ done => done) ?_
      rintro _ ⟨walk, world⟩ ⟨accounts, -⟩
      exact release_uses accounts
    · rintro fault world ⟨-, uses⟩
      exact release_uses uses

theorem close_of_closed (closed : walk.closed = true) : close (walk, world) = (walk, world) := by
  rw [close, closed]
  rfl

theorem close_close (s : Scene ρ) : close (close s) = close s := by
  obtain ⟨walk, world⟩ := s
  by_cases closed : walk.closed = true
  · rw [close_of_closed closed, close_of_closed closed]
  · unfold close
    simp [closed]

/-- Closing a walk gives everything back. -/
theorem close_uses (opened : walk.closed = false) (accounts : Accounts source base (walk, world)) :
    (close (walk, world)).1.closed = true ∧ (close (walk, world)).2.Uses source base := by
  unfold close
  dsimp only
  rw [if_neg (by rw [opened]; exact Bool.false_ne_true)]
  exact ⟨rfl, release_uses accounts⟩

end Walk

end Catwalk
