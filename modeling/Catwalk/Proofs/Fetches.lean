import Catwalk.Proofs.Courses

/-!
# What a refill reads

A level follows a stage of a course if it holds the stage's records, has come to its cursor and
belongs to its directory. The reads of a refill are made in turn from the stage's cursor on, and
they settle what becomes of it: the level follows what they make of the stage, or the stage itself
if they make nothing of it and the refill fails (`Level.refill_follows_meets`).
-/

namespace Catwalk

variable {ρ : Type}

private theorem Row.extent_mod_four (records : List Stored) : extent records % 4 = 0 := by
  induction records with
  | nil => rfl
  | cons record records ih =>
    have first : record.extent % 4 = 0 := Record.extent_mod_four record.name.length
    simp only [extent, List.map_cons, List.foldr_cons] at ih ⊢
    omega

/-- Worlds with an account of this much. -/
def Terms.logged (log : List Exchange) : Terms (ρ × List Exchange) where
  world w := w.source.2 = log
  cause _ := True
  reserve _ _ held := Act.meets_within.mpr
    (Act.meets_iff.mpr ⟨fun _ _ _ => held, fun _ _ _ => ⟨held, trivial⟩⟩)
  release _ _ held := held

namespace Level

variable {reader : Reader ρ} {settings : Settings} {root path : Text} {patience : Nat}
  {world : World (ρ × List Exchange)} {level : Level} {stage : Stage}

/-- A level is the one of a stage on a way with this path. -/
structure Follows (settings : Settings) (root path : Text) (level : Level) (stage : Stage) :
    Prop where
  holds : level.Holds stage.records
  cursor : level.cursor = stage.cursor
  directory : path.take level.pathLength = settings.pathOf root stage.names
  short : level.pathLength ≤ path.length
  size : ∃ k, level.buffer.length = settings.bufferSize * 2 ^ k

/-- A level stays on a way that goes on. -/
theorem Follows.of_prefix {other : Text} (follows : level.Follows settings root path stage)
    (further : path <+: other) : level.Follows settings root other stage := by
  obtain ⟨more, rfl⟩ := further
  refine ⟨follows.holds, follows.cursor, ?_, ?_, follows.size⟩
  · rw [List.take_append_of_le_length follows.short, follows.directory]
  · rw [List.length_append]
    exact Nat.le_add_right_of_le follows.short

/-- A level stays on a way that is cut back no further than to its directory. -/
theorem Follows.take {length : Nat} (follows : level.Follows settings root path stage)
    (near : level.pathLength ≤ length) :
    level.Follows settings root (path.take length) stage := by
  have short := follows.short
  refine ⟨follows.holds, follows.cursor, ?_, ?_, follows.size⟩
  · rw [List.take_take, Nat.min_eq_left near, follows.directory]
  · rw [List.length_take]
    omega

/-- The last read of a fetch that yields a batch. It has left the buffer as it is. -/
structure Yields (exchange : Exchange) (batch : Batch) (fetched : Level) : Prop where
  result : exchange.answer.result = .ok batch
  ended : batch.count = 0 → batch.next = cursorEnd
  buffer : exchange.buffer = fetched.buffer
  offset : exchange.call.offset = fetched.keep

/-- The account has grown by the reads of a fetch from a cursor on, the last of which yields the
batch. -/
def FetchYields (reader : Reader ρ) (settings : Settings) (path : Text) (cursor : Int)
    (log : List Exchange) (batch : Batch) (s : Level × World (ρ × List Exchange)) : Prop :=
  (∃ k, s.1.buffer.length = settings.bufferSize * 2 ^ k) ∧
    ∃ reads last, s.2.source.2 = log ++ reads ∧ InTurn reader settings path cursor reads ∧
      reads.getLast? = some last ∧ Yields last batch s.1

/-- The account has grown by the reads of a fetch that yields nothing. -/
def FetchFails (reader : Reader ρ) (settings : Settings) (path : Text) (cursor : Int)
    (log : List Exchange) (s : Level × World (ρ × List Exchange)) : Prop :=
  ∃ reads, s.2.source.2 = log ++ reads ∧ InTurn reader settings path cursor reads ∧
    reads.getLast?.bind Exchange.brings? = none

section
variable {exchange : Exchange} {cursor : Int} {log : List Exchange} {batch : Batch}
  {s : Level × World (ρ × List Exchange)}

/-- A fetch goes on behind a first read. -/
private theorem FetchYields.behind
    (yields : FetchYields reader settings path (exchange.next cursor) (log ++ [exchange]) batch s)
    (lawful : exchange.call.Lawful settings path cursor) (genuine : exchange.IsFrom reader)
    (goesOn : exchange.goesOn = true) : FetchYields reader settings path cursor log batch s := by
  obtain ⟨size, reads, last, account, reads', is, found⟩ := yields
  refine ⟨size, exchange :: reads, last, account.trans (List.append_assoc ..),
    .read lawful genuine (fun _ => goesOn) reads', ?_, found⟩
  rw [List.getLast?_cons, is]
  rfl

private theorem FetchFails.behind
    (fails : FetchFails reader settings path (exchange.next cursor) (log ++ [exchange]) s)
    (lawful : exchange.call.Lawful settings path cursor) (genuine : exchange.IsFrom reader)
    (goesOn : exchange.goesOn = true) : FetchFails reader settings path cursor log s := by
  obtain ⟨reads, account, reads', none'⟩ := fails
  refine ⟨exchange :: reads, account.trans (List.append_assoc ..),
    .read lawful genuine (fun _ => goesOn) reads', ?_⟩
  cases reads with
  | nil => exact Exchange.brings?_of_goesOn goesOn
  | cons next reads =>
    rw [List.getLast?_cons_cons]
    exact none'

/-- A read that fails is the last if there is no other. -/
private theorem FetchFails.of_error {fault : Fault} (account : s.2.source.2 = log ++ [exchange])
    (lawful : exchange.call.Lawful settings path cursor) (genuine : exchange.IsFrom reader)
    (result : exchange.answer.result = .error fault) :
    FetchFails reader settings path cursor log s := by
  refine ⟨[exchange], account, .read lawful genuine (fun never => absurd rfl never) .done, ?_⟩
  change exchange.brings? = none
  rw [Exchange.brings?, result]

end

private theorem call_lawful {front : Level} {cursor : Int} (fits : front.keep ≤ front.buffer.length)
    (aligned : front.keep % 4 = 0) (extended : front.Extends level)
    (size : ∃ k, level.buffer.length = settings.bufferSize * 2 ^ k) (more : cursor ≠ cursorEnd) :
    (call (settings.request path) level cursor).Lawful settings path cursor := by
  have keep := extended.keep
  have long := extended.long
  refine ⟨rfl, rfl, more, ?_, ?_, size, rfl, rfl⟩
  · change level.keep % 4 = 0
    rw [keep, aligned]
  · change level.keep ≤ level.buffer.length
    omega

/-- A fetch makes lawful reads, the last of which is the one that it yields; if it yields nothing,
the last of them has brought in nothing. -/
private theorem fetch_reads_meets {front : Level} {cursor : Int}
    (fits : front.keep ≤ front.buffer.length)
    (aligned : front.keep % 4 = 0) (extended : front.Extends level)
    (size : ∃ k, level.buffer.length = settings.bufferSize * 2 ^ k) (more : cursor ≠ cursorEnd) :
    (fetch reader.logged (settings.request path) patience cursor).Meets (level, world)
      (FetchYields reader settings path cursor world.source.2)
      fun _ => FetchFails reader settings path cursor world.source.2 := by
  induction patience generalizing cursor level world with
  | zero => exact ⟨[], (List.append_nil _).symm, .done, rfl⟩
  | succ patience ih =>
    rw [fetch_succ_meets]
    let asked := call (settings.request path) level cursor
    let exchange : Exchange := ⟨asked, (reader.read asked world.source.1).1⟩
    have lawful : asked.Lawful settings path cursor :=
      call_lawful fits aligned extended size more
    have genuine : exchange.IsFrom reader := ⟨world.source.1, rfl⟩
    have written := extended.write exchange.answer
    have size' : ∃ k, (exchange.answer.into level.buffer level.keep).length =
        settings.bufferSize * 2 ^ k := by
      rw [Deposit.into, Bytes.length_overwrite]
      exact size
    dsimp only
    split
    · next batch result =>
      change exchange.answer.result = .ok batch at result
      have next : exchange.next cursor = batch.next := by
        rw [Exchange.next, result]
      by_cases again : batch.count = 0 ∧ batch.next ≠ cursorEnd
      · -- nothing has come in yet
        have goesOn : exchange.goesOn = true := by
          rw [Exchange.goesOn, result]
          exact decide_eq_true again
        rw [if_pos again]
        refine (ih written size' again.2).mono ?_ ?_
        · rintro batch' s yields
          exact FetchYields.behind (next.symm ▸ yields) lawful genuine goesOn
        · rintro fault s fails
          exact FetchFails.behind (next.symm ▸ fails) lawful genuine goesOn
      · rw [if_neg again]
        exact ⟨size', [exchange], exchange, rfl,
          .read lawful genuine (fun never => absurd rfl never) .done, rfl, result,
          fun none' => Decidable.byContradiction fun other => again ⟨none', other⟩, rfl, rfl⟩
    · next fault result =>
      change exchange.answer.result = .error fault at result
      have next : exchange.next cursor = cursor := by
        rw [Exchange.next, result]
      by_cases overflow : fault.kind = .overflow
      · -- the read is made again with more room
        have goesOn : exchange.goesOn = true := by
          rw [Exchange.goesOn, result]
          exact decide_eq_true overflow
        rw [if_pos overflow]
        have grown : growInPlace.Meets (_, { world with
            source := ((reader.read asked world.source.1).2, world.source.2 ++ [exchange]) })
            _ _ :=
          growInPlace_meets (Terms.logged (world.source.2 ++ [exchange])) written fits rfl
        refine grown.mono ?_ ?_
        · rintro _ ⟨grown, world'⟩ ⟨extended, held, length⟩
          obtain ⟨k, size⟩ := size'
          have doubled : ∃ k, grown.buffer.length = settings.bufferSize * 2 ^ k := by
            refine ⟨k + 1, length.trans ?_⟩
            dsimp only
            rw [size, Nat.pow_succ', Nat.mul_left_comm]
          change world'.source.2 = _ at held
          have again : (fetch reader.logged (settings.request path) patience cursor).Meets
              (grown, world') _ _ := ih extended doubled more
          rw [held] at again
          refine again.mono ?_ ?_
          · rintro batch s yields
            exact FetchYields.behind (next.symm ▸ yields) lawful genuine goesOn
          · rintro fault' s fails
            exact FetchFails.behind (next.symm ▸ fails) lawful genuine goesOn
        · rintro fault' s ⟨-, held, -⟩
          exact .of_error held lawful genuine result
      · rw [if_neg overflow]
        exact .of_error rfl lawful genuine result

/-- The account has grown by the reads of a refill of the stage. -/
def Refills (reader : Reader ρ) (settings : Settings) (root : Text) (stage : Stage)
    (log : List Exchange) (world : World (ρ × List Exchange)) (after : Option Stage) : Prop :=
  ∃ reads, world.source.2 = log ++ reads ∧ stage.Refilled reader settings root reads after

theorem refill_follows_meets (follows : level.Follows settings root path stage)
    (last : stage.records.length ≤ 1) (more : level.isExhausted = false) :
    (refill reader.logged patience (settings.request (settings.pathOf root stage.names))).Meets
      (level, world)
      (fun _ s => ∃ filled, Refills reader settings root stage world.source.2 s.2 (some filled) ∧
        s.1.Follows settings root path filled)
      fun _ s => Refills reader settings root stage world.source.2 s.2 none ∧
        s.1.Follows settings root path stage := by
  obtain ⟨holds, cursor, directory, short, size⟩ := follows
  have ready := holds.moveToFront last
  have unread : level.cursor ≠ cursorEnd := of_decide_eq_false more
  have aligned : level.moveToFront.keep % 4 = 0 := by
    rw [ready.keep]
    exact Row.extent_mod_four stage.records
  have front : ∃ k, level.moveToFront.buffer.length = settings.bufferSize * 2 ^ k := by
    rw [ready.size]
    exact size
  have fetched : (fetch reader.logged (settings.request (settings.pathOf root stage.names))
      patience level.cursor).Meets (level.moveToFront, world) _ _ :=
    (fetch_meets (Terms.any _) (Terms.any_covers _) ready.fits (.refl _) trivial).and
      (fetch_reads_meets ready.fits aligned (.refl _) front unread)
  refine (refill_meets_of_reads holds last more (fetched.mono
    (fun _ _ ⟨⟨extended, _⟩, found⟩ => ⟨extended, found⟩)
    fun _ _ ⟨⟨extended, _⟩, failed⟩ => ⟨extended, failed⟩)).mono ?_ ?_
  · rintro n ⟨left, world'⟩ ⟨fresh, batch, level', number, count, row, extended,
      ⟨size, reads, exchange, log, made, is, result, ended, buffer, offset⟩,
      ⟨current, rfl, -⟩, holds'⟩
    have pathLength : level'.pathLength = level.pathLength :=
      (congrArg Level.pathLength extended.frame).trans ready.pathLength
    have brings : exchange.brings? = some (batch.next, fresh) := by
      rw [← buffer, ← offset] at row
      exact Exchange.brings?_eq_some_iff.mpr
        ⟨batch, result, rfl, ended, number.trans count.symm, row⟩
    rw [cursor] at made
    refine ⟨⟨stage.names, batch.next, stage.records ++ fresh⟩, ⟨reads, log, made,
      Stage.refilled?_eq_some_iff.mpr ⟨exchange, fresh, is, brings, rfl, rfl⟩⟩, holds', rfl, ?_, ?_,
      size⟩
    · rw [← directory, ← pathLength]
    · exact pathLength ▸ short
  · rintro fault ⟨left, _⟩ ⟨level', w, extended, failed, rfl, holds', pathLength, cursor', length⟩
    have follows : left.Follows settings root path stage := by
      refine ⟨holds', cursor'.trans cursor, ?_, ?_, ?_⟩
      · rw [← directory, ← pathLength]
      · exact pathLength ▸ short
      · rw [length]
        exact size
    refine ⟨?_, follows⟩
    rw [cursor] at failed
    rcases failed with ⟨reads, log, made, none'⟩ | ⟨batch, ⟨-, reads, exchange, log, made, is,
      result, -, buffer, offset⟩, refused⟩
    · exact ⟨reads, log, made, by rw [Stage.refilled?, none']; rfl⟩
    · refine ⟨reads, log, made, Option.eq_none_iff_forall_ne_some.mpr fun filled refilled => ?_⟩
      obtain ⟨found, fresh, is', brings, -⟩ := Stage.refilled?_eq_some_iff.mp refilled
      obtain rfl := Option.some.inj (is.symm.trans is')
      obtain ⟨_, result', -, -, number, row⟩ := Exchange.brings?_eq_some_iff.mp brings
      obtain rfl := Except.ok.inj (result.symm.trans result')
      rw [buffer, offset] at row
      rw [← number, row.check] at refused
      cases refused

end Level

end Catwalk
