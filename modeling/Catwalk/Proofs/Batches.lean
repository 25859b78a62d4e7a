import Catwalk.Proofs.Catalogues
import Catwalk.Proofs.Histories
import Catwalk.Proofs.Names

/-!
# What a refill takes in

A reader of a listing looks at it in batches. A refill passes over batches without an entry that
matches, doubles the buffer until the first that does has room, and takes in as many of that one's
batch as fit then (`refill_takesIn`). With memory without end it succeeds: every read that does not
end it passes an entry or makes the buffer larger.
-/

namespace Catwalk

open Entry ReadCall

/-! ## Doublings -/

/-- The least size that comes of doubling a size and holds what is needed. -/
def LeastDoubling (size needed result : Nat) : Prop :=
  ∃ k, result = size * 2 ^ k ∧ needed ≤ result ∧ ∀ j < k, size * 2 ^ j < needed

namespace LeastDoubling

variable {size needed result : Nat}

private theorem of_le (enough : needed ≤ size) : LeastDoubling size needed size :=
  ⟨0, by simp, enough, by simp⟩

private theorem of_double (small : size < needed) (least : LeastDoubling (2 * size) needed result) :
    LeastDoubling size needed result := by
  obtain ⟨k, rfl, enough, less⟩ := least
  refine ⟨k + 1, by rw [Nat.pow_succ']; simp only [Nat.mul_comm, Nat.mul_assoc], enough, ?_⟩
  intro j before
  cases j with
  | zero => simpa using small
  | succ j =>
    have shorter := less j (Nat.lt_of_succ_lt_succ before)
    rw [Nat.pow_succ', ← Nat.mul_assoc, Nat.mul_comm size]
    exact shorter

end LeastDoubling

/-! ## The first match -/

variable {pattern : Option Text} {listing : List Entry} {cursor many : Nat}

/-- How far behind a cursor the first entry is that matches. -/
def firstMatch (pattern : Option Text) (listing : List Entry) (cursor : Nat) : Option Nat :=
  (listing.drop cursor).findIdx? fun entry => Pattern.matchesName pattern entry.name

/-- Entries that do not match may be passed. -/
private theorem firstMatch_of_unlisted
    (unlisted : listed pattern ((listing.drop cursor).take many) = []) :
    firstMatch pattern listing cursor =
      (firstMatch pattern listing (cursor + many)).map (· + many) := by
  have none' : ((listing.drop cursor).take many).findIdx?
      (fun entry => Pattern.matchesName pattern entry.name) = none := by
    rw [List.findIdx?_eq_none_iff]
    simpa [listed] using unlisted
  unfold firstMatch
  rw [← List.take_append_drop many (listing.drop cursor), List.findIdx?_append, none',
    Option.none_or, List.drop_drop]
  by_cases short : listing.length ≤ cursor + many
  · rw [List.drop_eq_nil_of_le short]
    rfl
  · have whole : ((listing.drop cursor).take many).length = many := by
      rw [List.length_take, List.length_drop]
      omega
    rw [whole]

/-- Behind the last entry there is none that matches. -/
private theorem firstMatch_eq_none (ended : listing.length ≤ cursor) :
    firstMatch pattern listing cursor = none := by
  rw [firstMatch, List.drop_eq_nil_of_le ended]
  rfl

private theorem firstMatch_eq_some {seen rest : List Entry} {entry : Entry}
    (split : (listing.drop cursor).take many = seen ++ entry :: rest)
    (unlisted : listed pattern seen = [])
    (matched : Pattern.matchesName pattern entry.name = true) :
    firstMatch pattern listing cursor = some seen.length ∧
      listing[cursor + seen.length]? = some entry ∧ seen.length < many := by
  have inside : seen.length < many := by
    have length := congrArg List.length split
    simp only [List.length_take, List.length_append, List.length_cons] at length
    omega
  have whole : listing.drop cursor =
      seen ++ entry :: (rest ++ (listing.drop cursor).drop many) := by
    rw [← List.cons_append, ← List.append_assoc, ← split, List.take_append_drop]
  have none' : seen.findIdx? (fun entry => Pattern.matchesName pattern entry.name) = none := by
    rw [List.findIdx?_eq_none_iff]
    simpa [listed] using unlisted
  refine ⟨?_, ?_, inside⟩
  · rw [firstMatch, whole, List.findIdx?_append, none', List.findIdx?_cons, if_pos matched]
    simp
  · rw [← List.getElem?_drop, whole, List.getElem?_append_right (Nat.le_refl _), Nat.sub_self]
    rfl

/-- The cursor behind a batch is at the end if there is no more than the batch. -/
private theorem cursorAt_batch (listing : List Entry) (cursor many : Nat) :
    cursorAt listing (cursor + ((listing.drop cursor).take many).length) =
      if listing.length ≤ cursor + many then cursorEnd else ((cursor + many : Nat) : Int) := by
  unfold cursorAt
  rw [List.length_take, List.length_drop]
  by_cases last : listing.length ≤ cursor + many
  · rw [if_pos last, if_pos (by omega)]
  · rw [if_neg last, if_neg (by omega)]
    congr 1
    omega

/-! ## Fetching -/

namespace Level

variable {ρ : Type} {reader : Reader ρ} {request : Request} {patience keep size first length : Nat}
  {fresh : List Entry} {next : Int}

/-- What a refill from a cursor on takes in behind `keep` bytes if the first entry that matches is
so far behind the cursor. -/
structure TakesIn (listing : List Entry) (request : Request) (cursor first keep size : Nat)
    (fresh : List Entry) (next : Int) (length : Nat) : Prop where
  /-- It begins with that entry, for which the buffer has been doubled as often as it takes. -/
  grown : ∃ entry others, listing[cursor + first]? = some entry ∧ fresh = entry :: others ∧
    LeastDoubling size (keep + entry.stored.extent) length
  /-- It goes on as far as the batch of that entry fits. -/
  cut : let start := cursor + first / request.maxEntries.toNat * request.maxEntries.toNat
    ∃ seen rest, Cut request.pattern ((length : Int) - keep)
      ((listing.drop start).take request.maxEntries.toNat) seen rest ∧
      fresh = listed request.pattern seen ∧ next = cursorAt listing (start + seen.length)

/-- A batch without an entry that matches may be passed. -/
private theorem TakesIn.later (looks : 1 ≤ request.maxEntries)
    (takes : TakesIn listing request (cursor + request.maxEntries.toNat) first keep size fresh next
      length) :
    TakesIn listing request cursor (first + request.maxEntries.toNat) keep size fresh next
      length := by
  obtain ⟨grown, cut⟩ := takes
  have positive : 0 < request.maxEntries.toNat := by omega
  have start : cursor + (first + request.maxEntries.toNat) / request.maxEntries.toNat *
        request.maxEntries.toNat =
      cursor + request.maxEntries.toNat +
        first / request.maxEntries.toNat * request.maxEntries.toNat := by
    rw [Nat.add_div_right _ positive, Nat.succ_mul]
    omega
  have place : cursor + request.maxEntries.toNat + first =
      cursor + (first + request.maxEntries.toNat) := by omega
  rw [place] at grown
  refine ⟨grown, ?_⟩
  rw [start]
  exact cut

/-- A buffer that is too small for the first entry that matches may be doubled. -/
private theorem TakesIn.grow {entry : Entry} (found : listing[cursor + first]? = some entry)
    (small : size < keep + entry.stored.extent)
    (takes : TakesIn listing request cursor first keep (2 * size) fresh next length) :
    TakesIn listing request cursor first keep size fresh next length := by
  obtain ⟨⟨other, others, found', same, least⟩, cut⟩ := takes
  cases found.symm.trans found'
  exact ⟨⟨entry, others, found, same, least.of_double small⟩, cut⟩

/-- The batch at the cursor is taken in as far as it fits. -/
private theorem TakesIn.here {seen rest : List Entry} (inside : first < request.maxEntries.toNat)
    (cut : Cut request.pattern ((size : Int) - keep)
      ((listing.drop cursor).take request.maxEntries.toNat) seen rest)
    {entry : Entry} {others : List Entry} (found : listing[cursor + first]? = some entry)
    (begins : listed request.pattern seen = entry :: others) :
    TakesIn listing request cursor first keep size (listed request.pattern seen)
      (cursorAt listing (cursor + seen.length)) size := by
  have first' : first / request.maxEntries.toNat = 0 := Nat.div_eq_of_lt inside
  refine ⟨⟨entry, others, found, begins, .of_le ?_⟩, ?_⟩
  · have fits := cut.fits.resolve_left (by simp [begins])
    rw [begins] at fits
    have one := extent_le_records (List.mem_cons_self (a := entry) (l := others))
    omega
  · rw [first', Nat.zero_mul, Nat.add_zero]
    exact ⟨seen, rest, cut, rfl, rfl⟩

/-- What reads from a cursor on come to. -/
def Fetched (listing : List Entry) (request : Request) (cursor keep size : Nat) (batch : Batch)
    (fetched : Level) : Prop :=
  match firstMatch request.pattern listing cursor with
  | none => batch = ⟨0, cursorEnd⟩ ∧ fetched.buffer.length = size
  | some first => ∃ fresh, batch.count = fresh.length ∧
      Row fetched.buffer fetched.keep (records fresh) ∧
      TakesIn listing request cursor first keep size fresh batch.next fetched.buffer.length

namespace Fetched

variable {batch : Batch} {fetched : Level}

private theorem later (looks : 1 ≤ request.maxEntries)
    (unlisted : listed request.pattern ((listing.drop cursor).take request.maxEntries.toNat) = [])
    (rest : Fetched listing request (cursor + request.maxEntries.toNat) keep size batch fetched) :
    Fetched listing request cursor keep size batch fetched := by
  rw [Fetched, firstMatch_of_unlisted unlisted]
  unfold Fetched at rest
  cases found : firstMatch request.pattern listing (cursor + request.maxEntries.toNat) with
  | none =>
    rw [found] at rest
    exact rest
  | some first =>
    rw [found] at rest
    obtain ⟨fresh, count, row, takes⟩ := rest
    exact ⟨fresh, count, row, takes.later looks⟩

private theorem grow {entry : Entry}
    (found : firstMatch request.pattern listing cursor = some first)
    (known : listing[cursor + first]? = some entry) (small : size < keep + entry.stored.extent)
    (larger : Fetched listing request cursor keep (2 * size) batch fetched) :
    Fetched listing request cursor keep size batch fetched := by
  rw [Fetched, found] at larger ⊢
  obtain ⟨fresh, count, row, takes⟩ := larger
  exact ⟨fresh, count, row, takes.grow known small⟩

end Fetched

/-- How a read from a cursor on is answered. -/
inductive Answered (listing : List Entry) (request : Request) (level : Level) (cursor : Nat)
    (answer : Deposit Batch) : Prop
  /-- No entry of the batch matches. -/
  | passed : listed request.pattern ((listing.drop cursor).take request.maxEntries.toNat) = [] →
      answer.result = .ok ⟨0, cursorAt listing
        (cursor + ((listing.drop cursor).take request.maxEntries.toNat).length)⟩ →
      Answered listing request level cursor answer
  /-- As much of the batch as fits. -/
  | taken {seen rest others : List Entry} {first : Nat} {entry : Entry} :
      firstMatch request.pattern listing cursor = some first →
      listing[cursor + first]? = some entry → first < request.maxEntries.toNat →
      Cut request.pattern ((level.buffer.length : Int) - level.keep)
        ((listing.drop cursor).take request.maxEntries.toNat) seen rest →
      listed request.pattern seen = entry :: others →
      Row (answer.into level.buffer level.keep) level.keep
        (records (listed request.pattern seen)) →
      answer.result = .ok ⟨(listed request.pattern seen).length,
        cursorAt listing (cursor + seen.length)⟩ →
      Answered listing request level cursor answer
  /-- The first entry that matches has no room. -/
  | full {first : Nat} {entry : Entry} {needed room : Int} :
      firstMatch request.pattern listing cursor = some first →
      listing[cursor + first]? = some entry →
      level.buffer.length < level.keep + entry.stored.extent →
      answer.result = .error (.overflow needed room) →
      Answered listing request level cursor answer

private theorem answered_of_fill (packable : ∀ entry ∈ listing, entry.Packable)
    (ended : ∀ entry ∈ listing, (0 : UInt8) ∉ entry.stored.name) (request : Request)
    (level : Level) (cursor : Nat) :
    Answered listing request level cursor ((call request level cursor).fill listing) := by
  have batch := fill_of_batch (call request level cursor) packable (Int.natCast_nonneg cursor)
  have same : (call request level cursor).cursor.toNat = cursor := Int.toNat_natCast cursor
  rw [same] at batch
  rcases batch with ⟨seen, rest, cut, some', filled⟩ |
    ⟨seen, entry, rest, split, unlisted, matched, full, overflow⟩
  · have row : Row (Deposit.into ((call request level cursor).fill listing) level.buffer level.keep)
        level.keep (records (listed request.pattern seen)) := by
      rw [filled]
      refine row_of_fits (call request level cursor) cut.fits fun entry found => ended entry ?_
      have passed := List.mem_append_left rest (mem_of_listed found)
      rw [← cut.split] at passed
      exact List.mem_of_mem_drop (List.mem_of_mem_take passed)
    have result := congrArg Deposit.result filled
    cases begins : listed request.pattern seen with
    | nil =>
      obtain rfl : rest = [] := Decidable.byContradiction fun more => some' more begins
      have whole := cut.split
      rw [List.append_nil] at whole
      subst whole
      refine .passed begins (result.trans ?_)
      change Except.ok (⟨(listed request.pattern _).length, _⟩ : Batch) = _
      rw [begins]
      rfl
    | cons entry others =>
      obtain ⟨before, after, whole, unlisted, matched, -⟩ := List.filter_eq_cons_iff.mp begins
      have split : (listing.drop cursor).take request.maxEntries.toNat =
          before ++ entry :: (after ++ rest) := by
        rw [← List.cons_append, ← List.append_assoc, ← whole]
        exact cut.split
      obtain ⟨found, known, inside⟩ := firstMatch_eq_some split
        (List.filter_eq_nil_iff.mpr unlisted) matched
      exact .taken found known inside cut begins row result
  · obtain ⟨found, known, -⟩ := firstMatch_eq_some split unlisted matched
    have full : (level.buffer.length : Int) - level.keep < entry.stored.extent := full
    exact .full found known (by omega) (congrArg Deposit.result overflow)

/-- Every read that does not end a fetch passes a batch, or is followed by a buffer of twice the
size that has been too small for one of the records. -/
private theorem fetch_meets_of_fill (answers : ∀ call s, (reader.read call s).1 = call.fill listing)
    (packable : ∀ entry ∈ listing, entry.Packable)
    (ended : ∀ entry ∈ listing, (0 : UInt8) ∉ entry.stored.name)
    (looks : 1 ≤ request.maxEntries) {front level : Level} {world : World ρ}
    (fits : front.keep ≤ front.buffer.length) (extended : front.Extends level)
    (positive : 0 < level.buffer.length)
    (w : (Terms.keeping (fun _ : ρ => True) True).world world)
    (enough : listing.length - cursor +
      (front.keep + Row.extent (records listing) - level.buffer.length) < patience) :
    (fetch reader request patience cursor).Meets (level, world)
      (fun batch s => front.Extends s.1 ∧
        Fetched listing request cursor front.keep level.buffer.length batch s.1 ∧
        (Terms.keeping (fun _ : ρ => True) True).world s.2)
      fun _ _ => False := by
  induction patience generalizing cursor level world with
  | zero => exact absurd enough (Nat.not_lt_zero _)
  | succ patience ih =>
    rw [fetch_succ_meets]
    have read : (Terms.keeping (fun _ : ρ => True) True).world { world with
        source := (reader.read (call request level cursor) world.source).2 } := ⟨trivial, w.2⟩
    have written := extended.write (reader.read (call request level cursor) world.source).1
    have keep := extended.keep
    have length : (Deposit.into (reader.read (call request level cursor) world.source).1
        level.buffer level.keep).length = level.buffer.length := Bytes.length_overwrite _ _ _
    have answered := answered_of_fill packable ended request level cursor
    rw [← answers _ world.source] at answered
    dsimp only
    cases answered with
    | passed unlisted result =>
      rw [result, cursorAt_batch]
      dsimp only
      by_cases last : listing.length ≤ cursor + request.maxEntries.toNat
      · rw [if_pos last, if_neg (by simp)]
        refine ⟨written, ?_, read⟩
        rw [Fetched, firstMatch_of_unlisted unlisted, firstMatch_eq_none last]
        exact ⟨rfl, length⟩
      · rw [if_neg last, if_pos ⟨rfl, by simp only [cursorEnd]; omega⟩]
        refine (ih written (length ▸ positive) read ?_).mono ?_ fun _ _ never => never
        · dsimp only
          rw [length]
          omega
        · rintro batch s ⟨extended, fetched, w⟩
          dsimp only at fetched
          rw [length] at fetched
          exact ⟨extended, fetched.later looks unlisted, w⟩
    | @taken seen rest others first entry found known inside cut begins row result =>
      rw [result]
      dsimp only
      rw [if_neg (by simp [begins])]
      refine ⟨written, ?_, read⟩
      rw [Fetched, found]
      rw [keep] at cut
      refine ⟨listed request.pattern seen, rfl, row, ?_⟩
      have here := TakesIn.here inside cut known begins
      dsimp only
      rw [length]
      exact here
    | @full first entry needed room found known small result =>
      have one := extent_le_records (List.mem_of_getElem? known)
      rw [result]
      dsimp only
      rw [if_pos (by rfl)]
      refine (growInPlace_meets _ written fits read).mono ?_ fun _ _ failed => failed.2.2 trivial
      rintro _ ⟨grown, world⟩ ⟨extended, w, size⟩
      rw [length] at size
      dsimp only at extended w size
      refine (ih extended (by omega) w (by omega)).mono ?_ fun _ _ never => never
      rintro batch s ⟨extended, fetched, w⟩
      rw [size] at fetched
      exact ⟨extended, fetched.grow found known (by omega), w⟩

/-- A refill over a listing succeeds with memory without end. If no entry behind the cursor matches,
it takes in nothing and has read everything. Otherwise the buffer is as large as the first entry
that matches needs behind the current record, and what fits of that entry's batch is taken in. -/
theorem refill_takesIn (answers : ∀ call s, (reader.read call s).1 = call.fill listing)
    (packable : ∀ entry ∈ listing, entry.Packable)
    (free : ∀ entry ∈ listing, (0 : CodePoint) ∉ entry.name) (looks : 1 ≤ request.maxEntries)
    {level : Level} {kept : List Stored} (holds : level.Holds kept)
    (last : level.remaining ≤ 1) (start : 0 ≤ level.cursor) (positive : 0 < level.buffer.length)
    (enough : listing.length + level.keep + Row.extent (records listing) < patience)
    (world : World ρ) (unlimited : world.ledger.limit = none)
    (unarmed : world.ledger.countdown = none) :
    ∃ n after world', refill reader patience request (level, world) = .ok n (after, world') ∧
      after.pathLength = level.pathLength ∧
      match firstMatch request.pattern listing level.cursor.toNat with
      | none => n = 0 ∧ after.cursor = cursorEnd ∧
          after.buffer.length = level.buffer.length ∧ after.Holds kept
      | some first => ∃ fresh, n = fresh.length ∧ after.Holds (kept ++ records fresh) ∧
          TakesIn listing request level.cursor.toNat first level.keep level.buffer.length fresh
            after.cursor after.buffer.length := by
  have few : kept.length ≤ 1 := holds.remaining ▸ last
  have ready := holds.moveToFront few
  have more : level.isExhausted = false := by
    refine decide_eq_false fun ended => ?_
    rw [ended] at start
    exact absurd start (by decide)
  have ended : ∀ entry ∈ listing, (0 : UInt8) ∉ entry.stored.name := fun entry member =>
    Text.zero_not_mem_encode (free entry member) (packable entry member).encoded
  have patient : listing.length - level.cursor.toNat + (level.moveToFront.keep +
      Row.extent (records listing) - level.moveToFront.buffer.length) < patience := by
    rw [keep_moveToFront]
    omega
  have fetches : (fetch reader request patience level.cursor.toNat).Meets
      (level.moveToFront, world) _ _ :=
    fetch_meets_of_fill answers packable ended looks ready.fits (Extends.refl _)
      (ready.size ▸ positive) ⟨trivial, fun _ => ⟨unlimited, unarmed⟩⟩ patient
  rw [Int.toNat_of_nonneg start, keep_moveToFront, ready.size] at fetches
  have refills := refill_meets_of_fetch (Terms.keeping (fun _ : ρ => True) True)
    (Fetched listing request level.cursor.toNat level.keep level.buffer.length) holds few more
    (fetches.mono (fun _ _ done => done) fun _ _ never => never.elim) ?_
  · obtain ⟨n, ⟨after, world'⟩, run, -, fresh, batch, fetched, number, count, row, extended, got,
      ⟨current, same⟩, holds'⟩ :=
      (refills.mono (fun _ _ done => done) fun _ _ failed => failed.2.1 trivial).exists_ok
    dsimp only at same holds'
    subst same
    refine ⟨n, _, world', run, (congrArg Level.pathLength extended.frame).trans ready.pathLength,
      ?_⟩
    unfold Fetched at got
    cases found : firstMatch request.pattern listing level.cursor.toNat with
    | none =>
      rw [found] at got
      obtain ⟨rfl, size⟩ := got
      obtain rfl : fresh = [] := List.eq_nil_of_length_eq_zero (number.trans count.symm)
      rw [List.append_nil] at holds'
      exact ⟨count.symm, rfl, size, holds'⟩
    | some first =>
      rw [found] at got
      obtain ⟨entries, count', row', takes⟩ := got
      have same : fresh = records entries := by
        refine row.unique row' ?_
        rw [records, List.length_map]
        omega
      rw [same] at holds'
      exact ⟨entries, count.symm.trans count', holds', takes⟩
  · intro batch fetched fault _ got refused
    unfold Fetched at got
    split at got
    · obtain ⟨rfl, -⟩ := got
      cases refused
    · obtain ⟨entries, count, row, -⟩ := got
      have checked := row.check
      rw [records, List.length_map, ← count] at checked
      rw [checked] at refused
      cases refused

/-- Behind a file `k`, with a buffer that has no room for more, files `x` and `y` are passed and a
file `a` is taken in, and there is no room for a file `ab` then. -/
theorem refill_takesIn_second_batch :
    let file (name : Text) : Entry := ⟨name, 1, 0, 0, 0, 0⟩
    let listing := [file [0x6B], file [0x78], file [0x79], file [0x61], file [0x61, 0x62]]
    let reader := Reader.ofListing listing
    let request : Request := ⟨[], some [0x61, 0x2A], 2⟩
    let level : Level := ⟨1, (file [0x6B]).stored.cell, 1, some ⟨0, 1, 0⟩⟩
    let world : World Unit := ⟨⟨none, 0, 0, none⟩, ()⟩
    let after : Level :=
      ⟨1, (file [0x6B]).stored.cell ++ (file [0x61]).stored.cell, 4, some ⟨0, 1, 1⟩⟩
    level.Holds [(file [0x6B]).stored] ∧ firstMatch request.pattern listing 1 = some 2 ∧
    (∃ world', refill reader 200 request (level, world) = .ok 1 (after, world')) ∧
    TakesIn listing request 1 2 24 24 [file [0x61]] 4 48 := by
  intro file listing reader request level world after
  have holds : level.Holds [(file [0x6B]).stored] := by
    refine ⟨rfl, rfl, Row.of_cells ?_ (by decide)⟩
    exact ⟨[], by decide⟩
  have match' : firstMatch request.pattern listing 1 = some 2 := by decide
  have run : refill reader 200 request (level, world) =
      .ok 1 (after, ((refill reader 200 request).leaves (level, world)).2) := by decide +kernel
  have packable : ∀ entry ∈ listing, entry.Packable := by
    have all : ∀ entry ∈ listing, Text.encode? entry.name = some entry.stored.name ∧
        0 ≤ entry.objectType ∧ entry.objectType < 0x100000000 := by decide
    exact fun entry member => ⟨(all entry member).1, (all entry member).2⟩
  have answers : ∀ call s, (reader.read call s).1 = call.fill listing := fun _ _ => rfl
  have looks : 1 ≤ request.maxEntries := by decide
  have enough : listing.length + level.keep + Row.extent (records listing) < 200 := by decide
  obtain ⟨n, left, world', run', -, taken⟩ := refill_takesIn answers packable (by decide) looks
    holds (by decide) (by decide) (by decide) enough world rfl rfl
  cases run.symm.trans run'
  refine ⟨holds, match', ⟨_, run⟩, ?_⟩
  have start : level.cursor.toNat = 1 := rfl
  rw [start, match'] at taken
  obtain ⟨fresh, number, -, takes⟩ := taken
  obtain ⟨entry, others, known, same, -⟩ := takes.grown
  have entry' : file [0x61] = entry := Option.some.inj known
  have alone : others = [] := by
    rw [same] at number
    exact List.eq_nil_of_length_eq_zero (Nat.succ.inj number).symm
  have sizes : level.keep = 24 ∧ level.buffer.length = 24 ∧ after.buffer.length = 48 := by decide
  rw [same, alone, ← entry', sizes.1, sizes.2.1, sizes.2.2] at takes
  exact takes

end Level

end Catwalk
