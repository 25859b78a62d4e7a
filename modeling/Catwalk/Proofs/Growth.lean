import Catwalk.Proofs.Atomicity
import Catwalk.Proofs.Fleets
import Catwalk.Proofs.Plans

/-!
# What a failed call keeps

A device that answers from its host is sparing, so a call that fails gives back all that it has
charged for levels. What its path has grown by it keeps, and it grows for the path of a directory
before that is read: a failed advance costs memory when the path of the object that the walk stands
on has outgrown its buffer (`used_of_failed_call`), and only then.
-/

namespace Catwalk

namespace ReadCall

variable {pattern : Option Text} {entries : List Entry} {room next : Int} {index count n : Nat}

/-- Every record that is deposited counts. -/
private theorem le_of_gather {n next : Nat}
    (gathered : (gather pattern entries room index count).result = .ok (n, next)) : count ≤ n := by
  induction entries generalizing room index count with
  | nil =>
    cases gathered
    exact Nat.le_refl _
  | cons entry entries ih =>
    unfold gather at gathered
    split at gathered
    · split at gathered
      · cases gathered
      · dsimp only at gathered
        split at gathered
        · split at gathered
          · cases gathered
          · cases gathered
            exact Nat.le_refl _
        · split at gathered
          · cases gathered
          · exact Nat.le_of_succ_le (ih gathered)
    · exact ih gathered

/-- Where nothing is deposited nothing matches, whatever the room. -/
private theorem gather_of_none {next : Nat} (other : Int)
    (gathered : (gather pattern entries room index 0).result = .ok (0, next)) :
    (gather pattern entries other index 0).result = .ok (0, next) := by
  induction entries generalizing index with
  | nil => exact gathered
  | cons entry entries ih =>
    unfold gather at gathered ⊢
    by_cases matching : Pattern.matchesName pattern entry.name = true
    · rw [if_pos matching] at gathered
      split at gathered
      · cases gathered
      · dsimp only at gathered
        split at gathered
        · cases gathered
        · split at gathered
          · cases gathered
          · exact absurd (le_of_gather gathered) (Nat.not_succ_le_zero 0)
    · rw [if_neg matching] at gathered ⊢
      exact ih gathered

/-- A read that brings in nothing cannot overflow with another buffer. -/
private theorem fill_of_none {call : ReadCall} {listing : List Entry} {batch : Batch}
    (buffer : Bytes) (filled : (call.fill listing).result = .ok batch) (nothing : batch.count = 0) :
    ({ call with buffer }.fill listing).result = .ok batch := by
  unfold fill at filled ⊢
  dsimp only at filled ⊢
  split at filled
  · cases filled
  · next valid =>
    rw [if_neg valid]
    dsimp only at filled ⊢
    cases gathered : (gather call.pattern ((listing.drop call.cursor.toNat).take
        call.maxEntries.toNat) call.room call.cursor.toNat 0).result with
    | error fault =>
      rw [gathered] at filled
      cases filled
    | ok found =>
      obtain ⟨count, next⟩ := found
      rw [gathered] at filled
      cases filled
      change count = 0 at nothing
      subst nothing
      rw [gather_of_none _ gathered]
      rfl

end ReadCall

/-- A device is sparing as long as it shows one host. -/
private theorem Device.steady (host : Host) (separator : Text) :
    (reader separator).Steady (fun device => device.Shows host) True where
  keeps call _ shows := (shows.read call).1
  sparing := by
    intro _ call buffer s t batch fault shows shows' answered overflowed kind nothing
    change (read call s).1.result = _ at answered
    change (read { call with buffer } t).1.result = _ at overflowed
    rcases (shows.read call).2.2 with same | ⟨-, failed⟩
    · rcases (shows'.read { call with buffer }).2.2 with same' | ⟨-, failed⟩
      · rw [same] at answered
        rw [same'] at overflowed
        unfold answerFrom at answered overflowed
        dsimp only at answered overflowed
        cases found : host.catalogue call.path with
        | error fault =>
          rw [found] at answered
          cases answered
        | ok listing =>
          rw [found] at answered overflowed
          dsimp only at answered overflowed
          rw [ReadCall.fill_of_none buffer answered nothing] at overflowed
          cases overflowed
      · rw [failed] at overflowed
        cases overflowed
        cases kind
    · rw [failed] at answered
      cases answered

namespace Walk

variable {walk : Walk} {root : Text} {separator : Text} {host : Host} {patience others : Nat}
  {world : World Device}

/-- A walk that has outgrown its path buffer stands on an object with a long path. -/
private theorem Outgrown.exists_shown (outgrown : walk.Outgrown) (sound : walk.Sound root) :
    ∃ shown, walk.livePosition = .ok (some shown) ∧ walk.path.capacity ≤
      (walk.settings.child shown.directory (Text.decode shown.storedName)).length := by
  obtain ⟨level, shallower, record, records, levels, holds, long⟩ := outgrown
  have deep : level.pathLength = walk.path.text.length :=
    (sound.top level (by rw [levels]; rfl)).2
  refine ⟨_, livePosition_of_holds levels holds, ?_⟩
  rw [deep, List.take_length]
  exact long

/-- A reset that fails costs nothing. -/
private theorem reset_used_meets (sound : walk.Sound root) (opened : walk.closed = false)
    (shows : walk.settings.filters = false)
    (accounts : Accounts (fun device => device.Shows host) others (walk, world)) :
    (reset (Device.reader separator) patience).Meets (walk, world) (fun _ _ => True)
      fun _ s => s.2.ledger.used = world.ledger.used := by
  have covers := Terms.any_covers (Device.reader separator)
  have back : (reset (Device.reader separator) patience).Meets (walk, world) _ _ :=
    (reset_meets (rounds_of_covers covers) sound opened
      (covers.serves _ (Level.fresh_holds _ _))
      (fun before after rooted opened => opened.sound rooted.sound rooted.bare) trivial).and
    (reset_accounts_meets (Device.steady host separator) sound opened accounts)
  refine back.mono (fun _ _ _ => trivial) ?_
  rintro fault s ⟨⟨-, -, same, levels, -⟩, after, room⟩
  rw [after.used, accounts.used, charge_eq, charge_eq, same.settings, levels, room shows]

/-- An advance that fails costs what the path has grown by, and nothing if the path was long
enough. -/
private theorem advance_used_meets (sound : walk.Sound root) (opened : walk.closed = false)
    (shows : walk.settings.filters = false)
    (accounts : Accounts (fun device => device.Shows host) others (walk, world)) :
    (advance (Device.reader separator) patience).Meets (walk, world) (fun _ _ => True)
      fun _ s => walk.path.capacity ≤ s.1.path.capacity ∧
        s.2.ledger.used = world.ledger.used + (s.1.path.capacity - walk.path.capacity) ∧
        (¬ walk.Outgrown → s.1.path.capacity = walk.path.capacity) := by
  by_cases ended : walk.isEmpty = true
  · rw [Act.Meets, advance_of_isEmpty opened ended]
    trivial
  have covers := Terms.any_covers (Device.reader separator)
  have stepped : (step (Device.reader separator) patience).Meets (walk, world) _ _ :=
    step_sound_meets covers sound trivial
  have spends : (advance (Device.reader separator) patience).Meets (walk, world) _ _ :=
    (advance_meets (rounds_of_covers covers) sound opened (eq_false_of_ne_true ended)
      stepped).and (advance_accounts_meets (Device.steady host separator) sound accounts)
  refine spends.mono (fun _ _ _ => trivial) ?_
  rintro fault s ⟨⟨-, -, interrupted⟩, after, spent⟩
  obtain ⟨begun, lengthened, spent⟩ := spent shows
  cases interrupted with
  | under filters =>
    rw [shows] at filters
    cases filters
  | stayed stayed =>
    have grown := stayed.same.capacity
    have deep : s.1.depth = begun.depth := by
      rw [stayed.depth, depth, depth, lengthened.levels]
    have levels := spent.levels trivial deep
    have used := after.used
    have used' : world.ledger.used = others + walk.charge := accounts.used
    rw [charge_eq, stayed.same.settings, levels, lengthened.levels] at used
    rw [charge_eq] at used'
    refine ⟨grown, ?_, ?_⟩
    · omega
    · intro fits
      exact spent.capacity.trans (lengthened.capacity.resolve_right fits)

end Walk

namespace Fleet

/-- While a walk that passes over nothing goes through a host, a reset that fails costs no memory.
An advance that fails costs what the path buffer has grown by, and that is nothing if the path of
the object that the walk stands on has room in it. -/
theorem used_of_failed_call (start : World Device) (orders : List (Order Device))
    (member : Member Device) (listed : member ∈ (after start orders).members)
    (opened : member.walk.closed = false)
    (plain : member.plan.flags = 0 ∨ Pattern.isMatchAll member.plan.pattern = true)
    (separator : Text) (reads : member.reader = Device.reader separator)
    (fromHost : (after start orders).world.source.source = .host) (patience : Nat) :
    let world := (after start orders).world
    (∀ fault walk world',
      Walk.reset member.reader patience (member.walk, world) = .error fault (walk, world') →
      world'.ledger.used = world.ledger.used) ∧
    ∀ fault walk world',
      Walk.advance member.reader patience (member.walk, world) = .error fault (walk, world') →
      member.walk.path.capacity ≤ walk.path.capacity ∧
      world'.ledger.used =
        world.ledger.used + (walk.path.capacity - member.walk.path.capacity) ∧
      ((∀ shown, member.walk.livePosition = .ok (some shown) →
          (member.walk.settings.child shown.directory (Text.decode shown.storedName)).length <
            member.walk.path.capacity) →
        world'.ledger.used = world.ledger.used) := by
  intro world
  have balanced := after_balanced start orders
  obtain ⟨settings, planned, live⟩ := (balanced.reachable member listed).live
  have shows : world.source.Shows world.source.host := ⟨fromHost, rfl⟩
  obtain ⟨others, accounts⟩ : ∃ others, Walk.Accounts
      (fun device => device.Shows world.source.host) others (member.walk, world) :=
    balanced.exists_accounts listed opened shows
  cases live with
  | shut closed _ _ =>
    rw [opened] at closed
    cases closed
  | «open» _ same sound =>
    have shows : member.walk.settings.filters = false :=
      same ▸ Settings.filters_of_plan planned plain
    rw [reads]
    constructor
    · intro fault walk world' failed
      exact (Walk.reset_used_meets sound opened shows accounts).of_error failed
    · intro fault walk world' failed
      obtain ⟨grown, used, same⟩ :=
        (Walk.advance_used_meets sound opened shows accounts).of_error failed
      refine ⟨grown, used, ?_⟩
      intro fits
      have room : walk.path.capacity = member.walk.path.capacity := by
        apply same
        intro outgrown
        obtain ⟨shown, position, long⟩ := outgrown.exists_shown sound
        exact absurd (fits shown position) (Nat.not_lt.mpr long)
      rw [used, room, Nat.sub_self, Nat.add_zero]

/-! ### A long name -/

/-- A device that shows a folder `r`, in which there is a directory with a name of 62 letters. -/
def longNamed : Device :=
  let path : Text := [0x2F, 0x72, 0x2F] ++ List.replicate 62 0x64
  let host := ((Host.Operation.makeDirectory path false).act 0).leaves
    ⟨none, 1, [(Host.rootId, Node.emptyDirectory 0)]⟩
  ⟨host, .host, none, []⟩

/-- A walk over the folder that stands on the directory, with room for a path of 63 letters. -/
def onLongName : Walk :=
  let record : Bytes := [0, 0xFD, 0xFF, 0xFF, 0, 0, 0, 0, 0, 0, 0, 0, 3, 0, 0, 0, 2, 0, 0, 0] ++
    List.replicate 62 0x64 ++ Bytes.zeros 14
  ⟨⟨true, false, none, 24, 1, [0x2F]⟩, ⟨[0x2F, 0x72], [], 64⟩, 2,
    [⟨2, record, -1, some ⟨0, 62, 0⟩⟩], none, false⟩

/-- That walk is started, and then refusals are armed. -/
private theorem after_onLongName (countdown : Option Nat) :
    let reader := Device.reader [CodePoint.solidus]
    let plan : Walk.Plan := ⟨[0x2F, 0x72], 1, none, 24, 1⟩
    after ⟨⟨none, 0, 0, none⟩, longNamed⟩ [.start reader 9 plan, .disturb longNamed countdown] =
      ⟨[⟨reader, plan, onLongName⟩], ⟨⟨none, 192, 4, countdown⟩, longNamed⟩⟩ := by
  intro reader plan
  have started : Walk.start reader 9 plan ⟨⟨none, 0, 0, none⟩, longNamed⟩ = .ok onLongName
      ((Walk.start reader 9 plan).leaves ⟨⟨none, 0, 0, none⟩, longNamed⟩) := by decide +kernel
  have ledger : ((Walk.start reader 9 plan).leaves ⟨⟨none, 0, 0, none⟩, longNamed⟩).ledger =
      ⟨none, 192, 4, none⟩ := by decide +kernel
  simp only [after, List.foldl_cons, List.foldl_nil, follow, started, ledger, List.nil_append]

/-- The path grows for the directory, and then there is no memory to read it: the advance fails, and
costs 64 bytes. -/
theorem exists_costly_advance :
    let reader := Device.reader [CodePoint.solidus]
    let plan : Walk.Plan := ⟨[0x2F, 0x72], 1, none, 24, 1⟩
    let fleet := after ⟨⟨none, 0, 0, none⟩, longNamed⟩
      [.start reader 9 plan, .disturb longNamed (some 1)]
    ∃ member ∈ fleet.members, member.reader = reader ∧ member.walk.closed = false ∧
      Pattern.isMatchAll member.plan.pattern = true ∧ ∃ fault walk world',
        Walk.advance member.reader 9 (member.walk, fleet.world) = .error fault (walk, world') ∧
        fleet.world.ledger.used = 192 ∧ world'.ledger.used = 256 := by
  intro reader plan fleet
  let armed : World Device := ⟨⟨none, 192, 4, some 1⟩, longNamed⟩
  have same : fleet = ⟨[⟨reader, plan, onLongName⟩], armed⟩ := after_onLongName (some 1)
  have failed : Walk.advance reader 9 (onLongName, armed) =
      .error (.outOfMemory 56 0) ((Walk.advance reader 9).leaves (onLongName, armed)) := by
    decide +kernel
  have used : ((Walk.advance reader 9).leaves (onLongName, armed)).2.ledger.used = 256 := by
    decide +kernel
  rw [same]
  refine ⟨⟨reader, plan, onLongName⟩, List.mem_singleton_self _, rfl, rfl, rfl,
    .outOfMemory 56 0, ?_⟩
  generalize (Walk.advance reader 9).leaves (onLongName, armed) = scene at failed used
  exact ⟨scene.1, scene.2, failed, rfl, used⟩

/-- Refused its second reservation, a reset of that walk fails and costs nothing, and an advance
costs what the path has grown by. -/
theorem used_of_failed_call_of_long_name :
    let reader := Device.reader [CodePoint.solidus]
    let plan : Walk.Plan := ⟨[0x2F, 0x72], 1, none, 24, 1⟩
    let fleet := after ⟨⟨none, 0, 0, none⟩, longNamed⟩
      [.start reader 9 plan, .disturb longNamed (some 1)]
    ∃ member ∈ fleet.members,
      (∃ fault walk world',
        Walk.reset member.reader 9 (member.walk, fleet.world) = .error fault (walk, world') ∧
        world'.ledger.used = 192) ∧
      ∃ fault walk world',
        Walk.advance member.reader 9 (member.walk, fleet.world) = .error fault (walk, world') ∧
        world'.ledger.used = 192 + (walk.path.capacity - member.walk.path.capacity) := by
  intro reader plan fleet
  let armed : World Device := ⟨⟨none, 192, 4, some 1⟩, longNamed⟩
  have same : fleet = ⟨[⟨reader, plan, onLongName⟩], armed⟩ := after_onLongName (some 1)
  have listed : ⟨reader, plan, onLongName⟩ ∈ fleet.members := by
    rw [same]
    exact List.mem_singleton_self _
  have fromHost : fleet.world.source.source = .host := by
    rw [same]
    rfl
  obtain ⟨resets, advances⟩ := used_of_failed_call ⟨⟨none, 0, 0, none⟩, longNamed⟩
    [.start reader 9 plan, .disturb longNamed (some 1)] _ listed rfl (.inr rfl)
    [CodePoint.solidus] rfl fromHost 9
  have failed : Walk.reset reader 9 (onLongName, armed) = .error (.outOfMemory 24 0)
      ((Walk.reset reader 9).leaves (onLongName, armed)) := by decide +kernel
  have failed' : Walk.advance reader 9 (onLongName, armed) = .error (.outOfMemory 56 0)
      ((Walk.advance reader 9).leaves (onLongName, armed)) := by decide +kernel
  generalize (Walk.reset reader 9).leaves (onLongName, armed) = scene at failed
  generalize (Walk.advance reader 9).leaves (onLongName, armed) = scene' at failed'
  have kept : ∀ fault walk world', Walk.reset reader 9 (onLongName, fleet.world) =
      .error fault (walk, world') → world'.ledger.used = fleet.world.ledger.used := resets
  have costs : ∀ fault walk world', Walk.advance reader 9 (onLongName, fleet.world) =
      .error fault (walk, world') →
      world'.ledger.used = fleet.world.ledger.used + (walk.path.capacity - 64) :=
    fun _ _ _ failed => (advances _ _ _ failed).2.1
  rw [same] at kept costs ⊢
  refine ⟨_, List.mem_singleton_self _, ⟨_, scene.1, scene.2, failed, kept _ _ _ failed⟩, ?_⟩
  exact ⟨_, scene'.1, scene'.2, failed', costs _ _ _ failed'⟩

end Fleet

end Catwalk
