import Catwalk.Proofs.Accounts
import Mathlib.Algebra.GroupWithZero.Nat
import Mathlib.Algebra.Order.BigOperators.Group.List
import Mathlib.Algebra.Order.Group.Nat

/-!
# Fleets

Any number of walks may go through one world and be charged to one ledger. A fleet is such walks,
each with its reader and its plan; orders start a walk, advance, reset and close one, and disturb
the world between two calls. Whatever the orders are and however the calls end, the bytes in use are
those at the start and what the open walks are charged (`used_after`).
-/

namespace Catwalk

variable {ρ : Type}

/-- The bytes that a plan's pattern is charged. A pattern that every name matches is not kept. -/
def Walk.Plan.patternCharge (plan : Plan) : Nat :=
  match plan.pattern with
  | some pattern => if Pattern.isMatchAll plan.pattern then 0 else pattern.length + 1
  | none => 0

private theorem Walk.Plan.patternCharge_eq {plan : Plan} {separator : Text} {settings : Settings}
    (planned : plan.settings? separator = .ok settings) :
    settings.patternCharge = plan.patternCharge := by
  obtain ⟨-, -, -, rfl⟩ := settings?_eq_ok_iff.mp planned
  unfold Settings.patternCharge patternCharge
  cases pattern : plan.pattern with
  | none => simp
  | some text =>
    by_cases all : Pattern.isMatchAll (some text) = true
    · simp [all]
    · simp [all]

/-- A walk with what it was started with. -/
structure Member (ρ : Type) where
  reader : Reader ρ
  plan : Walk.Plan
  walk : Walk

/-- Walks that share a world. -/
structure Fleet (ρ : Type) where
  members : List (Member ρ)
  world : World ρ

/-- What can be done to a fleet. Calls go to the member at a place. -/
inductive Order (ρ : Type) where
  | start (reader : Reader ρ) (patience : Nat) (plan : Walk.Plan)
  | advance (place patience : Nat)
  | reset (place patience : Nat)
  | close (place : Nat)
  /-- Between two calls the source may change, and refusals may be armed. -/
  | disturb (source : ρ) (countdown : Option Nat)

/-- What an open walk is charged: for its pattern, for its path, and for every level a header and a
buffer. -/
def Member.charge (member : Member ρ) : Nat :=
  if member.walk.closed then 0
  else member.plan.patternCharge + member.walk.path.capacity +
    (member.walk.levels.map fun level => Level.headerSize + level.buffer.length).sum

namespace Fleet

variable {fleet : Fleet ρ} {base : Nat}

/-- The fleet after an act of the member at a place, if there is one, however the act ends. -/
def call (fleet : Fleet ρ) (place : Nat) (act : Reader ρ → Act (Walk.Scene ρ) Unit) : Fleet ρ :=
  match fleet.members[place]? with
  | some member =>
    let scene := (act member.reader).leaves (member.walk, fleet.world)
    ⟨fleet.members.set place { member with walk := scene.1 }, scene.2⟩
  | none => fleet

/-- The fleet after an order. A walk that cannot be started does not join. -/
def follow (fleet : Fleet ρ) : Order ρ → Fleet ρ
  | .start reader patience plan =>
    match Walk.start reader patience plan fleet.world with
    | .ok walk world => ⟨fleet.members ++ [⟨reader, plan, walk⟩], world⟩
    | .error _ world => ⟨fleet.members, world⟩
  | .advance place patience => fleet.call place (Walk.advance · patience)
  | .reset place patience => fleet.call place (Walk.reset · patience)
  | .close place => fleet.call place fun _ => modify Walk.close
  | .disturb source countdown =>
    { fleet with world := { ledger := { fleet.world.ledger with countdown }, source } }

/-- The fleet that orders lead to from a world in which no walk has been started. -/
def after (world : World ρ) (orders : List (Order ρ)) : Fleet ρ := orders.foldl follow ⟨[], world⟩

/-- The bytes that the members are charged. -/
def charge (fleet : Fleet ρ) : Nat := (fleet.members.map Member.charge).sum

/-- The walks are what calls have made of them, and beside `base` what they are charged is in
use. -/
structure Balanced (base : Nat) (fleet : Fleet ρ) : Prop where
  reachable : ∀ member ∈ fleet.members,
    Walk.Reachable member.reader member.plan member.walk
  used : fleet.world.ledger.used = base + fleet.charge

end Fleet

namespace Walk

variable {reader : Reader ρ} {patience base : Nat} {plan : Plan} {settings : Settings} {root : Text}
  {walk : Walk} {world : World ρ}

/-- Beside `base`, what the walk is charged is in use, and nothing if it is closed. -/
def Pays (base : Nat) (s : Scene ρ) : Prop :=
  s.2.ledger.used = base + if s.1.closed then 0 else s.1.charge

private theorem pays_iff_of_open {s : Scene ρ} (opened : s.1.closed = false) :
    Pays base s ↔ Accounts (fun _ => True) base s := by
  unfold Pays
  rw [if_neg (by simp [opened])]
  constructor
  · intro used
    exact ⟨trivial, used⟩
  · intro accounts
    exact accounts.used

private theorem pays_of_opened {act : Act (Scene ρ) Unit}
    (opened : act.Meets (walk, world) (fun _ s => s.1.closed = false)
      fun _ s => s.1.closed = false)
    (accounts : act.Meets (walk, world) (fun _ => Accounts (fun _ => True) base)
      fun _ => Accounts (fun _ => True) base) :
    Pays base (act.leaves (walk, world)) :=
  Act.Meets.leaves ((opened.and accounts).mono
    (fun _ _ done => (pays_iff_of_open done.1).mpr done.2)
    fun _ _ failed => (pays_iff_of_open failed.1).mpr failed.2)

private theorem Live.advance_pays (live : walk.Live settings root)
    (pays : Pays base (walk, world)) :
    Pays base ((advance reader patience).leaves (walk, world)) := by
  cases live with
  | shut closed _ _ =>
    rw [Act.leaves, advance_of_closed closed]
    exact pays
  | «open» opened _ sound =>
    have accounts := (pays_iff_of_open opened).mp pays
    exact pays_of_opened (advance_opened_meets sound opened)
      ((advance_accounts_meets reader.steady sound accounts).mono (fun _ _ done => done)
        fun _ _ failed => failed.1)

private theorem Live.reset_pays (live : walk.Live settings root) (pays : Pays base (walk, world)) :
    Pays base ((reset reader patience).leaves (walk, world)) := by
  cases live with
  | shut closed _ _ =>
    rw [Act.leaves, reset_of_closed closed]
    exact pays
  | «open» opened _ sound =>
    have accounts := (pays_iff_of_open opened).mp pays
    exact pays_of_opened (reset_opened_meets sound opened)
      ((reset_accounts_meets reader.steady sound opened accounts).mono (fun _ _ done => done)
        fun _ _ failed => failed.1)

private theorem Live.close_pays (live : walk.Live settings root) (pays : Pays base (walk, world)) :
    Pays base (close (walk, world)) := by
  cases live with
  | shut closed _ _ =>
    rw [close_of_closed closed]
    exact pays
  | «open» opened _ _ =>
    obtain ⟨closed, given⟩ := close_uses opened ((pays_iff_of_open opened).mp pays)
    unfold Pays
    rw [if_pos closed, given.used, Nat.add_zero]

/-- A start that succeeds leaves an open walk that pays for itself, and one that fails pays for
nothing. -/
private theorem start_pays_meets (used : world.ledger.used = base) :
    (start reader patience plan).Meets world (fun walk w => Pays base (walk, w))
      fun _ w => w.ledger.used = base := by
  have begun : (start reader patience plan).Meets world _ _ :=
    (start_settled_meets (Terms.any_covers reader) trivial).and
      (start_uses_meets reader.steady ⟨trivial, used⟩)
  refine begun.mono ?_ fun _ _ failed => failed.2.used
  rintro walk world ⟨⟨-, settings, -, settled⟩, uses⟩
  exact (pays_iff_of_open settled.opened).mpr uses

end Walk

namespace Member

variable {member : Member ρ}

private theorem charge_eq (reachable : Walk.Reachable member.reader member.plan member.walk) :
    member.charge = if member.walk.closed then 0 else member.walk.charge := by
  obtain ⟨settings, planned, live⟩ := reachable.live
  cases live with
  | shut closed _ _ => simp [charge, closed]
  | «open» opened same _ =>
    simp only [charge, opened, Bool.false_eq_true, if_false, Walk.charge_eq, same,
      Walk.Plan.patternCharge_eq planned]
    rfl

end Member

namespace Fleet

variable {fleet : Fleet ρ} {base : Nat}

/-- An act of one member keeps the balance if it keeps what that member pays. -/
private theorem Balanced.call (balanced : fleet.Balanced base) (place : Nat)
    (act : Reader ρ → Act (Walk.Scene ρ) Unit)
    (keeps : ∀ (reader : Reader ρ) plan walk, Walk.Reachable reader plan walk →
      let scene := (act reader).leaves (walk, fleet.world)
      Walk.Reachable reader plan scene.1 ∧
        ∀ base, Walk.Pays base (walk, fleet.world) → Walk.Pays base scene) :
    (fleet.call place act).Balanced base := by
  obtain ⟨reachable, used⟩ := balanced
  unfold Fleet.call
  cases found : fleet.members[place]? with
  | none => exact ⟨reachable, used⟩
  | some member =>
    obtain ⟨here, is⟩ := List.getElem?_eq_some_iff.mp found
    have reached : Walk.Reachable member.reader member.plan member.walk :=
      reachable member (List.mem_of_getElem? found)
    obtain ⟨reached', pays⟩ := keeps _ _ _ reached
    dsimp only
    generalize (act member.reader).leaves (member.walk, fleet.world) = scene at reached' pays
    have charge := Member.charge_eq reached
    have charge' : ({ member with walk := scene.1 } : Member ρ).charge =
      if scene.1.closed then 0 else scene.1.charge := Member.charge_eq reached'
    obtain ⟨before, after, members, -, replaced⟩ : ∃ before after,
        fleet.members = before ++ fleet.members[place] :: after ∧ before.length = place ∧
          fleet.members.set place { member with walk := scene.1 } =
            before ++ { member with walk := scene.1 } :: after := List.exists_of_set here
    rw [is] at members
    constructor
    · intro current listed
      rcases List.mem_or_eq_of_mem_set listed with listed | rfl
      · exact reachable current listed
      · exact reached'
    · -- the member pays beside the others
      have paid := pays (base + (before.map Member.charge).sum + (after.map Member.charge).sum)
      simp only [Fleet.charge, members, List.map_append, List.map_cons, List.sum_append,
        List.sum_cons] at used
      simp only [Fleet.charge, replaced, List.map_append, List.map_cons, List.sum_append,
        List.sum_cons, charge']
      unfold Walk.Pays at paid
      dsimp only at paid
      rw [paid (by omega)]
      omega

/-- What is in use covers what an open member is charged. -/
theorem Balanced.exists_accounts (balanced : fleet.Balanced base) {member : Member ρ}
    (listed : member ∈ fleet.members) (opened : member.walk.closed = false) {source : ρ → Prop}
    (held : source fleet.world.source) :
    ∃ others, Walk.Accounts source others (member.walk, fleet.world) := by
  have charge := Member.charge_eq (balanced.reachable member listed)
  rw [if_neg (by simp [opened])] at charge
  have part : member.charge ≤ fleet.charge :=
    List.single_le_sum (fun _ _ => Nat.zero_le _) _ (List.mem_map_of_mem listed)
  have used := balanced.used
  refine ⟨base + fleet.charge - member.charge, held, ?_⟩
  dsimp only
  omega

/-- Every order keeps the balance. -/
private theorem Balanced.follow (balanced : fleet.Balanced base) (order : Order ρ) :
    (fleet.follow order).Balanced base := by
  cases order with
  | start reader patience plan =>
    obtain ⟨reachable, used⟩ := balanced
    have started : (Walk.start reader patience plan).Meets fleet.world
        (fun walk w => Walk.Pays (base + fleet.charge) (walk, w)) _ := Walk.start_pays_meets used
    unfold Fleet.follow
    dsimp only
    cases run : Walk.start reader patience plan fleet.world with
    | ok walk world =>
      have pays := started.of_ok run
      have reached : Walk.Reachable reader plan walk := .start run
      constructor
      · intro member listed
        rcases List.mem_append.mp listed with listed | listed
        · exact reachable member listed
        · rw [List.mem_singleton.mp listed]
          exact reached
      · have charge : (⟨reader, plan, walk⟩ : Member ρ).charge = _ := Member.charge_eq reached
        simp only [Fleet.charge, List.map_append, List.map_cons, List.map_nil, List.sum_append,
          List.sum_cons, List.sum_nil, charge]
        rw [Nat.add_zero, ← Nat.add_assoc]
        exact pays
    | error fault world => exact ⟨reachable, started.of_error run⟩
  | advance place patience =>
    unfold Fleet.follow
    apply balanced.call
    intro reader plan walk reached
    obtain ⟨settings, -, live⟩ := reached.live
    exact ⟨reached.advance patience fleet.world, fun _ pays => live.advance_pays pays⟩
  | reset place patience =>
    unfold Fleet.follow
    apply balanced.call
    intro reader plan walk reached
    obtain ⟨settings, -, live⟩ := reached.live
    exact ⟨reached.reset patience fleet.world, fun _ pays => live.reset_pays pays⟩
  | close place =>
    unfold Fleet.follow
    apply balanced.call
    intro reader plan walk reached
    obtain ⟨settings, -, live⟩ := reached.live
    exact ⟨reached.close fleet.world, fun _ pays => live.close_pays pays⟩
  | disturb source countdown => exact ⟨balanced.reachable, balanced.used⟩

theorem after_balanced (world : World ρ) (orders : List (Order ρ)) :
    (after world orders).Balanced world.ledger.used := by
  have start : (⟨[], world⟩ : Fleet ρ).Balanced world.ledger.used := by
    refine ⟨?_, rfl⟩
    intro member listed
    cases listed
  unfold after
  generalize (⟨[], world⟩ : Fleet ρ) = fleet at start
  induction orders generalizing fleet with
  | nil => exact start
  | cons order orders ih => exact ih (fleet.follow order) (start.follow order)

private theorem follow_close {place : Nat} {member : Member ρ}
    (found : fleet.members[place]? = some member) :
    fleet.follow (.close place) =
      let scene := Walk.close (member.walk, fleet.world)
      ⟨fleet.members.set place { member with walk := scene.1 }, scene.2⟩ := by
  simp only [follow, call, found]
  rfl

/-- Closing a walk again changes nothing. -/
private theorem close_close (fleet : Fleet ρ) (place : Nat) :
    (fleet.follow (.close place)).follow (.close place) = fleet.follow (.close place) := by
  cases found : fleet.members[place]? with
  | none =>
    have same : fleet.follow (.close place) = fleet := by
      simp only [follow, call, found]
    rw [same, same]
  | some member =>
    have here := (List.getElem?_eq_some_iff.mp found).1
    have again := Walk.close_close (member.walk, fleet.world)
    rw [follow_close found]
    refine (follow_close (List.getElem?_set_self here)).trans ?_
    simp only [again, List.set_set]

/-- Whatever is done with walks that share a ledger, what is in use is what was in use before any
was started and what the open ones are charged. So it is back there once all are closed; a start
that fails adds nothing, and a second close changes nothing. -/
theorem used_after (world : World ρ) (orders : List (Order ρ)) :
    let fleet := after world orders
    fleet.world.ledger.used = world.ledger.used + (fleet.members.map Member.charge).sum ∧
    ((∀ member ∈ fleet.members, member.walk.closed = true) →
      fleet.world.ledger.used = world.ledger.used) ∧
    (∀ reader patience plan fault after,
      Walk.start reader patience plan fleet.world = .error fault after →
      fleet.follow (.start reader patience plan) = ⟨fleet.members, after⟩ ∧
        after.ledger.used = fleet.world.ledger.used) ∧
    ∀ place, (fleet.follow (.close place)).follow (.close place) = fleet.follow (.close place) := by
  intro fleet
  have balanced : fleet.Balanced world.ledger.used := after_balanced world orders
  refine ⟨balanced.used, ?_, ?_, close_close fleet⟩
  · intro closed
    have nothing : fleet.charge = 0 := by
      apply List.sum_eq_zero_iff_forall_eq_nat.mpr
      intro charge mentioned
      obtain ⟨member, listed, rfl⟩ := List.mem_map.mp mentioned
      simp [Member.charge, closed member listed]
    rw [balanced.used, nothing, Nat.add_zero]
  · intro reader patience plan fault after failed
    have started : (Walk.start reader patience plan).Meets fleet.world _ _ :=
      Walk.start_pays_meets rfl
    refine ⟨?_, started.of_error failed⟩
    simp only [follow, failed]

/-- Two walks over the same two files, the second of which passes over the first file. A third is
refused for want of memory, and so is the first when it is to read on. -/
theorem used_after_of_two :
    let reader := Reader.ofListing [⟨[0x61], 1, 0, 0, 0, 0⟩, ⟨[0x62], 1, 0, 0, 0, 0⟩]
    let plan : Walk.Plan := ⟨[0x41], 0, none, 24, 1⟩
    let world : World Unit := ⟨⟨some 280, 7, 0, none⟩, ()⟩
    let orders : List (Order Unit) :=
      [.start reader 3 plan, .start reader 3 ⟨[0x41], 1, some [0x62], 24, 1⟩, .advance 0 3]
    let others := [.disturb () (some 0), .close 1, .reset 0 3, .close 0]
    (after world orders).members.map Member.charge = [120, 146] ∧
    (after world orders).world.ledger.used = 7 + (120 + 146) ∧
    (∃ left, Walk.start reader 3 plan (after world orders).world =
      .error (.outOfMemory 64 7) left ∧ left.ledger.used = 7 + (120 + 146)) ∧
    ((after world orders).follow (.close 1)).follow (.close 1) =
      (after world orders).follow (.close 1) ∧
    (∀ member ∈ (after world (orders ++ others)).members, member.walk.closed = true) ∧
    (after world (orders ++ others)).world.ledger.used = 7 := by
  intro reader plan world orders others
  have charges : (after world orders).members.map Member.charge = [120, 146] := by
    decide +kernel
  have refused : Walk.start reader 3 plan (after world orders).world =
      .error (.outOfMemory 64 7) (after world orders).world := by decide +kernel
  have closed : ∀ member ∈ (after world (orders ++ others)).members,
      member.walk.closed = true := by decide +kernel
  obtain ⟨used, -, starts, closes⟩ := used_after world orders
  obtain ⟨-, back, -, -⟩ := used_after world (orders ++ others)
  have whole : (after world orders).world.ledger.used = 7 + (120 + 146) := by
    rw [used, charges]
    rfl
  exact ⟨charges, whole, ⟨_, refused, (starts _ _ _ _ _ refused).2.trans whole⟩, closes 1, closed,
    back closed⟩

end Fleet

end Catwalk
