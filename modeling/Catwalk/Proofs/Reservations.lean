import Catwalk.Ledger
import Catwalk.Proofs.Outcomes
import Mathlib.Data.List.Count

/-!
# Reservations

Whatever is asked of a ledger, and whether it is granted or not, the bytes in use stay within the
limit, a reservation that fails leaves no trace in them, and one that succeeds counts its own bytes
and itself. Armed with `n`, a ledger judges `n` reservations by its limit alone and refuses the one
after them, whatever its size; then it is unarmed (`Ledger.exact_after`).
-/

namespace Catwalk

namespace Ledger

variable {size : Int} {ledger : Ledger}

/-- What can be asked of a ledger. The body of a reservation may look at the ledger, and gives up or
does not. -/
inductive Operation where
  | reserve (size : Int) (body : Ledger → Except Fault Unit)
  | release (size : Int)
  | arm (n : Int)
  | disarm

namespace Operation

/-- What an operation does. -/
def perform : Operation → Act Ledger Unit
  | reserve size body => reserveFor size body
  | release size => modify (Ledger.release size)
  | arm n => Ledger.arm n
  | disarm => modify Ledger.disarm

/-- Whether an operation asks for bytes. -/
def asks : Operation → Bool
  | reserve size _ => 0 < size
  | _ => false

/-- Whether an operation has nothing to do with the countdown but to be counted. -/
def isQuiet : Operation → Bool
  | reserve _ _ | release _ => true
  | arm _ | disarm => false

end Operation

/-- The ledger after operations, one after the other, whether they succeed or fail. -/
def after (ledger : Ledger) (operations : List Operation) : Ledger :=
  operations.foldl (fun ledger operation => operation.perform.leaves ledger) ledger

/-- The bytes in use are within the limit. -/
def Bounded (ledger : Ledger) : Prop := ∀ limit, ledger.limit = some limit → ledger.used ≤ limit

/-- So many bytes more would be within the limit. -/
def Fits (ledger : Ledger) (size : Int) : Prop :=
  ∀ limit, ledger.limit = some limit → ledger.used + size ≤ limit

/-- The ledger refuses a reservation, so that its body does not begin. -/
def Refuses (ledger : Ledger) (size : Int) : Prop :=
  ∃ fault left, reserve size ledger = .error fault left

/-- As many bytes are in use as before, for as many reservations. -/
def SameUse (before after : Ledger) : Prop :=
  after.used = before.used ∧ after.allocations = before.allocations

/-- The ways in which a reservation can end: it is refused, or its body gives up, or it is kept.
What is taken back when a body gives up was in use. -/
inductive Reserved (before : Ledger) (size : Int) (body : Ledger → Except Fault Unit) : Prop
  | refused {fault : Fault} {left : Ledger} : before.Refuses size → fault.kind = .memory →
      reserveFor size body before = .error fault left → before.SameUse left →
      Reserved before size body
  | abandoned {seen left : Ledger} {fault : Fault} : reserve size before = .ok () seen →
      size ≤ seen.used → body seen = .error fault →
      reserveFor size body before = .error fault left → before.SameUse left →
      Reserved before size body
  | kept {left : Ledger} : reserve size before = .ok () left → body left = .ok () →
      reserveFor size body before = .ok () left →
      (0 < size → left.used = before.used + size ∧ left.allocations = before.allocations + 1) →
      Reserved before size body

/-- What a ledger with a limit can be relied on for. -/
structure Exact (limit : Option Int) (ledger : Ledger) : Prop where
  bounded : 0 ≤ (ledger.used : Int) ∧ ∀ bound, limit = some bound → ledger.used ≤ bound
  reserved : ∀ size body, ledger.Reserved size body
  /-- To ask for nothing, or to give nothing back, changes nothing. -/
  unchanged : ∀ size ≤ 0, ledger.release size = ledger ∧
    ∀ body : Ledger → Except Fault Unit, (reserveFor size body).leaves ledger = ledger
  /-- Armed, the ledger judges `n` reservations by the limit and refuses the one after them. -/
  countsDown : ∀ n : Nat, ∃ armed, arm n ledger = .ok () armed ∧
    ∀ operations, (∀ operation ∈ operations, Operation.isQuiet operation = true) →
      ∀ size, 0 < size →
        let count := operations.countP Operation.asks
        let later := armed.after operations
        (count < n →
          (later.Refuses size ↔ ∃ bound, limit = some bound ∧ bound < later.used + size)) ∧
        (count = n → later.Refuses size) ∧
        (n < count → later.armed = false)

/-! ## The countdown -/

/-- What is left of a countdown after so many reservations. -/
def remaining (countdown : Option Nat) (count : Nat) : Option Nat :=
  countdown.bind fun n => if count ≤ n then some (n - count) else none

@[simp] theorem remaining_none (count : Nat) : remaining none count = none := rfl

@[simp] theorem remaining_some (n count : Nat) :
    remaining (some n) count = if count ≤ n then some (n - count) else none := rfl

@[simp] theorem remaining_zero (countdown : Option Nat) : remaining countdown 0 = countdown := by
  cases countdown <;> rfl

private theorem remaining_add (countdown : Option Nat) (count more : Nat) :
    remaining countdown (count + more) = remaining (remaining countdown count) more := by
  cases countdown with
  | none => rfl
  | some n =>
    by_cases early : count ≤ n
    · by_cases still : more ≤ n - count
      · simp [early, still, show count + more ≤ n by omega, Nat.sub_sub]
      · simp [early, still, show ¬count + more ≤ n by omega]
    · simp [early, show ¬count + more ≤ n by omega]

/-! ## Reservations -/

private theorem exceeds_iff (large : 0 < size) :
    ledger.exceeds size = true ↔ ¬ledger.Fits size := by
  unfold exceeds free? Fits
  cases ledger.limit with
  | none => simp
  | some limit =>
    simp only [Option.map_some, decide_eq_true_eq, Option.some.injEq, forall_eq']
    omega

/-- The ledger with a reservation counted down. -/
def ticked (ledger : Ledger) : Ledger :=
  { ledger with countdown := remaining ledger.countdown 1 }

/-- The ledger with a reservation granted. -/
def granted (ledger : Ledger) (size : Int) : Ledger :=
  { ledger.ticked with
    used := ledger.used + size.toNat
    allocations := ledger.allocations + 1 }

/-- The ledger refuses a reservation if the countdown has run out, and else if it does not fit. -/
private theorem reserve_eq (large : 0 < size) (ledger : Ledger) : reserve size ledger =
    if ledger.countdown = some 0 ∨ ledger.exceeds size = true then
      .error (ledger.refusal size) ledger.ticked
    else .ok () (ledger.granted size) := by
  have positive : ¬size ≤ 0 := by omega
  obtain ⟨limit, used, allocations, countdown⟩ := ledger
  unfold reserve
  rw [if_neg positive]
  rcases countdown with _ | _ | n
  · simp only [reduceCtorEq, false_or]
    rfl
  · rw [if_pos (.inl rfl)]
    rfl
  · have early : some (n + 1) ≠ some 0 := by simp
    simp only [early, false_or]
    rfl

/-- A ledger counts what it grants. It refuses for want of memory only, and counts that down. -/
theorem reserve_meets (size : Int) (ledger : Ledger) : (reserve size).Meets ledger
    (fun _ left => left = if 0 < size then ledger.granted size else ledger)
    fun fault left => fault = ledger.refusal size ∧ left = ledger.ticked ∧
      (ledger.countdown = some 0 ∨ ledger.exceeds size = true) := by
  unfold Act.Meets
  by_cases large : 0 < size
  · rw [reserve_eq large]
    by_cases refused : ledger.countdown = some 0 ∨ ledger.exceeds size = true
    · rw [if_pos refused]
      exact ⟨rfl, rfl, refused⟩
    · rw [if_neg refused]
      exact (if_pos large).symm
  · rw [reserve_of_nonpos (Int.not_lt.mp large)]
    exact (if_neg large).symm

/-- However a reservation ends, the ledger counts what it has granted. -/
theorem reserve_used_meets (size : Nat) (ledger : Ledger) :
    (reserve size).Meets ledger (fun _ left => left.used = ledger.used + size)
      fun _ left => left.used = ledger.used := by
  refine (reserve_meets size ledger).mono ?_ ?_
  · rintro _ left rfl
    split
    · simp [granted, ticked]
    · omega
  · rintro _ left ⟨-, rfl, -⟩
    rfl

private theorem refuses_iff (large : 0 < size) :
    ledger.Refuses size ↔ ledger.countdown = some 0 ∨ ¬ledger.Fits size := by
  unfold Refuses
  rw [reserve_eq large, ← exceeds_iff large]
  split
  · next refused => exact iff_of_true ⟨_, _, rfl⟩ refused
  · next accepted => exact iff_of_false (by rintro ⟨_, _, refused⟩; cases refused) accepted

/-- A reservation whose body gives up is taken back, all but the count. -/
private theorem refund_granted (large : 0 < size) :
    (ledger.granted size).refund size = ledger.ticked := by
  have positive : ¬size ≤ 0 := by omega
  simp [refund, positive, granted, ticked]

/-- A reservation that is not refused is the body's to keep or to give up. -/
private theorem reserveFor_eq (large : 0 < size) (body : Ledger → Except Fault Unit)
    (ledger : Ledger) :
    reserveFor size body ledger =
      if ledger.countdown = some 0 ∨ ledger.exceeds size = true then
        .error (ledger.refusal size) ledger.ticked
      else
        match body (ledger.granted size) with
        | .ok _ => .ok () (ledger.granted size)
        | .error fault => .error fault ledger.ticked := by
  have run := reserve_eq large ledger
  by_cases refused : ledger.countdown = some 0 ∨ ledger.exceeds size = true
  · rw [if_pos refused] at run ⊢
    change EStateM.bind (reserve size) _ ledger = _
    unfold EStateM.bind
    rw [run]
  · rw [if_neg refused] at run ⊢
    rw [reserveFor, Act.bind_of_ok run, Act.get_bind]
    cases body (ledger.granted size) with
    | ok _ => rfl
    | error fault =>
      rw [← refund_granted large]
      rfl

private theorem reserveFor_of_nonpos (small : size ≤ 0) (body : Ledger → Except Fault Unit)
    (ledger : Ledger) :
    reserveFor size body ledger =
      match body ledger with
      | .ok _ => .ok () ledger
      | .error fault => .error fault ledger := by
  rw [reserveFor, Act.bind_of_ok (reserve_of_nonpos small ledger), Act.get_bind]
  cases body ledger with
  | ok _ => rfl
  | error fault =>
    have same : ledger.refund size = ledger := if_pos small
    conv_rhs => rw [← same]
    rfl

private theorem reserved (ledger : Ledger) (size : Int) (body : Ledger → Except Fault Unit) :
    ledger.Reserved size body := by
  by_cases large : 0 < size
  · have run := reserveFor_eq large body ledger
    by_cases refused : ledger.countdown = some 0 ∨ ledger.exceeds size = true
    · rw [if_pos refused] at run
      refine .refused ⟨_, _, (reserve_eq large ledger).trans (if_pos refused)⟩ rfl run ⟨rfl, rfl⟩
    · have accepted := (reserve_eq large ledger).trans (if_neg refused)
      rw [if_neg refused] at run
      cases ended : body (ledger.granted size) with
      | ok _ =>
        rw [ended] at run
        refine .kept accepted ended run fun _ => ⟨?_, rfl⟩
        simp only [granted, ticked]
        omega
      | error fault =>
        rw [ended] at run
        have counted : size ≤ ((ledger.granted size).used : Int) := by
          simp only [granted, ticked]
          omega
        exact .abandoned accepted counted ended run ⟨rfl, rfl⟩
  · have small : size ≤ 0 := by omega
    have run := reserveFor_of_nonpos small body ledger
    have accepted := reserve_of_nonpos small ledger
    cases ended : body ledger with
    | ok _ =>
      rw [ended] at run
      exact .kept accepted ended run fun positive => absurd positive large
    | error fault =>
      rw [ended] at run
      exact .abandoned accepted (by omega) ended run ⟨rfl, rfl⟩

private theorem unchanged (ledger : Ledger) (small : size ≤ 0) : ledger.release size = ledger ∧
    ∀ body : Ledger → Except Fault Unit, (reserveFor size body).leaves ledger = ledger := by
  refine ⟨if_pos small, fun body => ?_⟩
  unfold Act.leaves
  rw [reserveFor_of_nonpos small]
  cases body ledger <;> rfl

theorem release_eq (size : Int) (ledger : Ledger) :
    ledger.release size = { ledger with used := ledger.used - size.toNat } := by
  unfold release
  split
  · next small => rw [Int.toNat_of_nonpos small, Nat.sub_zero]
  · rfl

/-! ## Operations -/

/-- A reservation counts down, unless it is for nothing; that apart, it is granted and fits, or
leaves things as they are. -/
private theorem leaves_reserveFor (large : 0 < size) (body : Ledger → Except Fault Unit)
    (ledger : Ledger) : (reserveFor size body).leaves ledger = ledger.ticked ∨
      ledger.Fits size ∧ (reserveFor size body).leaves ledger = ledger.granted size := by
  unfold Act.leaves
  rw [reserveFor_eq large]
  by_cases refused : ledger.countdown = some 0 ∨ ledger.exceeds size = true
  · rw [if_pos refused]
    exact .inl rfl
  · rw [if_neg refused]
    cases body (ledger.granted size) with
    | ok _ =>
      rw [exceeds_iff large, not_or, not_not] at refused
      exact .inr ⟨refused.2, rfl⟩
    | error fault => exact .inl rfl

private theorem leaves_arm (n : Int) (ledger : Ledger) : (arm n).leaves ledger =
    if n < 0 then ledger else { ledger with countdown := some n.toNat } := by
  unfold arm
  split
  · rfl
  · rfl

/-- No operation changes the limit, or passes it. -/
private theorem bounded_perform (operation : Operation) (bounded : ledger.Bounded) :
    (operation.perform.leaves ledger).limit = ledger.limit ∧
      (operation.perform.leaves ledger).Bounded := by
  cases operation with
  | reserve size body =>
    change ((reserveFor size body).leaves ledger).limit = _ ∧
      ((reserveFor size body).leaves ledger).Bounded
    by_cases large : 0 < size
    · rcases leaves_reserveFor large body ledger with same | ⟨fits, same⟩
      · rw [same]
        exact ⟨rfl, bounded⟩
      · rw [same]
        refine ⟨rfl, fun limit given => ?_⟩
        have := fits limit given
        simp only [granted, ticked]
        omega
    · rw [(ledger.unchanged (Int.not_lt.mp large)).2 body]
      exact ⟨rfl, bounded⟩
  | release size =>
    change (ledger.release size).limit = _ ∧ (ledger.release size).Bounded
    rw [release_eq]
    exact ⟨rfl, fun limit given => Nat.le_trans (Nat.sub_le _ _) (bounded limit given)⟩
  | arm n =>
    change ((arm n).leaves ledger).limit = _ ∧ ((arm n).leaves ledger).Bounded
    rw [leaves_arm]
    split
    · exact ⟨rfl, bounded⟩
    · exact ⟨rfl, bounded⟩
  | disarm => exact ⟨rfl, bounded⟩

private theorem bounded_after (operations : List Operation) (bounded : ledger.Bounded) :
    (ledger.after operations).limit = ledger.limit ∧ (ledger.after operations).Bounded := by
  induction operations generalizing ledger with
  | nil => exact ⟨rfl, bounded⟩
  | cons operation operations ih =>
    obtain ⟨same, bounded⟩ := bounded_perform operation bounded
    obtain ⟨same', bounded⟩ := ih bounded
    exact ⟨same'.trans same, bounded⟩

/-- An operation counts if it asks for bytes, however it ends. -/
private theorem countdown_perform {operation : Operation} (quiet : operation.isQuiet = true)
    (ledger : Ledger) : (operation.perform.leaves ledger).countdown =
      remaining ledger.countdown (if operation.asks = true then 1 else 0) := by
  cases operation with
  | reserve size body =>
    change ((reserveFor size body).leaves ledger).countdown = _
    by_cases large : 0 < size
    · have asks : (Operation.reserve size body).asks = true := decide_eq_true large
      rw [if_pos asks]
      rcases leaves_reserveFor large body ledger with same | ⟨-, same⟩
      · rw [same]
        rfl
      · rw [same]
        rfl
    · rw [(ledger.unchanged (Int.not_lt.mp large)).2 body, if_neg (by simp [Operation.asks, large]),
        remaining_zero]
  | release size =>
    change (ledger.release size).countdown = remaining ledger.countdown 0
    rw [remaining_zero, release_eq]
  | arm n => cases quiet
  | disarm => cases quiet

private theorem countdown_after {operations : List Operation}
    (quiet : ∀ operation ∈ operations, Operation.isQuiet operation = true) (ledger : Ledger) :
    (ledger.after operations).countdown =
      remaining ledger.countdown (operations.countP Operation.asks) := by
  induction operations generalizing ledger with
  | nil => exact (remaining_zero _).symm
  | cons operation operations ih =>
    rw [List.forall_mem_cons] at quiet
    have first := countdown_perform quiet.1 ledger
    have others := ih quiet.2 (operation.perform.leaves ledger)
    rw [first, ← remaining_add] at others
    rw [List.countP_cons, Nat.add_comm]
    exact others

private theorem eq_of_ofLimit {limit : Option Int} {start : Ledger}
    (made : ofLimit? limit = .ok start) :
    start = ⟨limit.map Int.toNat, 0, 0, none⟩ ∧ ∀ bound, limit = some bound → 0 ≤ bound := by
  unfold ofLimit? at made
  cases limit with
  | none =>
    cases made
    exact ⟨rfl, nofun⟩
  | some bound =>
    dsimp only at made
    split at made
    · cases made
    · next positive =>
      cases made
      refine ⟨rfl, ?_⟩
      rintro _ ⟨rfl⟩
      exact Int.not_lt.mp positive

private theorem not_fits_iff {limit : Option Int} (given : ledger.limit = limit.map Int.toNat)
    (positive : ∀ bound, limit = some bound → 0 ≤ bound) :
    ¬ledger.Fits size ↔ ∃ bound, limit = some bound ∧ bound < ledger.used + size := by
  unfold Fits
  rw [given]
  cases limit with
  | none => simp
  | some bound =>
    have := positive bound rfl
    simp only [Option.map_some, Option.some.injEq, forall_eq', exists_eq_left']
    omega

/-- What has been asked of a ledger since it was made does not matter: it can be relied on. -/
theorem exact_after (limit : Option Int) (start : Ledger) (made : ofLimit? limit = .ok start)
    (operations : List Operation) : (start.after operations).Exact limit := by
  obtain ⟨rfl, positive⟩ := eq_of_ofLimit made
  have empty : Bounded ⟨limit.map Int.toNat, 0, 0, none⟩ := fun _ _ => Nat.zero_le _
  obtain ⟨same, within⟩ := bounded_after operations empty
  generalize Ledger.after _ operations = ledger at same within
  refine ⟨⟨Int.natCast_nonneg _, ?_⟩, ledger.reserved, fun _ => ledger.unchanged, fun n => ?_⟩
  · rintro bound rfl
    have := within bound.toNat same
    have := positive bound rfl
    omega
  · refine ⟨{ ledger with countdown := some n }, rfl, ?_⟩
    intro others quiet size large count later
    have left : later.countdown = remaining (some n) count := countdown_after quiet _
    have ready : Bounded { ledger with countdown := some n } := within
    have kept : later.limit = limit.map Int.toNat := (bounded_after others ready).1.trans same
    rw [remaining_some] at left
    refine ⟨fun early => ?_, fun due => ?_, fun past => ?_⟩
    · have ahead : later.countdown ≠ some 0 := by
        rw [left, if_pos (by omega)]
        simp
        omega
      rw [refuses_iff large, not_fits_iff kept positive]
      exact or_iff_right ahead
    · refine (refuses_iff large).mpr (.inl ?_)
      rw [left, due, if_pos (Nat.le_refl n), Nat.sub_self]
    · rw [armed, left, if_neg (by omega)]
      rfl

/-- Of 100 bytes 60 are kept; 50 more are refused, and 30 more are given up again. Armed with 1, the
ledger lets a reservation pass that its body gives up, and refuses a single byte. -/
theorem exact_after_of_three :
    let ask (size : Int) : Ledger.Operation := .reserve size fun _ => .ok ()
    let giveUp (size : Int) : Ledger.Operation :=
      .reserve size fun seen => .error (.abandoned seen.used)
    let start : Ledger := ⟨some 100, 0, 0, none⟩
    let operations := [ask 60, ask 50, giveUp 30]
    let armed : Ledger := ⟨some 100, 60, 1, some 1⟩
    ofLimit? (some 100) = .ok start ∧ (start.after operations).Exact (some 100) ∧
      start.after operations = ⟨some 100, 60, 1, none⟩ ∧
      arm 1 (start.after operations) = .ok () armed ∧ (armed.after [giveUp 30]).Refuses 1 ∧
      (armed.after [giveUp 30, ask 1]).armed = false := by
  intro ask giveUp start operations armed
  have exact' := exact_after (some 100) start rfl operations
  have reached : start.after operations = ⟨some 100, 60, 1, none⟩ := by decide +kernel
  refine ⟨rfl, exact', reached, ?_⟩
  rw [reached] at exact' ⊢
  obtain ⟨_, ⟨rfl⟩, counts⟩ := exact'.countsDown 1
  refine ⟨rfl, ?_, ?_⟩
  · exact (counts [giveUp 30] (by simp [giveUp, Operation.isQuiet]) 1 (by decide)).2.1 rfl
  · exact (counts [giveUp 30, ask 1] (by simp [giveUp, ask, Operation.isQuiet]) 1
      (by decide)).2.2 (by decide)

end Ledger

end Catwalk
