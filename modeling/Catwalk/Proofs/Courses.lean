import Catwalk.Proofs.Histories
import Mathlib.Algebra.Group.Int.Defs
import Mathlib.Algebra.Group.Nat.Defs

/-!
# Courses of reads

What the calls of a walk read, in what order. A logged reader keeps an account of its reads. A
course explains such an account: it knows the directories on the walk's way, the cursor to which the
last refill of each has come, and the records that were read and not yet left behind. Every read is
made for one of these directories. The first read of a refill starts from the directory's cursor,
each further one where the one before it has ended, and the last one settles what the refill makes
of the directory (`Stage.refilled?`).

Which directory is to be read next follows from those that are on the way, and how a call has ended
is part of the account. So there is but one way to explain an account (`Course.unique`).
-/

namespace Catwalk

variable {ρ : Type}

/-- A read and the answer to it. -/
structure Exchange where
  call : ReadCall
  answer : Deposit Batch

namespace Exchange

/-- The cursor of the next read of a refill that goes on after this one. -/
def next (exchange : Exchange) (cursor : Int) : Int :=
  match exchange.answer.result with
  | .ok batch => batch.next
  | .error _ => cursor

/-- What the buffer of the call holds after the answer. -/
def buffer (exchange : Exchange) : Bytes :=
  exchange.answer.into exchange.call.buffer exchange.call.offset

/-- The refill has to read again: nothing has come in before the end, or there was no room. -/
def goesOn (exchange : Exchange) : Bool :=
  match exchange.answer.result with
  | .ok batch => batch.count = 0 ∧ batch.next ≠ cursorEnd
  | .error fault => fault.kind = .overflow

/-- The cursor behind what the read has brought in, and the records, if it ends a refill well. -/
def brings? (exchange : Exchange) : Option (Int × List Stored) :=
  match exchange.answer.result with
  | .error _ => none
  | .ok batch =>
    if exchange.goesOn then none
    else
      match Record.parse exchange.buffer batch.count exchange.call.offset with
      | .ok fresh => some (batch.next, fresh)
      | .error _ => none

/-- The reader has given this answer. -/
def IsFrom (reader : Reader ρ) (exchange : Exchange) : Prop :=
  ∃ source, exchange.answer = (reader.read exchange.call source).1

end Exchange

/-- The reader, with an account of its reads beside its source. -/
def Reader.logged (reader : Reader ρ) : Reader (ρ × List Exchange) where
  separator := reader.separator
  read call state :=
    let (answer, source) := reader.read call state.1
    (answer, (source, state.2 ++ [⟨call, answer⟩]))

/-- What every read of a directory keeps to. -/
structure ReadCall.Lawful (settings : Settings) (path : Text) (cursor : Int) (call : ReadCall) :
    Prop where
  path : call.path = path
  cursor : call.cursor = cursor
  more : call.cursor ≠ cursorEnd
  aligned : call.offset % 4 = 0
  inside : call.offset ≤ call.buffer.length
  size : ∃ k, call.buffer.length = settings.bufferSize * 2 ^ k
  maxEntries : call.maxEntries = settings.maxEntries
  pattern : call.pattern = settings.readPattern

/-- The reads of one refill, the first of them from a cursor on and each from where the one before
it ends. There is another read only after one that calls for it. -/
inductive InTurn (reader : Reader ρ) (settings : Settings) (path : Text) :
    Int → List Exchange → Prop
  | done {cursor : Int} : InTurn reader settings path cursor []
  | read {cursor : Int} {exchange : Exchange} {later : List Exchange} :
      exchange.call.Lawful settings path cursor → exchange.IsFrom reader →
      (later ≠ [] → exchange.goesOn = true) →
      InTurn reader settings path (exchange.next cursor) later →
      InTurn reader settings path cursor (exchange :: later)

/-- A directory on the way: the names that lead to it from the root, the cursor that the last refill
of it has come to, and the records that have been read and not yet left behind. -/
structure Stage where
  names : List Text
  cursor : Int
  records : List Stored

/-- An object that is shown: the names that lead to its directory, and its record. -/
structure Sighting where
  names : List Text
  record : Stored

/-- The path of the directory to which the names lead. -/
def Settings.pathOf (settings : Settings) (root : Text) (names : List Text) : Text :=
  names.foldl settings.child root

theorem Settings.pathOf_concat (settings : Settings) (root : Text) (names : List Text)
    (name : Text) :
    settings.pathOf root (names ++ [name]) = settings.child (settings.pathOf root names) name := by
  rw [pathOf, pathOf, List.foldl_append]
  rfl

/-- The object as the walk shows it. -/
def Sighting.position (settings : Settings) (root : Text) (sighting : Sighting) : Position where
  directory := settings.pathOf root sighting.names
  storedName := sighting.record.name
  header := sighting.record.header

/-- Whether something has come to its end, or was broken off by a fault. -/
inductive Ending where
  | done
  | broken
deriving DecidableEq, Repr

namespace Stage

/-- A directory that has not been read. -/
def outset (names : List Text) : Stage := ⟨names, cursorStart, []⟩

/-- The directory of a record, before it is read. -/
def below (names : List Text) (record : Stored) : Stage :=
  outset (names ++ [Text.decode record.name])

/-- The object on which a walk stands. -/
def shown : List Stage → Option Sighting
  | [] => none
  | stage :: _ => stage.records.head?.map (Sighting.mk stage.names)

/-- Whether a walk passes over the object on which it stands. -/
def unmatched (settings : Settings) (stages : List Stage) : Bool :=
  match shown stages with
  | some sighting => settings.filters &&
      !Pattern.matchesName settings.pattern (Text.decode sighting.record.name)
  | none => false

/-- What a refill with these reads makes of a directory. The last read decides: if it brings in
records, or the end of the catalogue, the next refill starts behind it; if not, the refill fails. -/
def refilled? (stage : Stage) (reads : List Exchange) : Option Stage :=
  (reads.getLast?.bind Exchange.brings?).map fun (next, fresh) =>
    ⟨stage.names, next, stage.records ++ fresh⟩

/-- The reads of a refill of a directory, and what it makes of it unless it fails. -/
structure Refilled (reader : Reader ρ) (settings : Settings) (root : Text) (stage : Stage)
    (reads : List Exchange) (after : Option Stage) : Prop where
  inTurn : InTurn reader settings (settings.pathOf root stage.names) stage.cursor reads
  result : stage.refilled? reads = after

/-- The directories that are left once those above the ones that are `done` have been gone through:
from the first with a record on, or all of them if that was broken off. -/
def leave (done above : List Stage) : Ending → List Stage
  | .done => above.dropWhile fun stage => stage.records.isEmpty
  | .broken => done ++ above

/-- From the deepest up, the directories without a record are refilled, until one has some or there
are no more. -/
inductive Restocks (reader : Reader ρ) (settings : Settings) (root : Text) :
    List Stage → List Exchange → List Stage → Ending → Prop
  | top : Restocks reader settings root [] [] [] .done
  | stocked {stage : Stage} {shallower : List Stage} : stage.records ≠ [] →
      Restocks reader settings root (stage :: shallower) [] (stage :: shallower) .done
  /-- A directory that was read to its end is passed. -/
  | ended {stage : Stage} {shallower after : List Stage} {reads : List Exchange}
      {ending : Ending} : stage.records = [] → stage.cursor = cursorEnd →
      Restocks reader settings root shallower reads after ending →
      Restocks reader settings root (stage :: shallower) reads (stage :: after) ending
  | broken {stage : Stage} {shallower : List Stage} {reads : List Exchange} :
      stage.records = [] → stage.cursor ≠ cursorEnd →
      stage.Refilled reader settings root reads none →
      Restocks reader settings root (stage :: shallower) reads (stage :: shallower) .broken
  | refilled {stage filled : Stage} {shallower after : List Stage}
      {reads later : List Exchange} {ending : Ending} :
      stage.records = [] → stage.cursor ≠ cursorEnd →
      stage.Refilled reader settings root reads (some filled) →
      Restocks reader settings root (filled :: shallower) later after ending →
      Restocks reader settings root (stage :: shallower) (reads ++ later) after ending

/-- The current object is left behind. If it is the last that was read of its directory, that is
refilled first, or left for a directory above if there is no more of it. -/
inductive MovesOn (reader : Reader ρ) (settings : Settings) (root : Text) :
    List Stage → List Exchange → List Stage → Ending → Prop
  | next {names : List Text} {cursor : Int} {record : Stored} {records : List Stored}
      {shallower : List Stage} : records ≠ [] →
      MovesOn reader settings root (⟨names, cursor, record :: records⟩ :: shallower) []
        (⟨names, cursor, records⟩ :: shallower) .done
  | up {names : List Text} {record : Stored} {shallower above : List Stage}
      {reads : List Exchange} {ending : Ending} :
      Restocks reader settings root shallower reads above ending →
      MovesOn reader settings root (⟨names, cursorEnd, [record]⟩ :: shallower) reads
        (leave [⟨names, cursorEnd, [record]⟩] above ending) ending
  | broken {names : List Text} {cursor : Int} {record : Stored} {shallower : List Stage}
      {reads : List Exchange} : cursor ≠ cursorEnd →
      Refilled reader settings root ⟨names, cursor, [record]⟩ reads none →
      MovesOn reader settings root (⟨names, cursor, [record]⟩ :: shallower) reads
        (⟨names, cursor, [record]⟩ :: shallower) .broken
  | refilled {names : List Text} {cursor : Int} {record : Stored} {filled : Stage}
      {shallower after : List Stage} {reads later : List Exchange} {ending : Ending} :
      cursor ≠ cursorEnd →
      Refilled reader settings root ⟨names, cursor, [record]⟩ reads (some filled) →
      MovesOn reader settings root (filled :: shallower) later after ending →
      MovesOn reader settings root (⟨names, cursor, [record]⟩ :: shallower) (reads ++ later) after
        ending

/-- One step: into the current object if it may be entered and has something in it, and else on. -/
inductive Steps (reader : Reader ρ) (settings : Settings) (root : Text) :
    List Stage → List Exchange → List Stage → Ending → Prop
  | rest : Steps reader settings root [] [] [] .done
  | pass {names : List Text} {cursor : Int} {record : Stored} {records : List Stored}
      {shallower after : List Stage} {reads : List Exchange} {ending : Ending} :
      settings.enters record.header.objectType = false →
      MovesOn reader settings root (⟨names, cursor, record :: records⟩ :: shallower) reads after
        ending →
      Steps reader settings root (⟨names, cursor, record :: records⟩ :: shallower) reads after
        ending
  | broken {names : List Text} {cursor : Int} {record : Stored} {records : List Stored}
      {shallower : List Stage} {reads : List Exchange} :
      settings.enters record.header.objectType = true →
      (below names record).Refilled reader settings root reads none →
      Steps reader settings root (⟨names, cursor, record :: records⟩ :: shallower) reads
        (⟨names, cursor, record :: records⟩ :: shallower) .broken
  | enter {names : List Text} {cursor : Int} {record : Stored} {records : List Stored}
      {shallower : List Stage} {filled : Stage} {reads : List Exchange} :
      settings.enters record.header.objectType = true →
      (below names record).Refilled reader settings root reads (some filled) →
      filled.records ≠ [] →
      Steps reader settings root (⟨names, cursor, record :: records⟩ :: shallower) reads
        (filled :: ⟨names, cursor, records⟩ :: shallower) .done
  | empty {names : List Text} {cursor : Int} {record : Stored} {records : List Stored}
      {shallower after : List Stage} {filled : Stage} {reads later : List Exchange}
      {ending : Ending} :
      settings.enters record.header.objectType = true →
      (below names record).Refilled reader settings root reads (some filled) →
      filled.records = [] →
      MovesOn reader settings root (⟨names, cursor, record :: records⟩ :: shallower) later after
        ending →
      Steps reader settings root (⟨names, cursor, record :: records⟩ :: shallower) (reads ++ later)
        after ending

/-- Steps until there is an object to be shown or none left, if so many steps are enough. -/
inductive Skips (reader : Reader ρ) (settings : Settings) (root : Text) :
    Nat → List Stage → List Exchange → List Stage → Ending → Prop
  | shown {rounds : Nat} {stages : List Stage} : unmatched settings stages = false →
      Skips reader settings root rounds stages [] stages .done
  | tired {stages : List Stage} : unmatched settings stages = true →
      Skips reader settings root 0 stages [] stages .broken
  | broken {rounds : Nat} {stages after : List Stage} {reads : List Exchange} :
      unmatched settings stages = true →
      Steps reader settings root stages reads after .broken →
      Skips reader settings root (rounds + 1) stages reads after .broken
  | onward {rounds : Nat} {stages between after : List Stage} {reads later : List Exchange}
      {ending : Ending} : unmatched settings stages = true →
      Steps reader settings root stages reads between .done →
      Skips reader settings root rounds between later after ending →
      Skips reader settings root (rounds + 1) stages (reads ++ later) after ending

/-- An advance: one step at least. -/
inductive Advances (reader : Reader ρ) (settings : Settings) (root : Text) (patience : Nat) :
    List Stage → List Exchange → List Stage → Ending → Prop
  | broken {stages after : List Stage} {reads : List Exchange} :
      Steps reader settings root stages reads after .broken →
      Advances reader settings root patience stages reads after .broken
  | onward {stages between after : List Stage} {reads later : List Exchange}
      {ending : Ending} : Steps reader settings root stages reads between .done →
      Skips reader settings root patience between later after ending →
      Advances reader settings root patience stages (reads ++ later) after ending

/-- The root directory is read from its start, and stepped through if it has something in it. -/
inductive Opens (reader : Reader ρ) (settings : Settings) (root : Text) (patience : Nat) :
    List Exchange → List Stage → Ending → Prop
  | broken {reads : List Exchange} : (outset []).Refilled reader settings root reads none →
      Opens reader settings root patience reads [] .broken
  | empty {filled : Stage} {reads : List Exchange} :
      (outset []).Refilled reader settings root reads (some filled) → filled.records = [] →
      Opens reader settings root patience reads [] .done
  | entered {filled : Stage} {after : List Stage} {reads later : List Exchange}
      {ending : Ending} :
      (outset []).Refilled reader settings root reads (some filled) → filled.records ≠ [] →
      Skips reader settings root patience [filled] later after ending →
      Opens reader settings root patience (reads ++ later) after ending

end Stage

/-- What is called. -/
inductive CallKind where
  | start
  | advance
  | reset
deriving DecidableEq, Repr

/-- A call of a walk: what it was, with how much patience, what it read, and how it ended. -/
structure Call where
  kind : CallKind
  patience : Nat
  reads : List Exchange
  ending : Ending

/-- All that was read in calls, of which the latest comes first. -/
def Call.account : List Call → List Exchange
  | [] => []
  | call :: earlier => account earlier ++ call.reads

/-- Calls of a walk, the latest first, the directories on its way after them, and the object that it
shows. An advance that fails keeps what is shown, and a reset that fails is taken back. -/
inductive Course (reader : Reader ρ) (settings : Settings) (root : Text) :
    List Call → List Stage → Option Sighting → Prop
  | start {patience : Nat} {reads : List Exchange} {stages : List Stage} {ending : Ending} :
      Stage.Opens reader settings root patience reads stages ending →
      Course reader settings root [⟨.start, patience, reads, ending⟩] stages (Stage.shown stages)
  | advance {calls : List Call} {patience : Nat} {reads : List Exchange}
      {before after : List Stage} {shown : Option Sighting} :
      Course reader settings root calls before shown →
      Stage.Advances reader settings root patience before reads after .done →
      Course reader settings root (⟨.advance, patience, reads, .done⟩ :: calls) after
        (Stage.shown after)
  | stall {calls : List Call} {patience : Nat} {reads : List Exchange}
      {before after : List Stage} {shown : Option Sighting} :
      Course reader settings root calls before shown →
      Stage.Advances reader settings root patience before reads after .broken →
      Course reader settings root (⟨.advance, patience, reads, .broken⟩ :: calls) after shown
  | reset {calls : List Call} {patience : Nat} {reads : List Exchange}
      {before after : List Stage} {shown : Option Sighting} :
      Course reader settings root calls before shown →
      Stage.Opens reader settings root patience reads after .done →
      Course reader settings root (⟨.reset, patience, reads, .done⟩ :: calls) after
        (Stage.shown after)
  | return {calls : List Call} {patience : Nat} {reads : List Exchange}
      {before lost : List Stage} {shown : Option Sighting} :
      Course reader settings root calls before shown →
      Stage.Opens reader settings root patience reads lost .broken →
      Course reader settings root (⟨.reset, patience, reads, .broken⟩ :: calls) before shown

/-! ## One refill -/

namespace Exchange

variable {exchange : Exchange} {next : Int} {fresh : List Stored}

theorem brings?_of_goesOn (more : exchange.goesOn = true) : exchange.brings? = none := by
  unfold brings?
  split
  · rfl
  · rw [if_pos more]

/-- A read ends a refill well if it is answered with records that stand where they should, or with
none at the end of the catalogue. -/
theorem brings?_eq_some_iff : exchange.brings? = some (next, fresh) ↔
    ∃ batch, exchange.answer.result = .ok batch ∧ batch.next = next ∧
      (batch.count = 0 → batch.next = cursorEnd) ∧ fresh.length = batch.count ∧
      Row exchange.buffer exchange.call.offset fresh := by
  unfold brings? goesOn
  cases exchange.answer.result with
  | error fault => simp
  | ok batch =>
    dsimp only
    by_cases more : batch.count = 0 ∧ batch.next ≠ cursorEnd
    · rw [if_pos (decide_eq_true more)]
      refine iff_of_false nofun ?_
      rintro ⟨_, ⟨⟩, -, ended, -⟩
      exact more.2 (ended more.1)
    · rw [if_neg (by simpa using more)]
      cases parsed : Record.parse exchange.buffer batch.count exchange.call.offset with
      | error fault =>
        refine iff_of_false nofun ?_
        rintro ⟨_, ⟨⟩, -, -, number, row⟩
        rw [Record.parse_eq_ok_iff.mpr ⟨number, row⟩] at parsed
        cases parsed
      | ok found =>
        constructor
        · rintro ⟨⟩
          exact ⟨batch, rfl, rfl, fun none' => Decidable.byContradiction fun other =>
            more ⟨none', other⟩, Record.parse_eq_ok_iff.mp parsed⟩
        · rintro ⟨_, ⟨⟩, rfl, -, row⟩
          rw [Record.parse_eq_ok_iff.mpr row] at parsed
          cases parsed
          rfl

end Exchange

variable {reader : Reader ρ} {settings : Settings} {root path : Text}

/-- A read that is not the last one calls for another. -/
private theorem InTurn.goesOn {cursor : Int} {reads later : List Exchange}
    (made : InTurn reader settings path cursor (reads ++ later)) (more : later ≠ []) :
    ∀ exchange, reads.getLast? = some exchange → exchange.goesOn = true := by
  induction reads generalizing cursor with
  | nil => exact nofun
  | cons first reads ih =>
    intro exchange last
    cases made with
    | read _ _ onward made =>
      cases reads with
      | nil =>
        cases last
        exact onward more
      | cons second reads =>
        rw [List.getLast?_cons_cons] at last
        exact ih made exchange last

namespace Stage

variable {stage filled : Stage} {stages after after' : List Stage}
  {reads reads' rest rest' : List Exchange} {ending ending' : Ending} {left left' : Option Stage}

theorem refilled?_eq_some_iff : stage.refilled? reads = some filled ↔
    ∃ exchange fresh, reads.getLast? = some exchange ∧
      exchange.brings? = some (filled.cursor, fresh) ∧ filled.names = stage.names ∧
      filled.records = stage.records ++ fresh := by
  constructor
  · intro refilled
    obtain ⟨⟨next, fresh⟩, brings, rfl⟩ := Option.map_eq_some_iff.mp refilled
    obtain ⟨exchange, last, brings⟩ := Option.bind_eq_some_iff.mp brings
    exact ⟨exchange, fresh, last, brings, rfl, rfl⟩
  · rintro ⟨exchange, fresh, last, brings, names, records⟩
    rw [refilled?, last, Option.bind_some, brings, Option.map_some]
    dsimp only
    rw [← names, ← records]

/-- A refill that brings in no record has come to the end. -/
theorem cursor_of_refilled? (refilled : stage.refilled? reads = some filled)
    (nothing : filled.records.length ≤ stage.records.length) : filled.cursor = cursorEnd := by
  obtain ⟨exchange, fresh, -, brings, -, records⟩ := refilled?_eq_some_iff.mp refilled
  obtain ⟨batch, -, next, ended, number, -⟩ := Exchange.brings?_eq_some_iff.mp brings
  rw [records, List.length_append] at nothing
  exact next.symm.trans (ended (by omega))

/-! ## What an account leaves open

In these lemmas an account goes on behind what is explained of it, with `rest`, and nothing is read
behind what was broken off. -/

/-- A refill that brings something in ends where it does, wherever else it might end. -/
private theorem Refilled.eq_nil {more : List Exchange}
    (first : stage.Refilled reader settings root reads left)
    (second : stage.Refilled reader settings root (reads ++ more) left')
    (broken : left = none → more = []) : more = [] := by
  refine Decidable.byContradiction fun further => ?_
  cases left with
  | none => exact further (broken rfl)
  | some filled =>
    obtain ⟨exchange, fresh, last, brings, -⟩ := refilled?_eq_some_iff.mp first.result
    rw [Exchange.brings?_of_goesOn (second.inTurn.goesOn further exchange last)] at brings
    cases brings

private theorem Refilled.unique (first : stage.Refilled reader settings root reads left)
    (second : stage.Refilled reader settings root reads' left')
    (same : reads ++ rest = reads' ++ rest')
    (broken : left = none → rest = []) (broken' : left' = none → rest' = []) :
    reads = reads' ∧ left = left' ∧ rest = rest' := by
  obtain rfl : reads = reads' := by
    rcases List.append_eq_append_iff.mp same with ⟨more, rfl, more'⟩ | ⟨more, rfl, more'⟩
    · have none' := first.eq_nil second fun never => (List.append_eq_nil_iff.mp
        (more'.symm.trans (broken never))).1
      rw [none', List.append_nil]
    · have none' := second.eq_nil first fun never => (List.append_eq_nil_iff.mp
        (more'.symm.trans (broken' never))).1
      rw [none', List.append_nil]
  exact ⟨rfl, first.result.symm.trans second.result, List.append_cancel_left same⟩

/-- The reads of a refill that fails are not those of one that succeeds, with others behind them. -/
private theorem Refilled.disjoint (failed : stage.Refilled reader settings root reads none)
    (refilled : stage.Refilled reader settings root reads' (some filled))
    (same : reads ++ rest = reads' ++ rest') (broken : rest = []) : False := by
  obtain ⟨-, never, -⟩ := failed.unique refilled same (fun _ => broken) nofun
  cases never

private theorem Restocks.unique (first : Restocks reader settings root stages reads after ending)
    (second : Restocks reader settings root stages reads' after' ending')
    (same : reads ++ rest = reads' ++ rest') (broken : ending = .broken → rest = [])
    (broken' : ending' = .broken → rest' = []) :
    reads = reads' ∧ after = after' ∧ ending = ending' := by
  induction first generalizing reads' after' ending' with
  | top =>
    cases second
    exact ⟨rfl, rfl, rfl⟩
  | stocked filled =>
    cases second with
    | stocked _ => exact ⟨rfl, rfl, rfl⟩
    | ended bare _ _ => exact absurd bare filled
    | broken bare _ _ => exact absurd bare filled
    | refilled bare _ _ _ => exact absurd bare filled
  | ended bare atEnd _ ih =>
    cases second with
    | stocked filled => exact absurd bare filled
    | ended _ _ above =>
      obtain ⟨rfl, rfl, rfl⟩ := ih above same broken broken'
      exact ⟨rfl, rfl, rfl⟩
    | broken _ more _ => exact absurd atEnd more
    | refilled _ more _ _ => exact absurd atEnd more
  | broken bare more failed =>
    cases second with
    | stocked filled => exact absurd bare filled
    | ended _ atEnd _ => exact absurd atEnd more
    | broken _ _ failed' =>
      obtain ⟨rfl, -, -⟩ := failed.unique failed' same (fun _ => broken rfl) fun _ => broken' rfl
      exact ⟨rfl, rfl, rfl⟩
    | refilled _ _ refilled _ =>
      rw [List.append_assoc] at same
      exact (failed.disjoint refilled same (broken rfl)).elim
  | refilled bare more refilled _ ih =>
    rw [List.append_assoc] at same
    cases second with
    | stocked filled => exact absurd bare filled
    | ended _ atEnd _ => exact absurd atEnd more
    | broken _ _ failed =>
      exact (failed.disjoint refilled same.symm (broken' rfl)).elim
    | refilled _ _ refilled' above =>
      rw [List.append_assoc] at same
      obtain ⟨rfl, ⟨⟩, same⟩ := refilled.unique refilled' same nofun nofun
      obtain ⟨rfl, rfl, rfl⟩ := ih above same broken broken'
      exact ⟨rfl, rfl, rfl⟩

private theorem MovesOn.unique (first : MovesOn reader settings root stages reads after ending)
    (second : MovesOn reader settings root stages reads' after' ending')
    (same : reads ++ rest = reads' ++ rest') (broken : ending = .broken → rest = [])
    (broken' : ending' = .broken → rest' = []) :
    reads = reads' ∧ after = after' ∧ ending = ending' := by
  induction first generalizing reads' after' ending' with
  | next some' =>
    cases second with
    | next _ => exact ⟨rfl, rfl, rfl⟩
    | up _ => exact absurd rfl some'
    | broken _ _ => exact absurd rfl some'
    | refilled _ _ _ => exact absurd rfl some'
  | up above =>
    cases second with
    | next some' => exact absurd rfl some'
    | up above' =>
      obtain ⟨rfl, rfl, rfl⟩ := above.unique above' same broken broken'
      exact ⟨rfl, rfl, rfl⟩
    | broken more _ => exact absurd rfl more
    | refilled more _ _ => exact absurd rfl more
  | broken more failed =>
    cases second with
    | next some' => exact absurd rfl some'
    | up _ => exact absurd rfl more
    | broken _ failed' =>
      obtain ⟨rfl, -, -⟩ := failed.unique failed' same (fun _ => broken rfl) fun _ => broken' rfl
      exact ⟨rfl, rfl, rfl⟩
    | refilled _ refilled _ =>
      rw [List.append_assoc] at same
      exact (failed.disjoint refilled same (broken rfl)).elim
  | refilled more refilled _ ih =>
    rw [List.append_assoc] at same
    cases second with
    | next some' => exact absurd rfl some'
    | up _ => exact absurd rfl more
    | broken _ failed =>
      exact (failed.disjoint refilled same.symm (broken' rfl)).elim
    | refilled _ refilled' onward =>
      rw [List.append_assoc] at same
      obtain ⟨rfl, ⟨⟩, same⟩ := refilled.unique refilled' same nofun nofun
      obtain ⟨rfl, rfl, rfl⟩ := ih onward same broken broken'
      exact ⟨rfl, rfl, rfl⟩

private theorem Steps.unique (first : Steps reader settings root stages reads after ending)
    (second : Steps reader settings root stages reads' after' ending')
    (same : reads ++ rest = reads' ++ rest') (broken : ending = .broken → rest = [])
    (broken' : ending' = .broken → rest' = []) :
    reads = reads' ∧ after = after' ∧ ending = ending' := by
  cases first with
  | rest =>
    cases second
    exact ⟨rfl, rfl, rfl⟩
  | pass bars onward =>
    cases second with
    | pass _ onward' => exact onward.unique onward' same broken broken'
    | broken enters _ => simp [bars] at enters
    | enter enters _ _ => simp [bars] at enters
    | empty enters _ _ _ => simp [bars] at enters
  | broken enters failed =>
    cases second with
    | pass bars _ => simp [bars] at enters
    | broken _ failed' =>
      obtain ⟨rfl, -, -⟩ := failed.unique failed' same (fun _ => broken rfl) fun _ => broken' rfl
      exact ⟨rfl, rfl, rfl⟩
    | enter _ refilled _ =>
      exact (failed.disjoint refilled same (broken rfl)).elim
    | empty _ refilled _ _ =>
      rw [List.append_assoc] at same
      exact (failed.disjoint refilled same (broken rfl)).elim
  | enter enters refilled some' =>
    cases second with
    | pass bars _ => simp [bars] at enters
    | broken _ failed =>
      exact (failed.disjoint refilled same.symm (broken' rfl)).elim
    | enter _ refilled' _ =>
      obtain ⟨rfl, ⟨⟩, -⟩ := refilled.unique refilled' same nofun nofun
      exact ⟨rfl, rfl, rfl⟩
    | empty _ refilled' none' _ =>
      rw [List.append_assoc] at same
      obtain ⟨-, ⟨⟩, -⟩ := refilled.unique refilled' same nofun nofun
      exact absurd none' some'
  | empty enters refilled none' onward =>
    rw [List.append_assoc] at same
    cases second with
    | pass bars _ => simp [bars] at enters
    | broken _ failed =>
      exact (failed.disjoint refilled same.symm (broken' rfl)).elim
    | enter _ refilled' some' =>
      obtain ⟨-, ⟨⟩, -⟩ := refilled.unique refilled' same nofun nofun
      exact absurd none' some'
    | empty _ refilled' _ onward' =>
      rw [List.append_assoc] at same
      obtain ⟨rfl, ⟨⟩, same⟩ := refilled.unique refilled' same nofun nofun
      obtain ⟨rfl, rfl, rfl⟩ := onward.unique onward' same broken broken'
      exact ⟨rfl, rfl, rfl⟩

private theorem Steps.disjoint (failed : Steps reader settings root stages reads after .broken)
    (stepped : Steps reader settings root stages reads' after' .done)
    (same : reads ++ rest = reads' ++ rest') (broken : rest = []) : False := by
  obtain ⟨-, -, never⟩ := failed.unique stepped same (fun _ => broken) nofun
  cases never

private theorem Skips.unique {rounds : Nat}
    (first : Skips reader settings root rounds stages reads after ending)
    (second : Skips reader settings root rounds stages reads' after' ending')
    (same : reads ++ rest = reads' ++ rest') (broken : ending = .broken → rest = [])
    (broken' : ending' = .broken → rest' = []) :
    reads = reads' ∧ after = after' ∧ ending = ending' := by
  induction first generalizing reads' after' ending' with
  | shown matched =>
    cases second with
    | shown _ => exact ⟨rfl, rfl, rfl⟩
    | tired passes => simp [matched] at passes
    | broken passes _ => simp [matched] at passes
    | onward passes _ _ => simp [matched] at passes
  | tired passes =>
    cases second with
    | shown matched => simp [matched] at passes
    | tired _ => exact ⟨rfl, rfl, rfl⟩
  | broken passes failed =>
    cases second with
    | shown matched => simp [matched] at passes
    | broken _ failed' => exact failed.unique failed' same broken broken'
    | onward _ stepped _ =>
      rw [List.append_assoc] at same
      exact (failed.disjoint stepped same (broken rfl)).elim
  | onward passes stepped _ ih =>
    rw [List.append_assoc] at same
    cases second with
    | shown matched => simp [matched] at passes
    | broken _ failed =>
      exact (failed.disjoint stepped same.symm (broken' rfl)).elim
    | onward _ stepped' onward =>
      rw [List.append_assoc] at same
      obtain ⟨rfl, rfl, -⟩ := stepped.unique stepped' same nofun nofun
      obtain ⟨rfl, rfl, rfl⟩ := ih onward (List.append_cancel_left same) broken broken'
      exact ⟨rfl, rfl, rfl⟩

variable {patience : Nat}

private theorem Advances.unique
    (first : Advances reader settings root patience stages reads after ending)
    (second : Advances reader settings root patience stages reads' after' ending')
    (same : reads ++ rest = reads' ++ rest') (broken : ending = .broken → rest = [])
    (broken' : ending' = .broken → rest' = []) :
    reads = reads' ∧ after = after' ∧ ending = ending' := by
  cases first with
  | broken failed =>
    cases second with
    | broken failed' => exact failed.unique failed' same broken broken'
    | onward stepped _ =>
      rw [List.append_assoc] at same
      exact (failed.disjoint stepped same (broken rfl)).elim
  | onward stepped onward =>
    rw [List.append_assoc] at same
    cases second with
    | broken failed =>
      exact (failed.disjoint stepped same.symm (broken' rfl)).elim
    | onward stepped' onward' =>
      rw [List.append_assoc] at same
      obtain ⟨rfl, rfl, -⟩ := stepped.unique stepped' same nofun nofun
      obtain ⟨rfl, rfl, rfl⟩ :=
        onward.unique onward' (List.append_cancel_left same) broken broken'
      exact ⟨rfl, rfl, rfl⟩

private theorem Opens.unique (first : Opens reader settings root patience reads after ending)
    (second : Opens reader settings root patience reads' after' ending')
    (same : reads ++ rest = reads' ++ rest') (broken : ending = .broken → rest = [])
    (broken' : ending' = .broken → rest' = []) : after = after' ∧ ending = ending' := by
  cases first with
  | broken failed =>
    cases second with
    | broken _ => exact ⟨rfl, rfl⟩
    | empty refilled _ =>
      exact (failed.disjoint refilled same (broken rfl)).elim
    | entered refilled _ _ =>
      rw [List.append_assoc] at same
      exact (failed.disjoint refilled same (broken rfl)).elim
  | empty refilled none' =>
    cases second with
    | broken failed =>
      exact (failed.disjoint refilled same.symm (broken' rfl)).elim
    | empty _ _ => exact ⟨rfl, rfl⟩
    | entered refilled' some' _ =>
      rw [List.append_assoc] at same
      obtain ⟨-, ⟨⟩, -⟩ := refilled.unique refilled' same nofun nofun
      exact absurd none' some'
  | entered refilled some' onward =>
    rw [List.append_assoc] at same
    cases second with
    | broken failed =>
      exact (failed.disjoint refilled same.symm (broken' rfl)).elim
    | empty refilled' none' =>
      obtain ⟨-, ⟨⟩, -⟩ := refilled.unique refilled' same nofun nofun
      exact absurd none' some'
    | entered refilled' _ onward' =>
      rw [List.append_assoc] at same
      obtain ⟨rfl, ⟨⟩, same⟩ := refilled.unique refilled' same nofun nofun
      exact (onward.unique onward' same broken broken').2

end Stage

/-- An account can be explained in one way only. -/
theorem Course.unique {calls : List Call} {stages stages' : List Stage}
    {shown shown' : Option Sighting} (first : Course reader settings root calls stages shown)
    (second : Course reader settings root calls stages' shown') :
    stages' = stages ∧ shown' = shown := by
  induction first generalizing stages' shown' with
  | start opens =>
    cases second with
    | start opens' =>
      obtain ⟨rfl, -⟩ := opens.unique opens' rfl (fun _ => rfl) fun _ => rfl
      exact ⟨rfl, rfl⟩
  | advance _ advances ih =>
    cases second with
    | advance before advances' =>
      obtain ⟨rfl, rfl⟩ := ih before
      obtain ⟨-, rfl, -⟩ := advances.unique advances' rfl (fun _ => rfl) fun _ => rfl
      exact ⟨rfl, rfl⟩
  | stall _ advances ih =>
    cases second with
    | stall before advances' =>
      obtain ⟨rfl, rfl⟩ := ih before
      obtain ⟨-, rfl, -⟩ := advances.unique advances' rfl (fun _ => rfl) fun _ => rfl
      exact ⟨rfl, rfl⟩
  | reset _ opens _ =>
    cases second with
    | reset _ opens' =>
      obtain ⟨rfl, -⟩ := opens.unique opens' rfl (fun _ => rfl) fun _ => rfl
      exact ⟨rfl, rfl⟩
  | «return» _ _ ih =>
    cases second with
    | «return» before _ => exact ih before

end Catwalk
