import Catwalk.Proofs.Logs

/-!
# Origins of what is shown

A walk stands on records that it has read in the directory in which it shows them, and it has come
there through directories whose records it has read in turn (`Course.origins`). So what readers
deliver is all that walks show.
-/

namespace Catwalk

variable {ρ : Type} {reader : Reader ρ} {settings : Settings} {root : Text}
  {log reads more : List Exchange} {names : List Text} {record : Stored}

/-- The record is one of those that the answer counts. -/
def Exchange.Delivers (exchange : Exchange) (record : Stored) : Prop :=
  ∃ batch fresh, exchange.answer.result = .ok batch ∧ fresh.length = batch.count ∧
    Row exchange.buffer exchange.call.offset fresh ∧ record ∈ fresh

/-- A record was read in the directory to which the names lead. -/
def ReadIn (settings : Settings) (root : Text) (log : List Exchange) (names : List Text)
    (record : Stored) : Prop :=
  ∃ exchange ∈ log, exchange.call.path = settings.pathOf root names ∧ exchange.Delivers record

/-- The names lead from the root through records that were read. -/
inductive Reached (settings : Settings) (root : Text) (log : List Exchange) : List Text → Prop
  | top : Reached settings root log []
  | into {names : List Text} {record : Stored} : Reached settings root log names →
      ReadIn settings root log names record →
      Reached settings root log (names ++ [Text.decode record.name])

private theorem ReadIn.append (read : ReadIn settings root log names record)
    (more : List Exchange) : ReadIn settings root (log ++ more) names record := by
  obtain ⟨exchange, member, found⟩ := read
  exact ⟨exchange, List.mem_append_left more member, found⟩

private theorem Reached.append (reached : Reached settings root log names) (more : List Exchange) :
    Reached settings root (log ++ more) names := by
  induction reached with
  | top => exact .top
  | into _ read ih => exact ih.into (read.append more)

theorem Reached.exists_record (reached : Reached settings root log names) :
    ∀ name ∈ names, ∃ trail record, ReadIn settings root log trail record ∧
      name = Text.decode record.name := by
  induction reached with
  | top => simp
  | into _ read ih =>
    intro name member
    rcases List.mem_append.mp member with member | last
    · exact ih name member
    · exact ⟨_, _, read, List.mem_singleton.mp last⟩

private theorem InTurn.path {path : Text} {cursor : Int}
    (made : InTurn reader settings path cursor reads) :
    ∀ exchange ∈ reads, exchange.call.path = path := by
  induction made with
  | done => simp
  | read lawful _ _ _ ih => simpa [lawful.path] using ih

namespace Stage

variable {stage filled : Stage} {before after : List Stage} {ending : Ending} {patience : Nat}

/-- A directory was reached, and its records were read there. -/
structure IsRead (settings : Settings) (root : Text) (log : List Exchange) (stage : Stage) :
    Prop where
  reached : Reached settings root log stage.names
  records : ∀ record ∈ stage.records, ReadIn settings root log stage.names record

/-- All directories on a way were reached, and their records were read. -/
def AreRead (settings : Settings) (root : Text) (log : List Exchange) (stages : List Stage) :
    Prop :=
  ∀ stage ∈ stages, stage.IsRead settings root log

private theorem IsRead.append (read : stage.IsRead settings root log) (more : List Exchange) :
    stage.IsRead settings root (log ++ more) :=
  ⟨read.reached.append more, fun record member => (read.records record member).append more⟩

private theorem AreRead.append {stages : List Stage} (read : AreRead settings root log stages)
    (more : List Exchange) : AreRead settings root (log ++ more) stages :=
  fun stage member => (read stage member).append more

private theorem areRead_cons_iff {stages : List Stage} : AreRead settings root log
    (stage :: stages) ↔
    stage.IsRead settings root log ∧ AreRead settings root log stages := List.forall_mem_cons

private theorem isRead_outset : (outset []).IsRead settings root log := ⟨.top, by simp [outset]⟩

private theorem Refilled.isRead (refilled : stage.Refilled reader settings root reads (some filled))
    (read : stage.IsRead settings root log) : filled.IsRead settings root (log ++ reads) := by
  obtain ⟨exchange, fresh, last, brings, names, records⟩ :=
    refilled?_eq_some_iff.mp refilled.result
  obtain ⟨batch, result, -, -, number, row⟩ := Exchange.brings?_eq_some_iff.mp brings
  have own := List.mem_of_getLast? last
  constructor
  · rw [names]
    exact read.reached.append reads
  · intro record member
    rw [records] at member
    rw [names]
    rcases List.mem_append.mp member with member | new
    · exact (read.records record member).append reads
    · exact ⟨exchange, List.mem_append_right log own, refilled.inTurn.path exchange own, batch,
        fresh, result, number, row, new⟩

section
variable {cursor : Int} {records : List Stored}

private theorem IsRead.below (read : IsRead settings root log ⟨names, cursor, record :: records⟩) :
    (Stage.below names record).IsRead settings root log :=
  ⟨read.reached.into (read.records record List.mem_cons_self), by simp [Stage.below, outset]⟩

private theorem IsRead.tail (read : IsRead settings root log ⟨names, cursor, record :: records⟩) :
    IsRead settings root log ⟨names, cursor, records⟩ :=
  ⟨read.reached, fun other member => read.records other (List.mem_cons_of_mem record member)⟩

end

private theorem mem_of_mem_leave {gone above : List Stage}
    (member : stage ∈ leave gone above ending) : stage ∈ gone ∨ stage ∈ above := by
  cases ending with
  | done => exact .inr ((List.dropWhile_sublist _).mem member)
  | broken => exact List.mem_append.mp member

private theorem Restocks.areRead
    (restocks : Restocks reader settings root before reads after ending)
    (read : AreRead settings root log before) : AreRead settings root (log ++ reads) after := by
  induction restocks generalizing log with
  | top => exact read.append _
  | stocked _ => exact read.append _
  | ended _ _ _ ih =>
    obtain ⟨here, above⟩ := areRead_cons_iff.mp read
    exact areRead_cons_iff.mpr ⟨here.append _, ih above⟩
  | broken _ _ _ => exact read.append _
  | refilled _ _ refilled _ ih =>
    obtain ⟨here, above⟩ := areRead_cons_iff.mp read
    rw [← List.append_assoc]
    exact ih (areRead_cons_iff.mpr ⟨refilled.isRead here, above.append _⟩)

private theorem MovesOn.areRead (moves : MovesOn reader settings root before reads after ending)
    (read : AreRead settings root log before) : AreRead settings root (log ++ reads) after := by
  induction moves generalizing log with
  | next _ =>
    obtain ⟨here, above⟩ := areRead_cons_iff.mp read
    exact areRead_cons_iff.mpr ⟨here.tail.append _, above.append _⟩
  | up restocks =>
    obtain ⟨here, above⟩ := areRead_cons_iff.mp read
    intro stage member
    rcases mem_of_mem_leave member with gone | above'
    · rw [List.mem_singleton.mp gone]
      exact here.append _
    · exact restocks.areRead above stage above'
  | broken _ _ => exact read.append _
  | refilled _ refilled _ ih =>
    obtain ⟨here, above⟩ := areRead_cons_iff.mp read
    rw [← List.append_assoc]
    exact ih (areRead_cons_iff.mpr ⟨refilled.isRead here, above.append _⟩)

private theorem Steps.areRead (steps : Steps reader settings root before reads after ending)
    (read : AreRead settings root log before) : AreRead settings root (log ++ reads) after := by
  cases steps with
  | rest => exact read.append _
  | pass _ moves => exact moves.areRead read
  | broken _ _ => exact read.append _
  | enter _ refilled _ =>
    obtain ⟨here, above⟩ := areRead_cons_iff.mp read
    exact areRead_cons_iff.mpr ⟨refilled.isRead here.below,
      areRead_cons_iff.mpr ⟨here.tail.append _, above.append _⟩⟩
  | empty _ _ _ moves =>
    rw [← List.append_assoc]
    exact moves.areRead (read.append _)

private theorem Skips.areRead {rounds : Nat}
    (skips : Skips reader settings root rounds before reads after ending)
    (read : AreRead settings root log before) : AreRead settings root (log ++ reads) after := by
  induction skips generalizing log with
  | shown _ => exact read.append _
  | tired _ => exact read.append _
  | broken _ steps => exact steps.areRead read
  | onward _ steps _ ih =>
    rw [← List.append_assoc]
    exact ih (steps.areRead read)

private theorem Advances.areRead
    (advances : Advances reader settings root patience before reads after ending)
    (read : AreRead settings root log before) : AreRead settings root (log ++ reads) after := by
  cases advances with
  | broken steps => exact steps.areRead read
  | onward steps skips =>
    rw [← List.append_assoc]
    exact skips.areRead (steps.areRead read)

private theorem Opens.areRead (opens : Opens reader settings root patience reads after ending) :
    AreRead settings root (log ++ reads) after := by
  cases opens with
  | broken _ => exact nofun
  | empty _ _ => exact nofun
  | entered refilled _ skips =>
    rw [← List.append_assoc]
    exact skips.areRead (List.forall_mem_singleton.mpr (refilled.isRead isRead_outset))

end Stage

/-- An object was read in its directory, which was reached. -/
structure Sighting.IsRead (settings : Settings) (root : Text) (log : List Exchange)
    (sighting : Sighting) : Prop where
  reached : Reached settings root log sighting.names
  record : ReadIn settings root log sighting.names sighting.record

private theorem Sighting.IsRead.append {sighting : Sighting}
    (read : sighting.IsRead settings root log)
    (more : List Exchange) : sighting.IsRead settings root (log ++ more) :=
  ⟨read.reached.append more, read.record.append more⟩

private theorem Stage.AreRead.shown {stages : List Stage}
    (read : AreRead settings root log stages) :
    ∀ sighting, Stage.shown stages = some sighting → sighting.IsRead settings root log := by
  intro sighting shown
  cases stages with
  | nil => cases shown
  | cons stage shallower =>
    obtain ⟨names, cursor, records⟩ := stage
    have here := read _ List.mem_cons_self
    cases records with
    | nil => cases shown
    | cons record records =>
      cases shown
      exact ⟨here.reached, here.records record List.mem_cons_self⟩

/-- The directories on the way of a walk were reached and read, and so was what it shows. -/
theorem Course.origins {calls : List Call} {stages : List Stage} {shown : Option Sighting}
    (course : Course reader settings root calls stages shown) :
    Stage.AreRead settings root (Call.account calls) stages ∧
      ∀ sighting, shown = some sighting →
        sighting.IsRead settings root (Call.account calls) := by
  induction course with
  | start opens => exact ⟨opens.areRead, opens.areRead.shown⟩
  | advance _ advances ih => exact ⟨advances.areRead ih.1, (advances.areRead ih.1).shown⟩
  | stall _ advances ih =>
    exact ⟨advances.areRead ih.1, fun sighting shown => (ih.2 sighting shown).append _⟩
  | reset _ opens _ => exact ⟨opens.areRead, opens.areRead.shown⟩
  | «return» _ _ ih => exact ⟨ih.1.append _, fun sighting shown => (ih.2 sighting shown).append _⟩

end Catwalk
