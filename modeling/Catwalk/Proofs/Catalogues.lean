import Catwalk.Device
import Catwalk.Proofs.Listings
import Catwalk.Proofs.Reservations
import Catwalk.Proofs.Steps
import Mathlib.Algebra.Order.BigOperators.Group.List
import Mathlib.Algebra.Order.Group.Nat

/-!
# Catalogues

What readers answer from, what it takes to read a listing in a buffer that starts small, and the
terms on which a source is kept as it should be.
-/

namespace Catwalk

variable {ρ : Type}

/-- What every path is answered from. -/
abbrev Catalogue := Text → Except Fault (List Entry)

/-- Every entry can be stored. -/
def Catalogue.Storable (catalogue : Catalogue) : Prop :=
  ∀ path listing, catalogue path = .ok listing → ∀ entry ∈ listing, entry.Storable

/-- As long as its source is as it should be, a reader answers from a catalogue. Otherwise it fails,
but only when it is not calm. -/
structure Reader.Reflects (reader : Reader ρ) (catalogue : Catalogue) (source : ρ → Prop)
    (calm : Prop) : Prop where
  keeps : ∀ call s, source s → source (reader.read call s).2
  answers : ∀ call s, source s →
    (reader.read call s).1 = Device.answerFrom call (catalogue call.path) ∨
      ¬ calm ∧ ∃ fault, (reader.read call s).1.result = .error fault

/-- A reader answers from a catalogue as above, but it may do otherwise on calls with any other
pattern than one. -/
structure Reader.ReflectsFor (reader : Reader ρ) (pattern : Option Text) (catalogue : Catalogue)
    (source : ρ → Prop) (calm : Prop) : Prop where
  keeps : ∀ call s, source s → source (reader.read call s).2
  answers : ∀ call s, source s → call.pattern = pattern →
    (reader.read call s).1 = Device.answerFrom call (catalogue call.path) ∨
      ¬ calm ∧ ∃ fault, (reader.read call s).1.result = .error fault

theorem Reader.Reflects.restrict {reader : Reader ρ} {catalogue : Catalogue} {source : ρ → Prop}
    {calm : Prop} (reflects : reader.Reflects catalogue source calm) (pattern : Option Text) :
    reader.ReflectsFor pattern catalogue source calm :=
  ⟨reflects.keeps, fun call s held _ => reflects.answers call s held⟩

/-- A ledger without end refuses nothing while it is not armed. -/
theorem Ledger.reserve_meets_unlimited {ledger : Ledger} (size : Int)
    (unlimited : ledger.limit = none) (unarmed : ledger.countdown = none) :
    (reserve size).Meets ledger
      (fun _ ledger => ledger.limit = none ∧ ledger.countdown = none) fun _ _ => False := by
  refine (reserve_meets size ledger).mono ?_ ?_
  · rintro _ left rfl
    split
    · exact ⟨unlimited, by simp [granted, ticked, unarmed]⟩
    · exact ⟨unlimited, unarmed⟩
  · rintro _ _ ⟨-, -, due | beyond⟩
    · simp [unarmed] at due
    · simp [exceeds, free?, unlimited] at beyond

/-- A source is kept as it should be; in calm the ledger is without end and not armed, and there are
no faults. -/
def Terms.keeping (source : ρ → Prop) (calm : Prop) : Terms ρ where
  world world := source world.source ∧
    (calm → world.ledger.limit = none ∧ world.ledger.countdown = none)
  cause _ := ¬ calm
  reserve size world := by
    rintro ⟨held, ledger⟩
    unfold World.charging
    rw [Act.meets_within]
    by_cases still : calm
    · obtain ⟨unlimited, unarmed⟩ := ledger still
      exact (Ledger.reserve_meets_unlimited size unlimited unarmed).mono
        (fun _ _ after => ⟨held, fun _ => after⟩) fun _ _ never => never.elim
    · exact Act.meets_iff.mpr ⟨fun _ _ _ => ⟨held, fun calm => absurd calm still⟩,
        fun _ _ _ => ⟨⟨held, fun calm => absurd calm still⟩, still⟩⟩
  release size world := by
    rintro ⟨held, ledger⟩
    refine ⟨held, fun calm => ?_⟩
    unfold World.updateLedger Ledger.release
    by_cases small : size ≤ 0
    · rw [if_pos small]
      exact ledger calm
    · rw [if_neg small]
      exact ledger calm

namespace Entry

/-- The records of a listing are no shorter than that of one of its entries. -/
theorem extent_le_records {entry : Entry} {entries : List Entry} (member : entry ∈ entries) :
    entry.stored.extent ≤ Row.extent (records entries) :=
  List.single_le_sum (fun _ _ => Nat.zero_le _) _
    (List.mem_map_of_mem (List.mem_map_of_mem member))

/-- How many reads it may take to read a listing into a buffer that starts small: no more than there
are entries to pass, and doublings until any two records have room. -/
def effort (listing : List Entry) : Nat :=
  listing.length + 2 * Row.extent (records listing) + 1

theorem listed_append (pattern : Option Text) (seen rest : List Entry) :
    listed pattern (seen ++ rest) = listed pattern seen ++ listed pattern rest :=
  List.filter_append _ _

theorem mem_of_listed {pattern : Option Text} {entry : Entry} {entries : List Entry}
    (member : entry ∈ listed pattern entries) : entry ∈ entries :=
  (List.mem_filter.mp member).1

end Entry

end Catwalk
