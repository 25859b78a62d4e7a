import Catwalk.Proofs.Additions

/-!
# Levels that read a listing

A level of a directory with a known listing has ahead of it the records that it holds and the
entries behind its cursor that match. Refills move records from the second to the first and change
nothing else, whether they succeed or fail (`Reads.tried`). While no fault is injected they succeed,
given patience for every entry and every doubling of the buffer (`Reads.serves`).
-/

namespace Catwalk

namespace Level

open Entry ReadCall

variable {ρ : Type} {reader : Reader ρ} {catalogue : Catalogue} {source : ρ → Prop} {calm : Prop}
  {request : Request} {patience : Nat} {listing unread ahead read : List Entry}
  {pattern : Option Text} {level : Level}

/-- What it takes to speak of the reads of a listing: the reader reflects it, its entries can be
stored, and reads look at entries. -/
structure Serving (reader : Reader ρ) (catalogue : Catalogue) (source : ρ → Prop) (calm : Prop)
    (request : Request) (listing : List Entry) : Prop where
  reflects : reader.ReflectsFor request.pattern catalogue source calm
  found : catalogue request.path = .ok listing
  storable : ∀ entry ∈ listing, entry.Storable
  looks : 1 ≤ request.maxEntries

/-- Nothing is added to the listing. -/
private theorem Serving.answersEnlarged
    (serving : Serving reader catalogue source calm request listing) :
    AnswersEnlarged reader source calm (fun _ => False) listing.length
      (2 * Row.extent (records listing)) request listing where
  keeps := serving.reflects.keeps
  answers call s held path pattern := by
    rcases serving.reflects.answers call s held pattern with answered | failed
    · refine .inl ⟨listing, .refl listing, ?_⟩
      rw [answered, path, serving.found]
      rfl
    · exact .inr failed
  storable := serving.storable
  new := nofun
  looks := serving.looks

/-- A level of a directory with a known listing has these entries ahead: those that it has read and
holds, and those behind its cursor that match. -/
structure Reads (listing : List Entry) (pattern : Option Text) (level : Level)
    (ahead read unread : List Entry) : Prop where
  holds : level.Holds (records read)
  left : Unread listing level.cursor unread
  ahead : ahead = read ++ listed pattern unread
  known : ∀ entry ∈ read, entry ∈ listing
  positive : 0 < level.buffer.length

private theorem Reads.spans (reads : level.Reads listing pattern ahead read unread) :
    level.Spans (fun _ => False) (2 * Row.extent (records listing)) listing pattern ahead read
      unread := by
  refine ⟨reads.holds, reads.left, ?_, fun entry member => ?_, reads.positive⟩
  · rw [kept_eq_self reads.known]
    exact reads.ahead
  · have one := extent_le_records (reads.known entry member)
    exact ⟨.inl (reads.known entry member), Nat.mul_le_mul_left 2 one⟩

private theorem Spans.reads {large : Nat}
    (spans : level.Spans (fun _ => False) large listing pattern ahead read unread) :
    level.Reads listing pattern ahead read unread := by
  have known : ∀ entry ∈ read, entry ∈ listing := fun entry member =>
    (spans.held entry member).known.resolve_right id
  refine ⟨spans.holds, spans.left, ?_, known, spans.positive⟩
  rw [← kept_eq_self known]
  exact spans.ahead

theorem Reads.nothing (reads : level.Reads listing pattern ahead read unread)
    (none' : level.remaining = 0) (ended : level.isExhausted = true) : ahead = [] :=
  reads.spans.nothing none' ended

/-- Trying to refill a level leaves what is ahead, and the current record if there is one. -/
theorem Reads.tried (serving : Serving reader catalogue source calm request listing)
    {tried : Level} (reads : level.Reads listing request.pattern ahead read unread)
    (attempt : level.Tried (Terms.keeping source calm) reader request tried) :
    ∃ fresh rest, tried.Reads listing request.pattern ahead (read ++ fresh) rest := by
  obtain ⟨fresh, rest, spans, -⟩ := reads.spans.tried serving.answersEnlarged attempt
  exact ⟨fresh, rest, spans.reads⟩

/-- A refill that succeeds and takes in nothing has read everything. -/
theorem Filled.isExhausted {terms : Terms ρ} {level filled : Level} (holds : level.Holds [])
    (run : level.Filled terms reader request filled) (none' : filled.remaining = 0) :
    filled.isExhausted = true := by
  obtain ⟨patience, world, world', n, w, run⟩ := run
  by_cases unfit : level.isExhausted = true ∨ 1 < level.remaining
  · obtain ⟨fault, refused⟩ := refill_refuses reader patience request world unfit
    rw [refused] at run
    cases run
  · rw [not_or, Bool.not_eq_true] at unfit
    have outcome : (refill reader patience request).Meets (level, world) _ _ :=
      refill_meets (Terms.any ρ) (Terms.any_covers reader) holds (Nat.zero_le _) unfit.1 trivial
    obtain ⟨-, -, ended, fresh, number, holds'⟩ := outcome.of_ok run
    refine ended ?_
    rw [holds'.remaining, List.nil_append] at none'
    omega

/-- In calm, with enough patience, refills succeed. -/
theorem Reads.serves (serving : Serving reader catalogue source calm request listing)
    (reads : level.Reads listing request.pattern ahead read unread)
    (enough : calm → effort listing ≤ patience) :
    (Terms.keeping source calm).Serves reader patience request level :=
  reads.spans.serves serving.answersEnlarged enough

end Level

end Catwalk
