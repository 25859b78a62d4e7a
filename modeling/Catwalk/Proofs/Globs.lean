import Catwalk.Pattern
import Mathlib.Data.List.Infix
import Mathlib.Data.List.TakeWhile

/-!
# Patterns and globs

A pattern matches a name that it cuts into pieces, one for each of its code points, and what a piece
may be is told by the code point, the next one and what comes behind the piece
(`matchesName_iff_cuts`). A glob, which tries every run for `*`, matches whatever the pattern
matches, and no more than that if `*` is nowhere but at the end.
-/

namespace Catwalk.Pattern

variable {c : CodePoint} {pattern name : Text}
  {takes takes' : CodePoint → Option CodePoint → Text → Text → Prop}

/-- The piece of a name that a code point of a pattern takes, by the pattern's next code point and
by the rest of the name behind the piece. A run stops at the first code point that is the next one,
and goes on to the end of the name if there is none. -/
def Takes (c : CodePoint) (next : Option CodePoint) (piece rest : Text) : Prop :=
  if c = anyOne then piece.length = 1
  else if c = anyRun then
    ∀ stop, next = some stop → stop ∉ piece ∧ (rest = [] ∨ rest.head? = some stop)
  else piece = [c]

/-- The same where any run will do. -/
def TakesAny (c : CodePoint) (_ : Option CodePoint) (piece _ : Text) : Prop :=
  if c = anyOne then piece.length = 1 else if c = anyRun then True else piece = [c]

/-- A name falls into consecutive pieces, one for each code point of a pattern, which takes it. -/
def Cuts (takes : CodePoint → Option CodePoint → Text → Text → Prop) (pattern name : Text) :
    Prop :=
  ∃ pieces : List Text, pieces.length = pattern.length ∧ pieces.flatten = name ∧
    ∀ i c piece, pattern[i]? = some c → pieces[i]? = some piece →
      takes c pattern[i + 1]? piece (pieces.drop (i + 1)).flatten

/-- Whether a pattern takes up a name when it may go back: `*` stands for any run at all. -/
def globs : Text → Text → Bool
  | [], name => name.isEmpty
  | c :: pattern, name =>
    if c = anyRun then name.tails.any fun rest => globs pattern rest
    else
      match name with
      | [] => false
      | d :: name => (c = anyOne || d = c) && globs pattern name

private theorem cuts_nil_iff : Cuts takes [] name ↔ name = [] := by
  constructor
  · rintro ⟨pieces, none', rfl, -⟩
    simp [List.length_eq_zero_iff.mp none']
  · rintro rfl
    exact ⟨[], rfl, rfl, by simp⟩

/-- The first code point takes the first piece. -/
private theorem cuts_cons_iff : Cuts takes (c :: pattern) name ↔
    ∃ piece rest, name = piece ++ rest ∧ takes c pattern.head? piece rest ∧
      Cuts takes pattern rest := by
  constructor
  · rintro ⟨pieces, length, rfl, taken⟩
    cases pieces with
    | nil => simp at length
    | cons piece pieces =>
      refine ⟨piece, pieces.flatten, rfl, ?_, pieces, by simpa using length, rfl, ?_⟩
      · simpa [List.head?_eq_getElem?] using taken 0 c piece
      · intro i d other here there
        simpa using taken (i + 1) d other (by simpa using here) (by simpa using there)
  · rintro ⟨piece, _, rfl, first, pieces, length, rfl, taken⟩
    refine ⟨piece :: pieces, by simp [length], rfl, ?_⟩
    intro i d other here there
    cases i with
    | zero =>
      obtain ⟨rfl, rfl⟩ : c = d ∧ piece = other := by simpa using And.intro here there
      simpa [List.head?_eq_getElem?] using first
    | succ i => simpa using taken i d other (by simpa using here) (by simpa using there)

/-- Pieces will do for whatever takes no less at the places of the pattern. -/
theorem Cuts.mono (cuts : Cuts takes pattern name)
    (weaker : ∀ i c piece rest, pattern[i]? = some c → takes c pattern[i + 1]? piece rest →
      takes' c pattern[i + 1]? piece rest) : Cuts takes' pattern name := by
  obtain ⟨pieces, length, flat, taken⟩ := cuts
  exact ⟨pieces, length, flat, fun i c piece here there =>
    weaker i c piece _ here (taken i c piece here there)⟩

/-- A run up to the first stop is the only one that ends where it has to. -/
private theorem dropWhile_of_stop {stop : CodePoint} {piece rest : Text} (free : stop ∉ piece)
    (ends : rest = [] ∨ rest.head? = some stop) :
    (piece ++ rest).dropWhile (fun d => some stop ≠ some d) = rest := by
  have passed : ∀ d ∈ piece, decide (some stop ≠ some d) = true := by
    intro d member
    simpa using fun same : stop = d => free (same ▸ member)
  rw [List.dropWhile_append_of_pos passed]
  rcases ends with rfl | ends
  · rfl
  · obtain ⟨behind, rfl⟩ := List.head?_eq_some_iff.mp ends
    simp

/-- The run that is passed over ends where it has to. -/
private theorem exists_run (next : Option CodePoint) (name : Text) :
    ∃ piece rest, name = piece ++ rest ∧ name.dropWhile (fun d => next ≠ some d) = rest ∧
      ∀ stop, next = some stop → stop ∉ piece ∧ (rest = [] ∨ rest.head? = some stop) := by
  refine ⟨_, _, (List.takeWhile_append_dropWhile (p := fun d => decide (next ≠ some d))).symm,
    rfl, ?_⟩
  rintro stop rfl
  refine ⟨fun member => by simpa using List.mem_takeWhile_imp member, ?_⟩
  by_cases ended : name.dropWhile (fun d => some stop ≠ some d) = []
  · exact .inl ended
  · have stopped := List.head_dropWhile_not (fun d => decide (some stop ≠ some d)) ended
    simp only [decide_eq_false_iff_not, not_not, Option.some.injEq] at stopped
    exact .inr ((List.head?_eq_some_head ended).trans (congrArg some stopped.symm))

/-- Reading a pattern from left to right finds the only cut that there can be. -/
private theorem accepts_iff_cuts (pattern name : Text) :
    accepts pattern name = true ↔ Cuts Takes pattern name := by
  induction pattern generalizing name with
  | nil => simp [accepts, cuts_nil_iff]
  | cons c pattern ih =>
    unfold accepts
    rw [cuts_cons_iff]
    by_cases one : c = anyOne
    · simp only [Takes, one, if_true, List.length_eq_one_iff]
      cases name with
      | nil => simp
      | cons d name =>
        simp only [ih]
        constructor
        · exact fun cuts => ⟨[d], name, rfl, ⟨d, rfl⟩, cuts⟩
        · rintro ⟨_, rest, split, ⟨e, rfl⟩, cuts⟩
          cases split
          exact cuts
    by_cases run : c = anyRun
    · simp only [Takes, if_neg one, if_pos run, ih]
      constructor
      · intro cuts
        obtain ⟨piece, rest, split, rfl, stops⟩ := exists_run pattern.head? name
        exact ⟨piece, _, split, stops, cuts⟩
      · rintro ⟨piece, rest, rfl, stops, cuts⟩
        cases pattern with
        | nil =>
          have left : (piece ++ rest).dropWhile (fun d => [].head? ≠ some d) = [] :=
            List.dropWhile_eq_nil_iff.mpr (by simp)
          rw [left]
          exact cuts_nil_iff.mpr rfl
        | cons stop pattern =>
          obtain ⟨free, ends⟩ := stops stop rfl
          rwa [List.head?_cons, dropWhile_of_stop free ends]
    · simp only [Takes, if_neg one, if_neg run]
      cases name with
      | nil => simp
      | cons d name =>
        simp only [Bool.and_eq_true, decide_eq_true_eq, ih]
        constructor
        · rintro ⟨rfl, cuts⟩
          exact ⟨[d], name, rfl, rfl, cuts⟩
        · rintro ⟨_, rest, split, rfl, cuts⟩
          cases split
          exact ⟨rfl, cuts⟩

private theorem globs_iff_cuts (pattern name : Text) :
    globs pattern name = true ↔ Cuts TakesAny pattern name := by
  induction pattern generalizing name with
  | nil => simp [globs, cuts_nil_iff]
  | cons c pattern ih =>
    unfold globs
    rw [cuts_cons_iff]
    by_cases run : c = anyRun
    · have other : c ≠ anyOne := by rw [run]; decide
      simp only [TakesAny, if_pos run, if_neg other, List.any_eq_true, List.mem_tails, ih]
      constructor
      · rintro ⟨rest, ⟨piece, rfl⟩, cuts⟩
        exact ⟨piece, rest, rfl, trivial, cuts⟩
      · rintro ⟨piece, rest, rfl, -, cuts⟩
        exact ⟨rest, List.suffix_append piece rest, cuts⟩
    · rw [if_neg run]
      cases name with
      | nil =>
        simp only [TakesAny, if_neg run, Bool.false_eq_true, false_iff]
        rintro ⟨piece, rest, split, taken, -⟩
        obtain ⟨rfl, -⟩ := List.append_eq_nil_iff.mp split.symm
        split at taken <;> simp at taken
      | cons d name =>
        simp only [TakesAny, if_neg run, Bool.and_eq_true, Bool.or_eq_true, decide_eq_true_eq, ih]
        constructor
        · rintro ⟨one | rfl, cuts⟩
          · exact ⟨[d], name, rfl, by simp [one], cuts⟩
          · exact ⟨[d], name, rfl, by simp, cuts⟩
        · rintro ⟨piece, rest, split, taken, cuts⟩
          by_cases one : c = anyOne
          · rw [if_pos one] at taken
            obtain ⟨e, rfl⟩ := List.length_eq_one_iff.mp taken
            cases split
            exact ⟨.inl one, cuts⟩
          · rw [if_neg one] at taken
            subst taken
            cases split
            exact ⟨.inr rfl, cuts⟩

/-- Nothing comes behind a run that only the last code point may stand for. -/
private theorem getElem?_succ_of_run (last : anyRun ∉ pattern.dropLast) {i : Nat}
    (run : pattern[i]? = some anyRun) : pattern[i + 1]? = none := by
  by_contra more
  rw [List.getElem?_eq_none_iff, not_le] at more
  refine last (List.mem_of_getElem? (i := i) ?_)
  rw [List.getElem?_dropLast, if_pos (by omega), run]

/-- A pattern matches the names that it cuts into pieces. A glob matches all of these, and no others
if nothing comes behind a `*`. -/
theorem matchesName_iff_cuts (pattern name : Text) :
    (matchesName (some pattern) name = true ↔ Cuts Takes pattern name) ∧
    (matchesName (some pattern) name = true → globs pattern name = true) ∧
    (anyRun ∉ pattern.dropLast →
      (matchesName (some pattern) name = true ↔ globs pattern name = true)) := by
  have matched : matchesName (some pattern) name = true ↔ Cuts Takes pattern name :=
    accepts_iff_cuts pattern name
  have looser : Cuts Takes pattern name → Cuts TakesAny pattern name := by
    intro cuts
    refine cuts.mono fun i c piece rest _ taken => ?_
    unfold Takes at taken
    unfold TakesAny
    split_ifs at taken ⊢ with one run
    · exact taken
    · exact taken
  rw [globs_iff_cuts, matched]
  refine ⟨.rfl, looser, fun last => ⟨looser, fun cuts => ?_⟩⟩
  refine cuts.mono fun i c piece rest here taken => ?_
  unfold TakesAny at taken
  unfold Takes
  split_ifs at taken ⊢ with one run
  · exact taken
  · -- behind a run there is no next code point to stop at
    intro stop next
    rw [getElem?_succ_of_run last (run ▸ here)] at next
    cases next
  · exact taken

/-- The pattern `!#*` and the name `!foo`. -/
theorem matchesName_iff_cuts_of_final_run :
    let pattern : Text := [0x21, 0x23, 0x2A]
    let name : Text := [0x21, 0x66, 0x6F, 0x6F]
    anyRun ∉ pattern.dropLast ∧ Cuts Takes pattern name ∧ globs pattern name = true := by
  intro pattern name
  have last : anyRun ∉ pattern.dropLast := by decide
  have matched : matchesName (some pattern) name = true := by decide
  obtain ⟨cuts, -, same⟩ := matchesName_iff_cuts pattern name
  exact ⟨last, cuts.mp matched, (same last).mp matched⟩

/-- A glob finds the second `o` of `foo` for `*o`, a pattern stops at the first. -/
example : globs [0x2A, 0x6F] [0x66, 0x6F, 0x6F] = true ∧
    matchesName (some [0x2A, 0x6F]) [0x66, 0x6F, 0x6F] = false := by decide

end Catwalk.Pattern
