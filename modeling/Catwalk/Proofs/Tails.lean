import Catwalk.Proofs.Names
import Mathlib.Data.List.DropRight
import Mathlib.Data.List.Infix

/-!
# Tails of paths

A separator cuts a path into pieces, which are read off from left to right (`Text.pieces`). Looking
back from the end goes from one occurrence of the separator to the one before, if no two overlap, so
it finds where the last pieces begin (`Path.lookBack?_intercalate`). The tail starts one code point
behind the start of the separator in front of them: a separator of one code point stays out of it,
and of a longer one it has all but the first (`Path.tail_eq`).
-/

namespace Catwalk

namespace Text

variable {separator t u : Text} {names : List Text}

/-! ## Occurrences -/

/-- No two occurrences of a separator in a text overlap. -/
def Apart (separator t : Text) : Prop :=
  ∀ j < t.length, ∀ i < j, separator <+: t.drop i → separator <+: t.drop j →
    i + separator.length ≤ j

instance decidableApart : Decidable (Apart separator t) := by
  unfold Apart
  infer_instance

private theorem Apart.of_prefix (apart : Apart separator t) (front : u <+: t) :
    Apart separator u := by
  obtain ⟨rest, rfl⟩ := front
  intro j inside i before here there
  have kept : ∀ k ≤ u.length, separator <+: u.drop k → separator <+: (u ++ rest).drop k := by
    intro k within found
    rw [List.drop_append_of_le_length within]
    exact found.trans (List.prefix_append _ _)
  refine apart j ?_ i before (kept i (by omega) here) (kept j (by omega) there)
  rw [List.length_append]
  omega

private theorem infix_of_prefix_drop {i : Nat} (found : separator <+: t.drop i) :
    separator <:+: t :=
  found.isInfix.trans (List.drop_suffix i t).isInfix

private theorem not_prefix_drop_of_length_le (filled : separator ≠ []) {i : Nat}
    (outside : t.length ≤ i) : ¬separator <+: t.drop i := by
  rw [List.drop_eq_nil_of_le outside, List.prefix_nil]
  exact filled

/-- What is found is an occurrence, and the last. -/
private theorem lastOccurrence?_spec (filled : separator ≠ []) (t : Text) :
    match lastOccurrence? separator t with
    | some i => separator <+: t.drop i ∧ ∀ j, i < j → ¬separator <+: t.drop j
    | none => ∀ j, ¬separator <+: t.drop j := by
  induction t with
  | nil =>
    rw [lastOccurrence?, if_neg filled]
    exact fun j => not_prefix_drop_of_length_le filled (Nat.zero_le j)
  | cons c rest ih =>
    rw [lastOccurrence?]
    cases found : lastOccurrence? separator rest with
    | some i =>
      rw [found] at ih
      refine ⟨ih.1, fun j behind => ?_⟩
      obtain ⟨j, rfl⟩ := Nat.exists_eq_add_of_lt (Nat.zero_lt_of_lt behind)
      rw [Nat.zero_add, List.drop_succ_cons]
      exact ih.2 j (by omega)
    | none =>
      rw [found] at ih
      dsimp only
      by_cases here : separator.isPrefixOf (c :: rest) = true
      · rw [if_pos here]
        refine ⟨List.isPrefixOf_iff_prefix.mp here, fun j behind => ?_⟩
        obtain ⟨j, rfl⟩ := Nat.exists_eq_add_of_lt behind
        rw [Nat.zero_add, List.drop_succ_cons]
        exact ih j
      · rw [if_neg here]
        intro j
        cases j with
        | zero => exact fun there => here (List.isPrefixOf_iff_prefix.mpr there)
        | succ j => exact ih j

private theorem lastOccurrence?_eq_some {i : Nat} (filled : separator ≠ [])
    (here : separator <+: t.drop i)
    (last : ∀ j, i < j → ¬separator <+: t.drop j) : lastOccurrence? separator t = some i := by
  have spec := lastOccurrence?_spec filled t
  cases found : lastOccurrence? separator t with
  | none =>
    rw [found] at spec
    exact absurd here (spec i)
  | some k =>
    rw [found] at spec
    rcases Nat.lt_trichotomy i k with before | rfl | behind
    · exact absurd spec.1 (last k before)
    · rfl
    · exact absurd here (spec.2 i behind)

private theorem lastOccurrence?_eq_none (filled : separator ≠ []) (free : ¬separator <:+: t) :
    lastOccurrence? separator t = none := by
  have spec := lastOccurrence?_spec filled t
  cases found : lastOccurrence? separator t with
  | none => rfl
  | some k =>
    rw [found] at spec
    exact absurd (infix_of_prefix_drop spec.1) free

/-- Of separators that do not overlap, the last stands in front of the last piece. -/
private theorem lastOccurrence?_intercalate (filled : separator ≠ []) (some' : names ≠ [])
    {last : Text} (free : ¬separator <:+: last)
    (apart : Apart separator (List.intercalate separator (names ++ [last]))) :
    lastOccurrence? separator (List.intercalate separator (names ++ [last])) =
      some (List.intercalate separator names).length := by
  rw [intercalate_concat separator some'] at apart ⊢
  generalize List.intercalate separator names = front at apart ⊢
  have here : separator <+: (front ++ (separator ++ last)).drop front.length := by
    rw [List.drop_left]
    exact List.prefix_append separator last
  refine lastOccurrence?_eq_some filled here fun j behind there => ?_
  have inside : j < (front ++ (separator ++ last)).length := by
    by_contra outside
    exact not_prefix_drop_of_length_le filled (Nat.le_of_not_lt outside) there
  obtain ⟨k, rfl⟩ := Nat.exists_eq_add_of_le (apart j inside _ behind here there)
  rw [← List.append_assoc, ← List.length_append, List.drop_length_add_append] at there
  exact free (infix_of_prefix_drop there)

/-! ## Pieces -/

/-- Cuts a text at a separator, having passed over its first `skip` code points, which belong to a
separator that starts in front of it. -/
def piecesFrom (separator : Text) : Nat → Text → List Text
  | _, [] => [[]]
  | skip + 1, _ :: rest => piecesFrom separator skip rest
  | 0, c :: rest =>
    if separator.isPrefixOf (c :: rest) then [] :: piecesFrom separator (separator.length - 1) rest
    else (piecesFrom separator 0 rest).modifyHead (c :: ·)

/-- The pieces that a separator cuts a text into, from left to right. There is always a piece before
the first separator and one after the last, either of which may be empty. -/
def pieces (separator t : Text) : List Text := piecesFrom separator 0 t

private theorem piecesFrom_ne_nil (separator : Text) (skip : Nat) (t : Text) :
    piecesFrom separator skip t ≠ [] := by
  fun_induction piecesFrom separator skip t with
  | case1 => exact List.cons_ne_nil _ _
  | case2 skip c rest ih => exact ih
  | case3 c rest here => exact List.cons_ne_nil _ _
  | case4 c rest other ih => simpa using ih

private theorem pieces_ne_nil (separator t : Text) : pieces separator t ≠ [] :=
  piecesFrom_ne_nil separator 0 t

/-- The pieces with the separator between any two are the text. -/
private theorem intercalate_piecesFrom (filled : separator ≠ []) (skip : Nat) (t : Text) :
    List.intercalate separator (piecesFrom separator skip t) = t.drop skip := by
  fun_induction piecesFrom separator skip t with
  | case1 => simp
  | case2 skip c rest ih => exact ih
  | case3 c rest here ih =>
    rw [List.intercalate_cons_of_ne_nil (piecesFrom_ne_nil _ _ _), ih, List.nil_append]
    have whole := List.prefix_iff_eq_append.mp (List.isPrefixOf_iff_prefix.mp here)
    obtain ⟨first, others, rfl⟩ := List.exists_cons_of_ne_nil filled
    exact whole
  | case4 c rest other ih =>
    obtain ⟨piece, pieces, split⟩ := List.exists_cons_of_ne_nil (piecesFrom_ne_nil separator 0 rest)
    rw [split] at ih ⊢
    cases pieces <;> simpa [List.intercalate_cons_cons] using ih

private theorem intercalate_pieces (filled : separator ≠ []) (t : Text) :
    List.intercalate separator (pieces separator t) = t := intercalate_piecesFrom filled 0 t

/-- The text begins with its first piece. -/
private theorem head_piecesFrom_prefix (filled : separator ≠ []) {piece : Text} {others : List Text}
    (split : piecesFrom separator 0 t = piece :: others) : piece <+: t := by
  have whole := intercalate_piecesFrom filled 0 t
  rw [split, List.drop_zero] at whole
  rw [← whole]
  cases others with
  | nil => rw [List.intercalate_singleton]
  | cons second others =>
    rw [List.intercalate_cons_cons, List.append_assoc]
    exact List.prefix_append _ _

/-- No piece has a separator in it. -/
private theorem not_infix_of_mem_piecesFrom (filled : separator ≠ []) (skip : Nat) (t : Text) :
    ∀ piece ∈ piecesFrom separator skip t, ¬separator <:+: piece := by
  fun_induction piecesFrom separator skip t with
  | case1 => simpa using filled
  | case2 skip c rest ih => exact ih
  | case3 c rest here ih =>
    intro piece member
    rcases List.mem_cons.mp member with rfl | member
    · simpa using filled
    · exact ih piece member
  | case4 c rest other ih =>
    obtain ⟨first, others, split⟩ := List.exists_cons_of_ne_nil (piecesFrom_ne_nil separator 0 rest)
    rw [split] at ih ⊢
    intro piece member
    rcases List.mem_cons.mp member with rfl | member
    · rw [List.infix_cons_iff]
      rintro (front | inside)
      · -- a separator at the start of the piece would stand at the start of the text
        have start : c :: first <+: c :: rest :=
          List.cons_prefix_cons.mpr ⟨rfl, head_piecesFrom_prefix filled split⟩
        exact other (List.isPrefixOf_iff_prefix.mpr (front.trans start))
      · exact ih first List.mem_cons_self inside
    · exact ih piece (List.mem_cons_of_mem first member)

end Text

namespace Path

open Text (Apart pieces)

variable {path separator : Text} {names : List Text}

/-- Looking back over `n` separators from the end of some pieces leads to the end of the pieces
before the last `n`, if there are more. -/
theorem lookBack?_intercalate (filled : separator ≠ []) (apart : Apart separator path) (n : Nat)
    (some' : names ≠ []) (free : ∀ name ∈ names, ¬separator <:+: name)
    (front : List.intercalate separator names <+: path) :
    lookBack? separator path n (List.intercalate separator names).length =
      if n < names.length then some (List.intercalate separator (names.rdrop n)).length
      else none := by
  induction n generalizing names with
  | zero => rw [lookBack?, if_pos (List.length_pos_of_ne_nil some'), List.rdrop_zero]
  | succ n ih =>
    obtain ⟨before, last, rfl⟩ := List.eq_nil_or_concat' names |>.resolve_left some'
    rw [lookBack?, ← List.prefix_iff_eq_take.mp front, List.rdrop_concat_succ, List.length_append,
      List.length_singleton]
    have lastFree := free last (by simp)
    by_cases single : before = []
    · subst single
      rw [List.nil_append, List.intercalate_singleton, Text.lastOccurrence?_eq_none filled lastFree,
        if_neg (by simp)]
    · rw [Text.lastOccurrence?_intercalate filled single lastFree (apart.of_prefix front)]
      have shorter := Text.intercalate_concat separator single last
      have some'' := List.length_pos_of_ne_nil filled
      dsimp only
      rw [if_neg (by simp [shorter, filled]),
        ih single (fun name member => free name (by simp [member]))
          ((shorter ▸ List.prefix_append _ _).trans front)]
      simp only [Nat.add_lt_add_iff_right]

/-- Behind the start of a separator between pieces stands the rest of it, and then the pieces. -/
private theorem drop_intercalate (filled : separator ≠ []) (names : List Text) (n : Nat)
    (positive : 0 < n) (more : n < names.length) :
    (List.intercalate separator names).drop
        ((List.intercalate separator (names.rdrop n)).length + 1) =
      separator.tail ++ List.intercalate separator (names.rtake n) := by
  have cut : names.rdrop n ++ names.rtake n = names := List.take_append_drop _ _
  have before : names.rdrop n ≠ [] := by
    rw [List.rdrop, ← List.length_pos_iff, List.length_take]
    omega
  have last : names.rtake n ≠ [] := by
    rw [List.rtake, ← List.length_pos_iff, List.length_drop]
    omega
  obtain ⟨c, rest, rfl⟩ := List.exists_cons_of_ne_nil filled
  conv_lhs => rw [← cut, Text.intercalate_append _ before last]
  rw [cut, List.drop_length_add_append]
  rfl

/-- The tail of a path is its last `n` pieces, or the whole path if it has no more. In front of the
pieces stands the separator without its first code point, that is nothing if it has only one. -/
theorem tail_eq (path separator : Text) (n : Int) (filled : separator ≠ [])
    (apart : Apart separator path) :
    tail path n separator =
      if n ≤ 0 then []
      else if (pieces separator path).length ≤ n then path
      else separator.tail ++
        List.intercalate separator ((pieces separator path).rtake n.toNat) := by
  have whole := Text.intercalate_pieces filled path
  have looked := lookBack?_intercalate filled apart n.toNat (Text.pieces_ne_nil separator path)
    (Text.not_infix_of_mem_piecesFrom filled 0 path) (by rw [whole])
  rw [whole] at looked
  unfold tail
  rw [looked]
  by_cases none' : n ≤ 0
  · rw [if_pos none', if_pos none']
  rw [if_neg none', if_neg none']
  by_cases few : (pieces separator path).length ≤ n
  · rw [if_neg (by omega), if_pos few]
  · rw [if_pos (by omega), if_neg few]
    have cut := drop_intercalate filled (pieces separator path) n.toNat (by omega) (by omega)
    rwa [whole] at cut

/-- Two elements of a path that begins and ends with an empty one, between separators of two code
points. -/
theorem tail_eq_of_long_separator :
    let separator : Text := [0x3A, 0x3A]
    let path : Text := separator ++ [0x61] ++ separator ++ [0x62] ++ separator
    separator ≠ [] ∧ Apart separator path ∧ pieces separator path = [[], [0x61], [0x62], []] ∧
      tail path 2 separator = [0x3A] ++ ([0x62] ++ separator) ∧
      tail path 4 separator = path := by
  intro separator path
  have filled : separator ≠ [] := by decide
  have apart : Apart separator path := by decide
  have cut : pieces separator path = [[], [0x61], [0x62], []] := by decide
  refine ⟨filled, apart, cut, ?_, ?_⟩
  · rw [tail_eq path separator 2 filled apart, cut]
    decide
  · rw [tail_eq path separator 4 filled apart, cut]
    decide

/-- Behind a separator of two code points the tail has the second of them in front of the
element. -/
theorem tail_in_separator :
    let separator : Text := [0x3A, 0x3A]
    let path : Text := [0x61] ++ separator ++ [0x62]
    separator ≠ [] ∧ Apart separator path ∧ pieces separator path = [[0x61], [0x62]] ∧
      List.intercalate separator ((pieces separator path).rtake 1) = [0x62] ∧
      tail path 1 separator = [0x3A, 0x62] := by
  decide

end Path

end Catwalk
