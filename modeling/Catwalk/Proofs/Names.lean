import Catwalk.Path
import Catwalk.Text.Encoding

/-!
# Names in paths

A plain name leads from a path to a child (`Path.elements_ofText_below`). Stored names that are put
together with an ASCII separator between them are read back piece by piece, since such a separator
is part of no longer sequence (`Text.decode_append_ascii`).
-/

namespace Catwalk

namespace Text

variable {isBreak : CodePoint → Bool}

theorem split_of_uncut {piece : Text} (uncut : ∀ c ∈ piece, isBreak c = false) :
    piece.split isBreak = [piece] := by
  induction piece with
  | nil => rfl
  | cons c piece ih =>
    have rest := ih fun d member => uncut d (List.mem_cons_of_mem c member)
    rw [split, uncut c List.mem_cons_self, rest]
    rfl

private theorem split_ne_nil (isBreak : CodePoint → Bool) (t : Text) : t.split isBreak ≠ [] := by
  cases t with
  | nil => exact List.cons_ne_nil _ _
  | cons c t =>
    rw [split]
    split
    · exact List.cons_ne_nil _ _
    · split
      · exact List.cons_ne_nil _ _
      · exact List.cons_ne_nil _ _

/-- A break cuts a text into pieces before it and pieces behind it. -/
theorem split_append_break {c : CodePoint} (breaks : isBreak c = true) {t rest : Text} :
    (t ++ c :: rest).split isBreak = t.split isBreak ++ rest.split isBreak := by
  induction t with
  | nil =>
    change split isBreak (c :: rest) = [] :: split isBreak rest
    rw [split, if_pos breaks]
  | cons d t ih =>
    rw [List.cons_append, split, split, ih]
    by_cases cut : isBreak d = true
    · rw [if_pos cut, if_pos cut]
      rfl
    · rw [if_neg cut, if_neg cut]
      cases pieces : split isBreak t with
      | nil => exact absurd pieces (split_ne_nil isBreak t)
      | cons piece pieces => rfl

private theorem uncut_of_mem_split {t piece : Text}
    (member : piece ∈ t.split isBreak) : ∀ c ∈ piece, isBreak c = false := by
  induction t generalizing piece with
  | nil =>
    rw [split, List.mem_singleton] at member
    subst member
    intro c never
    cases never
  | cons d t ih =>
    rw [split] at member
    by_cases breaks : isBreak d = true
    · rw [if_pos breaks] at member
      rcases List.mem_cons.mp member with rfl | member
      · intro c never
        cases never
      · exact ih member
    · rw [if_neg breaks] at member
      split at member
      · rw [List.mem_singleton] at member
        subst member
        intro c found
        rw [List.mem_singleton.mp found]
        exact eq_false_of_ne_true breaks
      · next first pieces split =>
        rcases List.mem_cons.mp member with rfl | member
        · intro c found
          rcases List.mem_cons.mp found with rfl | found
          · exact eq_false_of_ne_true breaks
          · exact ih (split ▸ List.mem_cons_self) c found
        · exact ih (split ▸ List.mem_cons_of_mem first member)

/-! ## Names put together -/

theorem intercalate_ne_nil (separator : Text) {names : List Text} (some' : names ≠ [])
    (filled : ∀ name ∈ names, name ≠ []) : List.intercalate separator names ≠ [] := by
  rcases names with _ | ⟨first, _ | ⟨second, names⟩⟩
  · exact absurd rfl some'
  · rw [List.intercalate_singleton]
    exact filled first List.mem_cons_self
  · rw [List.intercalate_cons_cons, List.append_assoc]
    exact List.append_ne_nil_of_left_ne_nil (filled first List.mem_cons_self) _

theorem intercalate_append (separator : Text) {front back : List Text} (some' : front ≠ [])
    (more : back ≠ []) : List.intercalate separator (front ++ back) =
      List.intercalate separator front ++ (separator ++ List.intercalate separator back) := by
  induction front with
  | nil => exact absurd rfl some'
  | cons first front ih =>
    by_cases single : front = []
    · subst single
      rw [List.singleton_append, List.intercalate_cons_of_ne_nil more, List.intercalate_singleton,
        List.append_assoc]
    · rw [List.cons_append, List.intercalate_cons_of_ne_nil (by simp [single]), ih single,
        List.intercalate_cons_of_ne_nil single]
      simp only [List.append_assoc]

theorem intercalate_concat (separator : Text) {names : List Text} (some' : names ≠ [])
    (name : Text) : List.intercalate separator (names ++ [name]) =
      List.intercalate separator names ++ (separator ++ name) := by
  rw [intercalate_append separator some' (List.cons_ne_nil name []), List.intercalate_singleton]

/-! ## Stored names -/

theorem encode?_append (t u : Text) :
    encode? (t ++ u) = (encode? t).bind fun front => (encode? u).map (front ++ ·) := by
  induction t with
  | nil =>
    change encode? u = (encode? u).map ([] ++ ·)
    cases encode? u with
    | none => rfl
    | some back => rfl
  | cons c t ih =>
    rw [List.cons_append, encode?, encode?, ih]
    cases encodeOne? c with
    | none => rfl
    | some first =>
      cases encode? t with
      | none => rfl
      | some front =>
        cases encode? u with
        | none => rfl
        | some back => simp

private theorem zero_not_mem_map_ofNat (numbers : List Nat)
    (bytes : ∀ n ∈ numbers, 0 < n ∧ n < 256) : (0 : UInt8) ∉ numbers.map UInt8.ofNat := by
  intro member
  obtain ⟨n, listed, zero⟩ := List.mem_map.mp member
  obtain ⟨positive, small⟩ := bytes n listed
  have value := congrArg UInt8.toNat zero
  rw [UInt8.toNat_ofNat_of_lt' small] at value
  exact absurd value (Nat.ne_of_gt positive)

private theorem zero_not_mem_encodeOne {c : CodePoint} (nonzero : c ≠ 0) {bytes : Bytes}
    (encoded : encodeOne? c = some bytes) : (0 : UInt8) ∉ bytes := by
  have positive : 0 < c.val := Nat.pos_of_ne_zero fun zero => nonzero (Fin.ext zero)
  have small := c.isLt
  unfold encodeOne? at encoded
  dsimp only at encoded
  -- one case for each number of bytes, and one for bytes that stand for themselves
  split at encoded
  · cases encoded
    exact zero_not_mem_map_ofNat [c.val] (by simp; omega)
  split at encoded
  · cases encoded
    exact zero_not_mem_map_ofNat [_, _] (by simp; omega)
  split at encoded
  · split at encoded
    · cases encoded
      exact zero_not_mem_map_ofNat [_] (by simp; omega)
    · cases encoded
  split at encoded
  · cases encoded
    exact zero_not_mem_map_ofNat [_, _, _] (by simp; omega)
  · cases encoded
    exact zero_not_mem_map_ofNat [_, _, _, _] (by simp; omega)

/-- Only a zero is stored with a zero byte. -/
theorem zero_not_mem_encode {t : Text} (nonzero : (0 : CodePoint) ∉ t) {bytes : Bytes}
    (encoded : encode? t = some bytes) : (0 : UInt8) ∉ bytes := by
  induction t generalizing bytes with
  | nil =>
    cases encoded
    exact List.not_mem_nil
  | cons c t ih =>
    rw [List.mem_cons, not_or] at nonzero
    rw [encode?] at encoded
    cases first : encodeOne? c with
    | none =>
      rw [first] at encoded
      cases encoded
    | some front =>
      cases rest : encode? t with
      | none =>
        rw [first, rest] at encoded
        cases encoded
      | some back =>
        rw [first, rest] at encoded
        cases encoded
        rw [List.mem_append, not_or]
        exact ⟨zero_not_mem_encodeOne (Ne.symm nonzero.1) first, ih nonzero.2 rest⟩

/-- A byte below 0x80 is a sequence of its own. -/
theorem sequence?_of_ascii {b : UInt8} (ascii : b.toNat < 0x80) (rest : Bytes) :
    sequence? b rest = some (⟨b.toNat, by omega⟩, 0) := by
  have scalar : scalar? 0 b.toNat = some ⟨b.toNat, by omega⟩ := by
    unfold scalar?
    rw [dif_pos (by omega)]
  unfold sequence?
  rw [if_pos ascii, scalar]
  rfl

/-- A byte below 0x80 ends every sequence before it. -/
private theorem sequence?_append_ascii {s : UInt8} (ascii : s.toNat < 0x80) (b : UInt8)
    (x y : Bytes) : sequence? b (x ++ s :: y) = sequence? b x := by
  have other : continuation? s = none := if_neg (by omega)
  -- no sequence looks at more than three bytes
  rcases x with _ | ⟨p, _ | ⟨q, _ | ⟨r, x⟩⟩⟩ <;>
    simp only [sequence?, Option.bind_eq_bind, List.cons_append, List.nil_append,
      List.getElem?_cons_zero, List.getElem?_cons_succ, List.getElem?_nil, Option.bind_some,
      Option.bind_none, other, Option.bind_fun_none]

/-- A sequence covers bytes that are there: the last of them has been looked at. -/
theorem covered_le_of_sequence? {b : UInt8} {x : Bytes} {c : CodePoint} {covered : Nat}
    (found : sequence? b x = some (c, covered)) : covered ≤ x.length := by
  unfold sequence? at found
  split at found
  · obtain ⟨_, -, same⟩ := Option.bind_eq_some_iff.mp found
    cases same
    exact Nat.zero_le _
  split at found
  · cases found
  split at found
  · obtain ⟨_, last, found⟩ := Option.bind_eq_some_iff.mp found
    obtain ⟨_, -, found⟩ := Option.bind_eq_some_iff.mp found
    obtain ⟨_, -, same⟩ := Option.bind_eq_some_iff.mp found
    cases same
    exact (List.getElem?_eq_some_iff.mp last).1
  split at found
  · obtain ⟨_, -, found⟩ := Option.bind_eq_some_iff.mp found
    obtain ⟨_, -, found⟩ := Option.bind_eq_some_iff.mp found
    obtain ⟨_, last, found⟩ := Option.bind_eq_some_iff.mp found
    obtain ⟨_, -, found⟩ := Option.bind_eq_some_iff.mp found
    obtain ⟨_, -, same⟩ := Option.bind_eq_some_iff.mp found
    cases same
    exact (List.getElem?_eq_some_iff.mp last).1
  split at found
  · obtain ⟨_, -, found⟩ := Option.bind_eq_some_iff.mp found
    obtain ⟨_, -, found⟩ := Option.bind_eq_some_iff.mp found
    obtain ⟨_, -, found⟩ := Option.bind_eq_some_iff.mp found
    obtain ⟨_, -, found⟩ := Option.bind_eq_some_iff.mp found
    obtain ⟨_, last, found⟩ := Option.bind_eq_some_iff.mp found
    obtain ⟨_, -, found⟩ := Option.bind_eq_some_iff.mp found
    obtain ⟨_, -, same⟩ := Option.bind_eq_some_iff.mp found
    cases same
    exact (List.getElem?_eq_some_iff.mp last).1
  · cases found

/-- An ASCII separator in a stored name. -/
theorem decode_append_ascii {s : UInt8} (ascii : s.toNat < 0x80) (x y : Bytes) :
    decode (x ++ s :: y) = decode x ++ ⟨s.toNat, by omega⟩ :: decode y := by
  have every : ∀ skip, skip ≤ x.length →
      decodeFrom skip (x ++ s :: y) =
        decodeFrom skip x ++ ⟨s.toNat, by omega⟩ :: decode y := by
    induction x with
    | nil =>
      intro skip none'
      obtain rfl := Nat.le_zero.mp none'
      rw [List.nil_append, decodeFrom.eq_def]
      simp only [sequence?_of_ascii ascii]
      rfl
    | cons b x ih =>
      intro skip short
      cases skip with
      | succ skip => exact ih skip (Nat.le_of_succ_le_succ short)
      | zero =>
        rw [List.cons_append, decodeFrom, decodeFrom, sequence?_append_ascii ascii]
        cases found : sequence? b x with
        | none => rw [ih 0 (Nat.zero_le _), List.cons_append]
        | some sequence =>
          dsimp only
          rw [ih _ (covered_le_of_sequence? found), List.cons_append]
  exact every 0 (Nat.zero_le _)

/-- The solidus in a stored name. -/
theorem decode_append_solidus (x y : Bytes) :
    decode (x ++ 0x2F :: y) = decode x ++ CodePoint.solidus :: decode y :=
  decode_append_ascii (by decide) x y

end Text

namespace Path

/-- What may stand between the separators of a path as an element of its own. -/
structure Plain (name : Text) : Prop where
  nonempty : name ≠ []
  uncut : ∀ c ∈ name, isSeparator c = false
  notHere : name ≠ [CodePoint.fullStop]
  notUp : name ≠ [CodePoint.fullStop, CodePoint.fullStop]

private theorem plain_of_mem_visit {trail : List Text} {piece : Text}
    (uncut : ∀ c ∈ piece, isSeparator c = false) (plain : ∀ element ∈ trail, Plain element) :
    ∀ element ∈ visit trail piece, Plain element := by
  intro element member
  unfold visit at member
  split at member
  · exact plain element member
  · next here =>
    split at member
    · exact plain element (List.mem_of_mem_tail member)
    · next up =>
      rcases List.mem_cons.mp member with rfl | member
      · exact ⟨fun empty => here (.inl empty), uncut, fun stop => here (.inr stop), up⟩
      · exact plain element member

/-- The elements of a path are plain. -/
theorem plain_of_mem_elements {t element : Text} (member : element ∈ (ofText t).elements) :
    Plain element := by
  have every : ∀ (pieces : List Text) (trail : List Text),
      (∀ piece ∈ pieces, ∀ c ∈ piece, isSeparator c = false) →
      (∀ element ∈ trail, Plain element) →
      ∀ element ∈ pieces.foldl visit trail, Plain element := by
    intro pieces
    induction pieces with
    | nil => exact fun _ _ plain => plain
    | cons piece pieces ih =>
      intro trail uncut plain
      exact ih _ (fun other member => uncut other (List.mem_cons_of_mem piece member))
        (plain_of_mem_visit (uncut piece List.mem_cons_self) plain)
  refine every _ [] (fun piece member => Text.uncut_of_mem_split member) ?_ element
    (List.mem_reverse.mp member)
  intro element never
  cases never

@[simp] theorem visit_of_plain {trail : List Text} {name : Text} (plain : Plain name) :
    visit trail name = name :: trail := by
  rw [visit, if_neg, if_neg plain.notUp]
  rintro (empty | here)
  · exact plain.nonempty empty
  · exact plain.notHere here

/-- The path of a name is the name. -/
theorem elements_ofText_name {name : Text} (plain : Plain name) :
    (ofText name).elements = [name] := by
  unfold ofText
  dsimp only
  rw [Text.split_of_uncut plain.uncut, List.foldl_cons, visit_of_plain plain]
  rfl

/-- A name behind a path leads to a child. -/
theorem elements_ofText_below (path : Text) {name : Text} (plain : Plain name) :
    (ofText (path ++ CodePoint.solidus :: name)).elements = (ofText path).elements ++ [name] := by
  unfold ofText
  dsimp only
  rw [Text.split_append_break rfl, Text.split_of_uncut plain.uncut, List.foldl_append,
    List.foldl_cons, visit_of_plain plain, List.foldl_nil, List.reverse_cons]

end Path

end Catwalk
