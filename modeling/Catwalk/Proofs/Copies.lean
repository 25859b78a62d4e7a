import Catwalk.Walk.Show

/-!
# Copies of names

A caller that wants a name brings a buffer, and may say how much of it the copy may use. The copy is
refused exactly if there is less. Any other tells how long the whole name is, whatever the buffer;
it writes as much of the name as there is room for and a zero byte behind that, and leaves all other
bytes alone (`Walk.copyName_copies`). So the length that one call tells is what the next has to
make room for.
-/

namespace Catwalk

variable {buffer : Option Bytes} {size : Option Int}

/-- The number of bytes that a copy may use: all that the buffer has, unless the call says. -/
def givenSize (buffer : Option Bytes) (size : Option Int) : Int :=
  size.getD (buffer.elim 0 fun bytes => bytes.length)

/-- A copy may use bytes, but not all of them are there. -/
def Lacks (buffer : Option Bytes) (size : Int) : Prop :=
  0 < size ∧ ∀ bytes, buffer = some bytes → bytes.length < size

/-- How much of a name a copy takes that may use so many bytes. -/
def copiedLength (name : Bytes) (size : Int) : Nat := min name.length (size - 1).toNat

/-- A buffer before and after a copy that may use so many bytes of it. -/
structure Copied (name : Bytes) (size : Int) (before after : Bytes) : Prop where
  length : after.length = before.length
  front : 0 < size → after.take (copiedLength name size) = name.take (copiedLength name size)
  zero : 0 < size → after[copiedLength name size]? = some 0
  others : ∀ i, 0 < size → copiedLength name size < i → after[i]? = before[i]?
  untouched : size ≤ 0 → after = before

private theorem copyRoom_of_lacks (lacks : Lacks buffer (givenSize buffer size)) :
    copyRoom buffer size = .error (.smallBuffer (givenSize buffer size)) := by
  obtain ⟨positive, short⟩ := lacks
  cases buffer with
  | none => exact if_pos ⟨positive, .inl rfl⟩
  | some bytes => exact if_pos ⟨positive, .inr (short bytes rfl)⟩

private theorem copyRoom_of_not_lacks (enough : ¬Lacks buffer (givenSize buffer size)) :
    copyRoom buffer size = .ok (givenSize buffer size).toNat := by
  cases buffer with
  | none =>
    refine if_neg fun refused => enough ⟨refused.1, ?_⟩
    simp
  | some bytes =>
    refine if_neg fun refused => enough ⟨refused.1, ?_⟩
    rintro _ ⟨rfl⟩
    exact refused.2.resolve_left (by simp)

private theorem length_take_copiedLength (name : Bytes) (size : Int) :
    (name.take (copiedLength name size)).length = copiedLength name size := by
  rw [List.length_take]
  exact Nat.min_eq_left (Nat.min_le_left _ _)

/-- A copy starts with as much of the name as leaves room for the zero byte behind it. -/
private theorem copyInto_eq {room : Nat} {before : Bytes} (positive : 0 < room)
    (fits : room ≤ before.length) (name : Bytes) : copyInto before room name =
      name.take (copiedLength name room) ++ 0 :: before.drop (copiedLength name room + 1) := by
  have same : (room - 1 : Int).toNat = room - 1 := by omega
  have taken : name.take (room - 1) = name.take (copiedLength name room) := by
    rw [copiedLength, same, List.take_eq_take_min, Nat.min_comm]
  have length := length_take_copiedLength name room
  have short : copiedLength name room < room := by
    rw [copiedLength, same]
    omega
  have written : (name.take (copiedLength name room) ++ [0]).take before.length =
      name.take (copiedLength name room) ++ [0] := by
    refine List.take_of_length_le ?_
    rw [List.length_append, length, List.length_singleton]
    omega
  rw [copyInto, if_neg (by omega), taken, Bytes.overwrite, Nat.sub_zero, written, List.take_zero,
    List.nil_append, List.length_append, length, List.length_singleton, Nat.zero_add,
    List.append_assoc, List.singleton_append]

private theorem copied_copyInto {before : Bytes} {size : Int} (enough : size ≤ before.length)
    (name : Bytes) : Copied name size before (copyInto before size.toNat name) := by
  by_cases positive : 0 < size
  · have whole : (size.toNat : Int) = size := by omega
    have written : copyInto before size.toNat name = _ := copyInto_eq (by omega) (by omega) name
    rw [whole] at written
    have length := length_take_copiedLength name size
    refine ⟨?_, fun _ => ?_, fun _ => ?_, fun i _ behind => ?_, fun none' => ?_⟩
    · unfold copyInto
      split
      · rfl
      · exact Bytes.length_overwrite _ _ _
    · rw [written, List.take_left' length]
    · rw [written, List.getElem?_append_right (Nat.le_of_eq length), length, Nat.sub_self]
      rfl
    · obtain ⟨k, rfl⟩ := Nat.exists_eq_add_of_lt behind
      rw [written, List.getElem?_append_right (by rw [length]; omega), length,
        show copiedLength name size + k + 1 - copiedLength name size = k + 1 by omega,
        List.getElem?_cons_succ, List.getElem?_drop]
      congr 1
      omega
    · omega
  · have none' : copyInto before size.toNat name = before := if_pos (by omega)
    rw [none']
    exact ⟨rfl, fun large => absurd large positive, fun large => absurd large positive,
      fun _ large => absurd large positive, fun _ => rfl⟩

namespace Walk

variable {walk : Walk} {kind : NameKind} {stored : Bytes}

private theorem copyName_of_lacks (walk : Walk) (kind : NameKind)
    (lacks : Lacks buffer (givenSize buffer size)) :
    walk.copyName kind buffer size = .error (.smallBuffer (givenSize buffer size)) := by
  rw [copyName, copyRoom_of_lacks lacks]
  rfl

private theorem copyName_of_not_lacks (named : walk.storedName kind = .ok stored)
    (enough : ¬Lacks buffer (givenSize buffer size)) :
    walk.copyName kind buffer size = .ok (stored.length,
      buffer.map fun bytes => copyInto bytes (givenSize buffer size).toNat stored) := by
  rw [copyName, copyRoom_of_not_lacks enough, named]
  rfl

/-- With room for the length that any call has told, and one byte more, the whole name is
delivered. -/
private theorem copyName_whole (named : walk.storedName kind = .ok stored) {bytes : Bytes}
    (room : stored.length < bytes.length) :
    walk.copyName kind (some bytes) (some (stored.length + 1)) =
      .ok (stored.length, some (stored ++ 0 :: bytes.drop (stored.length + 1))) := by
  have enough : ¬Lacks (some bytes) (givenSize (some bytes) (some (stored.length + 1))) := by
    rintro ⟨-, short⟩
    have := short bytes rfl
    simp only [givenSize, Option.getD_some] at this
    omega
  have all : copiedLength stored (stored.length + 1 : Nat) = stored.length := by
    unfold copiedLength
    omega
  have copy := copyInto_eq (Nat.zero_lt_succ stored.length) room stored
  rw [all, List.take_length] at copy
  rw [copyName_of_not_lacks named enough, Option.map_some, ← copy]
  rfl

/-- A copy of a name is refused, as a bad value, exactly if it may use bytes that are not there. Any
other tells the length of the whole name, and copies what there is room for. -/
theorem copyName_copies (walk : Walk) (kind : NameKind) (stored : Bytes)
    (named : walk.storedName kind = .ok stored) (buffer : Option Bytes) (size : Option Int) :
    ((∃ fault, walk.copyName kind buffer size = .error fault ∧ fault.kind = .value) ↔
      Lacks buffer (givenSize buffer size)) ∧
    (¬Lacks buffer (givenSize buffer size) →
      ∃ after, walk.copyName kind buffer size = .ok (stored.length, after) ∧
        Option.Rel (Copied stored (givenSize buffer size)) buffer after) ∧
    ∀ length left, walk.copyName kind buffer size = .ok (length, left) →
      ∀ bytes : Bytes, length < bytes.length →
        walk.copyName kind (some bytes) (some (length + 1)) =
          .ok (length, some (stored ++ 0 :: bytes.drop (length + 1))) := by
  refine ⟨⟨?_, ?_⟩, ?_, ?_⟩
  · rintro ⟨fault, refused, -⟩
    refine Classical.not_not.mp fun enough => ?_
    rw [copyName_of_not_lacks named enough] at refused
    cases refused
  · intro lacks
    exact ⟨_, copyName_of_lacks walk kind lacks, rfl⟩
  · intro enough
    refine ⟨_, copyName_of_not_lacks named enough, ?_⟩
    cases buffer with
    | none => exact .none
    | some bytes =>
      refine .some (copied_copyInto (Int.not_lt.mp fun short => enough ⟨by omega, ?_⟩) stored)
      rintro _ ⟨rfl⟩
      exact short
  · intro length left told bytes room
    obtain rfl : length = stored.length := by
      by_cases lacks : Lacks buffer (givenSize buffer size)
      · rw [copyName_of_lacks walk kind lacks] at told
        cases told
      · rw [copyName_of_not_lacks named lacks] at told
        cases told
        rfl
    exact copyName_whole named room

/-- A walk that holds on to an object with a name of six bytes and four code points. -/
theorem copyName_copies_of_held :
    let walk : Walk :=
      { settings := ⟨true, false, some [0x66], 24, 1, [0x2F]⟩
        path := ⟨[0x2F], [], 64⟩
        rootLength := 1
        levels := []
        held := some ⟨[0x2F, 0xE9], [0xC3, 0xA9], ⟨0, 0, 0, 0, 1⟩⟩
        closed := false }
    let stored : Bytes := [0x2F, 0xC3, 0xA9, 0x2F, 0xC3, 0xA9]
    let buffer : Bytes := List.replicate 8 0xEE
    walk.storedName .path = .ok stored ∧
      (∃ fault, walk.copyName .path (some buffer) (some 9) = .error fault ∧ fault.kind = .value) ∧
      walk.copyName .path (some buffer) (some 6) =
        .ok (6, some [0x2F, 0xC3, 0xA9, 0x2F, 0xC3, 0, 0xEE, 0xEE]) ∧
      (∃ after, walk.copyName .path (some buffer) (some 6) = .ok (6, after) ∧
        Option.Rel (Copied stored 6) (some buffer) after) ∧
      walk.copyName .path none none = .ok (6, none) ∧
      walk.copyName .path (some buffer) (some 7) = .ok (6, some (stored ++ [0, 0xEE])) := by
  intro walk stored buffer
  have named : walk.storedName .path = .ok stored := rfl
  have asked : walk.copyName .path none none = .ok (6, none) := rfl
  refine ⟨named, ?_, rfl, ?_, asked, ?_⟩
  · refine (copyName_copies walk .path stored named (some buffer) (some 9)).1.mpr ⟨by decide, ?_⟩
    rintro _ ⟨rfl⟩
    decide
  · refine (copyName_copies walk .path stored named (some buffer) (some 6)).2.1 fun lacks => ?_
    exact absurd (lacks.2 buffer rfl) (by decide)
  · exact (copyName_copies walk .path stored named none none).2.2 6 none asked buffer (by decide)

end Walk

end Catwalk
