import Catwalk.Proofs.Names

/-!
# Names read back

Decoding loses nothing: whatever the bytes, the text that they decode to encodes to them again
(`encode?_decode`). A sequence that is well formed encodes to its own bytes, and a byte outside
every such sequence is escaped, which takes it past ASCII to a surrogate that stands for it. Nor is
anything lost when decoded names are put together with an ASCII separator, since decoding starts
anew behind it (`decode_loses_nothing`).
-/

namespace Catwalk.Text

/-- The payload of a continuation byte is what its first two bits leave. -/
private theorem toNat_of_continuation? {b : UInt8} {payload : Nat}
    (found : continuation? b = some payload) : b.toNat = 0x80 + payload ∧ payload < 0x40 := by
  unfold continuation? at found
  by_cases range : 0x80 ≤ b.toNat ∧ b.toNat < 0xC0
  · rw [if_pos range] at found
    have same := Option.some.inj found
    omega
  · rw [if_neg range] at found
    cases found

/-- A scalar is in shortest form and no surrogate. -/
private theorem val_of_scalar? {least n : Nat} {c : CodePoint} (found : scalar? least n = some c) :
    c.val = n ∧ least ≤ n ∧ n < 0x110000 ∧ ¬(0xD800 ≤ n ∧ n < 0xE000) := by
  unfold scalar? at found
  split at found
  · next bounds =>
    cases found
    exact ⟨rfl, bounds⟩
  · cases found

private theorem ofNat_eq_of_toNat {b : UInt8} {n : Nat} (same : b.toNat = n) :
    UInt8.ofNat n = b := by
  rw [← same, UInt8.ofNat_toNat]

/-- A sequence encodes to the bytes that it was read from. -/
private theorem encodeOne?_of_sequence? {b : UInt8} {rest : Bytes} {c : CodePoint} {covered : Nat}
    (found : sequence? b rest = some (c, covered)) :
    encodeOne? c = some (b :: rest.take covered) := by
  unfold sequence? at found
  -- one case for each number of bytes, by the first of them
  split at found
  · next one =>
    obtain ⟨scalar, is, same⟩ := Option.bind_eq_some_iff.mp found
    cases same
    obtain ⟨value, -⟩ := val_of_scalar? is
    unfold encodeOne?
    simp only [value]
    rw [if_pos one, UInt8.ofNat_toNat, List.take_zero]
  split at found
  · cases found
  split at found
  · obtain ⟨x, second, found⟩ := Option.bind_eq_some_iff.mp found
    obtain ⟨p, payload, found⟩ := Option.bind_eq_some_iff.mp found
    obtain ⟨scalar, is, same⟩ := Option.bind_eq_some_iff.mp found
    cases same
    obtain ⟨value, least, -⟩ := val_of_scalar? is
    obtain ⟨byte, small⟩ := toNat_of_continuation? payload
    have take : rest.take 1 = [x] := by rw [List.take_add_one, List.take_zero, second]; rfl
    generalize number : (b.toNat - 0xC0) * 0x40 + p = n at value least
    unfold encodeOne?
    simp only [value]
    rw [if_neg (by omega), if_pos (by omega), take,
      ofNat_eq_of_toNat (b := b) (by omega), ofNat_eq_of_toNat (b := x) (by omega)]
  split at found
  · obtain ⟨x, second, found⟩ := Option.bind_eq_some_iff.mp found
    obtain ⟨p, payload, found⟩ := Option.bind_eq_some_iff.mp found
    obtain ⟨y, third, found⟩ := Option.bind_eq_some_iff.mp found
    obtain ⟨q, payload', found⟩ := Option.bind_eq_some_iff.mp found
    obtain ⟨scalar, is, same⟩ := Option.bind_eq_some_iff.mp found
    cases same
    obtain ⟨value, least, -, regular⟩ := val_of_scalar? is
    obtain ⟨byte, small⟩ := toNat_of_continuation? payload
    obtain ⟨byte', small'⟩ := toNat_of_continuation? payload'
    have take : rest.take 2 = [x, y] := by
      rw [List.take_add_one, List.take_add_one, List.take_zero, second, third]; rfl
    generalize number : ((b.toNat - 0xE0) * 0x40 + p) * 0x40 + q = n at value least regular
    unfold encodeOne?
    simp only [value]
    rw [if_neg (by omega), if_neg (by omega), if_neg regular, if_pos (by omega), take,
      ofNat_eq_of_toNat (b := b) (by omega), ofNat_eq_of_toNat (b := x) (by omega),
      ofNat_eq_of_toNat (b := y) (by omega)]
  split at found
  · obtain ⟨x, second, found⟩ := Option.bind_eq_some_iff.mp found
    obtain ⟨p, payload, found⟩ := Option.bind_eq_some_iff.mp found
    obtain ⟨y, third, found⟩ := Option.bind_eq_some_iff.mp found
    obtain ⟨q, payload', found⟩ := Option.bind_eq_some_iff.mp found
    obtain ⟨z, fourth, found⟩ := Option.bind_eq_some_iff.mp found
    obtain ⟨r, payload'', found⟩ := Option.bind_eq_some_iff.mp found
    obtain ⟨scalar, is, same⟩ := Option.bind_eq_some_iff.mp found
    cases same
    obtain ⟨value, least, -⟩ := val_of_scalar? is
    obtain ⟨byte, small⟩ := toNat_of_continuation? payload
    obtain ⟨byte', small'⟩ := toNat_of_continuation? payload'
    obtain ⟨byte'', small''⟩ := toNat_of_continuation? payload''
    have take : rest.take 3 = [x, y, z] := by
      rw [List.take_add_one, List.take_add_one, List.take_add_one, List.take_zero, second, third,
        fourth]
      rfl
    generalize number : (((b.toNat - 0xF0) * 0x40 + p) * 0x40 + q) * 0x40 + r = n at value least
    unfold encodeOne?
    simp only [value]
    rw [if_neg (by omega), if_neg (by omega), if_neg (by omega), if_neg (by omega), take,
      ofNat_eq_of_toNat (b := b) (by omega), ofNat_eq_of_toNat (b := x) (by omega),
      ofNat_eq_of_toNat (b := y) (by omega), ofNat_eq_of_toNat (b := z) (by omega)]
  · cases found

/-- A byte outside every sequence encodes to itself once it is escaped. -/
private theorem encodeOne?_escape {b : UInt8} {rest : Bytes} (none' : sequence? b rest = none) :
    encodeOne? (escape b) = some [b] := by
  have high : 0x80 ≤ b.toNat := by
    refine Nat.le_of_not_lt fun ascii => ?_
    rw [sequence?_of_ascii ascii rest] at none'
    cases none'
  have small := b.toNat_lt
  unfold encodeOne? escape
  dsimp only
  rw [if_neg (by omega), if_neg (by omega), if_pos (by omega), if_pos (by omega),
    ofNat_eq_of_toNat (b := b) (by omega)]

/-- Decoding loses nothing. -/
theorem encode?_decode (bytes : Bytes) : encode? (decode bytes) = some bytes := by
  have every : ∀ skip, skip ≤ bytes.length →
      encode? (decodeFrom skip bytes) = some (bytes.drop skip) := by
    induction bytes with
    | nil =>
      intro skip none'
      obtain rfl := Nat.le_zero.mp none'
      rfl
    | cons b bytes ih =>
      intro skip short
      cases skip with
      | succ skip => exact ih skip (Nat.le_of_succ_le_succ short)
      | zero =>
        rw [decodeFrom]
        cases found : sequence? b bytes with
        | none =>
          dsimp only
          rw [encode?, encodeOne?_escape found, ih 0 (Nat.zero_le _)]
          rfl
        | some sequence =>
          obtain ⟨c, covered⟩ := sequence
          dsimp only
          rw [encode?, encodeOne?_of_sequence? found, ih _ (covered_le_of_sequence? found)]
          change some (b :: bytes.take covered ++ bytes.drop covered) = some (b :: bytes)
          rw [List.cons_append, List.take_append_drop]
  exact every 0 (Nat.zero_le _)

/-! ## Separators -/

section
variable {s : UInt8} (ascii : s.toNat < 0x80)

/-- Names that are decoded one by one spell what they spell together. -/
private theorem decode_intercalate (names : List Bytes) :
    decode (List.intercalate [s] names) =
      List.intercalate [⟨s.toNat, Nat.lt_trans ascii (by decide)⟩] (names.map decode) := by
  induction names with
  | nil => rfl
  | cons name names ih =>
    cases names with
    | nil => rw [List.map_singleton, List.intercalate_singleton, List.intercalate_singleton]
    | cons next names =>
      rw [List.intercalate_cons_cons, List.append_assoc, List.singleton_append,
        decode_append_ascii ascii, ih]
      simp only [List.map_cons, List.intercalate_cons_cons, List.append_assoc,
        List.singleton_append]

end

/-- Decoding loses nothing, whatever the bytes, and starts anew at every ASCII byte. So a path of
decoded names is encoded to the stored names, and these are decoded to the path. -/
theorem decode_loses_nothing :
    (∀ bytes, encode? (decode bytes) = some bytes) ∧
    ∀ (s : UInt8) (ascii : s.toNat < 0x80),
      (∀ front back, decode (front ++ s :: back) =
        decode front ++ ⟨s.toNat, Nat.lt_trans ascii (by decide)⟩ :: decode back) ∧
      ∀ names : List Bytes,
        let path := List.intercalate [⟨s.toNat, Nat.lt_trans ascii (by decide)⟩] (names.map decode)
        encode? path = some (List.intercalate [s] names) ∧
          decode (List.intercalate [s] names) = path := by
  refine ⟨encode?_decode, fun s ascii => ⟨decode_append_ascii ascii, fun names => ?_⟩⟩
  intro path
  have whole : decode (List.intercalate [s] names) = path := decode_intercalate ascii names
  exact ⟨whole ▸ encode?_decode _, whole⟩

/-- A sequence that breaks off before a solidus, and behind it an overlong solidus, a surrogate and
a number past the last code point. -/
theorem decode_loses_nothing_ill_formed :
    let front : Bytes := [0x61, 0xE2, 0x82]
    let back : Bytes := [0xC0, 0xAF, 0xED, 0xA0, 0x80, 0xF4, 0x90, 0x80, 0x80]
    let path := List.intercalate [0x2F] [decode front, decode back]
    (0x2F : UInt8).toNat < 0x80 ∧
    decode front = [0x61, 0xDCE2, 0xDC82] ∧
    decode back =
      [0xDCC0, 0xDCAF, 0xDCED, 0xDCA0, 0xDC80, 0xDCF4, 0xDC90, 0xDC80, 0xDC80] ∧
    encode? path = some (front ++ 0x2F :: back) ∧ decode (front ++ 0x2F :: back) = path := by
  intro front back path
  have ascii : (0x2F : UInt8).toNat < 0x80 := by decide
  have both := ((decode_loses_nothing.2 0x2F ascii).2 [front, back])
  exact ⟨ascii, by decide, by decide, both⟩

end Catwalk.Text
