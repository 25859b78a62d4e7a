import Catwalk.Text.Encoding

/-!
# Bytes

Buffers are lists of bytes. `Bytes.overwrite` never changes a buffer's length: what does not fit is
dropped. Words are stored with their least significant byte first.
-/

namespace Catwalk

/-- A 32-bit word. -/
abbrev Word := Fin 0x100000000

namespace Word

instance neZero : @NeZero Nat Zero.ofOfNat0 0x100000000 := ⟨by decide⟩

/-- An integer modulo the size of a word. -/
def ofInt (n : Int) : Word := ⟨(n % 0x100000000).toNat, by omega⟩

/-- The four bytes of a word. -/
def bytes (w : Word) : Bytes :=
  [UInt8.ofNat (w.val % 0x100), UInt8.ofNat (w.val / 0x100 % 0x100),
    UInt8.ofNat (w.val / 0x10000 % 0x100), UInt8.ofNat (w.val / 0x1000000)]

/-- The word of four bytes. -/
def ofBytes (a b c d : UInt8) : Word :=
  ⟨a.toNat + 0x100 * b.toNat + 0x10000 * c.toNat + 0x1000000 * d.toNat, by
    have := a.toNat_lt; have := b.toNat_lt; have := c.toNat_lt; have := d.toNat_lt; omega⟩

@[simp] theorem length_bytes (w : Word) : w.bytes.length = 4 := rfl

theorem ofInt_val (w : Word) : ofInt w.val = w := by
  apply Fin.ext
  simp only [ofInt]
  omega

theorem bytes_ofBytes (a b c d : UInt8) : (ofBytes a b c d).bytes = [a, b, c, d] := by
  have ha := a.toNat_lt
  have hb := b.toNat_lt
  have hc := c.toNat_lt
  have hd := d.toNat_lt
  have low : (ofBytes a b c d).val % 0x100 = a.toNat := by simp only [ofBytes]; omega
  have second : (ofBytes a b c d).val / 0x100 % 0x100 = b.toNat := by simp only [ofBytes]; omega
  have third : (ofBytes a b c d).val / 0x10000 % 0x100 = c.toNat := by simp only [ofBytes]; omega
  have high : (ofBytes a b c d).val / 0x1000000 = d.toNat := by simp only [ofBytes]; omega
  simp only [bytes, low, second, third, high, UInt8.ofNat_toNat]

end Word

namespace Bytes

/-- A run of zero bytes. -/
def zeros (n : Nat) : Bytes := List.replicate n 0

/-- The buffer with `data` written over what stands from `offset` on, as far as it has room. -/
def overwrite (buffer : Bytes) (offset : Nat) (data : Bytes) : Bytes :=
  buffer.take offset ++ data.take (buffer.length - offset) ++ buffer.drop (offset + data.length)

/-- The bytes from `start` on, `length` of them as far as they go. -/
def slice (buffer : Bytes) (start length : Nat) : Bytes := (buffer.drop start).take length

@[simp] theorem length_overwrite (buffer : Bytes) (offset : Nat) (data : Bytes) :
    (overwrite buffer offset data).length = buffer.length := by
  simp only [overwrite, List.length_append, List.length_take, List.length_drop]
  omega

/-- Nothing changes before the offset. -/
theorem take_overwrite (buffer : Bytes) (offset : Nat) (data : Bytes) :
    (overwrite buffer offset data).take offset = buffer.take offset := by
  by_cases inside : offset ≤ buffer.length
  · have cut : (buffer.take offset).length = offset := by simp [inside]
    rw [overwrite, List.append_assoc, List.take_append_of_le_length (by omega), List.take_take]
    simp
  · have beyond : buffer.length ≤ offset := by omega
    simp [overwrite, List.take_of_length_le beyond, Nat.sub_eq_zero_of_le beyond,
      List.drop_eq_nil_of_le (show buffer.length ≤ offset + data.length by omega)]

/-- Data that fits stands where it was written. -/
theorem slice_overwrite {buffer : Bytes} {offset : Nat} {data : Bytes}
    (fits : offset + data.length ≤ buffer.length) :
    slice (overwrite buffer offset data) offset data.length = data := by
  have cut : (buffer.take offset).length = offset := by
    simp only [List.length_take]
    omega
  have whole : data.take (buffer.length - offset) = data := List.take_of_length_le (by omega)
  rw [slice, overwrite, whole, List.append_assoc, List.drop_append_of_le_length (by omega),
    List.drop_eq_nil_of_le (by omega), List.nil_append, List.take_append_of_le_length (by omega),
    List.take_length]

end Bytes

end Catwalk
