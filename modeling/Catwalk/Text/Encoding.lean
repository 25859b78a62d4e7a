import Catwalk.Text.Basic

/-!
# Encoded names

Names are stored as UTF-8. A byte that belongs to no well-formed sequence decodes to the surrogate
U+DC00 plus the byte, and such a surrogate encodes to that byte again, so `decode` is total and
loses nothing. `encode?` refuses every other surrogate.
-/

namespace Catwalk

/-- A sequence of bytes. -/
abbrev Bytes := List UInt8

namespace Text

/-- The payload of a continuation byte. -/
def continuation? (b : UInt8) : Option Nat :=
  if 0x80 ≤ b.toNat ∧ b.toNat < 0xC0 then some (b.toNat - 0x80) else none

/-- The code point of a payload that needs at least `least` to be in shortest form. -/
def scalar? (least n : Nat) : Option CodePoint :=
  if h : least ≤ n ∧ n < 0x110000 ∧ ¬(0xD800 ≤ n ∧ n < 0xE000) then some ⟨n, h.2.1⟩ else none

/-- The code point of the well-formed sequence that starts with `b`, and the number of its
continuation bytes in `rest`. -/
def sequence? (b : UInt8) (rest : Bytes) : Option (CodePoint × Nat) := do
  if b.toNat < 0x80 then
    return (← scalar? 0 b.toNat, 0)
  else if b.toNat < 0xC0 then
    none
  else if b.toNat < 0xE0 then
    let p ← continuation? (← rest[0]?)
    return (← scalar? 0x80 ((b.toNat - 0xC0) * 0x40 + p), 1)
  else if b.toNat < 0xF0 then
    let p ← continuation? (← rest[0]?)
    let q ← continuation? (← rest[1]?)
    return (← scalar? 0x800 (((b.toNat - 0xE0) * 0x40 + p) * 0x40 + q), 2)
  else if b.toNat < 0xF8 then
    let p ← continuation? (← rest[0]?)
    let q ← continuation? (← rest[1]?)
    let r ← continuation? (← rest[2]?)
    return (← scalar? 0x10000 ((((b.toNat - 0xF0) * 0x40 + p) * 0x40 + q) * 0x40 + r), 3)
  else
    none

/-- The surrogate that stands for a byte outside every well-formed sequence. -/
def escape (b : UInt8) : CodePoint :=
  ⟨0xDC00 + b.toNat, by have := b.toNat_lt; omega⟩

/-- Decodes bytes after passing over the first `skip` of them, which an earlier sequence covers. -/
def decodeFrom : Nat → Bytes → Text
  | _, [] => []
  | skip + 1, _ :: rest => decodeFrom skip rest
  | 0, b :: rest =>
    match sequence? b rest with
    | some (c, covered) => c :: decodeFrom covered rest
    | none => escape b :: decodeFrom 0 rest

/-- The text of a stored name. -/
def decode (bytes : Bytes) : Text := decodeFrom 0 bytes

/-- The bytes of one code point: its escaped byte for U+DC80 to U+DCFF, none for any other
surrogate, UTF-8 for the rest. -/
def encodeOne? (c : CodePoint) : Option Bytes :=
  let n := c.val
  if n < 0x80 then
    some [UInt8.ofNat n]
  else if n < 0x800 then
    some [UInt8.ofNat (0xC0 + n / 0x40), UInt8.ofNat (0x80 + n % 0x40)]
  else if 0xD800 ≤ n ∧ n < 0xE000 then
    if 0xDC80 ≤ n ∧ n < 0xDD00 then some [UInt8.ofNat (n - 0xDC00)] else none
  else if n < 0x10000 then
    some [UInt8.ofNat (0xE0 + n / 0x1000), UInt8.ofNat (0x80 + n / 0x40 % 0x40),
      UInt8.ofNat (0x80 + n % 0x40)]
  else
    some [UInt8.ofNat (0xF0 + n / 0x40000), UInt8.ofNat (0x80 + n / 0x1000 % 0x40),
      UInt8.ofNat (0x80 + n / 0x40 % 0x40), UInt8.ofNat (0x80 + n % 0x40)]

/-- The bytes of a name, unless it holds a surrogate that stands for no byte. -/
def encode? : Text → Option Bytes
  | [] => some []
  | c :: rest => do return (← encodeOne? c) ++ (← encode? rest)

end Text

end Catwalk
