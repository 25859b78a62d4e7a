/-!
# Text

Names, paths and messages are sequences of code points. A name read from a foreign directory may
hold lone surrogates, which `String` cannot represent, and every length that is not a count of
bytes counts code points; so text is a list of code points, surrogates included.
-/

namespace Catwalk

/-- A code point, surrogates included. -/
abbrev CodePoint := Fin 0x110000

/-- A sequence of code points. -/
abbrev Text := List CodePoint

namespace CodePoint

instance neZero : @NeZero Nat Zero.ofOfNat0 0x110000 := ⟨by decide⟩

/-- The code point of a character. -/
def ofChar (c : Char) : CodePoint :=
  ⟨c.toNat, by
    have := c.valid
    simp only [UInt32.isValidChar, Nat.isValidChar] at this
    simp only [Char.toNat]
    omega⟩

/-- The character of a code point, unless it is a surrogate. -/
def toChar? (c : CodePoint) : Option Char :=
  if h : c.val.isValidChar then some (Char.ofNatAux c.val h) else none

/-- The solidus, which separates the elements of host paths. -/
def solidus : CodePoint := 0x2F

/-- The reverse solidus, which host paths admit in place of the solidus. -/
def reverseSolidus : CodePoint := 0x5C

/-- The full stop. -/
def fullStop : CodePoint := 0x2E

end CodePoint

namespace Text

/-- The code points of a string. -/
def ofString (s : String) : Text := s.toList.map CodePoint.ofChar

instance : Coe String Text := ⟨ofString⟩

/-- The text as a string, unless it holds a surrogate. -/
def toString? (t : Text) : Option String := (t.mapM CodePoint.toChar?).map String.ofList

/-- The decimal digits of a number. -/
def ofNat (n : Nat) : Text := ofString (toString n)

/-- The decimal digits of an integer, after a minus sign if it is negative. -/
def ofInt (n : Int) : Text := ofString (toString n)

/-- Hexadecimal digits in lower case, at least `width` of them. -/
def ofHex (width n : Nat) : Text :=
  let digits := Nat.toDigits 16 n
  (List.replicate (width - digits.length) '0' ++ digits).map CodePoint.ofChar

/-- Cuts text at every code point that satisfies `isBreak`. There is always a piece before the
first break and one after the last, either of which may be empty. -/
def split (isBreak : CodePoint → Bool) : Text → List Text
  | [] => [[]]
  | c :: rest =>
    if isBreak c then [] :: split isBreak rest
    else
      match split isBreak rest with
      | [] => [[c]]
      | piece :: pieces => (c :: piece) :: pieces

/-- Where `needle` occurs for the last time. -/
def lastOccurrence? (needle : Text) : Text → Option Nat
  | [] => if needle = [] then some 0 else none
  | c :: rest =>
    match lastOccurrence? needle rest with
    | some i => some (i + 1)
    | none => if needle.isPrefixOf (c :: rest) then some 0 else none

end Text

end Catwalk
