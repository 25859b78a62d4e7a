import Catwalk.Act
import Catwalk.Bytes
import Catwalk.Moment

/-!
# File types and date stamps

An object's load and exec words hold a 12-bit file type and a 40-bit date stamp if the top 12 bits
of the load word are all set, and neither otherwise. A stamp counts centiseconds from the start of
1900 and is modulo its width. Its bytes are the low byte of the load word and then the exec word,
least significant byte first.
-/

namespace Catwalk.Stamp

/-- The type of plain data. -/
def typeData : Nat := 0xFFD

/-- The type of a directory or an image. -/
def typeDirectory : Nat := 0x1000

/-- The type of a directory or an image whose name marks it as an application. -/
def typeApplication : Nat := 0x2000

/-- The type of an object without type and stamp. -/
def typeNone : Nat := 0x3000

/-- Whether a load word carries a type and a stamp. Bits beyond the word do not matter. -/
def isStamped (load : Int) : Bool := load / 0x100000 % 0x1000 = 0xFFF

/-- The file type of an object. -/
def fileType (load : Int) : Nat :=
  if isStamped load then (load / 0x100 % 0x1000).toNat else typeNone

/-- The five stamp bytes of an object, all zero if it has no stamp. -/
def bytes (load exec : Int) : Bytes :=
  if isStamped load then UInt8.ofNat (load % 0x100).toNat :: (Word.ofInt exec).bytes
  else Bytes.zeros 5

/-- The centiseconds from the start of 1900 to a moment, by the whole days between them, the seconds
of the day after these, and the microseconds of the second after those. -/
def elapsed (moment : Moment) : Int :=
  let days := moment / 86400000000
  let seconds := moment % 86400000000 / 1000000
  let microseconds := moment % 1000000
  (days * 86400 + seconds) * 100 + microseconds / 10000

/-- The low 40 bits of the number of centiseconds at a moment. -/
def centiseconds (moment : Moment) : Nat := (elapsed moment % 0x10000000000).toNat

/-- Whether a number is a file type that words can carry. -/
def isFileType (fileType : Int) : Bool := 0 ≤ fileType && fileType ≤ 0xFFF

/-- The load and exec words of a file type and a moment. -/
def encode (fileType : Nat) (moment : Moment) : Word × Word :=
  let stamp := centiseconds moment
  (Word.ofInt (0xFFF00000 + fileType * 0x100 + stamp / 0x100000000 : Nat),
    Word.ofInt (stamp % 0x100000000 : Nat))

/-- The load and exec words of a file type, which is checked, and a moment. -/
def encode? (fileType : Int) (moment : Moment) : Except Fault (Word × Word) :=
  if isFileType fileType then .ok (encode fileType.toNat moment)
  else .error (.badFileType fileType)

/-- A load word that carries a type, with another type. -/
def retype (load : Word) (fileType : Nat) : Word :=
  Word.ofInt (load.val / 0x100000 * 0x100000 + fileType * 0x100 + load.val % 0x100 : Nat)

/-- The moment of five stamp bytes. -/
def moment? : Bytes → Except Fault Moment
  | [high, a, b, c, d] =>
    .ok ((high.toNat * 0x100000000 + (Word.ofBytes a b c d).val : Nat) * 10000)
  | stamp => .error (.badStampLength stamp.length)

end Catwalk.Stamp
