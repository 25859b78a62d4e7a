import Catwalk.Stamp

/-!
# Types and stamps in words

The words that a type and a moment are put into hold all 12 bits of the type and all 40 bits of the
stamp, and nothing of them wraps. Another type in the load word leaves the stamp as it is.
-/

namespace Catwalk

theorem Word.val_ofInt {n : Nat} (small : n < 0x100000000) : (Word.ofInt n).val = n := by
  simp only [Word.ofInt]
  omega

namespace Stamp

variable {fileType : Nat} {moment : Moment} {load exec : Word}

/-- Days, seconds and microseconds come to the whole centiseconds that have gone by. -/
private theorem elapsed_eq (moment : Moment) : elapsed moment = moment / 10000 := by
  simp only [elapsed]
  omega

theorem centiseconds_eq (moment : Moment) :
    (centiseconds moment : Int) = moment / 10000 % 0x10000000000 := by
  rw [centiseconds, elapsed_eq]
  exact Int.toNat_of_nonneg (Int.emod_nonneg _ (by decide))

theorem centiseconds_lt (moment : Moment) : centiseconds moment < 0x10000000000 := by
  have counted := centiseconds_eq moment
  omega

/-- The load word of a type and a moment: the mark, the type and the stamp's highest byte. -/
theorem val_encode_load (valid : fileType ≤ 0xFFF) : (encode fileType moment).1.val =
    0xFFF00000 + fileType * 0x100 + centiseconds moment / 0x100000000 := by
  have bound := centiseconds_lt moment
  exact Word.val_ofInt (by omega)

/-- The exec word of a moment: the stamp's other bytes. -/
theorem val_encode_exec :
    (encode fileType moment).2.val = centiseconds moment % 0x100000000 :=
  Word.val_ofInt (by omega)

theorem isStamped_encode (valid : fileType ≤ 0xFFF) :
    isStamped (encode fileType moment).1.val = true := by
  have bound := centiseconds_lt moment
  rw [val_encode_load valid]
  simp only [isStamped, decide_eq_true_eq]
  omega

theorem fileType_encode (valid : fileType ≤ 0xFFF) :
    Stamp.fileType (encode fileType moment).1.val = fileType := by
  have bound := centiseconds_lt moment
  simp only [Stamp.fileType, isStamped_encode valid, if_true]
  rw [val_encode_load valid]
  omega

/-- The stamp bytes of a moment: the highest byte, and then the others from the lowest on. -/
def bytesAt (moment : Moment) : Bytes :=
  UInt8.ofNat (centiseconds moment / 0x100000000) ::
    (Word.ofInt (centiseconds moment % 0x100000000 : Nat)).bytes

/-- The stamp is the same whatever the type is. -/
theorem bytes_encode (valid : fileType ≤ 0xFFF) :
    bytes (encode fileType moment).1.val (encode fileType moment).2.val = bytesAt moment := by
  have bound := centiseconds_lt moment
  have high : (((encode fileType moment).1.val : Int) % 0x100).toNat =
      centiseconds moment / 0x100000000 := by
    rw [val_encode_load valid]
    omega
  simp only [bytes, isStamped_encode valid, if_true, high, val_encode_exec, bytesAt]

/-- The load word with another type: the mark and the type are replaced, the low byte stays. -/
private theorem val_retype (stamped : isStamped load.val = true) (valid : fileType ≤ 0xFFF) :
    (retype load fileType).val = 0xFFF00000 + fileType * 0x100 + load.val % 0x100 := by
  simp only [isStamped, decide_eq_true_eq] at stamped
  have top : load.val / 0x100000 = 0xFFF := by
    have := load.isLt
    omega
  have small : load.val / 0x100000 * 0x100000 + fileType * 0x100 + load.val % 0x100 <
      0x100000000 := by
    omega
  rw [retype, Word.val_ofInt small, top]

theorem isStamped_retype (stamped : isStamped load.val = true) (valid : fileType ≤ 0xFFF) :
    isStamped (retype load fileType).val = true := by
  rw [val_retype stamped valid]
  simp only [isStamped, decide_eq_true_eq]
  omega

theorem fileType_retype (stamped : isStamped load.val = true) (valid : fileType ≤ 0xFFF) :
    Stamp.fileType (retype load fileType).val = fileType := by
  simp only [Stamp.fileType, isStamped_retype stamped valid, if_true]
  rw [val_retype stamped valid]
  omega

/-- The words are what a type and a moment come to as whole numbers: the mark, the type and the
stamp's highest byte, and the stamp's other bytes. Nothing of these has wrapped. -/
structure Spells (load exec : Word) (fileType : Nat) (moment : Moment) : Prop where
  valid : fileType ≤ 0xFFF
  load : load.val = 0xFFF00000 + fileType * 0x100 + centiseconds moment / 0x100000000
  exec : exec.val = centiseconds moment % 0x100000000

theorem spells_encode (valid : fileType ≤ 0xFFF) (moment : Moment) :
    Spells (encode fileType moment).1 (encode fileType moment).2 fileType moment :=
  ⟨valid, val_encode_load valid, val_encode_exec⟩

/-- Another type is put in the place of the first, and the stamp stays. -/
theorem Spells.retype {other : Nat} (spells : Spells load exec other moment)
    (stamped : isStamped load.val = true) (valid : fileType ≤ 0xFFF) :
    Spells (retype load fileType) exec fileType moment := by
  have bound := centiseconds_lt moment
  have low : load.val % 0x100 = centiseconds moment / 0x100000000 := by
    rw [spells.load]
    omega
  exact ⟨valid, by rw [val_retype stamped valid, low], spells.exec⟩

theorem bytes_retype (stamped : isStamped load.val = true) (valid : fileType ≤ 0xFFF) :
    bytes (retype load fileType).val exec.val = bytes load.val exec.val := by
  have low : (((retype load fileType).val : Int) % 0x100).toNat =
      ((load.val : Int) % 0x100).toNat := by
    rw [val_retype stamped valid]
    omega
  simp only [bytes, isStamped_retype stamped valid, stamped, if_true, low]

end Stamp

end Catwalk
