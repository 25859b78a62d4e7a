import Catwalk.Proofs.Records
import Catwalk.Proofs.Stamps
import Mathlib.Data.Nat.Digits.Defs

/-!
# Dates in words

Days are counted as the calendar has them, from the start of 1900 on (`Moment.countsDays`), and
every moment has a date and a time of day (`Moment.ofCivil_civil`). The words that are made of a
file type and a date hold the type and, as the number that the stamp's bytes are, the whole
centiseconds from the start of 1900 on, modulo the width of a stamp; and words that hold a type and
a stamp are made of these again (`Stamp.words_hold`).
-/

namespace Catwalk

namespace Moment

/-! ## The calendar -/

/-- Whether a year has a leap day. -/
def isLeap (year : Int) : Bool := year % 4 = 0 && (year % 100 ≠ 0 || year % 400 = 0)

/-- The last day of a month. -/
def lastDay (year month : Int) : Int :=
  if month = 2 then if isLeap year then 29 else 28
  else if month = 4 ∨ month = 6 ∨ month = 9 ∨ month = 11 then 30
  else 31

/-- A count of days: none at the start of 1900, and one more from each date to the next. -/
structure CountsDays (count : Int → Int → Int → Int) : Prop where
  first : count 1900 1 1 = 0
  nextDay : ∀ year month day, 1 ≤ month ∧ month ≤ 12 → 1 ≤ day ∧ day < lastDay year month →
    count year month (day + 1) = count year month day + 1
  nextMonth : ∀ year month, 1 ≤ month ∧ month < 12 →
    count year (month + 1) 1 = count year month (lastDay year month) + 1
  nextYear : ∀ year, count (year + 1) 1 1 = count year 12 31 + 1

theorem countsDays : CountsDays daysOfDate where
  first := rfl
  nextDay year month day _ _ := by
    simp only [daysOfDate]
    omega
  nextMonth year month inside := by
    have month : month = 1 ∨ month = 2 ∨ month = 3 ∨ month = 4 ∨ month = 5 ∨ month = 6 ∨
        month = 7 ∨ month = 8 ∨ month = 9 ∨ month = 10 ∨ month = 11 := by
      omega
    rcases month with rfl | rfl | rfl | rfl | rfl | rfl | rfl | rfl | rfl | rfl | rfl <;>
      simp [lastDay, daysOfDate, isLeap]
    · omega
    · split <;> omega
    all_goals omega
  nextYear year := by
    simp [daysOfDate]
    omega

/-- The years of an era are 400, and those before the last that has begun leave at most 366 days of
it. -/
private theorem dayOfYear_bounds (dayOfEra : Int) (inside : 0 ≤ dayOfEra ∧ dayOfEra < 146097) :
    let year := (dayOfEra - dayOfEra / 1460 + dayOfEra / 36524 - dayOfEra / 146096) / 365
    let dayOfYear := dayOfEra - (365 * year + year / 4 - year / 100)
    (0 ≤ year ∧ year < 400) ∧ 0 ≤ dayOfYear ∧ dayOfYear ≤ 365 := by
  intro year dayOfYear
  have century : dayOfEra / 36524 = 0 ∨ dayOfEra / 36524 = 1 ∨ dayOfEra / 36524 = 2 ∨
      dayOfEra / 36524 = 3 ∨ dayOfEra = 146096 := by
    omega
  rcases century with first | second | third | fourth | last
  · have : year / 100 = 0 := by omega
    omega
  · have : year / 100 = 1 := by omega
    omega
  · have : year / 100 = 2 := by omega
    omega
  · have : year / 100 = 3 := by omega
    omega
  · subst last
    decide

/-- The days to a date, when years begin in March and months are numbered from 0. -/
private theorem daysOfDate_march (year : Int) {month : Int} (day : Int)
    (inside : 0 ≤ month ∧ month < 12) :
    daysOfDate (if month < 10 then year else year + 1)
        (if month < 10 then month + 3 else month - 9) day =
      365 * year + year / 4 - year / 100 + year / 400 + (153 * month + 2) / 5 + day - 1 -
        daysTo1900 := by
  unfold daysOfDate
  by_cases early : month < 10
  · have late : ¬month + 3 ≤ 2 := by omega
    simp [early, late]
  · have late : month - 9 ≤ 2 := by omega
    simp [early, late]

/-- The date of a day is as many days from the start of 1900 as it should be. -/
private theorem daysOfDate_dateOfDays (days : Int) :
    daysOfDate (dateOfDays days).1 (dateOfDays days).2.1 (dateOfDays days).2.2 = days := by
  have bounds := dayOfYear_bounds ((days + daysTo1900) % 146097) (by omega)
  unfold dateOfDays
  dsimp only at bounds ⊢
  have whole := Int.mul_ediv_add_emod (days + daysTo1900) 146097
  generalize (days + daysTo1900) / 146097 = era at *
  generalize (days + daysTo1900) % 146097 = dayOfEra at *
  generalize (dayOfEra - dayOfEra / 1460 + dayOfEra / 36524 - dayOfEra / 146096) / 365 = year at *
  generalize own : dayOfEra - (365 * year + year / 4 - year / 100) = dayOfYear at *
  have months : 0 ≤ (5 * dayOfYear + 2) / 153 ∧ (5 * dayOfYear + 2) / 153 < 12 := by omega
  generalize (5 * dayOfYear + 2) / 153 = month at *
  have counted := daysOfDate_march (year + era * 400)
    (dayOfYear - (153 * month + 2) / 5 + 1) months
  have fourths : (year + era * 400) / 4 = year / 4 + era * 100 := by omega
  have hundredths : (year + era * 400) / 100 = year / 100 + era * 4 := by omega
  have eras : (year + era * 400) / 400 = era := by omega
  rw [fourths, hundredths, eras] at counted
  by_cases early : month < 10
  · simp only [early, if_true] at counted ⊢
    rw [counted]
    omega
  · simp only [early, if_false] at counted ⊢
    rw [counted]
    omega

/-- Every moment has a date and a time of day. -/
theorem ofCivil_civil (moment : Moment) : ofCivil moment.civil = moment := by
  have days := daysOfDate_dateOfDays (moment / 1000000 / 86400)
  unfold civil ofCivil
  dsimp only
  rw [days]
  change (_ : Int) = _
  omega

end Moment

/-- Microseconds in universal time from the start of 1900 to a date and a time of day. -/
def CivilTime.elapsed (time : CivilTime) : Int :=
  Moment.daysOfDate time.year time.month time.day * 86400000000 + time.hour * 3600000000 +
    (time.minute - time.offset) * 60000000 + time.second * 1000000 + time.microsecond

private theorem Moment.ofCivil_eq (time : CivilTime) : ofCivil time = time.elapsed := by
  unfold ofCivil CivilTime.elapsed
  dsimp only
  change (_ : Int) = _
  omega

namespace Stamp

variable {fileType : Nat} {moment : Moment} {load exec : Word}

/-! ## Words as they are read -/

/-- The number that a stamp's bytes are: the first has the highest weight, and the others follow
from the lowest on. -/
def number : Bytes → Nat
  | [] => 0
  | high :: others =>
    high.toNat * 0x100 ^ others.length + Nat.ofDigits 0x100 (others.map UInt8.toNat)

/-- Whether the top 12 bits of a load word are all set. -/
def Marked (load : Word) : Prop := ∀ bit, 20 ≤ bit → bit < 32 → load.val.testBit bit = true

private theorem isStamped_iff (load : Word) : isStamped load.val = true ↔ Marked load := by
  have top : isStamped load.val = true ↔ load.val / 2 ^ 20 = 2 ^ 12 - 1 := by
    have := load.isLt
    simp only [isStamped, decide_eq_true_eq]
    omega
  have bits : ∀ bit, (load.val / 2 ^ 20).testBit bit = load.val.testBit (bit + 20) :=
    fun bit => Nat.testBit_div_two_pow _ bit
  rw [top]
  constructor
  · intro all bit low high
    have here := bits (bit - 20)
    rw [Nat.sub_add_cancel low, all, Nat.testBit_two_pow_sub_one] at here
    rw [← here, decide_eq_true_eq]
    omega
  · intro marked
    refine Nat.eq_of_testBit_eq fun bit => ?_
    rw [bits, Nat.testBit_two_pow_sub_one]
    by_cases inside : bit < 12
    · rw [marked (bit + 20) (by omega) (by omega), decide_eq_true inside]
    · have beyond : load.val < 2 ^ (bit + 20) :=
        Nat.lt_of_lt_of_le load.isLt (Nat.pow_le_pow_right Nat.two_pos (by omega : 32 ≤ bit + 20))
      rw [Nat.testBit_lt_two_pow beyond, decide_eq_false inside]

private theorem number_cons_bytes (high : UInt8) (word : Word) :
    number (high :: word.bytes) = high.toNat * 0x100000000 + word.val := by
  have := word.isLt
  simp [number, Word.bytes, Nat.ofDigits]
  omega

private theorem moment?_cons_bytes (high : UInt8) (word : Word) :
    moment? (high :: word.bytes) =
      .ok ((high.toNat * 0x100000000 + word.val : Nat) * 10000 : Int) := by
  change Except.ok _ = _
  rw [Word.ofBytes_of_bytes rfl]

/-! ## Words as they are made -/

/-- Two words hold a file type and a time, in microseconds from the start of 1900 on. -/
structure Holds (load exec : Word) (fileType : Nat) (elapsed : Int) : Prop where
  marked : (load.val : Int) =
    0xFFF00000 + fileType * 0x100 + elapsed / 10000 % 0x10000000000 / 0x100000000
  rest : (exec.val : Int) = elapsed / 10000 % 0x100000000
  typed : Stamp.fileType load.val = fileType
  long : (bytes load.val exec.val).length = 5
  stamped : (number (bytes load.val exec.val) : Int) = elapsed / 10000 % 0x10000000000
  /-- A time that the stamp has room for is read back, down to a centisecond. -/
  dated : 0 ≤ elapsed → elapsed < 0x10000000000 * 10000 →
    ∃ moment, moment? (bytes load.val exec.val) = .ok moment ∧
      moment.civil.elapsed = elapsed / 10000 * 10000

theorem holds_encode (valid : fileType ≤ 0xFFF) (moment : Moment) :
    Holds (encode fileType moment).1 (encode fileType moment).2 fileType moment := by
  have bound := centiseconds_lt moment
  have stamp : (centiseconds moment : Int) = (moment : Int) / 10000 % 0x10000000000 :=
    centiseconds_eq moment
  have high : (UInt8.ofNat (centiseconds moment / 0x100000000)).toNat =
      centiseconds moment / 0x100000000 :=
    UInt8.toNat_ofNat_of_lt' (Nat.div_lt_of_lt_mul bound)
  have low : (Word.ofInt (centiseconds moment % 0x100000000 : Nat)).val =
      centiseconds moment % 0x100000000 := Word.val_ofInt (Nat.mod_lt _ (by decide))
  have spelt : bytes (encode fileType moment).1.val (encode fileType moment).2.val =
      bytesAt moment := bytes_encode valid
  unfold bytesAt at spelt
  constructor
  · rw [val_encode_load valid]
    omega
  · rw [val_encode_exec]
    omega
  · exact fileType_encode valid
  · rw [spelt, List.length_cons, Word.length_bytes]
  · rw [spelt, number_cons_bytes, high, low]
    omega
  · intro later earlier
    refine ⟨_, by rw [spelt, moment?_cons_bytes], ?_⟩
    rw [← Moment.ofCivil_eq, Moment.ofCivil_civil, high, low]
    omega

/-- Words that hold a type and a stamp are made of these. -/
private theorem encode?_of_isStamped (stamped : isStamped load.val = true) (exec : Word) :
    ∃ moment, moment? (bytes load.val exec.val) = .ok moment ∧
      encode? (Stamp.fileType load.val) moment = .ok (load, exec) := by
  have small : ((load.val : Int) % 0x100).toNat < 0x100 := by omega
  have typed : Stamp.fileType load.val = load.val / 0x100 % 0x1000 := by
    rw [Stamp.fileType, if_pos stamped]
    omega
  have read : moment? (bytes load.val exec.val) =
      .ok ((load.val % 0x100 * 0x100000000 + exec.val : Nat) * 10000 : Int) := by
    have low : ((load.val : Int) % 0x100).toNat = load.val % 0x100 := by omega
    rw [bytes, if_pos stamped, Word.ofInt_val, moment?_cons_bytes,
      UInt8.toNat_ofNat_of_lt' small, low]
  refine ⟨_, read, ?_⟩
  generalize counted : load.val % 0x100 * 0x100000000 + exec.val = stamp
  have whole : centiseconds (stamp * 10000 : Int) = stamp := by
    have := exec.isLt
    have counted := centiseconds_eq (stamp * 10000 : Int)
    omega
  have valid : load.val / 0x100 % 0x1000 ≤ 0xFFF := by omega
  have known : isFileType (load.val / 0x100 % 0x1000 : Nat) = true := by
    simp only [isFileType, Bool.and_eq_true, decide_eq_true_eq]
    omega
  have first : (encode (load.val / 0x100 % 0x1000) (stamp * 10000 : Int)).1 = load := by
    refine Fin.ext ((val_encode_load valid).trans ?_)
    simp only [isStamped, decide_eq_true_eq] at stamped
    have := load.isLt
    omega
  have second : (encode (load.val / 0x100 % 0x1000) (stamp * 10000 : Int)).2 = exec := by
    refine Fin.ext (val_encode_exec.trans ?_)
    omega
  rw [typed, encode?, if_pos known, Int.toNat_natCast]
  exact congrArg Except.ok (Prod.ext first second)

/-- The words of a type and a date hold both, whatever the offset of the date: any moment is that of
a date in universal time. Words with the mark hold a type and a date and are made of them, and words
without it hold no type and a stamp of zeros. -/
theorem words_hold (fileType : Int) (valid : 0 ≤ fileType ∧ fileType ≤ 0xFFF) (time : CivilTime)
    (load exec : Word) :
    Moment.CountsDays Moment.daysOfDate ∧ (∀ moment : Moment, .ofCivil moment.civil = moment) ∧
    (∃ load exec, encode? fileType (.ofCivil time) = .ok (load, exec) ∧
      Holds load exec fileType.toNat time.elapsed) ∧
    (Marked load → ∃ moment, moment? (bytes load.val exec.val) = .ok moment ∧
      encode? (Stamp.fileType load.val) (.ofCivil moment.civil) = .ok (load, exec)) ∧
    (¬Marked load → ∀ exec : Int,
      Stamp.fileType load.val = typeNone ∧ bytes load.val exec = [0, 0, 0, 0, 0]) := by
  refine ⟨Moment.countsDays, Moment.ofCivil_civil, ?_, fun marked => ?_, fun unmarked exec => ?_⟩
  · have known : isFileType fileType = true := by
      simp only [isFileType, Bool.and_eq_true, decide_eq_true_eq]
      exact valid
    refine ⟨_, _, by rw [encode?, if_pos known], ?_⟩
    rw [← Moment.ofCivil_eq]
    exact holds_encode (by omega) _
  · obtain ⟨moment, read, made⟩ := encode?_of_isStamped ((isStamped_iff load).mpr marked) exec
    exact ⟨moment, read, by rw [Moment.ofCivil_civil, made]⟩
  · rw [← isStamped_iff] at unmarked
    simp [Stamp.fileType, bytes, unmarked, Bytes.zeros, List.replicate]

/-- A microsecond before 1900 all bits of the stamp are set. -/
theorem words_hold_before_1900 :
    let time : CivilTime := ⟨1899, 12, 31, 23, 59, 59, 999999, 0⟩
    (0 ≤ (0xFFB : Int) ∧ (0xFFB : Int) ≤ 0xFFF) ∧ Marked 0xFFFFFBFF ∧
      Holds 0xFFFFFBFF 0xFFFFFFFF 0xFFB time.elapsed ∧
      ∃ moment, moment? (bytes 0xFFFFFBFF 0xFFFFFFFF) = .ok moment ∧
        encode? (Stamp.fileType 0xFFFFFBFF) (.ofCivil moment.civil) =
          .ok (0xFFFFFBFF, 0xFFFFFFFF) := by
  intro time
  have valid : 0 ≤ (0xFFB : Int) ∧ (0xFFB : Int) ≤ 0xFFF := by decide
  have marked : Marked 0xFFFFFBFF := (isStamped_iff _).mp (by decide)
  obtain ⟨-, -, ⟨load, exec, made, holds⟩, reads, -⟩ :=
    words_hold 0xFFB valid time 0xFFFFFBFF 0xFFFFFFFF
  have words : encode? 0xFFB (.ofCivil time) = .ok (0xFFFFFBFF, 0xFFFFFFFF) := by decide
  obtain ⟨rfl, rfl⟩ : 0xFFFFFBFF = load ∧ 0xFFFFFFFF = exec := by simpa [words] using made
  exact ⟨valid, marked, holds, reads marked⟩

end Stamp

end Catwalk
