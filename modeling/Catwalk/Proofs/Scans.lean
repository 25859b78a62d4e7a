import Catwalk.Proofs.Dates
import Catwalk.Proofs.Lengths
import Mathlib.Tactic.IntervalCases

/-!
# Foreign catalogues

The catalogue of a foreign directory has one entry for each item that is still there, in the order
of the listing (`Item.catalogue_lists`). A name ends in a type if its last four characters are a
comma and three digits of base sixteen (`Item.Typed`). A name that ends in a line feed ends in no
type, but the type in front of the line feed counts (`Item.type_before_line_feed`).
-/

namespace Catwalk

/-- If each member comes to something, so do all, in order. -/
private theorem exists_mapM_of_forall {α β : Type} {f : α → Except Fault β} {related : α → β → Prop}
    {items : List α} (each : ∀ item ∈ items, ∃ result, f item = .ok result ∧ related item result) :
    ∃ results, items.mapM f = .ok results ∧ List.Forall₂ related items results := by
  induction items with
  | nil => exact ⟨[], rfl, .nil⟩
  | cons item items ih =>
    obtain ⟨⟨result, made, own⟩, others⟩ := List.forall_mem_cons.mp each
    obtain ⟨results, all, rest⟩ := ih others
    exact ⟨result :: results, by rw [List.mapM_cons, made, all]; rfl, .cons own rest⟩

namespace Item

/-! ## Types in names -/

/-- A digit of base sixteen by its value, in lower or in upper case. -/
def IsDigit (value : Nat) (c : CodePoint) : Prop :=
  value < 16 ∧ (c = .ofChar value.digitChar ∨ c = .ofChar value.digitChar.toUpper)

instance (value : Nat) (c : CodePoint) : Decidable (IsDigit value c) :=
  inferInstanceAs (Decidable (_ ∧ _))

private theorem hexDigit?_eq_some_iff {c : CodePoint} {value : Nat} :
    hexDigit? c = some value ↔ IsDigit value c := by
  constructor
  · intro read
    -- no digit lies beyond `f`, so that a table decides
    have low : c.val < 0x67 := by
      unfold hexDigit? at read
      split_ifs at read <;> omega
    have table : ∀ n < 0x67, ∀ value ∈ hexDigit? (Fin.ofNat _ n),
        IsDigit value (Fin.ofNat _ n) := by
      decide
    rw [← Fin.ofNat_val_eq_self c] at read ⊢
    exact table c.val low value read
  · rintro ⟨small, rfl | rfl⟩ <;> interval_cases value <;> rfl

/-- A name ends in a type: in a comma and the three digits of its number. -/
inductive Typed : Text → Nat → Prop
  | suffix {high middle low : CodePoint} {x y z : Nat} (front : Text) :
      IsDigit x high → IsDigit y middle → IsDigit z low →
      Typed (front ++ [0x2C, high, middle, low]) (x * 0x100 + y * 0x10 + z)

private theorem Typed.le {name : Text} {value : Nat} (typed : Typed name value) :
    value ≤ 0xFFF := by
  obtain ⟨_, ⟨high, -⟩, ⟨middle, -⟩, ⟨low, -⟩⟩ := typed
  omega

/-- The type is read from the name's end. -/
private theorem suffixType?_eq_some_iff {name : Text} {value : Nat} :
    suffixType? name = some value ↔ Typed (withoutLineFeed name) value := by
  unfold suffixType?
  generalize withoutLineFeed name = name
  constructor
  · intro read
    split at read
    · next low middle high comma front spelt =>
      obtain rfl : name = front.reverse ++ [comma, high, middle, low] := by
        simpa using congrArg List.reverse spelt
      by_cases is : comma = 0x2C
      · subst is
        simp only [ne_eq, not_true_eq_false, if_false, bind, Option.bind_eq_some_iff, pure,
          hexDigit?_eq_some_iff, Option.some.injEq] at read
        obtain ⟨x, isHigh, y, isMiddle, z, isLow, rfl⟩ := read
        have weights : (x * 16 + y) * 16 + z = x * 0x100 + y * 0x10 + z := by omega
        exact weights ▸ .suffix front.reverse isHigh isMiddle isLow
      · simp [is] at read
    · cases read
  · rintro ⟨front, high, middle, low⟩
    rw [← hexDigit?_eq_some_iff] at high middle low
    simp [high, middle, low]
    omega

private theorem withoutLineFeed_concat (front : Text) : withoutLineFeed
    (front ++ [0x0A]) = front := by
  simp [withoutLineFeed]

/-- The last of three digits is not a line feed. -/
private theorem Typed.withoutLineFeed {name : Text} {value : Nat} (typed : Typed name value) :
    Item.withoutLineFeed name = name := by
  obtain @⟨high, middle, low, x, y, z, front, -, -, isLow⟩ := typed
  have ended : low ≠ 0x0A := by
    rintro rfl
    cases hexDigit?_eq_some_iff.mpr isLow
  simp [Item.withoutLineFeed, ended]

/-- The number of the type that a name stands for. -/
structure NamesType (name : Text) (fileType : Nat) : Prop where
  typed : ∀ value, Typed name value → fileType = value
  fed : ∀ front value, name = front ++ [0x0A] → Typed front value → fileType = value
  /-- Any other name is that of data. -/
  plain : (∀ value, ¬Typed name value) →
    (∀ front value, name = front ++ [0x0A] → ¬Typed front value) → fileType = 0xFFD

private theorem namesType_suffixType? (name : Text) :
    NamesType name ((suffixType? name).getD Stamp.typeData) := by
  constructor
  · intro value typed
    rw [suffixType?_eq_some_iff.mpr (typed.withoutLineFeed.symm ▸ typed), Option.getD_some]
  · rintro front value rfl typed
    rw [suffixType?_eq_some_iff.mpr (by rwa [withoutLineFeed_concat]), Option.getD_some]
  · intro plain unfed
    cases read : suffixType? name with
    | none => rfl
    | some value =>
      have typed := suffixType?_eq_some_iff.mp read
      by_cases fed : name.getLast? = some 0x0A
      · obtain ⟨front, rfl⟩ := List.getLast?_eq_some_iff.mp fed
        rw [withoutLineFeed_concat] at typed
        exact absurd typed (unfed front value rfl)
      · rw [withoutLineFeed, if_neg fed] at typed
        exact absurd typed (plain value)

private theorem suffixType?_le (name : Text) : (suffixType? name).getD Stamp.typeData ≤ 0xFFF := by
  cases read : suffixType? name with
  | none => decide
  | some value => exact (suffixType?_eq_some_iff.mp read).le

/-! ## Attributes -/

private theorem testBit_weights (a b c d : Bool) (bit : Nat) :
    (a.toNat + 2 * b.toNat + 16 * c.toNat + 32 * d.toNat).testBit bit = true ↔
      bit = 0 ∧ a = true ∨ bit = 1 ∧ b = true ∨ bit = 4 ∧ c = true ∨ bit = 5 ∧ d = true := by
  by_cases low : bit < 6
  · cases a <;> cases b <;> cases c <;> cases d <;> revert bit <;> decide
  · have small : a.toNat + 2 * b.toNat + 16 * c.toNat + 32 * d.toNat < 2 ^ bit := by
      have := Nat.pow_le_pow_right Nat.two_pos (Nat.le_of_not_lt low)
      have := a.toNat_le
      have := b.toNat_le
      have := c.toNat_le
      have := d.toNat_le
      omega
    rw [Nat.testBit_lt_two_pow small]
    simp
    omega

private theorem hasMode_two_pow (mode bit : Nat) : hasMode mode (2 ^ bit) = mode.testBit bit := by
  simp [hasMode, Nat.testBit_eq_decide_div_mod_eq]

/-- Four bits of the mode become attributes. -/
private theorem attributes_eq (mode : Nat) : ∃ bits : Nat, attributes mode = bits ∧
    ∀ bit, bits.testBit bit = true ↔
      bit = 0 ∧ mode.testBit 8 = true ∨ bit = 1 ∧ mode.testBit 7 = true ∨
        bit = 4 ∧ mode.testBit 2 = true ∨ bit = 5 ∧ mode.testBit 1 = true := by
  refine ⟨_, ?_, testBit_weights _ _ _ _⟩
  have modes := hasMode_two_pow mode
  have ownerRead := modes 8
  have ownerWrite := modes 7
  have publicRead := modes 2
  have publicWrite := modes 1
  norm_num at ownerRead ownerWrite publicRead publicWrite
  rw [attributes, ownerRead, ownerWrite, publicRead, publicWrite]
  cases mode.testBit 8 <;> cases mode.testBit 7 <;> cases mode.testBit 2 <;>
    cases mode.testBit 1 <;> rfl

/-! ## Entries -/

/-- A time of the years from 1 to 9999. -/
def Dated (seconds : DecimalNumber) : Prop :=
  Moment.ofCivil { year := 1, month := 1, day := 1 } ≤
      Moment.startOf1970 + Binary64.microseconds seconds ∧
    Moment.startOf1970 + Binary64.microseconds seconds <
      Moment.ofCivil { year := 10000, month := 1, day := 1 }

instance (seconds : DecimalNumber) : Decidable (Dated seconds) :=
  inferInstanceAs (Decidable (_ ∧ _))

/-- What an entry says of its item. -/
structure Listed (item : Item) (entry : Entry) : Prop where
  name : entry.name = item.name
  directory : item.kind = .directory → entry.objectType = ObjectType.directory.code ∧
    entry.length = 0 ∧ Stamp.fileType entry.load = 0xFFD
  file : item.kind ≠ .directory → entry.objectType = ObjectType.file.code ∧
    entry.length = min item.size 0xFFFFFFFF ∧ NamesType item.name (Stamp.fileType entry.load)
  /-- The stamp counts centiseconds, from the start of 1900 on. -/
  stamped : (Stamp.number (Stamp.bytes entry.load entry.exec) : Int) =
    (Moment.startOf1970 + Binary64.microseconds item.changed) / 10000 % 0x10000000000
  attributes : ∃ bits : Nat, entry.attributes = bits ∧
    ∀ bit, bits.testBit bit = true ↔
      bit = 0 ∧ item.mode.testBit 8 = true ∨ bit = 1 ∧ item.mode.testBit 7 = true ∨
        bit = 4 ∧ item.mode.testBit 2 = true ∨ bit = 5 ∧ item.mode.testBit 1 = true

/-- The type in an item's words: a directory's name does not count. -/
def wordedType (item : Item) : Nat :=
  (if item.kind = .directory then none else suffixType? item.name).getD Stamp.typeData

private theorem wordedType_le (item : Item) : item.wordedType ≤ 0xFFF := by
  unfold wordedType
  split
  · decide
  · exact suffixType?_le item.name

private theorem entry_eq {item : Item} (dated : Dated item.changed) :
    let words := Stamp.encode item.wordedType
      (Moment.startOf1970 + Binary64.microseconds item.changed)
    item.entry = .ok {
      name := item.name
      objectType := (if item.kind = .directory then ObjectType.directory else .file).code
      load := words.1.val
      exec := words.2.val
      length := if item.kind = .directory then 0 else min item.size 0xFFFFFFFF
      attributes := attributes item.mode } := by
  have moment : Moment.ofSeconds? item.changed =
      .ok (Moment.startOf1970 + Binary64.microseconds item.changed) := if_pos dated
  rw [entry, moment]
  by_cases directory : item.kind = .directory
  · simp only [directory, if_true, wordedType]
    rfl
  · simp only [directory, if_false, wordedType]
    rfl

private theorem exists_entry {item : Item} (dated : Dated item.changed) :
    ∃ entry, item.entry = .ok entry ∧ Listed item entry := by
  have words := Stamp.holds_encode item.wordedType_le
    (Moment.startOf1970 + Binary64.microseconds item.changed)
  have typed := words.typed
  refine ⟨_, entry_eq dated, rfl, fun directory => ?_, fun other => ?_, words.stamped,
    attributes_eq item.mode⟩
  · rw [typed, wordedType]
    simp [directory, Stamp.typeData]
  · rw [typed, wordedType]
    simp [other, namesType_suffixType?]

/-- Each item that is still there has its entry, in the order in which the directory lists them. -/
theorem catalogue_lists (items : List Item)
    (dated : ∀ item ∈ items, item.gone = false → Dated item.changed) :
    ∃ listing, catalogue items = .ok listing ∧
      List.Forall₂ Listed (items.filter (!·.gone)) listing := by
  refine exists_mapM_of_forall fun item remains => ?_
  obtain ⟨listed, there⟩ := List.mem_filter.mp remains
  exact exists_entry (dated item listed (by simpa using there))

/-- A link `a,fEb` to more than 4 GiB and a directory `b,feb`, with an item between them that is
gone. -/
theorem catalogue_lists_link_and_directory :
    let changed : DecimalNumber := ⟨12345678905, 1⟩
    let items : List Item := [
      ⟨[0x61, 0x2C, 0x66, 0x45, 0x62], .link, 0o777, 0x100000001, changed, false⟩,
      ⟨[0x63], .file, 0, 0, ⟨10 ^ 12, 0⟩, true⟩,
      ⟨[0x62, 0x2C, 0x66, 0x65, 0x62], .directory, 0o750, 4096, changed, false⟩]
    let listing : List Entry := [
      ⟨[0x61, 0x2C, 0x66, 0x45, 0x62], 1, 0xFFFFEB50, 0x2D32843A, 0xFFFFFFFF, 0x33⟩,
      ⟨[0x62, 0x2C, 0x66, 0x65, 0x62], 2, 0xFFFFFD50, 0x2D32843A, 0, 0x3⟩]
    (∀ item ∈ items, item.gone = false → Dated item.changed) ∧ catalogue items = .ok listing ∧
      List.Forall₂ Listed (items.filter (!·.gone)) listing := by
  intro changed items listing
  have dated : ∀ item ∈ items, item.gone = false → Dated item.changed := by decide +kernel
  have made : catalogue items = .ok listing := by decide +kernel
  obtain ⟨other, known, listed⟩ := catalogue_lists items dated
  obtain rfl : listing = other := by simpa [made] using known
  exact ⟨dated, made, listed⟩

/-- The name `a,fff` with a line feed behind it does not end in a type, but is not taken for that of
data. -/
theorem type_before_line_feed :
    let item : Item := ⟨[0x61, 0x2C, 0x66, 0x66, 0x66, 0x0A], .file, 0o644, 1, ⟨0, 0⟩, false⟩
    Dated item.changed ∧ (∀ value, ¬Typed item.name value) ∧
      ∃ entry, catalogue [item] = .ok [entry] ∧ Stamp.fileType entry.load = 0xFFF := by
  intro item
  refine ⟨by decide +kernel, ?_, _, rfl, by decide +kernel⟩
  intro value typed
  have whole := typed.withoutLineFeed
  revert whole
  decide

end Item

end Catwalk
