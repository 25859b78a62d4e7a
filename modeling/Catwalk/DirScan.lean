import Catwalk.Moment.Binary64
import Catwalk.Record
import Catwalk.Stamp

/-!
# Foreign directories

A foreign directory lists items with a mode, a size and a time of change in seconds. Its catalogue
has an entry for every item that is still there when it is looked at. A directory is listed as such;
anything else is a file, links to directories included. A file's type is the hexadecimal number of
three digits behind a comma at the end of its name; a single line feed may follow it.
-/

namespace Catwalk

/-- What kind of item a foreign directory holds. -/
inductive ItemKind where
  | file
  | directory
  | link
deriving DecidableEq, Repr

/-- An item of a foreign directory. -/
structure Item where
  name : Text
  kind : ItemKind
  mode : Nat
  size : Nat
  changed : DecimalNumber
  /-- Whether the item has been removed since the directory was listed. -/
  gone : Bool
deriving DecidableEq, Repr

namespace Item

/-- The value of a hexadecimal digit. -/
def hexDigit? (c : CodePoint) : Option Nat :=
  if 0x30 ≤ c.val ∧ c.val ≤ 0x39 then some (c.val - 0x30)
  else if 0x41 ≤ c.val ∧ c.val ≤ 0x46 then some (c.val - 0x41 + 10)
  else if 0x61 ≤ c.val ∧ c.val ≤ 0x66 then some (c.val - 0x61 + 10)
  else none

/-- The name without a line feed at its end. -/
def withoutLineFeed (name : Text) : Text :=
  if name.getLast? = some 0x0A then name.dropLast else name

/-- The type in a name's suffix. -/
def suffixType? (name : Text) : Option Nat :=
  match (withoutLineFeed name).reverse with
  | low :: middle :: high :: comma :: _ => do
    if comma ≠ 0x2C then none
    else return ((← hexDigit? high) * 16 + (← hexDigit? middle)) * 16 + (← hexDigit? low)
  | _ => none

/-- Whether a mode has a bit, given by its weight. -/
def hasMode (mode weight : Nat) : Bool := mode / weight % 2 = 1

/-- The attributes of a mode: readable and writable by the owner, and by the public. -/
def attributes (mode : Nat) : Int :=
  (if hasMode mode 0o400 then 1 else 0) + (if hasMode mode 0o200 then 2 else 0) +
    (if hasMode mode 0o4 then 16 else 0) + (if hasMode mode 0o2 then 32 else 0)

/-- The entry of an item. -/
def entry (item : Item) : Except Fault Entry := do
  let moment ← Moment.ofSeconds? item.changed
  let isDirectory := item.kind = .directory
  let suffix := if isDirectory then none else suffixType? item.name
  let (load, exec) := Stamp.encode (suffix.getD Stamp.typeData) moment
  return {
    name := item.name
    objectType := (if isDirectory then ObjectType.directory else .file).code
    load := load.val
    exec := exec.val
    length := if isDirectory then 0 else min item.size 0xFFFFFFFF
    attributes := attributes item.mode }

/-- The entries of the items that are still there. -/
def catalogue (items : List Item) : Except Fault (List Entry) :=
  (items.filter (!·.gone)).mapM entry

end Item

end Catwalk
