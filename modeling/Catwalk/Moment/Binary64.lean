import Catwalk.Moment
import Catwalk.Fault

/-!
# Moments of binary floating-point seconds

Foreign filing systems give times as seconds since the start of 1970 in the binary64 format. The
whole seconds and the fraction are taken apart, and the fraction becomes a whole number of
microseconds in two roundings: the product with a million to the nearest binary64 number, and that
number to the nearest integer. Both settle ties in favour of the even neighbour. All arithmetic is
exact, on fractions of natural numbers.
-/

namespace Catwalk

/-- A number `mantissa / 10 ^ places`. -/
structure DecimalNumber where
  mantissa : Int
  places : Nat
deriving DecidableEq, Repr

namespace Binary64

/-- The integer nearest to `num / den`, the even one of two. -/
def roundHalfEven (num den : Nat) : Nat :=
  let q := num / den
  let r := num % den
  if 2 * r < den then q
  else if den < 2 * r then q + 1
  else q + q % 2

/-- `num / (den * 2 ^ exponent)` as a fraction. -/
def scaled (num den : Nat) (exponent : Int) : Nat × Nat :=
  if 0 ≤ exponent then (num, den <<< exponent.toNat) else (num <<< (-exponent).toNat, den)

/-- The fraction nearest to `num / den` that has 53 significant bits, the even one of two. The
exponent is not bounded. -/
def nearest (num den : Nat) : Nat × Nat :=
  if num = 0 ∨ den = 0 then (0, 1)
  else
    let guess : Int := (num.log2 : Int) - den.log2 - 52
    let (n, d) := scaled num den guess
    let exponent := if n / d < 0x10000000000000 then guess - 1 else guess
    let (n, d) := scaled num den exponent
    let significand := roundHalfEven n d
    if 0 ≤ exponent then (significand <<< exponent.toNat, 1)
    else (significand, 1 <<< (-exponent).toNat)

/-- The microseconds of a number of seconds, which is rounded to binary64 first. -/
def microseconds (seconds : DecimalNumber) : Int :=
  let (num, den) := nearest seconds.mantissa.natAbs (Nat.pow 10 seconds.places)
  let (n, d) := nearest (num % den * 1000000) den
  let magnitude : Int := (num / den * 1000000 + roundHalfEven n d : Nat)
  if seconds.mantissa < 0 then -magnitude else magnitude

end Binary64

namespace Moment

/-- Microseconds from the start of 1900 to the start of 1970. -/
def startOf1970 : Moment := ofCivil { year := 1970, month := 1, day := 1 }

/-- The moment of a number of seconds since the start of 1970, which must lie in the years from 1
to 9999. -/
def ofSeconds? (seconds : DecimalNumber) : Except Fault Moment :=
  let moment := startOf1970 + Binary64.microseconds seconds
  let first := ofCivil { year := 1, month := 1, day := 1 }
  let beyond := ofCivil { year := 10000, month := 1, day := 1 }
  if first ≤ moment ∧ moment < beyond then .ok moment else .error .badYear

end Moment

end Catwalk
