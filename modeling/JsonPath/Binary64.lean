/-!
# Doubles as exact numbers

A double of the binary64 format is not a number, an infinity, or a finite number. Every finite
double is a whole multiple of `2 ^ -1074`, the distance between the smallest doubles, so a finite
double is held as that multiple: a natural number of *units*, with a sign beside it so that zero
keeps one. Sums and comparisons of doubles are then sums and comparisons of integers, and rounding
happens in one place, `roundUnits`.

The numbers of units that a double can hold are the `Representable` ones: at most 53 binary digits,
followed by at most 2045 zeros. The proof travels with the value, so equal numbers of units mean
equal doubles.

## Main definitions

* `Binary64`: the doubles.
* `roundDiv`: the natural number nearest to a quotient, the even one of two.
* `ofRatio`: the double nearest to a quotient of units.
* `ofBits`, `toBits`: the interchange form, 64 bits.
-/

namespace JsonPath

namespace Binary64

/-- The exponent of the power of two that separates the doubles around `units`: none of the 53
leading binary digits is ever lost. -/
def gap (units : Nat) : Nat :=
  units.log2 - 52

/-- The exponent of the gap below the largest double. -/
def maxGap : Nat :=
  2045

/-- How many units the doubles around `units` are apart: `2 ^ gap units`. -/
def spacing (units : Nat) : Nat :=
  Nat.pow 2 (gap units)

/-- The multiples of `2 ^ -1074` that are doubles: whole multiples of a spacing that is not too
wide. -/
def Representable (units : Nat) : Prop :=
  units % spacing units = 0 ∧ gap units ≤ maxGap

instance (units : Nat) : Decidable (Representable units) :=
  inferInstanceAs (Decidable (_ ∧ _))

end Binary64

/-- A double of the binary64 format. All values that are not numbers are taken as one. -/
inductive Binary64 where
  /-- The result of an operation without a value, such as `0 / 0`. -/
  | nan
  /-- An infinity. -/
  | infinite (negative : Bool)
  /-- The number `± units · 2 ^ -1074`; zero has a sign as well. -/
  | finite (negative : Bool) (units : Nat) (representable : Binary64.Representable units)
  deriving DecidableEq

namespace Binary64

/-- Zero is a double. -/
theorem representable_zero : Representable 0 := by
  decide

/-- Zero with a sign. -/
def zero (negative : Bool) : Binary64 :=
  .finite negative 0 representable_zero

instance : Inhabited Binary64 :=
  ⟨zero false⟩

/-! ### Rounding -/

/-- The number of units in one, `2 ^ 1074`. -/
def one : Nat :=
  Nat.pow 2 1074

/-- The natural number nearest to `num / den`; of two equally near ones the even one. -/
def roundDiv (num den : Nat) : Nat :=
  let quotient := num / den
  let rest := num % den
  if 2 * rest < den then quotient
  else if den < 2 * rest then quotient + 1
  else quotient + quotient % 2

/-- The multiple of the spacing nearest to `num / den`, in units; of two equally near ones the one
with an even multiplier. -/
def roundUnits (num den : Nat) : Nat :=
  let width := spacing (num / den)
  roundDiv num (den * width) * width

/-- The double of a multiple of the spacing: an infinity once it is beyond the doubles. -/
def ofUnits (negative : Bool) (units : Nat) : Binary64 :=
  if h : Representable units then .finite negative units h else .infinite negative

/-- The double nearest to `± num / den` units, of two equally near ones the one with an even last
digit. Numbers that round beyond the largest double become an infinity. -/
def ofRatio (negative : Bool) (num den : Nat) : Binary64 :=
  ofUnits negative (roundUnits num den)

/-! ### The interchange form -/

/-- The highest of the 64 bits, `2 ^ 63`: the sign. -/
def signBit : Nat :=
  0x8000000000000000

/-- The lowest bit of the scale, `2 ^ 52`. In a number with a positive scale it is the leading
digit. -/
def scaleBit : Nat :=
  0x10000000000000

/-- Reads the 64 bits of a double: the sign, eleven bits for the gap, 52 bits of the number. -/
def ofBits (bits : UInt64) : Binary64 :=
  let negative := bits.toNat / signBit = 1
  let scale := bits.toNat / scaleBit % 2048
  let digits := bits.toNat % scaleBit
  if scale = 2047 then
    if digits = 0 then .infinite negative else .nan
  else if scale = 0 then
    ofUnits negative digits
  else
    ofUnits negative ((scaleBit + digits) * Nat.pow 2 (scale - 1))

/-- The bit pattern of the magnitude of a finite double. The leading digit of a number with a
positive scale is not stored: it is the one that makes the scale one larger. -/
def magnitudeBits (units : Nat) : Nat :=
  gap units * scaleBit + units / spacing units

/-- The 64 bits of a double. -/
def toBits : Binary64 → UInt64
  | .nan => 0x7ff8000000000000
  | .infinite negative => .ofNat (cond negative signBit 0 + 2047 * scaleBit)
  | .finite negative units _ => .ofNat (cond negative signBit 0 + magnitudeBits units)

/-! ### Classes -/

/-- Whether the double is a number other than an infinity. -/
def isFinite : Binary64 → Bool
  | .finite .. => true
  | _ => false

/-- A number of units with its sign. -/
def signed (negative : Bool) (units : Nat) : Int :=
  cond negative (-(units : Int)) units

end Binary64

end JsonPath
