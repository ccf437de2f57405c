import JsonPath.Binary64

/-!
# Arithmetic and order of doubles

Each operation takes the exact result on units and rounds it once. Comparisons are those of the
numbers: a value that is not a number is neither below, equal to nor above anything, and the two
zeros are equal.

## Main definitions

* `neg`, `abs`, `add`, `sub`, `mul`, `div`: the operations.
* `compare?`: the order, `none` where there is none.
* `ofNat`, `toUInt64`: natural numbers and doubles.
-/

namespace JsonPath.Binary64

/-- The double with the other sign. -/
def neg : Binary64 → Binary64
  | .nan => .nan
  | .infinite negative => .infinite !negative
  | .finite negative units h => .finite (!negative) units h

/-- The double without its sign. -/
def abs : Binary64 → Binary64
  | .nan => .nan
  | .infinite _ => .infinite false
  | .finite _ units h => .finite false units h

/-- The double nearest to a whole number of units. Zero takes the sign that is given for it. -/
def ofInt (zeroNegative : Bool) (units : Int) : Binary64 :=
  if units = 0 then zero zeroNegative else ofRatio (units < 0) units.natAbs 1

/-- The sum of two doubles. A sum of zero is negative only if both numbers are. -/
def add : Binary64 → Binary64 → Binary64
  | .nan, _ => .nan
  | _, .nan => .nan
  | .infinite a, .infinite b => if a = b then .infinite a else .nan
  | .infinite a, .finite .. => .infinite a
  | .finite .., .infinite b => .infinite b
  | .finite a m _, .finite b n _ =>
    ofInt (a && b) (signed a m + signed b n)

/-- The difference of two doubles. -/
def sub (x y : Binary64) : Binary64 :=
  add x (neg y)

/-- The product of two doubles. Zero times an infinity has no value. -/
def mul : Binary64 → Binary64 → Binary64
  | .nan, _ => .nan
  | _, .nan => .nan
  | .infinite a, .infinite b => .infinite (a ^^ b)
  | .infinite a, .finite b n _ => if n = 0 then .nan else .infinite (a ^^ b)
  | .finite a m _, .infinite b => if m = 0 then .nan else .infinite (a ^^ b)
  | .finite a m _, .finite b n _ => ofRatio (a ^^ b) (m * n) one

/-- The quotient of two doubles. A number divided by zero is an infinity; zero divided by zero and
an infinity divided by another have no value. -/
def div : Binary64 → Binary64 → Binary64
  | .nan, _ => .nan
  | _, .nan => .nan
  | .infinite _, .infinite _ => .nan
  | .infinite a, .finite b _ _ => .infinite (a ^^ b)
  | .finite a _ _, .infinite b => zero (a ^^ b)
  | .finite a m _, .finite b n _ =>
    if n = 0 then
      if m = 0 then .nan else .infinite (a ^^ b)
    else
      ofRatio (a ^^ b) (m * one) n

/-- How two doubles compare as numbers; `none` if one of them is not a number. -/
def compare? : Binary64 → Binary64 → Option Ordering
  | .nan, _ => none
  | _, .nan => none
  | .infinite a, .infinite b => some (if a = b then .eq else if a then .lt else .gt)
  | .infinite a, .finite .. => some (if a then .lt else .gt)
  | .finite .., .infinite b => some (if b then .gt else .lt)
  | .finite a m _, .finite b n _ =>
    some (compare (signed a m) (signed b n))

/-- Whether one double is a number below another. -/
def lt (x y : Binary64) : Bool :=
  compare? x y == some .lt

/-- Whether one double is a number below another or equal to it. -/
def le (x y : Binary64) : Bool :=
  compare? x y == some .lt || compare? x y == some .eq

/-- Whether two doubles are equal as numbers. -/
def eqv (x y : Binary64) : Bool :=
  compare? x y == some .eq

/-- The double nearest to a natural number. -/
def ofNat (n : Nat) : Binary64 :=
  ofRatio false (n * one) 1

/-- The whole part of a double as an unsigned 64-bit integer, or the nearest such integer if it is
out of range; zero if the double is not a number. -/
def toUInt64 : Binary64 → UInt64
  | .nan => 0
  | .infinite negative => if negative then 0 else .ofNat (UInt64.size - 1)
  | .finite negative units _ =>
    if negative then 0 else .ofNat (min (units / one) (UInt64.size - 1))

end JsonPath.Binary64
