import JsonPath.Binary64.Decimal

/-!
# The shortest decimal text of a double

A double is written with the fewest digits that are read back as the same double; among the texts
with that many digits the one nearest to the double is taken, and of two equally near ones the even
one. `Style` says where the point goes: a document writes a number without an exponent as long as
it is neither very large nor very small.

The numbers that are read back as a double form an interval around it. On a grid of decimal numbers
with a fixed count of digits, the interval holds a point exactly if it holds one of the two points
next to the double, so these two are tried on grids of one, two, up to seventeen digits.

## Main definitions

* `shortest`: the digits and the exponent of the shortest text.
* `Style`: where positional writing ends.
* `toShortest?`: the text of a double in a style.
-/

namespace JsonPath.Binary64

/-- The decimal exponent of the first digit of `units · 2 ^ -1074`, for a positive number of
units. -/
def leadingExponent (units : Nat) : Int :=
  if one ≤ units then
    (digits (units / one)).length - 1
  else
    -((List.range 330).takeWhile fun k => units * Nat.pow 10 k < one).length

/-- The interval that is read back as `units`, in quarters of a unit, and whether its ends belong to
it: half a gap on both sides, a quarter below a power of two, where the gap below is half as
wide. -/
structure ReadBack where
  /-- The lower end. -/
  low : Nat
  /-- The upper end. -/
  high : Nat
  /-- Whether the two ends are read back as well. -/
  closed : Bool

/-- The interval of the numbers that are read back as a positive double. -/
def readBack (units : Nat) : ReadBack :=
  let width := spacing units
  let below := if units = Nat.pow 2 units.log2 ∧ 0 < gap units then width else 2 * width
  ⟨4 * units - below, 4 * units + 2 * width, units / width % 2 = 0⟩

/-- Whether `num / den` quarters of a unit lie in the interval. -/
def ReadBack.contains (r : ReadBack) (num den : Nat) : Bool :=
  if r.closed then r.low * den ≤ num && num ≤ r.high * den
  else r.low * den < num && num < r.high * den

/-- The point of the grid `10 ^ exponent` that is read back as `units` and is nearest to it. -/
def gridPoint? (units : Nat) (exponent : Int) : Option Nat :=
  let up := Nat.pow 10 (-exponent).toNat
  let down := Nat.pow 10 exponent.toNat
  let floor := units * up / (one * down)
  let hit (n : Nat) : Bool := (readBack units).contains (4 * n * down * one) up
  match hit floor, hit (floor + 1) with
  | true, true => some (roundDiv (units * up) (one * down))
  | true, false => some floor
  | false, true => some (floor + 1)
  | false, false => none

/-- The digits of the shortest text of a positive double, as a natural number, and the exponent of
the last of them. Seventeen digits always suffice. -/
def shortest (units : Nat) : Nat × Int :=
  let first := leadingExponent units
  let candidate (k : Nat) : Option (Nat × Int) := (gridPoint? units (first - k)).map (·, first - k)
  ((List.range 17).findSome? candidate).getD (0, 0)

/-- Where positional writing ends: the exponents of the first digit that are written without an
exponent run from `least` to `greatest`. -/
structure Style where
  /-- The least exponent of the first digit that is written positionally. -/
  least : Int
  /-- The greatest exponent of the first digit that is written positionally. -/
  greatest : Int

/-- A number with digits before and after the point, at least one on either side. -/
def positional (ds : List Char) (first : Int) : List Char :=
  if first < 0 then
    '0' :: '.' :: (List.replicate (-first - 1).toNat '0' ++ ds)
  else
    let size := first.toNat + 1
    if ds.length ≤ size then
      ds ++ List.replicate (size - ds.length) '0' ++ ['.', '0']
    else
      ds.take size ++ '.' :: ds.drop size

/-- A number with one digit before the point and an exponent that shows its sign. -/
def scientific (ds : List Char) (first : Int) : List Char :=
  let mantissa := match ds with
    | [] => []
    | [d] => [d]
    | d :: rest => d :: '.' :: rest
  mantissa ++ 'e' :: (if first < 0 then '-' else '+') :: digits first.natAbs

/-- The digits of a number without the zeros at the end, at least one digit. -/
def significantDigits (n : Nat) : List Char :=
  match Text.dropTrailing (· == '0') (digits n) with
  | [] => ['0']
  | ds => ds

/-- The shortest text of a finite double in a style; there is none for the others. -/
def toShortest? (style : Style) : Binary64 → Option (List Char)
  | .finite negative units _ =>
    some <| cond negative ['-'] [] ++
      if units = 0 then
        positional ['0'] 0
      else
        let (n, exponent) := shortest units
        let first := exponent + (digits n).length - 1
        let ds := significantDigits n
        if style.least ≤ first ∧ first ≤ style.greatest then positional ds first
        else scientific ds first
  | _ => none

end JsonPath.Binary64
