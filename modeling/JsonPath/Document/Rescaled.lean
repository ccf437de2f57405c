import JsonPath.Binary64.Shortest

/-!
# Numbers of a document that is written anew

A number that is written anew is kept if it is an integer of 64 bits, with or without a sign. Every
other number is read as a double in a quick way: its leading digits, as many as 64 bits hold, are
taken as an integer, the digits after them only count towards the exponent, and the integer is
scaled by one power of ten, or by a few if the number is very small. Each of these steps rounds, so
the outcome need not be the nearest double. A number beyond the doubles cannot be written at all.

## Main definitions

* `leadingDigits`: as many digits as 64 bits hold.
* `scaleByTen?`: a double times a power of ten.
* `Rewritten.ofNumeral?`, `Rewritten.text`: a number as it is read, and its new text.
-/

namespace JsonPath

open Text

namespace Document

/-- As many digits as fit into 64 bits behind the digits read so far, and those that are left. -/
def leadingDigits (n : Nat) : List Char → Nat × List Char
  | [] => (n, [])
  | d :: ds =>
    let next := 10 * n + (d.toNat - '0'.toNat)
    if next < UInt64.size then leadingDigits next ds else (n, d :: ds)

/-- A power of ten as a double. -/
def powerOfTen (e : Nat) : Binary64 :=
  .ofDecimal ⟨false, 1, e⟩

/-- A double times a power of ten, unless that is beyond the doubles. Powers of ten that are no
double are applied in steps. -/
def scaleByTen? (x : Binary64) (exponent : Int) : Option Binary64 :=
  if exponent.natAbs ≤ 308 then
    if 0 ≤ exponent then
      let product := x.mul (powerOfTen exponent.natAbs)
      if product.isFinite then some product else none
    else
      some (x.div (powerOfTen exponent.natAbs))
  else if x.eqv (.zero false) then
    some x
  else if 0 ≤ exponent then
    none
  else
    scaleByTen? (x.div (powerOfTen 308)) (exponent + 308)
termination_by exponent.natAbs
decreasing_by omega

/-- A number as it is read to be written anew. -/
inductive Rewritten where
  /-- An integer of 64 bits. -/
  | whole (k : Int)
  /-- A double. -/
  | double (x : Binary64)

/-- The integer that digits and a sign stand for, if it has 64 bits and is not a negative zero. -/
def wholeNumber? (negative : Bool) (n : Nat) : Option Int :=
  if negative then
    if 0 < n ∧ n ≤ UInt64.size / 2 then some (-(n : Int)) else none
  else
    some n

/-- A number as it is read, unless it is beyond the doubles. -/
def Rewritten.ofNumeral? (numeral : Numeral) : Option Rewritten :=
  let negative := numeral.sign = ['-']
  let integer := leadingDigits 0 numeral.integer
  let written := integer.2.isEmpty && numeral.fraction.isNone && numeral.exponent.isNone
  match if written then wholeNumber? negative integer.1 else none with
  | some k => some (.whole k)
  | none =>
    let digits := numeral.fraction.getD []
    let all := leadingDigits integer.1 digits
    let exponent := (integer.2.length : Int) - (digits.length - all.2.length : Nat) +
      numeral.exponent.elim 0 Exponent.value
    (scaleByTen? (.ofNat all.1) exponent).map fun x => .double (if negative then x.neg else x)

/-- Doubles are written without an exponent if the first digit stands for `10 ^ -5` up to
`10 ^ 15`. -/
def numberStyle : Binary64.Style :=
  ⟨-5, 15⟩

/-- The new text of a number. -/
def Rewritten.text : Rewritten → List Char
  | .whole k => (toString k).toList
  | .double x => (x.toShortest? numberStyle).getD []

end Document

end JsonPath
