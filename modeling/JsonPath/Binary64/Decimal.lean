import JsonPath.Binary64.Arithmetic
import JsonPath.Text.Numeral

/-!
# Doubles and decimal text

A decimal number is read as the double nearest to it, and a double is written with a fixed number of
places, the exact value rounded to the last of them; of two equally near texts the even one is
written. Both directions round a quotient of natural numbers once.

## Main definitions

* `ofDecimal`: the double nearest to a decimal number.
* `read?`: the double a text denotes, numerals and the words for infinities and no number.
* `toFixed`: the text of a double with a number of places.
-/

namespace JsonPath.Binary64

/-- The double nearest to a decimal number, of two equally near ones the one with an even last
digit. Exponents so large or so small that the outcome cannot be in doubt are settled first, and no
power of ten that large is ever formed. -/
def ofDecimal (d : Decimal) : Binary64 :=
  if d.coefficient = 0 then
    zero d.negative
  else
    match d.exponent with
    | .ofNat e =>
      if 400 < e then .infinite d.negative
      else ofRatio d.negative (d.coefficient * Nat.pow 10 e * one) 1
    | .negSucc e =>
      if d.coefficient.log2 + 1077 < 3 * e then zero d.negative
      else ofRatio d.negative (d.coefficient * one) (Nat.pow 10 (e + 1))

/-- The words that stand for an infinity or for no number, in any case. -/
def ofWord? (negative : Bool) (word : List Char) : Option Binary64 :=
  let lower := String.ofList (word.map Char.toLower)
  if lower = "inf" ∨ lower = "infinity" then some (.infinite negative)
  else if lower = "nan" then some .nan
  else none

/-- The double that a whole text denotes: a numeral, or a word with an optional sign. -/
def read? (s : List Char) : Option Binary64 :=
  match Text.Numeral.whole? s with
  | some n => some (ofDecimal n.value)
  | none =>
    let (sign, word) := Text.splitSign s
    ofWord? (sign = ['-']) word

/-- The decimal digits of a natural number. -/
def digits (n : Nat) : List Char :=
  Nat.toDigits 10 n

/-- The decimal digits of a natural number, filled up with zeros to a width. -/
def paddedDigits (width n : Nat) : List Char :=
  List.replicate (width - (digits n).length) '0' ++ digits n

/-- The text of `n · 10 ^ -places`. -/
def fixedText (places n : Nat) : List Char :=
  digits (n / Nat.pow 10 places) ++ '.' :: paddedDigits places (n % Nat.pow 10 places)

/-- The text of a double with a number of places after the point, rounded to the nearest such text.
A negative double keeps its sign even if all the digits are zeros. -/
def toFixed (places : Nat) : Binary64 → List Char
  | .nan => "NaN".toList
  | .infinite negative => cond negative "-inf".toList "inf".toList
  | .finite negative units _ =>
    cond negative ['-'] [] ++ fixedText places (roundDiv (units * Nat.pow 10 places) one)

end JsonPath.Binary64
