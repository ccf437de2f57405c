/-!
# Sets of characters as ranges

The properties of characters that Unicode lists are kept as tables of ranges of code points, both
ends included. The ranges of a table are in ascending order, so a search ends at the first range
beyond the character.

## Main definitions

* `CharRanges.contains`: whether a character is in a table.
-/

namespace JsonPath.Text

/-- A set of characters: ranges of code points in ascending order, ends included. -/
abbrev CharRanges := List (Nat × Nat)

namespace CharRanges

/-- Whether a code point is in one of the ranges. -/
def holds : CharRanges → Nat → Bool
  | [], _ => false
  | r :: rest, n => if n < r.1 then false else n ≤ r.2 || holds rest n

/-- Whether a character is in one of the ranges. -/
def contains (table : CharRanges) (c : Char) : Bool :=
  table.holds c.toNat

end CharRanges

end JsonPath.Text
