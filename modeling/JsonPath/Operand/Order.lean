import JsonPath.Operand

/-!
# The order of operands

No value is below everything else and bytes are above everything else. Between these, two integers
compare as integers; two operands that are numbers or numerals compare as doubles, equal within the
tolerance; and all other operands compare as texts, character by character.

## Main definitions

* `compareDoubles`: the order of doubles, with those that are not numbers above all others.
* `Operand.compare`: the order of operands.

## Main results

* `Operand.compare_absent_left`, `Operand.compare_bytes_left`: the extremes of the order.
-/

namespace JsonPath

/-- The order of doubles: equal within the tolerance, and what is not a number above everything. -/
def compareDoubles (x y : Binary64) : Ordering :=
  if nearlyEqual x y then .eq
  else
    match x.compare? y with
    | some o => o
    | none => if x = .nan then (if y = .nan then .eq else .gt) else .lt

/-- The order of sequences of numbers: that of the first numbers that differ; a sequence is above
its own beginning. -/
def lexicographic : List Nat → List Nat → Ordering
  | [], [] => .eq
  | [], _ :: _ => .lt
  | _ :: _, [] => .gt
  | m :: s, n :: t => (Ord.compare m n).then (lexicographic s t)

/-- The order of texts, by the code points of their characters. -/
def compareTexts (s t : List Char) : Ordering :=
  lexicographic (s.map Char.toNat) (t.map Char.toNat)

/-- The order of byte strings: the shorter one first, then byte by byte. -/
def compareBytes (s t : List UInt8) : Ordering :=
  (Ord.compare s.length t.length).then (lexicographic (s.map UInt8.toNat) (t.map UInt8.toNat))

namespace Operand

/-- The double an operand is compared as, if it is a number or a numeral. -/
def number? : Operand → Option Binary64
  | .unsigned n => some (.ofNat n.toNat)
  | .double x => some x
  | .text s => numberOf? s.toList
  | _ => none

/-- The order of operands. -/
def compare : Operand → Operand → Ordering
  | .absent, .absent => .eq
  | .absent, _ => .lt
  | _, .absent => .gt
  | .bytes s, .bytes t => compareBytes s t
  | .bytes _, _ => .gt
  | _, .bytes _ => .lt
  | .unsigned m, .unsigned n => Ord.compare m.toNat n.toNat
  | v, w =>
    match v.number?, w.number? with
    | some x, some y => compareDoubles x y
    | _, _ => compareTexts v.display w.display

/-- An absent value comes before every other value. -/
theorem compare_absent_left (v : Operand) (h : v ≠ .absent) : compare .absent v = .lt := by
  cases v <;> first | rfl | exact absurd rfl h

/-- Bytes come after the values of all other kinds. -/
theorem compare_bytes_left (s : List UInt8) (v : Operand) (h : v.kind ≠ .bytes) :
    compare (.bytes s) v = .gt := by
  cases v <;> first | rfl | exact absurd rfl h

end Operand

end JsonPath
