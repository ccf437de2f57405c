import JsonPath.Binary64.Decimal

/-!
# Operands

The values that a filter computes with are of five kinds: nothing at all, unsigned 64-bit integers,
doubles, text and bytes. A text that is a numeral counts as a number where numbers are compared
(`isNumeral`, `numberOf?`); a double is written with at most six decimals (`doubleText`).

Whether a text is a numeral is found out by counting its digits. The number is read by itself, as
the longest beginning of the text that denotes one, so it is also had of texts that are no numerals.

## Main definitions

* `Operand`, `OperandKind`: the values and their kinds.
* `isNumeral`: whether a text is a numeral, spaces around it aside.
* `leadingNumber`: the number that a text begins with.
* `doubleText`: the text of a double.
* `Operand.display`: the text of an operand.
* `Operand.isTruthy`: whether an operand counts as true.

## Main results

* `numberOf?_isSome_iff`: the texts with a number are the numerals.
-/

namespace JsonPath

open Text

/-- A value that a filter computes with. -/
inductive Operand where
  /-- No value: a reference that leads nowhere. -/
  | absent
  /-- An unsigned 64-bit integer. -/
  | unsigned (n : UInt64)
  /-- A double. -/
  | double (x : Binary64)
  /-- A text. -/
  | text (s : String)
  /-- Bytes. -/
  | bytes (bytes : List UInt8)
  deriving DecidableEq

instance : Inhabited Operand :=
  ⟨.absent⟩

/-- The kinds of operands. -/
inductive OperandKind where
  /-- No value. -/
  | absent
  /-- Unsigned 64-bit integers. -/
  | unsigned
  /-- Doubles. -/
  | double
  /-- Texts. -/
  | text
  /-- Bytes. -/
  | bytes
  deriving DecidableEq, Repr

namespace OperandKind

/-- All kinds. -/
def all : List OperandKind :=
  [.absent, .unsigned, .double, .text, .bytes]

/-- The name of a kind. -/
def name : OperandKind → String
  | .absent => "none"
  | .unsigned => "uint64"
  | .double => "double"
  | .text => "string"
  | .bytes => "binary"

/-- The kind with a name. -/
def ofName? (s : String) : Option OperandKind :=
  all.find? fun k => k.name == s

end OperandKind

/-! ### Numerals among texts -/

/-- A text without the spaces around it. -/
def trimSpaces (s : List Char) : List Char :=
  trim (· == ' ') s

/-- How many digits a text begins with, and the rest. -/
def countDigits (s : List Char) : Nat × List Char :=
  ((s.takeWhile Char.isDigit).length, s.dropWhile Char.isDigit)

/-- How many digits follow if a text begins with a point, and the rest. -/
def countFraction : List Char → Nat × List Char
  | '.' :: rest => countDigits rest
  | s => (0, s)

/-- Whether a text is empty or an exponent as a whole. -/
def isScale : List Char → Bool
  | [] => true
  | c :: rest =>
    (c == 'e' || c == 'E') &&
      let scale := countDigits (splitSign rest).2
      scale.1 != 0 && scale.2.isEmpty

/-- Whether a text is a numeral, spaces around it aside. -/
def isNumeral (s : List Char) : Bool :=
  let integer := countDigits (splitSign (trimSpaces s)).2
  let fraction := countFraction integer.2
  integer.1 + fraction.1 != 0 && isScale fraction.2

/-- The characters that numerals are made of. -/
def isNumeralChar (c : Char) : Bool :=
  c.isDigit || c == '.' || c == '-' || c == '+' || c == 'e' || c == 'E'

/-- The double that the longest beginning of a text denotes, among those of at most `n`
characters. -/
def readPrefix? (s : List Char) : (n : Nat) → Option Binary64
  | 0 => none
  | n + 1 =>
    match Binary64.read? (s.take (n + 1)) with
    | some x => some x
    | none => readPrefix? s n

/-- The double that the longest beginning of a text denotes, spaces in front aside, and zero if no
beginning denotes one. What numerals are not made of ends the search. -/
def leadingNumber (s : List Char) : Binary64 :=
  let s := trimSpaces s
  (readPrefix? s (s.takeWhile isNumeralChar).length).getD (.zero false)

/-- The number that a text denotes if it is a numeral, spaces around it aside. -/
def numberOf? (s : List Char) : Option Binary64 :=
  if isNumeral s then some (leadingNumber s) else none

/-- A text converts to a number exactly if the stricter recogniser calls it a numeral. -/
theorem numberOf?_isSome_iff (s : List Char) : (numberOf? s).isSome = isNumeral s := by
  rw [numberOf?]
  cases isNumeral s <;> rfl

/-! ### Numbers as text -/

/-- A text with the zeros at its end dropped, and then the points. A text without a point or with an
exponent stays as it is. -/
def dropZeros (s : List Char) : List Char :=
  if !s.contains '.' || s.contains 'e' || s.contains 'E' then s
  else dropTrailing (· == '.') (dropTrailing (· == '0') s)

/-- The text of a double: rounded to six decimals, without the zeros at the end. -/
def doubleText (x : Binary64) : List Char :=
  dropZeros (x.toFixed 6)

/-! ### Doubles that count as equal -/

/-- The distance up to which doubles count as equal, the double nearest to `0.000001`. -/
def tolerance : Binary64 :=
  .ofDecimal ⟨false, 1, -6⟩

/-- Whether two doubles count as equal. -/
def nearlyEqual (x y : Binary64) : Bool :=
  (x.sub y).abs.le tolerance

namespace Operand

/-- The kind of an operand. -/
def kind : Operand → OperandKind
  | .absent => .absent
  | .unsigned _ => .unsigned
  | .double _ => .double
  | .text _ => .text
  | .bytes _ => .bytes

/-- A byte as two hexadecimal digits. -/
def byteText (b : UInt8) : List Char :=
  let ds := Nat.toDigits 16 b.toNat
  List.replicate (2 - ds.length) '0' ++ ds

/-- The text of an operand: nothing for no value, bytes as hexadecimal digits with spaces
between. -/
def display : Operand → List Char
  | .absent => []
  | .unsigned n => Binary64.digits n.toNat
  | .double x => doubleText x
  | .text s => s.toList
  | .bytes bs => [' '].intercalate (bs.map byteText)

/-- Whether an operand counts as true: numbers other than zero, and texts that are not empty. -/
def isTruthy : Operand → Bool
  | .absent => false
  | .unsigned n => n != 0
  | .double x => !nearlyEqual x (.zero false)
  | .text s => !s.isEmpty
  | .bytes _ => false

/-- Whether two operands are the same value of the same kind. Doubles are the same if they are equal
as numbers, so both zeros are, and a double that is not a number is never the same as another. -/
def same : Operand → Operand → Bool
  | .absent, .absent => true
  | .unsigned m, .unsigned n => m == n
  | .double x, .double y => x.eqv y
  | .text s, .text t => s == t
  | .bytes s, .bytes t => s == t
  | _, _ => false

end Operand

end JsonPath
