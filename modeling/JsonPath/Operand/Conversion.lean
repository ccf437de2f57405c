import JsonPath.Operand

/-!
# Converting operands

Text becomes a number in two steps: what surrounds the numeral is cleaned away, then the rest is
read. Cleaning drops the quotes and spaces around the text and the zeros in front of the digits, all
but one if no digit is left before a point or an exponent. Line ends after the text are dropped
before that.

A conversion either succeeds or leaves the operand as it is.

## Main definitions

* `unpad`: a numeral without padding.
* `Operand.toDouble?`, `Operand.toUnsigned?`, `Operand.toText?`: the conversions.
* `Operand.convert`, `Operand.update`: conversion to a kind, by value and in place.
* `Operand.ofNumeric?`, `Operand.setNumeric`: the number that a text denotes, an integer if it can
  be one, by value and in place.

## Main results

* `Operand.kind_of_convert`: a conversion gives an operand of the kind that was asked for.
-/

namespace JsonPath

open Text

/-- A run of digits without the zeros in front, but with one of them if no digit would be left
before a point, an exponent or the end. -/
def unpadDigits (s : List Char) : List Char :=
  let rest := s.dropWhile (· == '0')
  let bare := match rest with
    | [] => true
    | c :: _ => c == '.' || c == 'e' || c == 'E'
  if bare && rest.length < s.length then '0' :: rest else rest

/-- A text without the spaces and double quotes around it. -/
def unquoted (s : List Char) : List Char :=
  trim (fun c => c == ' ' || c == '"') s

/-- A text without the spaces and double quotes around it and without padding after a minus sign. A
plus sign is dropped if `dropPlus` says so, and otherwise ends the search for padding. -/
def unpad (dropPlus : Bool) (s : List Char) : List Char :=
  match unquoted s with
  | '+' :: rest => if dropPlus then unpadDigits rest else '+' :: rest
  | '-' :: rest => '-' :: unpadDigits rest
  | t => unpadDigits t

/-- A text without the line ends after it. -/
def dropLineEnds (s : List Char) : List Char :=
  dropTrailing (fun c => c == '\n' || c == '\r') s

/-- The integer that digits stand for, if 64 bits can hold it. -/
def unsignedOf? (s : List Char) : Option UInt64 :=
  if !s.isEmpty && s.all Char.isDigit && digitsValue s < UInt64.size then
    some (.ofNat (digitsValue s))
  else
    none

/-- An operand that could not be converted. -/
structure ConversionError where
  /-- The text of the operand. -/
  value : String
  /-- The kind of the operand. -/
  source : OperandKind
  /-- The kind that was asked for. -/
  target : OperandKind
  deriving DecidableEq, Repr

/-- The wording of a failed conversion. -/
def ConversionError.message (e : ConversionError) : String :=
  "Value \"" ++ e.value ++ "\" of type \"" ++ e.source.name ++
    "\" is not suitable for type \"" ++ e.target.name ++ "\""

namespace Operand

/-- The double an operand converts to. -/
def toDouble? : Operand → Option Binary64
  | .double x => some x
  | .unsigned n => some (.ofNat n.toNat)
  | .text s => numberOf? (unpad false (dropLineEnds s.toList))
  | _ => none

/-- The integer an operand converts to: for a double its whole part, unless it is negative. -/
def toUnsigned? : Operand → Option UInt64
  | .unsigned n => some n
  | .double x => if x.lt (.zero false) then none else some x.toUInt64
  | .text s => unsignedOf? (dropZeros (unpad true (dropLineEnds s.toList)))
  | _ => none

/-- The text an operand converts to. -/
def toText? : Operand → Option String
  | .text s => some s
  | .double x => some (String.ofList (doubleText x))
  | .unsigned n => some (String.ofList (Binary64.digits n.toNat))
  | _ => none

/-- The operand of a kind that an operand converts to. Everything converts to no value; only bytes
convert to bytes. -/
def convertTo? (v : Operand) : OperandKind → Option Operand
  | .absent => some .absent
  | .unsigned => v.toUnsigned?.map .unsigned
  | .double => v.toDouble?.map .double
  | .text => v.toText?.map .text
  | .bytes => match v with
    | .bytes _ => some v
    | _ => none

/-- Converts an operand to a kind. -/
def convert (v : Operand) (target : OperandKind) : Except ConversionError Operand :=
  match v.convertTo? target with
  | some w => .ok w
  | none => .error ⟨String.ofList v.display, v.kind, target⟩

/-- Converts an operand in place: the operand that stands there afterwards, and the error if it is
the same as before. -/
def update (v : Operand) (target : OperandKind) : Operand × Except ConversionError Unit :=
  match v.convert target with
  | .ok w => (w, .ok ())
  | .error e => (v, .error e)

/-- The number that a text denotes: an integer if it is one that 64 bits hold, otherwise a
double. -/
def ofNumeric? (s : List Char) : Option Operand :=
  let t := unpad true s
  if t.head? = some '+' then
    none
  else
    match unsignedOf? (dropZeros t) with
    | some n => some (.unsigned n)
    | none => (numberOf? (dropZeros t)).map .double

/-- Puts the number that a text denotes in the place of an operand: the operand that stands there
afterwards, and whether there is such a number. -/
def setNumeric (v : Operand) (s : List Char) : Operand × Bool :=
  match ofNumeric? s with
  | some w => (w, true)
  | none => (v, false)

/-- A conversion gives an operand of the kind that was asked for. -/
theorem kind_of_convert {v w : Operand} {target : OperandKind} (h : v.convert target = .ok w) :
    w.kind = target := by
  unfold convert at h
  split at h
  · rename_i u hu
    obtain rfl : u = w := by simpa using h
    cases target <;> simp only [convertTo?] at hu
    · obtain rfl := by simpa using hu
      rfl
    · obtain ⟨_, _, rfl⟩ := Option.map_eq_some_iff.1 hu
      rfl
    · obtain ⟨_, _, rfl⟩ := Option.map_eq_some_iff.1 hu
      rfl
    · obtain ⟨_, _, rfl⟩ := Option.map_eq_some_iff.1 hu
      rfl
    · split at hu
      · obtain rfl := by simpa using hu
        rfl
      · simp at hu
  · simp at h

end Operand

end JsonPath
