import JsonPath.Text

/-!
# Decimal numerals

A numeral is an optional sign, digits with an optional point and at least one digit on either side
of it, and an optional exponent. Filters, operands and aggregates all read numbers in this form; a
document's own numbers are a narrower form of it.

`Numeral.scan` takes the longest numeral at the beginning of a text. A mark `e` or `E` that no
digits follow belongs to no numeral, so such a text has none: `1e` is not the numeral `1` and a
rest.

## Main definitions

* `Numeral.scan`: the numeral a text begins with, and the rest.
* `Numeral.whole?`: the numeral that makes up a whole text.
* `Decimal`: the exact value of a numeral, a coefficient scaled by a power of ten.

## Main results

* `Numeral.text_append_of_scan`: nothing is lost between a numeral and the rest.
* `Numeral.length_lt_of_scan`: a numeral takes at least one character.
-/

namespace JsonPath

/-- An exact decimal number: `coefficient · 10 ^ exponent`, with a sign of its own so that zero
can be negative. -/
structure Decimal where
  /-- Whether the number carries a minus sign. -/
  negative : Bool
  /-- The digits of the number as a natural number. -/
  coefficient : Nat
  /-- The power of ten that scales the coefficient. -/
  exponent : Int
  deriving DecidableEq, Repr

namespace Text

/-- The scaling part of a numeral. -/
structure Exponent where
  /-- The letter that introduces it, `e` or `E`. -/
  mark : Char
  /-- No character, or one of `+` and `-`. -/
  sign : List Char
  /-- At least one digit. -/
  digits : List Char
  deriving DecidableEq, Repr

/-- A decimal numeral, part by part as it is written. -/
structure Numeral where
  /-- No character, or one of `+` and `-`. -/
  sign : List Char
  /-- The digits before the point. -/
  integer : List Char
  /-- The digits after the point, if there is a point. -/
  fraction : Option (List Char)
  /-- The scaling part, if there is one. -/
  exponent : Option Exponent
  deriving DecidableEq, Repr

/-- The exponent as it is written. -/
def Exponent.text (e : Exponent) : List Char :=
  e.mark :: (e.sign ++ e.digits)

/-- The power of ten an exponent stands for. -/
def Exponent.value (e : Exponent) : Int :=
  if e.sign = ['-'] then -(digitsValue e.digits : Int) else digitsValue e.digits

/-- An optional sign, and the rest. -/
def splitSign : List Char → List Char × List Char
  | '-' :: rest => (['-'], rest)
  | '+' :: rest => (['+'], rest)
  | s => ([], s)

/-- The digits a text begins with, and the rest. -/
def splitDigits (s : List Char) : List Char × List Char :=
  (s.takeWhile Char.isDigit, s.dropWhile Char.isDigit)

/-- An optional point with the digits after it, and the rest. -/
def splitFraction : List Char → Option (List Char) × List Char
  | '.' :: rest => (some (splitDigits rest).1, (splitDigits rest).2)
  | s => (none, s)

/-- An optional exponent, and the rest. There is no reading of a mark that no digits follow. -/
def splitExponent? : List Char → Option (Option Exponent × List Char)
  | [] => some (none, [])
  | c :: rest =>
    if c = 'e' ∨ c = 'E' then
      let signed := splitSign rest
      let scale := splitDigits signed.2
      if scale.1.isEmpty then none else some (some ⟨c, signed.1, scale.1⟩, scale.2)
    else
      some (none, c :: rest)

namespace Numeral

/-- The numeral as it is written. -/
def text (n : Numeral) : List Char :=
  n.sign ++ n.integer ++ (n.fraction.elim [] ('.' :: ·)) ++ (n.exponent.elim [] Exponent.text)

/-- The exact number a numeral denotes. -/
def value (n : Numeral) : Decimal where
  negative := n.sign = ['-']
  coefficient := digitsValue (n.integer ++ n.fraction.getD [])
  exponent := n.exponent.elim 0 Exponent.value - (n.fraction.getD []).length

/-- The longest numeral at the beginning of a text, and the rest. -/
def scan (s : List Char) : Option (Numeral × List Char) :=
  let signed := splitSign s
  let integer := splitDigits signed.2
  let fraction := splitFraction integer.2
  if (integer.1 ++ fraction.1.getD []).isEmpty then
    none
  else
    (splitExponent? fraction.2).map fun (exponent, rest) =>
      (⟨signed.1, integer.1, fraction.1, exponent⟩, rest)

/-- The numeral that makes up the whole of a text. -/
def whole? (s : List Char) : Option Numeral :=
  match scan s with
  | some (n, []) => some n
  | _ => none

end Numeral

/-- The sign, if there is one, and what is left make up the text. -/
theorem append_splitSign (s : List Char) : (splitSign s).1 ++ (splitSign s).2 = s := by
  unfold splitSign
  split <;> simp

/-- The leading digits and what is left make up the text. -/
theorem append_splitDigits (s : List Char) : (splitDigits s).1 ++ (splitDigits s).2 = s :=
  List.takeWhile_append_dropWhile

/-- The fraction with its point and what is left make up the text. -/
theorem append_splitFraction (s : List Char) :
    (splitFraction s).1.elim [] ('.' :: ·) ++ (splitFraction s).2 = s := by
  unfold splitFraction
  split <;> simp [append_splitDigits]

/-- The exponent with its mark and what is left make up the text. -/
theorem append_splitExponent? {s rest : List Char} {e : Option Exponent}
    (h : splitExponent? s = some (e, rest)) : e.elim [] Exponent.text ++ rest = s := by
  cases s with
  | nil =>
    obtain ⟨rfl, rfl⟩ : none = e ∧ [] = rest := by simpa [splitExponent?] using h
    rfl
  | cons c tail =>
    by_cases hc : c = 'e' ∨ c = 'E'
    · rw [splitExponent?, if_pos hc] at h
      dsimp only at h
      split at h
      · simp at h
      · obtain ⟨rfl, rfl⟩ := by simpa using h
        simp [Exponent.text, append_splitDigits, append_splitSign]
    · rw [splitExponent?, if_neg hc] at h
      obtain ⟨rfl, rfl⟩ := by simpa using h
      rfl

/-- A numeral and the rest after it make up the text they were read from. -/
theorem Numeral.text_append_of_scan {s rest : List Char} {n : Numeral}
    (h : Numeral.scan s = some (n, rest)) : n.text ++ rest = s := by
  simp only [Numeral.scan] at h
  split at h
  · simp at h
  · obtain ⟨⟨e, r⟩, he, hn⟩ := Option.map_eq_some_iff.1 h
    simp only [Prod.mk.injEq] at hn
    obtain ⟨rfl, rfl⟩ := hn
    have h₁ := append_splitExponent? he
    have h₂ := append_splitFraction (splitDigits (splitSign s).2).2
    have h₃ := append_splitDigits (splitSign s).2
    have h₄ := append_splitSign s
    simp only [Numeral.text, List.append_assoc]
    rw [h₁, h₂, h₃, h₄]

/-- A numeral takes at least one character. -/
theorem Numeral.length_lt_of_scan {s rest : List Char} {n : Numeral}
    (h : Numeral.scan s = some (n, rest)) : rest.length < s.length := by
  have hs := Numeral.text_append_of_scan h
  simp only [Numeral.scan] at h
  split at h
  · simp at h
  · rename_i hne
    obtain ⟨⟨e, r⟩, he, hn⟩ := Option.map_eq_some_iff.1 h
    simp only [Prod.mk.injEq] at hn
    obtain ⟨rfl, rfl⟩ := hn
    rw [← hs]
    simp only [Numeral.text, List.length_append, List.isEmpty_iff, List.append_eq_nil_iff] at hne ⊢
    have : 0 < (splitDigits (splitSign s).2).1.length ∨
        0 < ((splitFraction (splitDigits (splitSign s).2).2).1.elim [] ('.' :: ·)).length := by
      rcases hf : (splitFraction (splitDigits (splitSign s).2).2).1 with _ | f
      · simp [hf] at hne
        left
        exact List.length_pos_iff.2 hne
      · right; simp
    omega

end Text

end JsonPath
