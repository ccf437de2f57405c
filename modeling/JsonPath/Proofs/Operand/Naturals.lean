import JsonPath.Proofs.Operand.Recognition

/-!
# Spellings of Natural Numbers

A natural number may be spelled with a plus sign, with padding and with zeros behind a point
(`SpellsNatural`). All these characters are dropped before the number is read, each in a step of its
own, and none of the steps may take a digit of the number with it: not the one zero of `+000`, and
not the zeros that end `100.00` in front of the point.

Every spelling is the text of a numeral that is a natural number (`SpellsNatural.exists_numeral`),
and such a numeral is stored as the integer, or as the nearest double where 64 bits do not hold it
(`Text.Numeral.Natural.stored`). Padding does no harm at `2 ^ 64` either, since the bound is asked
of the integer and not of the digits as they are written.

## Main definitions

* `SpellsNatural`: the spellings of a natural number.

## Main results

* `Text.Numeral.Natural.ofDecimal_value`: zeros behind a point do not change the double.
* `Operand.update_unsigned_of_numeral`: to which integer a numeral is converted, if to any.
* `Operand.natural_of_spelling`: **every spelling of a natural number is read as that number**.
-/

namespace JsonPath

open Text Grammar

variable {m : Nat} {s : List Char} {n : Numeral}

/-- The spellings of a natural number: an optional plus sign, padding, the digits of the number, and
optionally a point with any number of zeros behind it. -/
inductive SpellsNatural (m : Nat) : List Char → Prop
  /-- There is no point. -/
  | whole {plus : List Char} (padding : Nat) : plus = [] ∨ plus = ['+'] →
      SpellsNatural m (plus ++ List.replicate padding '0' ++ Binary64.digits m)
  /-- There is a point. -/
  | pointed {plus : List Char} (padding zeros : Nat) : plus = [] ∨ plus = ['+'] →
      SpellsNatural m (plus ++ List.replicate padding '0' ++ Binary64.digits m ++
        '.' :: List.replicate zeros '0')

namespace Text.Numeral

/-! ### Numerals that are natural numbers -/

/-- A natural numeral has digits in front of the zeros behind its point. -/
theorem Natural.not_pointedZeros (h : n.Natural) : ¬ n.PointedZeros :=
  fun hpointed => h.2.1 hpointed.1

/-- **Zeros behind a point do not change the double** of a natural number. -/
theorem Natural.ofDecimal_value (h : n.Natural) :
    Binary64.ofDecimal n.value = .ofNat (digitsValue n.integer) := by
  obtain ⟨hsign, -, hzeros, hexponent⟩ := h
  have hfraction : n.fraction.getD [] = List.replicate (n.fraction.getD []).length '0' :=
    List.eq_replicate_of_mem hzeros
  have hcoefficient : n.value.coefficient =
      digitsValue n.integer * 10 ^ (n.fraction.getD []).length := by
    rw [value, hfraction, digitsValue_append_replicate, List.length_replicate]
  have hexp : n.value.exponent = -((0 + (n.fraction.getD []).length : Nat) : Int) := by
    simp [value, hexponent]
  have hpositive : n.value.negative = false := by simpa [value] using hsign
  have hvalue : n.value = ⟨false, digitsValue n.integer * 10 ^ (n.fraction.getD []).length,
      -((0 + (n.fraction.getD []).length : Nat) : Int)⟩ := by
    rw [← hcoefficient, ← hexp, ← hpositive]
  rw [hvalue, Binary64.ofDecimal_mul_pow, Binary64.ofDecimal_neg]
  rfl

/-- A natural number is stored as an integer if 64 bits hold it. -/
theorem Natural.stored (h : n.Natural) : n.stored =
    if digitsValue n.integer < UInt64.size then .unsigned (.ofNat (digitsValue n.integer))
    else .double (.ofNat (digitsValue n.integer)) := by
  rw [Numeral.stored, h.ofDecimal_value]
  simp only [h, true_and]

/-- The digits of a number behind a plus sign and padding, with nothing but zeros behind a point. -/
theorem natural_of_padded {plus : List Char} (fraction : Option (List Char)) (m padding : Nat)
    (hplus : plus = [] ∨ plus = ['+']) (hzeros : ∀ s ∈ fraction, ∀ c ∈ s, c = '0') :
    let n : Numeral := ⟨plus, List.replicate padding '0' ++ Binary64.digits m, fraction, none⟩
    n.Grammatical ∧ n.Natural ∧ digitsValue n.integer = m := by
  intro n
  have hdigits : Digits (Binary64.digits m) := digits_toDigits m
  have hne : n.integer ≠ [] := List.append_ne_nil_of_right_ne_nil _ hdigits.1
  refine ⟨⟨hplus.imp_right .inr, ?_, ?_, List.append_ne_nil_of_left_ne_nil hne _, by simp [n]⟩,
    ⟨?_, hne, ?_, rfl⟩, ?_⟩
  · intro c hc
    rcases List.mem_append.1 hc with hc | hc
    · rw [List.eq_of_mem_replicate hc]
      rfl
    · exact hdigits.2 c hc
  · intro s hs c hc
    rw [hzeros s hs c hc]
    rfl
  · rintro rfl
    exact absurd hplus (by decide)
  · cases fraction with
    | none => simp [n]
    | some s => exact hzeros s rfl
  · rw [digitsValue_replicate_append]
    exact digitsValue_toDigits m

end Text.Numeral

/-- A spelling of a natural number is a numeral for it. -/
theorem SpellsNatural.exists_numeral (h : SpellsNatural m s) :
    ∃ n : Numeral, n.Grammatical ∧ n.Natural ∧ digitsValue n.integer = m ∧ n.text = s := by
  cases h with
  | @whole plus padding hplus =>
      obtain ⟨hg, hnatural, hvalue⟩ :=
        Numeral.natural_of_padded none m padding hplus (by simp)
      exact ⟨_, hg, hnatural, hvalue, by simp [Numeral.text]⟩
  | @pointed plus padding zeros hplus =>
      obtain ⟨hg, hnatural, hvalue⟩ :=
        Numeral.natural_of_padded (some (List.replicate zeros '0')) m padding hplus
          (by rintro _ ⟨rfl⟩ c hc; exact List.eq_of_mem_replicate hc)
      exact ⟨_, hg, hnatural, hvalue, by simp [Numeral.text]⟩

/-- The text of an integer is a spelling of it. -/
theorem spellsNatural_display (k : UInt64) :
    SpellsNatural k.toNat (Operand.unsigned k).display :=
  .whole 0 (.inl rfl)

namespace Operand

/-- **To which integer a numeral is converted**: to its own, if it is a natural number that 64 bits
hold. All other numerals stay as they are. -/
theorem update_unsigned_of_numeral {t : String} (h : n.Grammatical)
    (ht : unquoted (dropLineEnds t.toList) = n.text) (hn : ¬ n.PointedZeros) :
    (text t).update .unsigned =
      if n.Natural ∧ digitsValue n.integer < UInt64.size then
        (unsigned (.ofNat (digitsValue n.integer)), .ok ())
      else (text t, .error ⟨t, .text, .unsigned⟩) := by
  have hinteger := unsignedOf?_of_numeral h ht hn
  split
  · next hbound =>
      rw [if_pos hbound] at hinteger
      exact update_of_convertTo?_eq_some (by rw [convertTo?, toUnsigned?, hinteger]; rfl)
  · next hbound =>
      rw [if_neg hbound] at hinteger
      have hnone : (text t).convertTo? .unsigned = none := by
        rw [convertTo?, toUnsigned?, hinteger]
        rfl
      rw [update_of_convertTo?_eq_none hnone, display, String.ofList_toList]
      rfl

/-- **Every spelling of a natural number is read as that number.** If 64 bits hold the number, it is
stored as an integer, whatever spaces and quotes stand around it, and a text that holds it converts
to the integer, whatever line ends follow. A larger number is stored as the double nearest to it,
but no text that holds it converts to an integer. One of the spellings is the text of the
integer. -/
theorem natural_of_spelling (v : Operand) {front back ends : List Char} (h : SpellsNatural m s)
    (hfront : ∀ c ∈ front, c ∈ [' ', '"']) (hback : ∀ c ∈ back, c ∈ [' ', '"'])
    (hends : ∀ c ∈ ends, c ∈ ['\n', '\r']) :
    (m < UInt64.size →
      v.setNumeric (front ++ s ++ back) = (unsigned (.ofNat m), true) ∧
      (text (String.ofList (front ++ s ++ back ++ ends))).update .unsigned =
        (unsigned (.ofNat m), .ok ())) ∧
    (UInt64.size ≤ m →
      v.setNumeric (front ++ s ++ back) = (double (.ofNat m), true) ∧
      (text (String.ofList (front ++ s ++ back ++ ends))).update .unsigned =
        (text (String.ofList (front ++ s ++ back ++ ends)),
          .error ⟨String.ofList (front ++ s ++ back ++ ends), .text, .unsigned⟩)) ∧
    ∀ k : UInt64, SpellsNatural k.toNat (unsigned k).display := by
  obtain ⟨n, hg, hnatural, rfl, rfl⟩ := h.exists_numeral
  have hset : v.setNumeric (front ++ n.text ++ back) = (n.stored, true) :=
    setNumeric_of_eq_some
      (ofNumeric?_of_numeral hg (hg.unquoted_append hfront hback) hnatural.not_pointedZeros)
  have hupdate := update_unsigned_of_numeral (t := String.ofList (front ++ n.text ++ back ++ ends))
    hg (by rw [String.toList_ofList]; exact hg.unquoted_dropLineEnds hfront hback hends)
    hnatural.not_pointedZeros
  rw [hnatural.stored] at hset
  refine ⟨fun hsmall => ?_, fun hlarge => ?_, spellsNatural_display⟩
  · rw [if_pos hsmall] at hset
    rw [if_pos ⟨hnatural, hsmall⟩] at hupdate
    exact ⟨hset, hupdate⟩
  · rw [if_neg (not_lt.2 hlarge)] at hset
    rw [if_neg fun h => absurd h.2 (not_lt.2 hlarge)] at hupdate
    exact ⟨hset, hupdate⟩

/-- A padded number between quotes with a line end behind them, and the first one that 64 bits do
not hold. -/
theorem natural_of_spelling_padded :
    (SpellsNatural 100 "+00100.00".toList ∧
      absent.setNumeric ([' ', '"'] ++ "+00100.00".toList ++ ['"']) = (unsigned 100, true) ∧
      (text (String.ofList ([' ', '"'] ++ "+00100.00".toList ++ ['"'] ++ ['\r', '\n']))).update
        .unsigned = (unsigned 100, .ok ())) ∧
    SpellsNatural 18446744073709551616 "018446744073709551616.".toList ∧
      absent.setNumeric ([' ', '"'] ++ "018446744073709551616.".toList ++ ['"']) =
        (double (.ofNat 18446744073709551616), true) := by
  have hquotes : ∀ c ∈ [' ', '"'], c ∈ [' ', '"'] := fun _ => id
  have hquote : ∀ c ∈ ['"'], c ∈ [' ', '"'] := by simp
  have hends : ∀ c ∈ ['\r', '\n'], c ∈ ['\n', '\r'] := by simp
  have hsmall : SpellsNatural 100 "+00100.00".toList := .pointed 2 2 (.inr rfl)
  have hlarge : SpellsNatural 18446744073709551616 "018446744073709551616.".toList :=
    .pointed 1 0 (.inl rfl)
  exact ⟨⟨hsmall, (natural_of_spelling absent hsmall hquotes hquote hends).1 (by decide)⟩, hlarge,
    ((natural_of_spelling absent hlarge hquotes hquote hends).2.1 (by decide)).1⟩

end Operand

end JsonPath
