import JsonPath.Proofs.Binary64.Nearest
import JsonPath.Proofs.Operand.Conversions
import JsonPath.Proofs.Operand.Stripping
import JsonPath.Proofs.Query.Extremes

/-!
# The Texts of Doubles

A finite double is written with six places and then loses the zeros at the end. With its places it
is the text of a numeral (`Text.Numeral.fixed`), so it is known what is dropped: zeros of the
fraction only, and the point where no digit is left behind it. What remains is in canonical form
(`Text.Numeral.Canonical`), and stands for the same number as before, which is the double rounded to
millionths (`exists_canonical_doubleText`). A double of less than half a millionth is written as
zero and keeps its sign.

The text is read as the double nearest to it. That is in general another double, but one with the
same text (`exists_double_of_doubleText`), so converting a double to text and back any number of
times changes its text no more.

## Main definitions

* `Decimal.toRat`, `Binary64.toRat?`: the numbers that decimals and doubles stand for.
* `Text.Numeral.Canonical`: numerals in canonical form.
* `Text.Numeral.fixed`: a numeral with so many places.

## Main results

* `doubleText_canonical`: **the text of a double is canonical and close**, and so is every result of
  a numeric function.
* `Operand.update_text_stable`: **the text of a double is stable** under conversion.
-/

namespace JsonPath

open Text Grammar

/-! ### Exact numbers -/

/-- A factor may be taken out of a signed product. -/
theorem Binary64.signed_mul (negative : Bool) (m n : Nat) :
    signed negative (m * n) = signed negative m * n := by
  cases negative
  · exact Int.natCast_mul m n
  · show -((m * n : Nat) : Int) = -(m : Int) * n
    rw [Int.natCast_mul, Int.neg_mul]

/-- The number that a finite double stands for. -/
def Binary64.toRat? : Binary64 → Option ℚ
  | .finite negative units _ => some (signed negative units / one)
  | _ => none

/-- The number that a decimal stands for. -/
def Decimal.toRat (d : Decimal) : ℚ :=
  Binary64.signed d.negative d.coefficient * 10 ^ d.exponent

/-- A decimal with places is its digits over a power of ten. -/
theorem Decimal.toRat_neg (negative : Bool) (c places : Nat) :
    toRat ⟨negative, c, -(places : Int)⟩ = Binary64.signed negative c / 10 ^ places := by
  rw [toRat, zpow_neg, zpow_natCast, div_eq_mul_inv]

/-- Zeros at the end of a fraction do not change the number. -/
theorem Decimal.toRat_mul_pow (negative : Bool) (c places zeros : Nat) :
    toRat ⟨negative, c * 10 ^ zeros, -((places + zeros : Nat) : Int)⟩ =
      toRat ⟨negative, c, -(places : Int)⟩ := by
  have hzeros : (10 : ℚ) ^ zeros ≠ 0 := by positivity
  rw [toRat_neg, toRat_neg, Binary64.signed_mul, pow_add]
  push_cast
  rw [mul_div_mul_right _ _ hzeros]

/-- Rounding a number and rounding its negative are the same. -/
theorem Binary64.isNearestEven_signed (negative : Bool) (num : Nat) {den : Nat} (hden : 0 < den) :
    IsNearestEven ((signed negative num : ℚ) / den) (signed negative (roundDiv num den)) := by
  have hnearest := isNearestEven_roundDiv num hden
  cases negative with
  | false => exact hnearest
  | true =>
      have hneg : (signed true num : ℚ) / den = -((num : ℚ) / den) := by
        rw [signed, cond_true, Int.cast_neg, Int.cast_natCast, neg_div]
      rw [hneg]
      exact hnearest.neg

/-! ### Digits with padding -/

namespace Binary64

/-- Padded digits are digits. -/
theorem isDigit_of_mem_paddedDigits {width k : Nat} : ∀ c ∈ paddedDigits width k, c.isDigit := by
  intro c hc
  rcases List.mem_append.1 hc with hc | hc
  · rw [List.eq_of_mem_replicate hc]
    rfl
  · exact (digits_toDigits k).2 c hc

/-- Padding leaves the value of digits as it is. -/
theorem digitsValue_paddedDigits (width k : Nat) : digitsValue (paddedDigits width k) = k := by
  rw [paddedDigits, digitsValue_replicate_append]
  exact digitsValue_toDigits k

/-- Padded digits fill the width, if the number fits in it. -/
theorem length_paddedDigits {width k : Nat} (hwidth : 0 < width) (hk : k < 10 ^ width) :
    (paddedDigits width k).length = width := by
  have hle : (digits k).length ≤ width := (Nat.length_toDigits_le_iff (by decide) hwidth).2 hk
  rw [paddedDigits, List.length_append, List.length_replicate]
  omega

end Binary64

namespace Text.Numeral

variable {n : Numeral} {negative : Bool} {places k : Nat}

/-! ### Numerals with a number of places -/

/-- A numeral in canonical form: without a plus sign, without superfluous zeros in front, and with a
point only if digits follow, of which the last one is not zero. -/
structure Canonical (places : Nat) (n : Numeral) : Prop where
  /-- There is at most a minus sign. -/
  sign : n.sign = [] ∨ n.sign = ['-']
  /-- There are no superfluous zeros in front. -/
  integer : Whole n.integer
  /-- Behind a point stand at least one and at most so many digits, and the last one counts. -/
  fraction : ∀ s ∈ n.fraction, Digits s ∧ s.length ≤ places ∧ ∀ c ∈ s.getLast?, c ≠ '0'
  /-- There is no exponent. -/
  exponent : n.exponent = none

/-- The numeral of `± k · 10 ^ -places`, with all its places. -/
def fixed (negative : Bool) (places k : Nat) : Numeral where
  sign := cond negative ['-'] []
  integer := Binary64.digits (k / Nat.pow 10 places)
  fraction := some (Binary64.paddedDigits places (k % Nat.pow 10 places))
  exponent := none

/-- The numeral with fixed places is written as its sign and the fixed text. -/
theorem text_fixed (negative : Bool) (places k : Nat) : (fixed negative places k).text =
    cond negative ['-'] [] ++ Binary64.fixedText places k := by
  simp [text, fixed, Binary64.fixedText]

/-- The sign of a numeral with fixed places is a minus or nothing. -/
theorem sign_fixed (negative : Bool) (places k : Nat) :
    (fixed negative places k).sign = [] ∨ (fixed negative places k).sign = ['-'] := by
  cases negative
  · exact .inl rfl
  · exact .inr rfl

/-- A numeral with fixed places is one of the grammar. -/
theorem grammatical_fixed (negative : Bool) (places k : Nat) :
    (fixed negative places k).Grammatical where
  sign := (sign_fixed negative places k).imp_right .inl
  integer := (digits_toDigits _).2
  fraction := by
    rintro s ⟨rfl⟩
    exact Binary64.isDigit_of_mem_paddedDigits
  digits := List.append_ne_nil_of_left_ne_nil (digits_toDigits _).1 _
  exponent := by simp [fixed]

/-- A numeral with fixed places has its digits as value, scaled down by the places. -/
theorem value_fixed (hplaces : 0 < places) :
    (fixed negative places k).value = ⟨negative, k, -(places : Int)⟩ := by
  have hsign : decide ((fixed negative places k).sign = ['-']) = negative := by
    cases negative <;> rfl
  have hlength : (Binary64.paddedDigits places (k % 10 ^ places)).length = places :=
    Binary64.length_paddedDigits hplaces (Nat.mod_lt k (Nat.pow_pos (by decide)))
  have hcoefficient : digitsValue (Binary64.digits (k / 10 ^ places) ++
      Binary64.paddedDigits places (k % 10 ^ places)) = k := by
    rw [digitsValue_append, hlength, Binary64.digitsValue_paddedDigits, Binary64.digits,
      digitsValue_toDigits]
    exact Nat.div_add_mod' k (10 ^ places)
  rw [value, hsign]
  congr 1
  show (0 : Int) - (Binary64.paddedDigits places (k % 10 ^ places)).length = -(places : Int)
  rw [hlength, Int.zero_sub]

/-- **Without the zeros at its end** a numeral with so many places is in canonical form. -/
theorem canonical_withoutZeros_fixed (hplaces : 0 < places) (negative : Bool) (k : Nat) :
    (fixed negative places k).withoutZeros.Canonical places where
  sign := by
    rw [withoutZeros_sign]
    exact sign_fixed negative places k
  integer := by
    rw [withoutZeros_integer]
    exact whole_toDigits _
  fraction := by
    rw [withoutZeros_fraction rfl]
    intro s hs
    obtain ⟨hs, hne⟩ := Option.mem_filter_iff.1 hs
    obtain rfl : dropTrailing (· == '0')
        (Binary64.paddedDigits places (k % Nat.pow 10 places)) = s := by simpa [fixed] using hs
    refine ⟨⟨by simpa using hne, fun c hc => ?_⟩, ?_, fun c hc => ?_⟩
    · exact Binary64.isDigit_of_mem_paddedDigits c (mem_of_mem_dropTrailing c hc)
    · obtain ⟨tail, htail, -⟩ := exists_append_of_dropTrailing (· == '0')
        (Binary64.paddedDigits places (k % Nat.pow 10 places))
      have hlength := Binary64.length_paddedDigits hplaces
        (Nat.mod_lt k (Nat.pow_pos (n := places) (show 0 < 10 by decide)))
      have hsum := congrArg List.length htail
      rw [List.length_append] at hsum
      exact (Nat.le_add_right _ _).trans (hsum.symm.trans hlength).le
    · simpa using getLast?_dropTrailing c hc
  exponent := by
    rw [withoutZeros_exponent]
    rfl

/-- What is left of a numeral stands for the same number. -/
theorem toRat_value_withoutZeros (he : n.exponent = none) :
    n.withoutZeros.value.toRat = n.value.toRat := by
  obtain ⟨coefficient, places, zeros, hleft, hvalue⟩ := exists_value_withoutZeros he
  rw [hleft, hvalue, Decimal.toRat_mul_pow]

/-- A numeral in canonical form could stand in a document. -/
theorem Canonical.wellFormed (h : n.Canonical places) : n.WellFormed where
  sign := h.sign
  integer := h.integer
  fraction := fun s hs => (h.fraction s hs).1
  exponent := by simp [h.exponent]

end Text.Numeral

/-! ### The text of a finite double -/

/-- The text of a finite double is that of its nearest millionth, without the zeros at the end. -/
theorem doubleText_finite (negative : Bool) {units : Nat} (h : Binary64.Representable units) :
    doubleText (.finite negative units h) = (Numeral.fixed negative 6
      (Binary64.roundDiv (units * Nat.pow 10 6) Binary64.one)).withoutZeros.text := by
  rw [doubleText, Binary64.toFixed, ← Numeral.text_fixed,
    (Numeral.grammatical_fixed negative 6 _).dropZeros_text]

/-- **The text of a double** is a numeral in canonical form for the millionth that is nearest to the
double. -/
theorem exists_canonical_doubleText {x : Binary64} (hx : x.isFinite = true) :
    ∃ (q : ℚ) (n : Numeral) (k : ℤ), x.toRat? = some q ∧ n.Canonical 6 ∧ n.text = doubleText x ∧
      n.value.toRat = k / 10 ^ 6 ∧ IsNearestEven (q * 10 ^ 6) k := by
  cases x with
  | nan => cases hx
  | infinite negative => cases hx
  | finite negative units h =>
      refine ⟨_, _, Binary64.signed negative
          (Binary64.roundDiv (units * Nat.pow 10 6) Binary64.one),
        rfl, Numeral.canonical_withoutZeros_fixed (by decide) negative _,
        (doubleText_finite negative h).symm, ?_, ?_⟩
      · rw [Numeral.toRat_value_withoutZeros rfl, Numeral.value_fixed (by decide),
          Decimal.toRat_neg]
      · have hmillion : (((Nat.pow 10 6 : Nat) : Int) : ℚ) = 10 ^ 6 := by
          rw [Nat.pow_eq]
          norm_num
        have hscaled : (Binary64.signed negative units : ℚ) / Binary64.one * 10 ^ 6 =
            (Binary64.signed negative (units * Nat.pow 10 6) : ℚ) / Binary64.one := by
          rw [Binary64.signed_mul, Int.cast_mul, hmillion, div_mul_eq_mul_div]
        rw [hscaled]
        exact Binary64.isNearestEven_signed negative _ Binary64.one_pos

/-- A double that is rounded to zero keeps its sign. -/
example : doubleText (.ofDecimal ⟨true, 4, -7⟩) = ['-', '0'] := by decide +kernel

/-- What is rounded to a millionth is at most half a millionth away. -/
theorem IsNearestEven.abs_div_sub_le {q : ℚ} {k : ℤ} (h : IsNearestEven (q * 10 ^ 6) k) :
    |(k : ℚ) / 10 ^ 6 - q| ≤ 5 / 10 ^ 7 := by
  have hnear := abs_le.1 h.near
  rw [abs_le]
  constructor <;> linarith

namespace Aggregate

/-- The result of a numeric function is the text of a finite double. -/
theorem exists_double_of_apply {env : Environment} {function : Aggregate} {definite : Bool}
    {found : List Site} {result : Option (List Char)} (hfunction : function ∈ [min, max, sum, avg])
    (h : function.apply env definite found = .ok result) :
    ∃ x : Binary64, x.isFinite = true ∧ result = some (doubleText x) := by
  have htext {x : Binary64} {text : List Char} (hx : resultText x = .ok text) :
      x.isFinite = true ∧ text = doubleText x := by
    rw [resultText] at hx
    split at hx
    · next hfinite => exact ⟨hfinite, (Except.ok.inj hx).symm⟩
    · cases hx
  have hitems {items : List Site} (hitems : function.onItems env items = .ok result) :
      ∃ x : Binary64, x.isFinite = true ∧ result = some (doubleText x) := by
    rw [onItems_numeric hfunction] at hitems
    obtain ⟨text, hnumbers, rfl⟩ := map_eq_ok_iff.1 hitems
    cases items with
    | nil => cases hnumbers
    | cons s rest =>
        rw [onNumbers] at hnumbers
        split at hnumbers
        · cases hnumbers
        split at hnumbers
        · cases hnumbers
        · obtain ⟨hfinite, rfl⟩ := htext hnumbers
          exact ⟨_, hfinite, rfl⟩
  rw [apply.eq_def] at h
  split at h
  · split at h
    · split at h
      · exact hitems h
      · cases h
    · cases h
  · exact hitems h

end Aggregate

/-- **The text of a double is canonical and close.** It has a minus sign or none, no superfluous
zeros in front, and no point or one to six digits behind it of which the last is not zero. The
number it stands for is the double rounded to millionths, of two equally near ones the even one, so
that it is at most half a millionth away; and the text counts as a numeral. A numeric function that
succeeds gives such a text. -/
theorem doubleText_canonical :
    (∀ x : Binary64, x.isFinite = true →
      ∃ (q : ℚ) (n : Numeral) (k : ℤ), x.toRat? = some q ∧ n.Canonical 6 ∧
        n.text = doubleText x ∧ n.value.toRat = k / 10 ^ 6 ∧
        (∀ j, IsNearestEven (q * 10 ^ 6) j ↔ j = k) ∧ |n.value.toRat - q| ≤ 5 / 10 ^ 7 ∧
        isNumeral (doubleText x) = true) ∧
    ∀ env, ∀ function ∈ [Aggregate.min, .max, .sum, .avg], ∀ definite found result,
      function.apply env definite found = .ok result →
      ∃ (x : Binary64) (n : Numeral), x.isFinite = true ∧ result = some (doubleText x) ∧
        n.Canonical 6 ∧ n.text = doubleText x ∧ isNumeral (doubleText x) = true := by
  constructor
  · intro x hx
    obtain ⟨q, n, k, hq, hn, htext, hvalue, hnearest⟩ := exists_canonical_doubleText hx
    refine ⟨q, n, k, hq, hn, htext, hvalue, fun j => ⟨fun hj => hj.unique hnearest, ?_⟩, ?_, ?_⟩
    · rintro rfl
      exact hnearest
    · rw [hvalue]
      exact hnearest.abs_div_sub_le
    · rw [← htext]
      exact isNumeral_text hn.wellFormed.grammatical
  · intro env function hfunction definite found result h
    obtain ⟨x, hx, rfl⟩ := Aggregate.exists_double_of_apply hfunction h
    obtain ⟨q, n, k, -, hn, htext, -, -⟩ := exists_canonical_doubleText hx
    exact ⟨x, n, hx, rfl, hn, htext,
      by rw [← htext]; exact isNumeral_text hn.wellFormed.grammatical⟩

/-- Four thirds, as a double and as the average of three values. -/
theorem doubleText_canonical_average :
    (((Binary64.ofNat 4).div (.ofNat 3)).isFinite = true ∧
      ∃ (q : ℚ) (n : Numeral) (k : ℤ), ((Binary64.ofNat 4).div (.ofNat 3)).toRat? = some q ∧
        n.Canonical 6 ∧ n.text = "1.333333".toList ∧ n.value.toRat = k / 10 ^ 6 ∧
        (∀ j, IsNearestEven (q * 10 ^ 6) j ↔ j = k) ∧ |n.value.toRat - q| ≤ 5 / 10 ^ 7 ∧
        isNumeral "1.333333".toList = true) ∧
    Aggregate.avg.apply .standard false [⟨1, .number ⟨[], ['1'], none, none⟩⟩,
        ⟨3, .number ⟨[], ['1'], none, none⟩⟩, ⟨5, .number ⟨[], ['2'], none, none⟩⟩] =
      .ok (some "1.333333".toList) ∧
    ∃ (x : Binary64) (n : Numeral), x.isFinite = true ∧
      some "1.333333".toList = some (doubleText x) ∧
      n.Canonical 6 ∧ n.text = doubleText x ∧ isNumeral (doubleText x) = true := by
  have htext : doubleText ((Binary64.ofNat 4).div (.ofNat 3)) = "1.333333".toList := by
    decide +kernel
  have hfinite : ((Binary64.ofNat 4).div (.ofNat 3)).isFinite = true := by decide +kernel
  have haverage : Aggregate.avg.apply .standard false [⟨1, .number ⟨[], ['1'], none, none⟩⟩,
      ⟨3, .number ⟨[], ['1'], none, none⟩⟩, ⟨5, .number ⟨[], ['2'], none, none⟩⟩] =
        .ok (some "1.333333".toList) := by decide +kernel
  refine ⟨⟨hfinite, ?_⟩, haverage, doubleText_canonical.2 _ .avg (by decide) _ _ _ haverage⟩
  rw [← htext]
  exact doubleText_canonical.1 _ hfinite

/-! ### Reading the text again -/

/-- **The text of a double is read as a double with the same text.** -/
theorem exists_double_of_doubleText {x : Binary64} (hx : x.isFinite = true) :
    ∃ (n : Numeral) (y : Binary64), n.Grammatical ∧ n.text = doubleText x ∧
      Binary64.ofDecimal n.value = y ∧ y.isFinite = true ∧ doubleText y = doubleText x := by
  cases x with
  | nan => cases hx
  | infinite negative => cases hx
  | finite negative units h =>
      obtain ⟨hrepresentable, hrestored⟩ := Binary64.roundDiv_roundUnits_millionths h rfl
      refine ⟨_, .finite negative _ hrepresentable,
        (Numeral.canonical_withoutZeros_fixed (by decide) negative _).wellFormed.grammatical,
        (doubleText_finite negative h).symm, ?_, rfl, ?_⟩
      · rw [Numeral.ofDecimal_value_withoutZeros, Numeral.value_fixed (by decide),
          Binary64.ofDecimal_neg, Binary64.ofRatio, Binary64.ofUnits]
        exact dif_pos hrepresentable
      · rw [doubleText_finite, doubleText_finite]
        exact congrArg (fun k => (Numeral.fixed negative 6 k).withoutZeros.text) hrestored

namespace Operand

/-- A double becomes its text, and never fails to. -/
theorem update_text_double (x : Binary64) :
    (double x).update .text = (text (String.ofList (doubleText x)), .ok ()) :=
  rfl

/-- **The text of a double is stable.** A finite double converts to a text, the text converts to the
double nearest to the decimal number it denotes, and that double, although it may be another one,
converts to the same text. -/
theorem update_text_stable {x : Binary64} (hx : x.isFinite = true) :
    ∃ (t : String) (n : Numeral) (y : Binary64), t.toList = doubleText x ∧
      Numeral.whole? t.toList = some n ∧ y = .ofDecimal n.value ∧ y.isFinite = true ∧
      (double x).update .text = (text t, .ok ()) ∧ (text t).update .double = (double y, .ok ()) ∧
      (double y).update .text = (text t, .ok ()) := by
  obtain ⟨n, y, hn, htext, hy, hfinite, hsame⟩ := exists_double_of_doubleText hx
  have hlist : (String.ofList (doubleText x)).toList = n.text := by
    rw [String.toList_ofList, htext]
  have hwhole : Numeral.whole? (String.ofList (doubleText x)).toList = some n :=
    Numeral.whole?_eq_some_iff.2 ⟨hn, hlist.symm⟩
  have hpart : numeralPart (String.ofList (doubleText x)) =
      (String.ofList (doubleText x)).toList := by
    rw [numeralPart_of_isNumeral (by rw [hlist]; exact isNumeral_text hn), hlist, hn.trimSpaces]
  refine ⟨String.ofList (doubleText x), n, y, String.toList_ofList, hwhole, hy.symm, hfinite,
    update_text_double x, ?_, ?_⟩
  · rw [← hy]
    exact update_double_of_eq_some (toDouble?_text (by rw [hpart]; exact hwhole))
  · rw [update_text_double, hsame]

/-- A third is written as a decimal that stands for another double. -/
theorem update_text_stable_third :
    ((Binary64.ofNat 1).div (.ofNat 3)).isFinite = true ∧
      Binary64.ofDecimal ⟨false, 333333, -6⟩ ≠ (Binary64.ofNat 1).div (.ofNat 3) ∧
      ∃ (t : String) (n : Numeral) (y : Binary64),
        t.toList = doubleText ((Binary64.ofNat 1).div (.ofNat 3)) ∧
        Numeral.whole? t.toList = some n ∧ y = .ofDecimal n.value ∧ y.isFinite = true ∧
        (double ((Binary64.ofNat 1).div (.ofNat 3))).update .text = (text t, .ok ()) ∧
        (text t).update .double = (double y, .ok ()) ∧
        (double y).update .text = (text t, .ok ()) := by
  have hfinite : ((Binary64.ofNat 1).div (.ofNat 3)).isFinite = true := by decide +kernel
  have hother : Binary64.ofDecimal ⟨false, 333333, -6⟩ ≠ (Binary64.ofNat 1).div (.ofNat 3) := by
    decide +kernel
  exact ⟨hfinite, hother, update_text_stable hfinite⟩

end Operand

end JsonPath
