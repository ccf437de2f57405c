import JsonPath.Proofs.Binary64.Decimals
import JsonPath.Proofs.Operand.Padding

/-!
# Zeros at the End of a Fraction

Before a text is taken for an integer, the zeros at its end are dropped and then the points, if
there is a point in it and no exponent (`dropZeros`). Of a numeral this leaves the digits of the
fraction up to the last one that counts, and no point if no digit is left behind it
(`Text.Numeral.Grammatical.dropZeros_text`). What is left is a numeral for the same double, since
the zeros that go stand for nothing (`Text.Numeral.ofDecimal_value_withoutZeros`); but where all
digits are zeros behind the point, no digit is left at all (`Text.Numeral.PointedZeros`).

The step does not ask for a numeral. So a numeral can also be left where more than zeros stood
behind it: points, or spaces and then points (`Text.Numeral.DroppedBehind`).

## Main definitions

* `Text.Numeral.withoutZeros`: a numeral without the zeros at the end of its fraction.
* `Text.Numeral.PointedZeros`: the numerals of which no digit is left.
* `Text.Numeral.DroppedBehind`: what can stand behind a numeral that is left.

## Main results

* `Text.Numeral.Grammatical.dropZeros_text`: **what is dropped of a numeral**.
* `Text.Numeral.ofDecimal_value_withoutZeros`: what is left has the same double.
* `isNumeral_dropZeros_iff`: **of which texts a numeral is left**.
-/

namespace JsonPath

open Text

variable {s front : List Char} {n : Numeral}

/-! ### Zeros and points behind a text -/

/-- Zeros are dropped behind a point only, and never in front of an exponent. -/
theorem dropZeros_eq_self (h : ¬ ('.' ∈ s ∧ 'e' ∉ s ∧ 'E' ∉ s)) : dropZeros s = s := by
  have h : ('.' ∉ s ∨ 'e' ∈ s) ∨ 'E' ∈ s := by
    simpa only [not_and_or, not_not, or_assoc] using h
  rw [dropZeros, if_pos (by simpa using h)]

/-- Behind a point and without an exponent, the zeros at the end are dropped and then the point. -/
theorem dropZeros_eq (hpoint : '.' ∈ s) (he : 'e' ∉ s ∧ 'E' ∉ s) :
    dropZeros s = dropTrailing (· == '.') (dropTrailing (· == '0') s) := by
  rw [dropZeros, if_neg]
  simp [hpoint, he]

/-- What is dropped are points and then zeros, and only where there is a point and no exponent. -/
theorem exists_append_of_dropZeros (s : List Char) :
    ∃ points zeros, s = dropZeros s ++ (List.replicate points '.' ++ List.replicate zeros '0') ∧
      (('.' ∈ s ∧ 'e' ∉ s ∧ 'E' ∉ s) ∨ points = 0 ∧ zeros = 0) := by
  by_cases h : '.' ∈ s ∧ 'e' ∉ s ∧ 'E' ∉ s
  · obtain ⟨zeros, hzeros⟩ := exists_append_replicate_of_dropTrailing '0' s
    obtain ⟨points, hpoints⟩ :=
      exists_append_replicate_of_dropTrailing '.' (dropTrailing (· == '0') s)
    refine ⟨points, zeros, ?_, .inl h⟩
    rw [dropZeros_eq h.1 h.2, ← List.append_assoc, ← hpoints, ← hzeros]
  · refine ⟨0, 0, ?_, .inr ⟨rfl, rfl⟩⟩
    rw [dropZeros_eq_self h]
    simp

/-- Zeros behind a point are dropped with it, and if there is none the zeros in front of them as
well. -/
theorem dropZeros_append {points zeros : Nat} (hpoint : '.' ∈ s ∨ points ≠ 0)
    (he : 'e' ∉ s ∧ 'E' ∉ s) :
    dropZeros (s ++ (List.replicate points '.' ++ List.replicate zeros '0')) =
      dropTrailing (· == '.') (if points = 0 then dropTrailing (· == '0') s else s) := by
  rw [dropZeros_eq (by simpa using hpoint) (by simpa using he), ← List.append_assoc,
    dropTrailing_append _ (by simp)]
  rcases points with - | points
  · rw [List.replicate_zero, List.append_nil, if_pos rfl]
  · have hlast : ∀ c ∈ (s ++ List.replicate (points + 1) '.').getLast?, (c == '0') = false := by
      rw [List.replicate_succ', ← List.append_assoc, List.getLast?_concat]
      simp
    rw [dropTrailing_eq_self hlast, dropTrailing_append _ (by simp), if_neg (by simp)]

/-- What stands in front and is no part of a number is left as it is. -/
theorem dropZeros_append_left (h : ∀ c ∈ front, c ∉ ['0', '.', 'e', 'E']) (s : List Char) :
    dropZeros (front ++ s) = front ++ dropZeros s := by
  have hmem {c : Char} (hc : c ∈ ['0', '.', 'e', 'E']) : c ∈ front ++ s ↔ c ∈ s := by
    rw [List.mem_append, or_iff_right fun hfront => h c hfront hc]
  by_cases hs : '.' ∈ s ∧ 'e' ∉ s ∧ 'E' ∉ s
  · rw [dropZeros_eq ((hmem (by simp)).2 hs.1)
        ⟨(not_congr (hmem (by simp))).2 hs.2.1, (not_congr (hmem (by simp))).2 hs.2.2⟩,
      dropZeros_eq hs.1 hs.2, dropTrailing_append_left, dropTrailing_append_left]
    · rintro c hc
      simpa using fun hpoint : c = '.' => h c (List.mem_of_mem_getLast? hc) (by simp [hpoint])
    · rintro c hc
      simpa using fun hzero : c = '0' => h c (List.mem_of_mem_getLast? hc) (by simp [hzero])
  · rw [dropZeros_eq_self hs, dropZeros_eq_self]
    simpa only [hmem (c := '.') (by simp), hmem (c := 'e') (by simp), hmem (c := 'E') (by simp)]

/-- A text that ends with digits does not end with a point. -/
theorem getLast?_append_digits {digits : List Char} (hne : digits ≠ [])
    (hdigits : ∀ c ∈ digits, c.isDigit) :
    ∀ c ∈ (front ++ digits).getLast?, (c == '.') = false := by
  intro c hc
  rw [List.getLast?_append_of_ne_nil _ hne] at hc
  have hdigit := hdigits c (List.mem_of_mem_getLast? hc)
  rw [beq_eq_false_iff_ne]
  rintro rfl
  exact absurd hdigit (by decide)

/-- Of a fraction the zeros at the end are dropped, and the point if no digit is left. -/
theorem dropZeros_fraction {lead fraction : List Char} (hlead : ∀ c ∈ lead, c ∉ ['.', 'e', 'E'])
    (hdigits : ∀ c ∈ fraction, c.isDigit) :
    dropZeros (lead ++ '.' :: fraction) = lead ++
      if dropTrailing (· == '0') fraction = [] then []
      else '.' :: dropTrailing (· == '0') fraction := by
  have hmark {c : Char} (hc : c ∈ ['e', 'E']) : c ∉ lead ++ '.' :: fraction := by
    have hne : c ≠ '.' ∧ c.isDigit = false := by
      have : c = 'e' ∨ c = 'E' := by simpa using hc
      rcases this with rfl | rfl <;> decide
    simp only [List.mem_append, List.mem_cons, not_or]
    exact ⟨fun hmem => hlead c hmem (List.mem_cons_of_mem _ hc), hne.1,
      fun hmem => by simpa [hne.2] using hdigits c hmem⟩
  rw [dropZeros_eq (by simp) ⟨hmark (by simp), hmark (by simp)⟩, ← List.singleton_append,
    ← List.append_assoc, dropTrailing_append_left (by simp)]
  split
  · next hnil =>
      rw [hnil, List.append_nil, List.append_nil, dropTrailing_append _ (by simp),
        dropTrailing_eq_self]
      exact fun c hc => by
        simpa using fun hpoint : c = '.' => hlead c (List.mem_of_mem_getLast? hc) (by simp [hpoint])
  · next hne =>
      rw [dropTrailing_eq_self, List.append_assoc, List.singleton_append]
      exact getLast?_append_digits hne fun c hc => hdigits c (mem_of_mem_dropTrailing c hc)

/-! ### Zeros at the end of the fraction of a numeral -/

/-- Digits count by their places. -/
theorem Text.digitsValue_append (s t : List Char) :
    digitsValue (s ++ t) = digitsValue s * 10 ^ t.length + digitsValue t := by
  have hsplit : digitsValue (s ++ t) = Nat.ofDigitChars 10 t (digitsValue s) :=
    Nat.ofDigitChars_append 0
  rw [hsplit, Nat.ofDigitChars_eq_ofDigitChars_zero, Nat.mul_comm]
  rfl

/-- Zeros at the end of digits multiply by a power of ten. -/
theorem Text.digitsValue_append_replicate (s : List Char) (k : Nat) :
    digitsValue (s ++ List.replicate k '0') = digitsValue s * 10 ^ k := by
  have hzeros : digitsValue (List.replicate k '0' ++ []) = 0 := digitsValue_replicate_append k []
  rw [List.append_nil] at hzeros
  rw [digitsValue_append, hzeros, List.length_replicate, Nat.add_zero]

namespace Text.Numeral

/-- A numeral without the zeros at the end of its fraction, and without the point if no digit is
left behind it. Zeros in front of an exponent stay. -/
def withoutZeros (n : Numeral) : Numeral :=
  if n.exponent = none then
    { n with fraction := (n.fraction.map (dropTrailing (· == '0'))).filter (· ≠ []) }
  else
    n

/-- Dropping zeros leaves the sign. -/
@[simp]
theorem withoutZeros_sign (n : Numeral) : n.withoutZeros.sign = n.sign := by
  rw [withoutZeros]
  split <;> rfl

/-- Dropping zeros leaves the digits in front of the point. -/
@[simp]
theorem withoutZeros_integer (n : Numeral) : n.withoutZeros.integer = n.integer := by
  rw [withoutZeros]
  split <;> rfl

/-- Dropping zeros leaves the exponent. -/
@[simp]
theorem withoutZeros_exponent (n : Numeral) : n.withoutZeros.exponent = n.exponent := by
  rw [withoutZeros]
  split <;> rfl

/-- Without an exponent, dropping zeros leaves the fraction up to its last other digit, if it has
one. -/
theorem withoutZeros_fraction (he : n.exponent = none) : n.withoutZeros.fraction =
    (n.fraction.map (dropTrailing (· == '0'))).filter (· ≠ []) := by
  rw [withoutZeros, if_pos he]

/-- There are nothing but zeros behind the point, and no exponent. -/
def Integral (n : Numeral) : Prop :=
  (∀ c ∈ n.fraction.getD [], c = '0') ∧ n.exponent = none

instance (n : Numeral) : Decidable n.Integral :=
  inferInstanceAs (Decidable (_ ∧ _))

/-- There are nothing but zeros behind a point, and no digits in front of it. -/
def PointedZeros (n : Numeral) : Prop :=
  n.integer = [] ∧ n.Integral

instance (n : Numeral) : Decidable n.PointedZeros :=
  inferInstanceAs (Decidable (_ ∧ _))

/-- A numeral without an exponent ends with its fraction. -/
theorem text_eq_of_exponent (he : n.exponent = none) :
    n.text = n.sign ++ n.integer ++ n.fraction.elim [] ('.' :: ·) := by
  rw [text, he, Option.elim_none, List.append_nil]

/-- There is neither a point nor an exponent in front of the fraction of a numeral. -/
theorem Grammatical.plain_lead (h : n.Grammatical) :
    ∀ c ∈ n.sign ++ n.integer, c ∉ ['.', 'e', 'E'] := by
  intro c hc hmem
  have hcases : c = '.' ∨ c = 'e' ∨ c = 'E' := by simpa using hmem
  rcases List.mem_append.1 hc with hc | hc
  · rcases h.sign with hs | hs | hs <;> rw [hs] at hc <;> revert hc <;>
      rcases hcases with rfl | rfl | rfl <;> decide
  · have hdigit := h.integer c hc
    rcases hcases with rfl | rfl | rfl <;> exact absurd hdigit (by decide)

/-- A numeral without an exponent has a point if it has a fraction. -/
theorem Grammatical.point_mem_text_iff (h : n.Grammatical) (he : n.exponent = none) :
    '.' ∈ n.text ↔ n.fraction.isSome := by
  rw [text_eq_of_exponent he]
  cases hf : n.fraction with
  | none => simpa [not_or] using fun hc => h.plain_lead '.' hc (by simp)
  | some fraction => simp

/-- The marks of an exponent stand in a numeral that has one. -/
theorem Grammatical.mark_mem_text_iff (h : n.Grammatical) :
    'e' ∈ n.text ∨ 'E' ∈ n.text ↔ n.exponent.isSome := by
  cases he : n.exponent with
  | none =>
      have hplain {c : Char} (hc : c = 'e' ∨ c = 'E') : c ∉ n.text := by
        rw [text_eq_of_exponent he, List.mem_append, not_or]
        refine ⟨fun hlead => h.plain_lead c hlead (by simp [hc]), fun hfraction => ?_⟩
        cases hf : n.fraction with
        | none => simp [hf] at hfraction
        | some fraction =>
            rw [hf, Option.elim_some, List.mem_cons] at hfraction
            rcases hfraction with rfl | hdigit
            · exact absurd hc (by decide)
            · have := h.fraction fraction hf c hdigit
              rcases hc with rfl | rfl <;> exact absurd this (by decide)
      simpa using ⟨hplain (.inl rfl), hplain (.inr rfl)⟩
  | some e =>
      rcases (h.exponent e he).1 with hmark | hmark <;> simp [text, he, Exponent.text, hmark]

/-- A numeral without an exponent has no exponent's mark in its text. -/
theorem Grammatical.unscaled (h : n.Grammatical) (he : n.exponent = none) :
    'e' ∉ n.text ∧ 'E' ∉ n.text := by
  rw [← not_or, h.mark_mem_text_iff, he]
  decide

/-- **What is dropped of a numeral** are the zeros at the end of its fraction. -/
theorem Grammatical.dropZeros_text (h : n.Grammatical) :
    dropZeros n.text = n.withoutZeros.text := by
  by_cases he : n.exponent = none
  · rw [text_eq_of_exponent he, text_eq_of_exponent (n.withoutZeros_exponent.trans he),
      withoutZeros_fraction he, withoutZeros_sign, withoutZeros_integer]
    cases hf : n.fraction with
    | none =>
        refine dropZeros_eq_self fun hplain => absurd hplain.1 ?_
        simpa using fun hlead => h.plain_lead '.' hlead (by simp)
    | some fraction =>
        rw [Option.elim_some, dropZeros_fraction h.plain_lead (h.fraction fraction hf)]
        by_cases hnil : dropTrailing (· == '0') fraction = [] <;> simp [hnil, Option.filter]
  · have hmark := h.mark_mem_text_iff.2 (Option.isSome_iff_ne_none.2 he)
    rw [withoutZeros, if_neg he, dropZeros_eq_self fun hplain => not_or.2 hplain.2 hmark]

/-- The digits behind the point are those up to the last that is not a zero. -/
theorem withoutZeros_fraction_getD (he : n.exponent = none) :
    n.withoutZeros.fraction.getD [] = dropTrailing (· == '0') (n.fraction.getD []) := by
  rw [withoutZeros_fraction he]
  cases n.fraction with
  | none => rfl
  | some fraction =>
      by_cases hnil : dropTrailing (· == '0') fraction = [] <;> simp [hnil, Option.filter]

/-- Nothing of a fraction is left if there are nothing but zeros in it. -/
theorem integral_iff :
    n.Integral ↔ n.withoutZeros.fraction = none ∧ n.exponent = none := by
  refine and_congr_left fun he => ?_
  rw [withoutZeros_fraction he]
  cases n.fraction with
  | none => simp
  | some fraction => simp [Option.filter, dropTrailing_eq_nil_iff]

/-- **What is left of a numeral is a numeral**, if there are digits left. -/
theorem Grammatical.withoutZeros (h : n.Grammatical) (hn : ¬ n.PointedZeros) :
    n.withoutZeros.Grammatical := by
  by_cases he : n.exponent = none
  · refine ⟨by simpa using h.sign, by simpa using h.integer, ?_, ?_, by simpa using h.exponent⟩
    · rw [withoutZeros_fraction he]
      intro s hs c hc
      obtain ⟨fraction, hf, rfl⟩ := Option.mem_map.1 (Option.mem_filter_iff.1 hs).1
      exact h.fraction fraction hf c (mem_of_mem_dropTrailing c hc)
    · rw [withoutZeros_integer, withoutZeros_fraction_getD he]
      intro hnil
      obtain ⟨hinteger, hzeros⟩ := List.append_eq_nil_iff.1 hnil
      exact hn ⟨hinteger, by simpa using dropTrailing_eq_nil_iff.1 hzeros, he⟩
  · rwa [Numeral.withoutZeros, if_neg he]

/-- Each zero that goes made the coefficient ten times as large and lowered the exponent by one. -/
theorem exists_value_withoutZeros (he : n.exponent = none) :
    ∃ coefficient places zeros : Nat,
      n.withoutZeros.value = ⟨n.value.negative, coefficient, -(places : Int)⟩ ∧
      n.value =
        ⟨n.value.negative, coefficient * 10 ^ zeros, -((places + zeros : Nat) : Int)⟩ := by
  obtain ⟨zeros, hfraction⟩ := exists_append_replicate_of_dropTrailing '0' (n.fraction.getD [])
  rw [← withoutZeros_fraction_getD he] at hfraction
  have hcoefficient : digitsValue (n.integer ++ n.fraction.getD []) =
      digitsValue (n.integer ++ n.withoutZeros.fraction.getD []) * 10 ^ zeros := by
    rw [← digitsValue_append_replicate, List.append_assoc, ← hfraction]
  have hplaces : (n.fraction.getD []).length =
      (n.withoutZeros.fraction.getD []).length + zeros := by
    rw [hfraction, List.length_append, List.length_replicate]
  refine ⟨digitsValue (n.integer ++ n.withoutZeros.fraction.getD []),
    (n.withoutZeros.fraction.getD []).length, zeros, ?_, ?_⟩
  · simp [value, he]
  · rw [value, hcoefficient, hplaces, he, Option.elim_none, Int.zero_sub]

/-- **What is left of a numeral has the same double.** -/
theorem ofDecimal_value_withoutZeros (n : Numeral) :
    Binary64.ofDecimal n.withoutZeros.value = Binary64.ofDecimal n.value := by
  by_cases he : n.exponent = none
  · obtain ⟨coefficient, places, zeros, hleft, hvalue⟩ := exists_value_withoutZeros he
    rw [hleft, hvalue, Binary64.ofDecimal_mul_pow]
  · rw [Numeral.withoutZeros, if_neg he]

/-- Nothing but the sign is left if all the digits are zeros behind the point. -/
theorem Grammatical.dropZeros_text_of_pointedZeros (h : n.Grammatical) (hn : n.PointedZeros) :
    dropZeros n.text = n.sign := by
  obtain ⟨hfraction, hexponent⟩ := integral_iff.1 hn.2
  rw [h.dropZeros_text, text, withoutZeros_sign, withoutZeros_integer, withoutZeros_exponent, hn.1,
    hfraction, hexponent]
  simp

/-! ### What is dropped behind a numeral -/

/-- What is dropped behind a numeral: nothing, if some of its digits are left; otherwise points
with zeros behind them, or spaces in front of these that stay. -/
inductive DroppedBehind (n : Numeral) : List Char → Prop
  /-- The numeral ends the text. -/
  | nothing : ¬ n.PointedZeros → DroppedBehind n []
  /-- Points follow, and zeros. -/
  | points (points zeros : Nat) : n.exponent = none →
      DroppedBehind n (List.replicate (points + 1) '.' ++ List.replicate zeros '0')
  /-- Spaces follow, and then points and zeros; a point stands in front of the spaces or behind. -/
  | spaces (spaces points zeros : Nat) : n.exponent = none → n.fraction.isSome ∨ points ≠ 0 →
      DroppedBehind n (List.replicate (spaces + 1) ' ' ++
        (List.replicate points '.' ++ List.replicate zeros '0'))

/-- Points behind a numeral without an exponent can be dropped. -/
theorem Grammatical.exists_text_eq_dropTrailing (h : n.Grammatical) (he : n.exponent = none) :
    ∃ m : Numeral, m.Grammatical ∧ dropTrailing (· == '.') n.text = m.text := by
  have hlead : ∀ c ∈ (n.sign ++ n.integer).getLast?, (c == '.') = false := by
    intro c hc
    simpa using fun hpoint : c = '.' =>
      h.plain_lead c (List.mem_of_mem_getLast? hc) (by simp [hpoint])
  by_cases hf : n.fraction = some []
  · refine ⟨{ n with fraction := none },
      ⟨h.sign, h.integer, by simp, by simpa [hf] using h.digits, h.exponent⟩, ?_⟩
    rw [text_eq_of_exponent he, hf, Option.elim_some, dropTrailing_append _ (by simp),
      dropTrailing_eq_self hlead]
    simp [text, he]
  · refine ⟨n, h, dropTrailing_eq_self ?_⟩
    rw [text_eq_of_exponent he]
    cases hfraction : n.fraction with
    | none => simpa using hlead
    | some fraction =>
        have hne : fraction ≠ [] := by
          rintro rfl
          exact hf hfraction
        rw [Option.elim_some, ← List.singleton_append, ← List.append_assoc]
        exact getLast?_append_digits hne (h.fraction fraction hfraction)

end Text.Numeral

/-- What trimming leaves of a text stands between spaces. -/
theorem exists_append_of_trimSpaces (s : List Char) :
    ∃ i j, s = List.replicate i ' ' ++ trimSpaces s ++ List.replicate j ' ' := by
  obtain ⟨front, back, hs, hfront, hback⟩ := exists_append_of_trim (· == ' ') s
  refine ⟨front.length, back.length, ?_⟩
  rwa [← List.eq_replicate_of_mem fun c hc => by simpa using hfront c hc,
    ← List.eq_replicate_of_mem fun c hc => by simpa using hback c hc]

/-- A text is a numeral if it is the text of one with spaces around it. -/
theorem isNumeral_spaces (h : n.Grammatical) (i j : Nat) :
    isNumeral (List.replicate i ' ' ++ n.text ++ List.replicate j ' ') = true := by
  have htrim : trimSpaces (List.replicate i ' ' ++ n.text ++ List.replicate j ' ') = n.text :=
    trim_append (by simp) (by simp)
      (fun c hc => by simpa using h.ne_space c (List.mem_of_mem_head? hc))
      fun c hc => by simpa using h.ne_space c (List.mem_of_mem_getLast? hc)
  exact isNumeral_iff.2 ⟨n, by rw [htrim]; exact Numeral.whole?_eq_some_iff.2 ⟨h, rfl⟩⟩

/-- What is left of a numeral with such a text behind it is a numeral. -/
theorem isNumeral_dropZeros_append {rest : List Char} (h : n.Grammatical)
    (hrest : n.DroppedBehind rest) (i : Nat) :
    isNumeral (dropZeros (List.replicate i ' ' ++ n.text ++ rest)) = true := by
  rw [List.append_assoc, dropZeros_append_left fun c hc => by
    rw [List.eq_of_mem_replicate hc]; decide]
  cases hrest with
  | nothing hn =>
      rw [List.append_nil, h.dropZeros_text]
      simpa using isNumeral_spaces (h.withoutZeros hn) i 0
  | points points zeros he =>
      obtain ⟨m, hm, htext⟩ := h.exists_text_eq_dropTrailing he
      rw [dropZeros_append (.inr (Nat.succ_ne_zero points)) (h.unscaled he),
        if_neg (by simp), htext]
      simpa using isNumeral_spaces hm i 0
  | spaces spaces points zeros he hpoint =>
      have hplain : 'e' ∉ n.text ++ List.replicate (spaces + 1) ' ' ∧
          'E' ∉ n.text ++ List.replicate (spaces + 1) ' ' := by
        simpa using h.unscaled he
      have hlast : ∀ c ∈ (n.text ++ List.replicate (spaces + 1) ' ').getLast?, c = ' ' := by
        rw [List.replicate_succ', ← List.append_assoc, List.getLast?_concat]
        simp
      have hself {p : Char → Bool} (hp : p ' ' = false) :
          dropTrailing p (n.text ++ List.replicate (spaces + 1) ' ') =
            n.text ++ List.replicate (spaces + 1) ' ' :=
        dropTrailing_eq_self fun c hc => by rwa [hlast c hc]
      rw [← List.append_assoc, dropZeros_append _ hplain, hself (by rfl), ite_self, hself (by rfl)]
      · simpa using isNumeral_spaces h i (spaces + 1)
      · exact hpoint.imp_left fun hf => List.mem_append_left _ ((h.point_mem_text_iff he).2 hf)

/-- Zeros behind a fraction make a numeral with the same sign. -/
theorem Text.Numeral.Grammatical.exists_text_eq_append (h : n.Grammatical) (zeros : Nat)
    (hzeros : zeros ≠ 0 → n.exponent = none ∧ n.fraction.isSome) :
    ∃ m : Numeral, m.Grammatical ∧ m.sign = n.sign ∧
      m.text = n.text ++ List.replicate zeros '0' := by
  rcases Nat.eq_zero_or_pos zeros with rfl | hpos
  · exact ⟨n, h, rfl, by simp⟩
  · obtain ⟨he, hf⟩ := hzeros hpos.ne'
    obtain ⟨fraction, hf⟩ := Option.isSome_iff_exists.1 hf
    refine ⟨{ n with fraction := some (fraction ++ List.replicate zeros '0') },
      ⟨h.sign, h.integer, ?_, ?_, h.exponent⟩, rfl, by simp [Numeral.text, hf, he]⟩
    · rintro t ⟨rfl⟩ c hc
      rcases List.mem_append.1 hc with hc | hc
      · exact h.fraction fraction hf c hc
      · rw [List.eq_of_mem_replicate hc]
        rfl
    · simp [hpos.ne']

/-- **A text of which a numeral is left** is a numeral with spaces in front of it and behind it
what is dropped there. -/
theorem isNumeral_dropZeros_iff (hlast : ∀ c ∈ s.getLast?, c ≠ ' ') :
    isNumeral (dropZeros s) = true ↔ ∃ (i : Nat) (n : Numeral) (rest : List Char),
      s = List.replicate i ' ' ++ n.text ++ rest ∧ n.Grammatical ∧ n.DroppedBehind rest := by
  constructor
  · intro h
    obtain ⟨n, hn⟩ := isNumeral_iff.1 h
    obtain ⟨hg, htext⟩ := Numeral.whole?_eq_some_iff.1 hn
    obtain ⟨i, j, hleft⟩ := exists_append_of_trimSpaces (dropZeros s)
    obtain ⟨points, zeros, hs, hdropped⟩ := exists_append_of_dropZeros s
    rw [← htext] at hleft
    rw [hleft] at hs
    have hmem : ∀ c ∈ n.text, c ∈ s := fun c hc => by
      rw [hs]
      simp [hc]
    have hexponent : 'e' ∉ s ∧ 'E' ∉ s → n.exponent = none := fun he => by
      rw [← Option.not_isSome_iff_eq_none, ← hg.mark_mem_text_iff]
      exact not_or.2 ⟨mt (hmem 'e') he.1, mt (hmem 'E') he.2⟩
    rcases j with - | j
    · rw [List.replicate_zero, List.append_nil] at hs hleft
      rcases points with - | points
      · obtain ⟨m, hm, hsign, htext⟩ := hg.exists_text_eq_append zeros fun hne => by
          obtain ⟨hpoint, he⟩ := hdropped.resolve_right fun h => hne h.2
          refine ⟨hexponent he, (hg.point_mem_text_iff (hexponent he)).1 ?_⟩
          rw [hs] at hpoint
          simpa using hpoint
        have hs : s = List.replicate i ' ' ++ m.text := by
          rw [hs, htext]
          simp
        refine ⟨i, m, [], by rw [hs, List.append_nil], hm, .nothing fun hpointed => ?_⟩
        have hbare : n.text = n.sign := by
          rw [hs, dropZeros_append_left fun c hc => by rw [List.eq_of_mem_replicate hc]; decide,
            hm.dropZeros_text_of_pointedZeros hpointed, hsign] at hleft
          exact (List.append_cancel_left hleft).symm
        rw [Numeral.text_eq_append_body] at hbare
        exact hg.body_ne_nil (List.append_right_eq_self.1 hbare)
      · refine ⟨i, n, _, hs, hg, .points points zeros (hexponent ?_)⟩
        exact (hdropped.resolve_right fun h => Nat.succ_ne_zero points h.1).2
    · rcases hdropped with ⟨hpoint, he⟩ | ⟨rfl, rfl⟩
      · refine ⟨i, n, _, by rw [hs, List.append_assoc], hg,
          .spaces j points zeros (hexponent he) ?_⟩
        rw [← hg.point_mem_text_iff (hexponent he)]
        rw [hs] at hpoint
        simpa using hpoint
      · rw [List.replicate_zero, List.replicate_zero, List.append_nil, List.append_nil,
          List.replicate_succ', ← List.append_assoc] at hs
        rw [hs, List.getLast?_concat] at hlast
        exact absurd rfl (hlast ' ' rfl)
  · rintro ⟨i, n, rest, rfl, hn, hrest⟩
    exact isNumeral_dropZeros_append hn hrest i

end JsonPath
