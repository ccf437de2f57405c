import JsonPath.Proofs.Operand.Conversions
import JsonPath.Proofs.Operand.Stripping

/-!
# Which Texts Are Taken for Numbers

A text is taken for a number if what stands between its quotes and spaces is a numeral, and the
number that is stored is then the one that the numeral denotes: an integer if it can be one,
otherwise a double (`Text.Numeral.stored`, `ofNumeric?_of_numeral`). But this part is not looked
at before padding is dropped in front of it and zeros and points behind it. So

* a numeral is refused if no digit is left of it, such as `.0` (`Text.Numeral.PointedZeros`), and
* a text that is no numeral is taken for a number if a numeral is left of it, such as `+-1`, `0 5`
  or `5..` (`NumeralWithin`).

There are no other exceptions (`Operand.recognisesNumeral_iff`). What can stand around a numeral
that is left follows from what each step drops: behind it from the zeros and points
(`isNumeral_dropZeros_iff`), in front of it from the sign and the padding
(`exists_append_of_unpad_true`). The two do not quite go together: where a point stands behind
spaces, dropping padding takes a numeral of zeros alone with it (`Text.Numeral.Anchored`).

## Main definitions

* `Text.Numeral.stored`: the operand that stands for a numeral.
* `NumeralWithin`: the texts that are taken for numbers.
* `Operand.RecognisesNumeral`: a text is recognised as the numeral that it is, or as none.

## Main results

* `ofNumeric?_of_numeral`: **a numeral is stored as the number it denotes**.
* `isSome_ofNumeric?_iff_numeralWithin`: **which texts are taken for numbers**.
* `Operand.recognisesNumeral_iff`: **which texts are recognised as they should be**.
-/

namespace JsonPath

open Text

variable {s rest : List Char} {n : Numeral}

/-! ### The number that is stored -/

/-- Digits behind at most a plus sign, with nothing but zeros behind a point. -/
def Text.Numeral.Natural (n : Numeral) : Prop :=
  n.sign ≠ ['-'] ∧ n.integer ≠ [] ∧ n.Integral

instance (n : Numeral) : Decidable n.Natural :=
  inferInstanceAs (Decidable (_ ∧ _))

/-- The operand that stands for a numeral: an integer if it is one that 64 bits hold, otherwise a
double. -/
def Text.Numeral.stored (n : Numeral) : Operand :=
  if n.Natural ∧ digitsValue n.integer < UInt64.size then
    .unsigned (.ofNat (digitsValue n.integer))
  else
    .double (.ofDecimal n.value)

/-- A numeral is nothing but digits if it has no sign, no point and no exponent. -/
theorem Text.Numeral.Grammatical.forall_isDigit_text_iff (h : n.Grammatical) :
    (∀ c ∈ n.text, c.isDigit) ↔ n.sign = [] ∧ n.fraction = none ∧ n.exponent = none := by
  constructor
  · intro hall
    refine ⟨?_, ?_, ?_⟩
    · rcases h.sign with hsign | hsign | hsign
      · exact hsign
      · exact absurd (hall '-' (by simp [Numeral.text, hsign])) (by decide)
      · exact absurd (hall '+' (by simp [Numeral.text, hsign])) (by decide)
    · rw [Option.eq_none_iff_forall_ne_some]
      intro fraction hfraction
      exact absurd (hall '.' (by simp [Numeral.text, hfraction])) (by decide)
    · rw [← Option.not_isSome_iff_eq_none, ← h.mark_mem_text_iff]
      rintro (he | he)
      exacts [absurd (hall 'e' he) (by decide), absurd (hall 'E' he) (by decide)]
  · rintro ⟨hsign, hfraction, hexponent⟩
    simpa [Numeral.text, hsign, hfraction, hexponent] using h.integer

/-- A numeral is taken for an integer if it is nothing but digits and 64 bits hold it. -/
theorem unsignedOf?_text (h : n.Grammatical) : unsignedOf? n.text =
    if (n.sign = [] ∧ n.fraction = none ∧ n.exponent = none) ∧
        digitsValue n.integer < UInt64.size then
      some (.ofNat (digitsValue n.integer))
    else none := by
  have hall : n.text.all Char.isDigit = true ↔
      n.sign = [] ∧ n.fraction = none ∧ n.exponent = none := by
    rw [List.all_eq_true, h.forall_isDigit_text_iff]
  by_cases hplain : n.sign = [] ∧ n.fraction = none ∧ n.exponent = none
  · have htext : n.text = n.integer := by simp [Numeral.text, hplain]
    have hne : n.integer ≠ [] := by simpa [hplain] using h.digits
    rw [unsignedOf?, hall.2 hplain, htext]
    simp [hne, hplain]
  · rw [unsignedOf?, Bool.eq_false_iff.2 (mt hall.1 hplain), if_neg (by simp),
      if_neg fun h => hplain h.1]

/-- Making a numeral bare brings in no digits in front of a point and takes none away. -/
theorem pointedZeros_bare_iff : n.bare.PointedZeros ↔ n.PointedZeros :=
  and_congr_left fun _ => unpadDigits_eq_nil_iff

/-- What is left of a numeral is taken for an integer if the numeral is a natural number that 64
bits hold. -/
theorem unsignedOf?_of_numeral (h : n.Grammatical) (hs : unquoted s = n.text)
    (hn : ¬ n.PointedZeros) : unsignedOf? (dropZeros (unpad true s)) =
      if n.Natural ∧ digitsValue n.integer < UInt64.size then some (.ofNat (digitsValue n.integer))
      else none := by
  have hg := h.bare.withoutZeros (mt pointedZeros_bare_iff.1 hn)
  have hnatural : (n.bare.withoutZeros.sign = [] ∧ n.bare.withoutZeros.fraction = none ∧
      n.bare.withoutZeros.exponent = none) ↔ n.Natural := by
    rw [Numeral.withoutZeros_sign, h.sign_bare_eq_nil_iff, Numeral.withoutZeros_exponent,
      ← Numeral.integral_iff, Numeral.Natural]
    exact and_congr_right fun _ => ⟨fun hi => ⟨fun hnil => hn ⟨hnil, hi⟩, hi⟩, And.right⟩
  have hdigits : digitsValue n.bare.withoutZeros.integer = digitsValue n.integer := by
    rw [Numeral.withoutZeros_integer]
    exact digitsValue_unpadDigits n.integer
  rw [unpad_true_eq_text h hs, h.bare.dropZeros_text, unsignedOf?_text hg, hdigits]
  simp only [hnatural]

/-- **A numeral is stored as the number it denotes**, if any of its digits are left. -/
theorem ofNumeric?_of_numeral (h : n.Grammatical) (hs : unquoted s = n.text)
    (hn : ¬ n.PointedZeros) : Operand.ofNumeric? s = some n.stored := by
  have hg := h.bare.withoutZeros (mt pointedZeros_bare_iff.1 hn)
  have hplus : (unpad true s).head? ≠ some '+' := by
    rw [unpad_true_eq_text h hs]
    exact h.head_text_bare
  have hnumber : numberOf? (dropZeros (unpad true s)) = some (.ofDecimal n.value) := by
    rw [unpad_true_eq_text h hs, h.bare.dropZeros_text, numberOf?_text hg,
      Numeral.ofDecimal_value_withoutZeros, Numeral.value_bare]
  simp only [Operand.ofNumeric?, if_neg hplus, unsignedOf?_of_numeral h hs hn, hnumber,
    Numeral.stored]
  split_ifs <;> rfl

/-! ### Texts of which a numeral is left -/

/-- A text is taken for a number if a numeral is left of it, and not a second sign. -/
theorem isSome_ofNumeric?_iff : (Operand.ofNumeric? s).isSome ↔
    (unpad true s).head? ≠ some '+' ∧ isNumeral (dropZeros (unpad true s)) = true := by
  have hdigits {t : List Char} {m : UInt64} (h : unsignedOf? t = some m) : isNumeral t = true := by
    rw [unsignedOf?] at h
    split at h
    · next hd =>
        have hd : t ≠ [] ∧ ∀ c ∈ t, c.isDigit := by
          simpa only [Bool.and_eq_true, Bool.not_eq_true', List.isEmpty_eq_false_iff,
            List.all_eq_true] using And.left (by simpa using hd)
        exact isNumeral_of_digits hd
    · cases h
  rw [Operand.ofNumeric?]
  split
  · next hplus => simp [hplus]
  · next hplus =>
      cases hinteger : unsignedOf? (dropZeros (unpad true s)) with
      | some m => simp [hplus, hdigits hinteger]
      | none => simp [hplus, numberOf?_isSome_iff]

/-- A numeral is taken for no number if no digit is left of it. -/
theorem ofNumeric?_of_pointedZeros (h : n.Grammatical) (hs : unquoted s = n.text)
    (hn : n.PointedZeros) : Operand.ofNumeric? s = none := by
  have hunpad := unpad_true_eq_text h hs
  rw [← Option.not_isSome_iff_eq_none, isSome_ofNumeric?_iff, hunpad,
    h.bare.dropZeros_text_of_pointedZeros (pointedZeros_bare_iff.2 hn)]
  rintro ⟨-, hnumeral⟩
  rcases h.bare.sign with hsign | hsign | hsign <;> rw [hsign] at hnumeral <;>
    exact absurd hnumeral (by decide)

/-! ### What stands around the numeral -/

namespace Text.Numeral

/-- What is dropped in front of a numeral: nothing; or a plus sign and zeros, if the numeral has a
minus sign; or these and spaces behind them that stay. -/
inductive DroppedBefore (n : Numeral) : List Char → Prop
  /-- The text begins with the numeral. -/
  | nothing : DroppedBefore n []
  /-- A plus sign and zeros stand in front of a minus sign. -/
  | padding {plus : List Char} (zeros : Nat) : plus = [] ∨ plus = ['+'] → n.sign = ['-'] →
      DroppedBefore n (plus ++ List.replicate zeros '0')
  /-- A plus sign and zeros stand in front of spaces. -/
  | spaces {plus : List Char} (zeros spaces : Nat) : plus = [] ∨ plus = ['+'] →
      DroppedBefore n (plus ++ List.replicate zeros '0' ++ List.replicate (spaces + 1) ' ')

/-- The sign and padding do not matter for what is dropped behind a numeral. -/
theorem DroppedBehind.of_eq {m : Numeral} (h : n.DroppedBehind rest)
    (hfraction : m.fraction = n.fraction) (hexponent : m.exponent = n.exponent)
    (hinteger : m.integer = [] → n.integer = []) : m.DroppedBehind rest := by
  cases h with
  | nothing hn =>
      refine .nothing fun hm => hn ⟨hinteger hm.1, ?_⟩
      have := hm.2
      rwa [Integral, hfraction, hexponent] at this
  | points points zeros he => exact .points points zeros (hexponent.trans he)
  | spaces spaces points zeros he hpoint =>
      exact .spaces spaces points zeros (hexponent.trans he) (by rwa [hfraction])

/-- The digits of a numeral stay if dropping padding leaves the numeral. -/
theorem Grammatical.anchored_padded (h : n.Grammatical) (hrest : n.DroppedBehind rest) {k : Nat}
    (hself : unpadDigits (List.replicate k '0' ++ (n.body ++ rest)) = n.body ++ rest) :
    (n.padded k).Anchored rest := by
  cases hrest with
  | nothing => exact .inl (by simp)
  | points points zeros he => exact .inl (by simp [List.replicate_succ])
  | spaces spaces points zeros he =>
      refine .inr (or_iff_not_imp_left.2 fun hfraction => ?_)
      by_contra hzeros
      have hbody : n.body = List.replicate n.integer.length '0' := by
        have hinteger : n.integer = List.replicate n.integer.length '0' := by
          refine List.eq_replicate_of_mem fun c hc => ?_
          by_contra hne
          exact hzeros ⟨c, List.mem_append_right _ hc, hne⟩
        have hnone : n.fraction = none := Option.not_isSome_iff_eq_none.1 hfraction
        simpa [body, hnone, he] using hinteger
      rw [hbody, ← List.append_assoc, ← List.replicate_add,
        unpadDigits_replicate_append_of_head (c := ' ') _ (by simp [List.replicate_succ])
          (by decide), ← hbody] at hself
      exact h.body_ne_nil (List.append_left_eq_self.1 hself.symm)

end Text.Numeral

/-- A numeral stands in a text, and around it nothing but what is dropped there. -/
def NumeralWithin (t : List Char) : Prop :=
  ∃ (front : List Char) (n : Numeral) (rest : List Char), t = front ++ n.text ++ rest ∧
    n.Grammatical ∧ n.DroppedBefore front ∧ n.DroppedBehind rest ∧ (front = [] → n.Anchored rest)

/-- **What padding is dropped**: zeros behind a plus sign or in front of the text, or zeros behind
a minus sign. -/
theorem exists_append_of_unpad_true (s : List Char) :
    (∃ plus zeros, (plus = [] ∨ plus = ['+']) ∧
      unquoted s = plus ++ List.replicate zeros '0' ++ unpad true s ∧
      unpadDigits (List.replicate zeros '0' ++ unpad true s) = unpad true s ∧
      (plus ++ List.replicate zeros '0' = [] → (unpad true s).head? ≠ some '-')) ∨
    ∃ zeros digits, unquoted s = '-' :: (List.replicate zeros '0' ++ digits) ∧
      unpad true s = '-' :: digits ∧
      unpadDigits (List.replicate zeros '0' ++ digits) = digits := by
  obtain ⟨digits, ht⟩ | ⟨digits, ht⟩ | hunsigned := sign_cases (unquoted s)
  · obtain ⟨zeros, hzeros⟩ := exists_eq_replicate_append_unpadDigits digits
    have hunpad : unpad true s = unpadDigits digits := unpad_of_plus _ ht
    refine .inl ⟨['+'], zeros, .inr rfl, ?_, ?_, by simp⟩
    · rw [List.append_assoc, hunpad, ← hzeros, ht]
      rfl
    · rw [hunpad, ← hzeros]
  · obtain ⟨zeros, hzeros⟩ := exists_eq_replicate_append_unpadDigits digits
    exact .inr ⟨zeros, unpadDigits digits, by rw [ht, ← hzeros], unpad_of_minus _ ht,
      by rw [← hzeros]⟩
  · obtain ⟨zeros, hzeros⟩ := exists_eq_replicate_append_unpadDigits (unquoted s)
    have hunpad := unpad_of_unsigned true hunsigned
    refine .inl ⟨[], zeros, .inl rfl, ?_, ?_, fun hnil hhead => ?_⟩
    · rw [List.nil_append, hunpad, ← hzeros]
    · rw [hunpad, ← hzeros]
    · obtain rfl : zeros = 0 := by simpa using hnil
      rw [List.replicate_zero, List.nil_append, ← hunpad] at hzeros
      rw [← hzeros] at hhead
      exact (hunsigned '-' hhead).1 rfl

/-- What is dropped in front of a space or of a minus sign. -/
theorem unpad_true_of_padding {plus : List Char} (zeros : Nat) {c : Char}
    (hplus : plus = [] ∨ plus = ['+'])
    (hs : unquoted s = plus ++ List.replicate zeros '0' ++ rest) (hc : c ∈ rest.head?)
    (hhead : c = ' ' ∨ c = '-' ∧ plus ++ List.replicate zeros '0' ≠ []) : unpad true s = rest := by
  have hne : c ∉ ['0', '.', 'e', 'E'] := by
    rcases hhead with rfl | ⟨rfl, -⟩ <;> decide
  have hunpad := unpadDigits_replicate_append_of_head zeros hc hne
  rcases hplus with rfl | rfl
  · rw [List.nil_append] at hs
    rw [unpad_of_unsigned, hs, hunpad]
    rw [hs]
    intro d hd
    rcases zeros with - | zeros
    · obtain rfl : c = ' ' := by simpa using hhead
      rw [List.replicate_zero, List.nil_append, hc] at hd
      obtain rfl := Option.some.inj hd
      decide
    · obtain rfl : '0' = d := by simpa [List.replicate_succ] using hd
      decide
  · have hs : unquoted s = '+' :: (List.replicate zeros '0' ++ rest) := hs
    rw [unpad_of_plus _ hs, if_pos rfl, hunpad]

/-- Where a numeral stands in a text, that numeral is left of it. -/
theorem NumeralWithin.exists_unpad (h : NumeralWithin (unquoted s)) :
    (unpad true s).head? ≠ some '+' ∧ ∃ (i : Nat) (m : Numeral) (rest : List Char),
      unpad true s = List.replicate i ' ' ++ m.text ++ rest ∧ m.Grammatical ∧
        m.DroppedBehind rest := by
  obtain ⟨front, n, rest, hs, hn, hfront, hrest, hanchored⟩ := h
  rcases eq_or_ne front [] with rfl | hne
  · have hunpad := unpad_true_eq_append hn hs (hanchored rfl)
    refine ⟨?_, 0, n.bare, rest, hunpad, hn.bare, hrest.of_eq rfl rfl unpadDigits_eq_nil_iff.1⟩
    have hbare : n.bare.text ≠ [] := by
      rw [Numeral.text_eq_append_body]
      exact List.append_ne_nil_of_right_ne_nil _ hn.bare.body_ne_nil
    rw [hunpad, List.head?_append_of_ne_nil _ hbare]
    exact hn.head_text_bare
  · cases hfront with
    | nothing => exact absurd rfl hne
    | padding zeros hplus hsign =>
        have hhead : '-' ∈ (n.text ++ rest).head? := by simp [Numeral.text, hsign]
        have hunpad := unpad_true_of_padding zeros hplus (by rwa [List.append_assoc] at hs) hhead
          (.inr ⟨rfl, hne⟩)
        exact ⟨by rw [hunpad, hhead]; decide, 0, n, rest, hunpad, hn, hrest⟩
    | spaces zeros spaces hplus =>
        have hhead : ' ' ∈ (List.replicate (spaces + 1) ' ' ++ n.text ++ rest).head? := by
          simp [List.replicate_succ]
        have hunpad : unpad true s = List.replicate (spaces + 1) ' ' ++ n.text ++ rest :=
          unpad_true_of_padding zeros hplus (by rw [hs]; simp only [List.append_assoc]) hhead
            (.inl rfl)
        exact ⟨by rw [hunpad, hhead]; decide, spaces + 1, n, rest, hunpad, hn, hrest⟩

/-- Where a minus sign comes first, it is the sign of the numeral. -/
theorem Text.Numeral.Grammatical.eq_body_append_of_minus {digits : List Char} (h : n.Grammatical)
    (hs : '-' :: digits = n.text ++ rest) : n.sign = ['-'] ∧ digits = n.body ++ rest := by
  rw [Numeral.text_eq_append_body, List.append_assoc] at hs
  rcases h.sign with hnone | hnegative | hpositive
  · have hhead := congrArg List.head? hs
    rw [hnone, List.nil_append, List.head?_append_of_ne_nil _ h.body_ne_nil] at hhead
    exact absurd rfl (h.head_body '-' hhead.symm).1
  · rw [hnegative] at hs
    exact ⟨hnegative, (List.cons.inj hs).2⟩
  · rw [hpositive] at hs
    exact absurd (List.cons.inj hs).1 (by decide)

/-- The sign and the padding in front of a numeral are parts of one that begins the text. -/
theorem numeralWithin_of_body {sign : List Char} {zeros : Nat} (hn : n.Grammatical)
    (hsign : sign = [] ∨ sign = ['-'] ∨ sign = ['+']) (hrest : n.DroppedBehind rest)
    (hself : unpadDigits (List.replicate zeros '0' ++ (n.body ++ rest)) = n.body ++ rest) :
    NumeralWithin (sign ++ (List.replicate zeros '0' ++ (n.body ++ rest))) := by
  refine ⟨[], { n.padded zeros with sign }, rest, ?_, (hn.padded zeros).withSign hsign, .nothing,
    hrest.of_eq rfl rfl fun hnil => (List.append_eq_nil_iff.1 hnil).2,
    fun _ => hn.anchored_padded hrest hself⟩
  rw [← List.append_assoc (List.replicate zeros '0'), ← Numeral.body_padded, ← List.append_assoc,
    List.nil_append, Numeral.text_eq_append_body]
  rfl

/-- Where a numeral is left of a text, it stands in that text. -/
theorem numeralWithin_of_unpad {i : Nat} (hplus : (unpad true s).head? ≠ some '+')
    (hs : unpad true s = List.replicate i ' ' ++ n.text ++ rest) (hn : n.Grammatical)
    (hrest : n.DroppedBehind rest) : NumeralWithin (unquoted s) := by
  obtain ⟨plus, zeros, hsign, ht, hself, hminus⟩ | ⟨zeros, digits, ht, hunpad, hself⟩ :=
    exists_append_of_unpad_true s
  · rw [hs] at ht hself hplus hminus
    rcases i with - | i
    · rw [List.replicate_zero, List.nil_append] at ht hself hplus hminus
      rcases hn.sign with hnone | hnegative | hpositive
      · rw [Numeral.text_eq_append_body, hnone, List.nil_append] at ht hself
        rw [ht, List.append_assoc]
        exact numeralWithin_of_body hn (hsign.imp_right .inr) hrest hself
      · refine ⟨plus ++ List.replicate zeros '0', n, rest, ?_, hn, .padding zeros hsign hnegative,
          hrest, fun hnil => absurd ?_ (hminus hnil)⟩
        · rw [ht, List.append_assoc _ n.text]
        · simp [Numeral.text, hnegative]
      · exact absurd (by simp [Numeral.text, hpositive]) hplus
    · refine ⟨plus ++ List.replicate zeros '0' ++ List.replicate (i + 1) ' ', n, rest, ?_, hn,
        .spaces zeros i hsign, hrest, fun hnil => ?_⟩
      · rw [ht]
        simp only [List.append_assoc]
      · simp [List.replicate_succ] at hnil
  · rw [hunpad] at hs
    rcases i with - | i
    · obtain ⟨-, rfl⟩ := hn.eq_body_append_of_minus hs
      rw [ht]
      exact numeralWithin_of_body hn (.inr (.inl rfl)) hrest hself
    · simp [List.replicate_succ] at hs

/-- **Texts taken for numbers** are those in which a numeral stands. -/
theorem isSome_ofNumeric?_iff_numeralWithin :
    (Operand.ofNumeric? s).isSome ↔ NumeralWithin (unquoted s) := by
  rw [isSome_ofNumeric?_iff]
  constructor
  · rintro ⟨hplus, hnumeral⟩
    obtain ⟨i, n, rest, hs, hn, hrest⟩ :=
      (isNumeral_dropZeros_iff (getLast?_unpad true s)).1 hnumeral
    exact numeralWithin_of_unpad hplus hs hn hrest
  · intro h
    obtain ⟨hplus, i, m, rest, hs, hm, hrest⟩ := h.exists_unpad
    exact ⟨hplus, by rw [hs]; exact isNumeral_dropZeros_append hm hrest i⟩

namespace Operand

/-- A text is recognised as the numeral that it is, spaces and quotes around it aside, and the
number is stored. If it is no numeral, the operand stays as it is. -/
def RecognisesNumeral (v : Operand) (s : List Char) : Prop :=
  (isNumeral (unquoted s) = true → ∃ n, Numeral.whole? (unquoted s) = some n ∧
    v.setNumeric s = (n.stored, true)) ∧
  (isNumeral (unquoted s) = false → v.setNumeric s = (v, false))

/-- A text that has a numeric value sets it. -/
theorem setNumeric_of_eq_some {v w : Operand} (h : ofNumeric? s = some w) :
    v.setNumeric s = (w, true) := by
  rw [setNumeric, h]

/-- A text that has no numeric value leaves the old one. -/
theorem setNumeric_of_eq_none {v : Operand} (h : ofNumeric? s = none) :
    v.setNumeric s = (v, false) := by
  rw [setNumeric, h]

/-- **Which texts are recognised as they should be**: the numerals, if not all their digits are
zeros behind the point, and of the other texts those in which no numeral stands. -/
theorem recognisesNumeral_iff (v : Operand) (s : List Char) : v.RecognisesNumeral s ↔
    (∀ n, Numeral.whole? (unquoted s) = some n → ¬ n.PointedZeros) ∧
      (isNumeral (unquoted s) = false → ¬ NumeralWithin (unquoted s)) := by
  have hsome {w : Operand} (hw : v.setNumeric s = (w, true)) : (ofNumeric? s).isSome := by
    rw [setNumeric] at hw
    split at hw
    · next h => rw [h]; rfl
    · cases hw
  constructor
  · rintro ⟨hnumeral, hother⟩
    refine ⟨fun n hn hpointed => ?_, fun h hwithin => ?_⟩
    · obtain ⟨hg, htext⟩ := Numeral.whole?_eq_some_iff.1 hn
      obtain ⟨m, -, hm⟩ := hnumeral (by rw [← htext]; exact isNumeral_text hg)
      have hnone := ofNumeric?_of_pointedZeros hg htext.symm hpointed
      exact absurd (hsome hm) (by simp [hnone])
    · obtain ⟨w, hw⟩ := Option.isSome_iff_exists.1 (isSome_ofNumeric?_iff_numeralWithin.2 hwithin)
      rw [setNumeric_of_eq_some hw] at hother
      cases hother h
  · rintro ⟨hpointed, hwithin⟩
    refine ⟨fun h => ?_, fun h => ?_⟩
    · obtain ⟨n, hg, htext⟩ := isNumeral_unquoted_iff.1 h
      have hn : Numeral.whole? (unquoted s) = some n := Numeral.whole?_eq_some_iff.2 ⟨hg, htext⟩
      exact ⟨n, hn, setNumeric_of_eq_some (ofNumeric?_of_numeral hg htext.symm (hpointed n hn))⟩
    · refine setNumeric_of_eq_none ?_
      rw [← Option.not_isSome_iff_eq_none, isSome_ofNumeric?_iff_numeralWithin]
      exact hwithin h

/-- Two signs in front of a digit are taken for a number, and so are two points behind one, but a
zero behind a point is not. So not all texts are recognised as they should be. -/
theorem not_forall_recognisesNumeral :
    (isNumeral (unquoted ['+', '-', '1']) = false ∧
      absent.setNumeric ['+', '-', '1'] = (double (.ofDecimal ⟨true, 1, 0⟩), true)) ∧
    (isNumeral (unquoted ['5', '.', '.']) = false ∧
      absent.setNumeric ['5', '.', '.'] = (unsigned 5, true)) ∧
    (isNumeral (unquoted ['.', '0']) = true ∧ absent.setNumeric ['.', '0'] = (absent, false)) ∧
      ¬ ∀ v s, RecognisesNumeral v s := by
  have hnumeral : isNumeral (unquoted ['+', '-', '1']) = false := by decide
  have hset : absent.setNumeric ['+', '-', '1'] = (double (.ofDecimal ⟨true, 1, 0⟩), true) := by
    decide +kernel
  refine ⟨⟨hnumeral, hset⟩, ⟨by decide, by decide⟩, ⟨by decide, by decide⟩, fun h => ?_⟩
  have hother := (h absent ['+', '-', '1']).2 hnumeral
  rw [hset] at hother
  cases hother

end Operand

end JsonPath
