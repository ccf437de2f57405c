import JsonPath.Proofs.Document.Grammar
import JsonPath.Proofs.Text.Stopping

/-!
# The Grammar of Numerals

A numeral has an optional sign, digits with an optional point and at least one digit on either
side of it, and an optional exponent (`Grammar.DecimalText`). Unlike a number of a document it
may have a plus sign, padding and a point that stands first or last.

A numeral is read part by part, and each part is read as long as it goes. So the parts that
are read are those that were written, if what follows the numeral continues none of them
(`Text.Numeral.scan_append`). A whole text is then read in exactly one way
(`Text.Numeral.whole?_eq_some_iff`).

## Main definitions

* `Grammar.DecimalText`: the texts that are numerals, rule by rule.
* `Text.Numeral.Grammatical`: the parts of a numeral are such as the grammar asks for.

## Main results

* `Text.Numeral.whole?_eq_some_iff`: **a text is read as the numeral that it is the text of**.
* `Grammar.decimalText_iff`: the texts that are numerals are those that are read.
-/

namespace JsonPath

open Text Grammar

/-- Digits, or digits with a point in front of them, among them or behind them. -/
inductive Grammar.Mantissa : List Char → Prop
  | whole {s : List Char} : Digits s → Mantissa s
  | pointed {s t : List Char} : (∀ c ∈ s, c.isDigit) → (∀ c ∈ t, c.isDigit) → s ++ t ≠ [] →
      Mantissa (s ++ '.' :: t)

/-- A numeral: an optional sign, a mantissa and an optional exponent. -/
inductive Grammar.DecimalText : List Char → Prop
  | mk {sign mantissa scale : List Char} : sign = [] ∨ sign = ['-'] ∨ sign = ['+'] →
      Mantissa mantissa → Scale scale → DecimalText (sign ++ mantissa ++ scale)

/-- The parts of a numeral are such as the grammar asks for. -/
structure Text.Numeral.Grammatical (n : Numeral) : Prop where
  /-- There is at most one sign. -/
  sign : n.sign = [] ∨ n.sign = ['-'] ∨ n.sign = ['+']
  /-- Only digits stand before the point. -/
  integer : ∀ c ∈ n.integer, c.isDigit
  /-- Only digits stand behind the point. -/
  fraction : ∀ s ∈ n.fraction, ∀ c ∈ s, c.isDigit
  /-- There is a digit before the point or behind it. -/
  digits : n.integer ++ n.fraction.getD [] ≠ []
  /-- The exponent has digits. -/
  exponent : ∀ e ∈ n.exponent, (e.mark = 'e' ∨ e.mark = 'E') ∧
    (e.sign = [] ∨ e.sign = ['-'] ∨ e.sign = ['+']) ∧ Digits e.digits

/-! ### The digits of a natural number -/

/-- A natural number is written with digits, and at least one. -/
theorem Grammar.digits_toDigits (n : Nat) : Digits (Nat.toDigits 10 n) :=
  ⟨Nat.toDigits_ne_nil, fun _ => Nat.isDigit_of_mem_toDigits (by decide) (by decide)⟩

/-- The digits of a number have its value. -/
theorem Grammar.digitsValue_toDigits (n : Nat) : digitsValue (Nat.toDigits 10 n) = n :=
  Nat.ofDigitChars_toDigits (by decide) (by decide)

/-- The digits of a number above zero do not begin with a zero. -/
theorem Grammar.head?_toDigits {n : Nat} (hn : 0 < n) :
    ∀ c ∈ (Nat.toDigits 10 n).head?, c ≠ '0' := by
  induction n using Nat.strongRecOn with
  | ind n ih =>
      rcases Nat.lt_or_ge n 10 with hlt | hge
      · have hdigit : ∀ n < 10, 0 < n → Nat.digitChar n ≠ '0' := by decide
        rw [Nat.toDigits_of_lt_base hlt]
        simpa using hdigit n hlt hn
      · obtain ⟨d, s, hs⟩ := List.exists_cons_of_ne_nil
          (Nat.toDigits_ne_nil (b := 10) (n := n / 10))
        intro c hc
        rw [Nat.toDigits_of_base_le (by decide) hge, hs, List.cons_append] at hc
        exact ih (n / 10) (by omega) (by omega) c (by rwa [hs])

/-- There are no superfluous zeros in front of the digits of a number. -/
theorem Grammar.whole_toDigits (n : Nat) : Whole (Nat.toDigits 10 n) := by
  rcases Nat.eq_zero_or_pos n with rfl | hn
  · exact .zero
  · obtain ⟨c, s, hs⟩ := List.exists_cons_of_ne_nil (Nat.toDigits_ne_nil (b := 10) (n := n))
    have hc : c ≠ '0' := head?_toDigits hn c (by rw [hs]; rfl)
    rw [hs]
    exact .digits hc (hs ▸ digits_toDigits n)

namespace Text

/-! ### The parts of a numeral -/

/-- A sign in front of what is none is split off. -/
theorem splitSign_append {sign after : List Char} (h : sign = [] ∨ sign = ['-'] ∨ sign = ['+'])
    (hafter : ∀ c ∈ after.head?, c ≠ '-' ∧ c ≠ '+') :
    splitSign (sign ++ after) = (sign, after) := by
  rcases h with rfl | rfl | rfl
  · rw [List.nil_append, splitSign]
    · rintro rest rfl
      exact (hafter '-' rfl).1 rfl
    · rintro rest rfl
      exact (hafter '+' rfl).2 rfl
  · rfl
  · rfl

/-- What is split off as a sign is a plus, a minus or nothing. -/
theorem splitSign_sign (s : List Char) :
    (splitSign s).1 = [] ∨ (splitSign s).1 = ['-'] ∨ (splitSign s).1 = ['+'] := by
  rw [splitSign.eq_def]
  split
  · exact .inr (.inl rfl)
  · exact .inr (.inr rfl)
  · exact .inl rfl

/-- What is split off as digits has digits only. -/
theorem isDigit_of_mem_splitDigits {s : List Char} : ∀ c ∈ (splitDigits s).1, c.isDigit :=
  fun _ => List.mem_takeWhile_imp

/-- A fraction in front of what cannot continue it is split off. -/
theorem splitFraction_append {fraction : Option (List Char)} {after : List Char}
    (h : ∀ s ∈ fraction, ∀ c ∈ s, c.isDigit)
    (hafter : ∀ c ∈ after.head?, c.isDigit = false ∧ c ≠ '.') :
    splitFraction (fraction.elim [] ('.' :: ·) ++ after) = (fraction, after) := by
  cases fraction with
  | none =>
      rw [Option.elim_none, List.nil_append, splitFraction]
      rintro rest rfl
      exact (hafter '.' rfl).2 rfl
  | some s =>
      rw [Option.elim_some, List.cons_append, splitFraction,
        splitDigits_append (h s rfl) fun c hc => (hafter c hc).1]

/-- What is split off as a fraction has digits only. -/
theorem isDigit_of_mem_splitFraction {s : List Char} :
    ∀ t ∈ (splitFraction s).1, ∀ c ∈ t, c.isDigit := by
  intro t ht
  rw [splitFraction.eq_def] at ht
  split at ht
  · obtain rfl := Option.some.inj ht
    exact isDigit_of_mem_splitDigits
  · cases ht

/-- An exponent in front of what cannot continue it is split off. -/
theorem splitExponent?_append {exponent : Option Exponent} {after : List Char}
    (h : ∀ e ∈ exponent, (e.mark = 'e' ∨ e.mark = 'E') ∧
      (e.sign = [] ∨ e.sign = ['-'] ∨ e.sign = ['+']) ∧ Digits e.digits)
    (hafter : ∀ c ∈ after.head?, c.isDigit = false ∧ c ≠ 'e' ∧ c ≠ 'E') :
    splitExponent? (exponent.elim [] Exponent.text ++ after) = some (exponent, after) := by
  cases exponent with
  | none =>
      rcases after with - | ⟨c, after⟩
      · rfl
      · have hc := hafter c rfl
        rw [Option.elim_none, List.nil_append, splitExponent?, if_neg (by simp [hc])]
  | some e =>
      obtain ⟨hmark, hsign, hne, hdigits⟩ := h e rfl
      have hsplit : splitSign (e.sign ++ (e.digits ++ after)) = (e.sign, e.digits ++ after) := by
        refine splitSign_append hsign ?_
        obtain ⟨d, t, ht⟩ := List.exists_cons_of_ne_nil hne
        have hd := hdigits d (by simp [ht])
        rw [ht]
        rintro c hc
        obtain rfl : d = c := by simpa using hc
        constructor <;> rintro rfl <;> exact absurd hd (by decide)
      simp only [Option.elim_some, Exponent.text, List.cons_append, List.append_assoc]
      rw [splitExponent?, if_pos hmark]
      simp only [hsplit, splitDigits_append hdigits fun c hc => (hafter c hc).1]
      rw [if_neg (by simpa using hne)]

/-- The exponent that is read is such as the grammar asks for. -/
theorem exponent_of_splitExponent? {s rest : List Char} {e : Exponent}
    (h : splitExponent? s = some (some e, rest)) : (e.mark = 'e' ∨ e.mark = 'E') ∧
      (e.sign = [] ∨ e.sign = ['-'] ∨ e.sign = ['+']) ∧ Digits e.digits := by
  rcases s with - | ⟨c, s⟩
  · cases h
  by_cases hmark : c = 'e' ∨ c = 'E'
  · rw [splitExponent?, if_pos hmark] at h
    dsimp only at h
    split at h
    · cases h
    · next hdigits =>
        obtain ⟨rfl, -⟩ := by simpa using h
        exact ⟨hmark, splitSign_sign s, by simpa using hdigits, isDigit_of_mem_splitDigits⟩
  · rw [splitExponent?, if_neg hmark] at h
    cases h

namespace Numeral

variable {n : Numeral} {s rest : List Char}

/-! ### Whole numerals -/

/-- No digit and no part of an exponent begins with a sign, so what follows the sign of a
numeral does not. -/
theorem Grammatical.unsigned_head (h : n.Grammatical) (after : List Char) :
    ∀ c ∈ (n.integer ++ (n.fraction.elim [] ('.' :: ·) ++ after)).head?, c ≠ '-' ∧ c ≠ '+' := by
  rcases hi : n.integer with - | ⟨d, integer⟩
  · cases hf : n.fraction with
    | none => exact absurd (by simp [hi, hf]) h.digits
    | some fraction =>
        intro c hc
        obtain rfl : '.' = c := by simpa using hc
        decide
  · intro c hc
    obtain rfl : d = c := by simpa using hc
    have hd := h.integer d (by simp [hi])
    constructor <;> rintro rfl <;> exact absurd hd (by decide)

/-- A numeral is read from its text if what follows continues no numeral. -/
theorem scan_append (h : n.Grammatical) {after : List Char} (hafter : ∀ c ∈ after.head?,
    c.isDigit = false ∧ c ≠ '.' ∧ c ≠ 'e' ∧ c ≠ 'E') :
    scan (n.text ++ after) = some (n, after) := by
  have hscale : ∀ c ∈ (n.exponent.elim [] Exponent.text ++ after).head?,
      c.isDigit = false ∧ c ≠ '.' := by
    cases he : n.exponent with
    | none => exact fun c hc => ⟨(hafter c hc).1, (hafter c hc).2.1⟩
    | some e =>
        intro c hc
        obtain rfl : e.mark = c := by simpa [Exponent.text] using hc
        rcases (h.exponent e he).1 with hmark | hmark <;> rw [hmark] <;> decide
  have hpoint : ∀ c ∈ (n.fraction.elim [] ('.' :: ·) ++
      (n.exponent.elim [] Exponent.text ++ after)).head?, c.isDigit = false := by
    cases hf : n.fraction with
    | none => exact fun c hc => (hscale c hc).1
    | some fraction =>
        intro c hc
        obtain rfl : '.' = c := by simpa using hc
        rfl
  simp only [scan, text, List.append_assoc, splitSign_append h.sign (h.unsigned_head _),
    splitDigits_append h.integer hpoint, splitFraction_append h.fraction hscale,
    splitExponent?_append h.exponent fun c hc => ⟨(hafter c hc).1, (hafter c hc).2.2⟩]
  rw [if_neg (by simpa using h.digits)]
  rfl

/-- The parts that are read are such as the grammar asks for. -/
theorem grammatical_of_scan (h : scan s = some (n, rest)) : n.Grammatical := by
  simp only [scan] at h
  split at h
  · cases h
  next hdigits =>
  obtain ⟨⟨e, r⟩, he, hn⟩ := Option.map_eq_some_iff.1 h
  obtain ⟨rfl, rfl⟩ := Prod.mk.inj hn
  refine ⟨splitSign_sign s, isDigit_of_mem_splitDigits, isDigit_of_mem_splitFraction,
    by simpa using hdigits, ?_⟩
  rintro e' rfl
  exact exponent_of_splitExponent? he

/-- **A text is read as the numeral that it is the text of**, and no other text is read. -/
theorem whole?_eq_some_iff : whole? s = some n ↔ n.Grammatical ∧ n.text = s := by
  rw [whole?]
  constructor
  · intro h
    split at h
    · next m hscan =>
        obtain rfl := Option.some.inj h
        exact ⟨grammatical_of_scan hscan, by simpa using text_append_of_scan hscan⟩
    · cases h
  · rintro ⟨h, rfl⟩
    have hscan : scan (n.text ++ []) = some (n, []) := scan_append h (by simp)
    rw [List.append_nil] at hscan
    rw [hscan]

/-- Digits are a numeral. -/
theorem grammatical_of_digits (h : Digits s) : (⟨[], s, none, none⟩ : Numeral).Grammatical :=
  ⟨.inl rfl, h.2, by simp, by simpa using h.1, by simp⟩

/-- A numeral is made of the characters of numerals. -/
theorem Grammatical.text_induction (h : n.Grammatical) {p : Char → Prop}
    (hsign : p '-' ∧ p '+') (hdigit : ∀ c, c.isDigit → p c) (hpoint : p '.')
    (hmark : p 'e' ∧ p 'E') : ∀ c ∈ n.text, p c := by
  have sign_imp {sign : List Char} (hs : sign = [] ∨ sign = ['-'] ∨ sign = ['+']) :
      ∀ c ∈ sign, p c := by
    rcases hs with rfl | rfl | rfl <;> simp [hsign]
  intro c hc
  simp only [text, List.mem_append] at hc
  rcases hc with ((hc | hc) | hc) | hc
  · exact sign_imp h.sign c hc
  · exact hdigit c (h.integer c hc)
  · cases hf : n.fraction with
    | none => simp [hf] at hc
    | some fraction =>
        rw [hf, Option.elim_some, List.mem_cons] at hc
        rcases hc with rfl | hc
        · exact hpoint
        · exact hdigit c (h.fraction fraction hf c hc)
  · cases he : n.exponent with
    | none => simp [he] at hc
    | some e =>
        obtain ⟨hm, hs, hd⟩ := h.exponent e he
        rw [he, Option.elim_some, Exponent.text, List.mem_cons, List.mem_append] at hc
        rcases hc with rfl | hc | hc
        · rcases hm with hm | hm <;> rw [hm]
          exacts [hmark.1, hmark.2]
        · exact sign_imp hs c hc
        · exact hdigit c (hd.2 c hc)

end Numeral

end Text

/-! ### The texts that are numerals -/

/-- The text of a numeral is one by the grammar. -/
theorem Text.Numeral.Grammatical.decimalText {n : Numeral} (h : n.Grammatical) :
    DecimalText n.text := by
  have hscale : Scale (n.exponent.elim [] Exponent.text) := by
    cases he : n.exponent with
    | none => exact .none
    | some e =>
        obtain ⟨hmark, hsign, hdigits⟩ := h.exponent e he
        exact .digits hmark hsign hdigits
  have hmantissa : Mantissa (n.integer ++ n.fraction.elim [] ('.' :: ·)) := by
    cases hf : n.fraction with
    | none =>
        rw [Option.elim_none, List.append_nil]
        exact .whole ⟨by simpa [hf] using h.digits, h.integer⟩
    | some fraction =>
        exact .pointed h.integer (h.fraction fraction hf) (by simpa [hf] using h.digits)
  rw [Numeral.text, List.append_assoc n.sign]
  exact .mk h.sign hmantissa hscale

/-- **The texts that are numerals** by the grammar are those that are read as one. -/
theorem Grammar.decimalText_iff {s : List Char} :
    DecimalText s ↔ ∃ n, Numeral.whole? s = some n := by
  simp only [Numeral.whole?_eq_some_iff]
  constructor
  · rintro @⟨sign, mantissa, scale, hsign, hmantissa, hscale⟩
    obtain ⟨e, he, hscale⟩ : ∃ e : Option Exponent, e.elim [] Exponent.text = scale ∧
        ∀ f ∈ e, (f.mark = 'e' ∨ f.mark = 'E') ∧
          (f.sign = [] ∨ f.sign = ['-'] ∨ f.sign = ['+']) ∧ Digits f.digits := by
      cases hscale with
      | none => exact ⟨none, rfl, by simp⟩
      | @digits mark sign digits hmark hsign hdigits =>
          exact ⟨some ⟨mark, sign, digits⟩, rfl, by simpa using ⟨hmark, hsign, hdigits⟩⟩
    cases hmantissa with
    | whole hdigits =>
        exact ⟨⟨sign, mantissa, none, e⟩,
          ⟨hsign, hdigits.2, by simp, by simpa using hdigits.1, hscale⟩, by simp [Numeral.text, he]⟩
    | @pointed integer fraction hinteger hfraction hne =>
        exact ⟨⟨sign, integer, some fraction, e⟩,
          ⟨hsign, hinteger, by simpa using hfraction, by simpa using hne, hscale⟩,
          by simp [Numeral.text, he]⟩
  · rintro ⟨n, hn, rfl⟩
    exact hn.decimalText

end JsonPath
