import JsonPath.Operand.Conversion
import JsonPath.Proofs.Operand.Numerals

/-!
# Padding in Front of Digits

Before a text is converted to a number, the zeros in front of its digits are dropped, all but
one if no digit would be left before a point, an exponent or the end (`unpadDigits`). Nothing
but zeros is dropped (`exists_eq_replicate_append_unpadDigits`), so the other way round a text
is what is left of it with zeros in front.

Of the parts of a numeral only the digits before the point are changed
(`Text.Numeral.unpadDigits_body`). What is left is a numeral (`Text.Numeral.unpadded`) of the
same value, since zeros in front of digits stand for nothing (`digitsValue_replicate_append`).

## Main definitions

* `Text.Numeral.padded`, `Text.Numeral.unpadded`: a numeral with zeros in front of its digits,
  and without them.
* `Text.Numeral.bare`: a numeral without padding and without a plus sign.

## Main results

* `unpadDigits_eq_self`, `unpadDigits_replicate_append_of_bare`,
  `unpadDigits_replicate_append_of_head`: what dropping padding does, case by case.
* `unpad_false_eq_text`, `unpad_true_eq_append`: **what is left of a numeral** before a
  conversion to a double, and to an integer.
-/

namespace JsonPath

open Text

variable {s rest : List Char} {n : Numeral}

/-! ### Zeros in front of a text -/

/-- Every text is zeros and a rest that begins with none. -/
theorem exists_eq_replicate_append (s : List Char) :
    ∃ k rest, s = List.replicate k '0' ++ rest ∧ ∀ c ∈ rest.head?, c ≠ '0' := by
  refine ⟨(s.takeWhile (· == '0')).length, s.dropWhile (· == '0'), ?_, ?_⟩
  · have hzeros : s.takeWhile (· == '0') = List.replicate (s.takeWhile (· == '0')).length '0' :=
      List.eq_replicate_of_mem fun c hc => by simpa using List.mem_takeWhile_imp hc
    rw [← hzeros, List.takeWhile_append_dropWhile]
  · intro c hc
    simpa using head_dropWhile_eq_false c hc

/-- A text that does not begin with a zero has no padding. -/
theorem unpadDigits_eq_self (h : ∀ c ∈ s.head?, c ≠ '0') : unpadDigits s = s := by
  have hdrop : s.dropWhile (· == '0') = s :=
    dropWhile_append_eq (s := []) (by simp) (by simpa using h)
  rw [unpadDigits]
  simp [hdrop]

/-- One of the zeros stays in front of a point, an exponent or the end. -/
theorem unpadDigits_replicate_append_of_bare {k : Nat} (hk : k ≠ 0)
    (h : ∀ c ∈ rest.head?, c ∈ ['.', 'e', 'E']) :
    unpadDigits (List.replicate k '0' ++ rest) = '0' :: rest := by
  have hzero : ∀ c ∈ rest.head?, c ≠ '0' := by
    rintro c hc rfl
    exact absurd (h '0' hc) (by decide)
  have hdrop : (List.replicate k '0' ++ rest).dropWhile (· == '0') = rest :=
    dropWhile_append_eq (by simp) (by simpa using hzero)
  rw [unpadDigits]
  simp only [hdrop]
  rcases rest with - | ⟨c, rest⟩
  · simp [Nat.pos_of_ne_zero hk]
  · have hc : c = '.' ∨ c = 'e' ∨ c = 'E' := by simpa using h c rfl
    rw [if_pos]
    simpa [Nat.pos_of_ne_zero hk, or_assoc] using hc

/-- All zeros go in front of what is no part of a number. -/
theorem unpadDigits_replicate_append_of_head (k : Nat) {c : Char} (hc : c ∈ rest.head?)
    (hne : c ∉ ['0', '.', 'e', 'E']) : unpadDigits (List.replicate k '0' ++ rest) = rest := by
  obtain ⟨rest, rfl⟩ := List.head?_eq_some_iff.1 hc
  have hne : c ≠ '0' ∧ c ≠ '.' ∧ c ≠ 'e' ∧ c ≠ 'E' := by simpa using hne
  have hdrop : (List.replicate k '0' ++ c :: rest).dropWhile (· == '0') = c :: rest :=
    dropWhile_append_eq (by simp) (by simpa using hne.1)
  rw [unpadDigits]
  simp [hdrop, hne]

/-- **Nothing but zeros is dropped.** -/
theorem exists_eq_replicate_append_unpadDigits (s : List Char) :
    ∃ k, s = List.replicate k '0' ++ unpadDigits s := by
  obtain ⟨k, rest, rfl, hrest⟩ := exists_eq_replicate_append s
  rcases k with - | k
  · exact ⟨0, by rw [List.replicate_zero, List.nil_append, unpadDigits_eq_self hrest]; rfl⟩
  by_cases hbare : ∀ c ∈ rest.head?, c ∈ ['.', 'e', 'E']
  · refine ⟨k, ?_⟩
    rw [unpadDigits_replicate_append_of_bare (Nat.succ_ne_zero k) hbare, List.replicate_succ',
      List.append_assoc, List.singleton_append]
  · obtain ⟨c, hc, hne⟩ : ∃ c ∈ rest.head?, c ∉ ['.', 'e', 'E'] := by
      simpa only [not_forall, exists_prop] using hbare
    have hne : c ∉ ['0', '.', 'e', 'E'] := List.not_mem_cons_of_ne_of_not_mem (hrest c hc) hne
    exact ⟨k + 1, by rw [unpadDigits_replicate_append_of_head _ hc hne]⟩

/-- Only the empty text is empty without its padding, since one zero stays where digits end. -/
theorem unpadDigits_eq_nil_iff : unpadDigits s = [] ↔ s = [] := by
  constructor
  · intro h
    obtain ⟨k, hk⟩ := exists_eq_replicate_append_unpadDigits s
    rw [h] at hk
    by_contra hne
    have hzeros : k ≠ 0 := by
      rintro rfl
      exact hne hk
    rw [hk, unpadDigits_replicate_append_of_bare hzeros (by simp)] at h
    cases h
  · rintro rfl
    rfl

/-- Digits are unpadded alike in front of a point, an exponent or the end, and in front of
anything if they are not all zeros. -/
theorem unpadDigits_append (hs : ∀ c ∈ s, c.isDigit)
    (hrest : (∀ c ∈ rest.head?, c ∈ ['.', 'e', 'E']) ∨ ∃ c ∈ s, c ≠ '0') :
    unpadDigits (s ++ rest) = unpadDigits s ++ rest := by
  obtain ⟨k, digits, rfl, hdigits⟩ := exists_eq_replicate_append s
  rcases digits with - | ⟨d, digits⟩
  · have hbare : ∀ c ∈ rest.head?, c ∈ ['.', 'e', 'E'] := by
      refine hrest.resolve_right ?_
      rintro ⟨c, hc, hne⟩
      rw [List.append_nil] at hc
      exact hne (List.eq_of_mem_replicate hc)
    rcases eq_or_ne k 0 with rfl | hk
    · refine unpadDigits_eq_self ?_
      rintro c hc rfl
      exact absurd (hbare '0' hc) (by decide)
    · rw [unpadDigits_replicate_append_of_bare hk (by simp), List.append_nil,
        unpadDigits_replicate_append_of_bare hk hbare]
      rfl
  · have hd : d ∉ ['0', '.', 'e', 'E'] := by
      have hdigit := hs d (by simp)
      intro hmem
      have : d = '0' ∨ d = '.' ∨ d = 'e' ∨ d = 'E' := by simpa using hmem
      rcases this with rfl | rfl | rfl | rfl
      exacts [hdigits '0' rfl rfl, absurd hdigit (by decide), absurd hdigit (by decide),
        absurd hdigit (by decide)]
    have hleft (after : List Char) : unpadDigits (List.replicate k '0' ++ d :: after) =
      d :: after :=
      unpadDigits_replicate_append_of_head k rfl hd
    rw [List.append_assoc, List.cons_append, hleft, hleft, List.cons_append]

/-- Digits without padding are digits. -/
theorem isDigit_of_mem_unpadDigits (hs : ∀ c ∈ s, c.isDigit) : ∀ c ∈ unpadDigits s, c.isDigit := by
  obtain ⟨k, hk⟩ := exists_eq_replicate_append_unpadDigits s
  intro c hc
  refine hs c ?_
  rw [hk]
  exact List.mem_append_right _ hc

/-! ### Zeros in front of the digits of a numeral -/

/-- Zeros in front of digits stand for nothing. -/
theorem Text.digitsValue_replicate_append (k : Nat) (s : List Char) :
    digitsValue (List.replicate k '0' ++ s) = digitsValue s := by
  induction k with
  | zero => rfl
  | succ k ih => rwa [List.replicate_succ, List.cons_append, digitsValue, List.foldl_cons]

/-- Padding adds nothing to the value of digits. -/
theorem digitsValue_unpadDigits (s : List Char) : digitsValue (unpadDigits s) = digitsValue s := by
  obtain ⟨k, hk⟩ := exists_eq_replicate_append_unpadDigits s
  conv => rhs; rw [hk, digitsValue_replicate_append]

namespace Text.Numeral

/-- What follows the sign of a numeral. -/
def body (n : Numeral) : List Char :=
  n.integer ++ (n.fraction.elim [] ('.' :: ·) ++ n.exponent.elim [] Exponent.text)

/-- A numeral is its sign and its body. -/
theorem text_eq_append_body (n : Numeral) : n.text = n.sign ++ n.body := by
  simp [text, body]

/-- A numeral with zeros in front of its digits. -/
def padded (n : Numeral) (k : Nat) : Numeral :=
  { n with integer := List.replicate k '0' ++ n.integer }

/-- A numeral without padding. -/
def unpadded (n : Numeral) : Numeral :=
  { n with integer := unpadDigits n.integer }

/-- A numeral without padding and without a plus sign. -/
def bare (n : Numeral) : Numeral :=
  { n.unpadded with sign := if n.sign = ['+'] then [] else n.sign }

/-- Padding stands in front of the body. -/
theorem body_padded (n : Numeral) (k : Nat) :
    (n.padded k).body = List.replicate k '0' ++ n.body := by
  simp [padded, body]

/-- A padded numeral has the same value. -/
theorem value_padded (n : Numeral) (k : Nat) : (n.padded k).value = n.value := by
  rw [padded, value, value, List.append_assoc, digitsValue_replicate_append]

/-- A numeral is what is left of it with zeros in front of the digits. -/
theorem exists_eq_padded_unpadded (n : Numeral) : ∃ k, n = n.unpadded.padded k := by
  obtain ⟨k, hk⟩ := exists_eq_replicate_append_unpadDigits n.integer
  exact ⟨k, by rw [padded, unpadded, ← hk]⟩

/-- A numeral without its padding has the same value. -/
theorem value_unpadded (n : Numeral) : n.unpadded.value = n.value := by
  obtain ⟨k, hk⟩ := n.exists_eq_padded_unpadded
  rw [← value_padded n.unpadded k, ← hk]

/-- A padded numeral is one of the grammar. -/
theorem Grammatical.padded (h : n.Grammatical) (k : Nat) : (n.padded k).Grammatical where
  sign := h.sign
  integer := by
    intro c hc
    rcases List.mem_append.1 hc with hc | hc
    · rw [List.eq_of_mem_replicate hc]
      rfl
    · exact h.integer c hc
  fraction := h.fraction
  digits := by
    have := h.digits
    simp only [Numeral.padded, ne_eq, List.append_eq_nil_iff, not_and] at this ⊢
    exact fun hzeros => this hzeros.2
  exponent := h.exponent

/-- A numeral without its padding is one of the grammar. -/
theorem Grammatical.unpadded (h : n.Grammatical) : n.unpadded.Grammatical where
  sign := h.sign
  integer := isDigit_of_mem_unpadDigits h.integer
  fraction := h.fraction
  digits := by
    have := h.digits
    simp only [Numeral.unpadded, ne_eq, List.append_eq_nil_iff, not_and,
      unpadDigits_eq_nil_iff] at this ⊢
    exact this
  exponent := h.exponent

/-- A bare numeral has the body without padding. -/
theorem body_bare (n : Numeral) : n.bare.body = n.unpadded.body :=
  rfl

/-- A bare numeral has the same value. -/
theorem value_bare (n : Numeral) : n.bare.value = n.value := by
  have hsign : n.bare.sign = ['-'] ↔ n.sign = ['-'] := by
    simp only [bare]
    split
    · next hplus => simp [hplus]
    · rfl
  rw [← n.value_unpadded, value, value, decide_eq_decide.2 hsign]
  rfl

/-- Another sign in front of the same digits makes a numeral as well. -/
theorem Grammatical.withSign (h : n.Grammatical) {sign : List Char}
    (hsign : sign = [] ∨ sign = ['-'] ∨ sign = ['+']) : ({ n with sign } : Numeral).Grammatical :=
  ⟨hsign, h.integer, h.fraction, h.digits, h.exponent⟩

/-- A bare numeral is one of the grammar. -/
theorem Grammatical.bare (h : n.Grammatical) : n.bare.Grammatical := by
  refine h.unpadded.withSign ?_
  rcases h.sign with hsign | hsign | hsign <;> rw [hsign] <;> decide

/-- A bare numeral has no sign unless the numeral has a minus. -/
theorem Grammatical.sign_bare_eq_nil_iff (h : n.Grammatical) :
    n.bare.sign = [] ↔ n.sign ≠ ['-'] := by
  rcases h.sign with hsign | hsign | hsign <;> simp [Numeral.bare, Numeral.unpadded, hsign]

/-- There is something behind the sign of a numeral. -/
theorem Grammatical.body_ne_nil (h : n.Grammatical) : n.body ≠ [] := by
  intro hnil
  have hnil : n.integer = [] ∧ n.fraction.elim [] ('.' :: ·) = [] := by
    simp only [body, List.append_eq_nil_iff] at hnil
    exact ⟨hnil.1, hnil.2.1⟩
  refine h.digits ?_
  cases hf : n.fraction with
  | none => simp [hnil.1]
  | some fraction => simp [hf] at hnil

/-- What follows the sign of a numeral does not begin with a sign. -/
theorem Grammatical.head_body (h : n.Grammatical) : ∀ c ∈ n.body.head?, c ≠ '-' ∧ c ≠ '+' :=
  h.unsigned_head _

/-- A bare numeral does not begin with a plus. -/
theorem Grammatical.head_text_bare (h : n.Grammatical) : n.bare.text.head? ≠ some '+' := by
  have hbody : n.bare.body.head? ≠ some '+' := fun hplus => (h.bare.head_body '+' hplus).2 rfl
  have hsign : n.bare.sign = [] ∨ n.bare.sign = ['-'] := by
    rcases h.sign with hsign | hsign | hsign <;> simp [Numeral.bare, Numeral.unpadded, hsign]
  rw [text_eq_append_body]
  rcases hsign with hsign | hsign
  · rwa [hsign, List.nil_append]
  · simp [hsign]

/-- The digits of a numeral stay where padding is dropped: they are followed by a point or an
exponent, by nothing, or are not all zeros. -/
def Anchored (n : Numeral) (rest : List Char) : Prop :=
  (∀ c ∈ rest.head?, c ∈ ['.', 'e', 'E']) ∨ n.fraction.isSome ∨ ∃ c ∈ n.integer, c ≠ '0'

/-- **Of a numeral only the digits before the point are unpadded**, also where a text follows. -/
theorem unpadDigits_body_append (h : n.Grammatical) (hrest : n.Anchored rest) :
    unpadDigits (n.body ++ rest) = n.unpadded.body ++ rest := by
  have htail : (∀ c ∈ (n.fraction.elim [] ('.' :: ·) ++ n.exponent.elim [] Exponent.text ++
      rest).head?, c ∈ ['.', 'e', 'E']) ∨ ∃ c ∈ n.integer, c ≠ '0' := by
    cases hf : n.fraction with
    | some fraction =>
        left
        intro c hc
        obtain rfl : '.' = c := by simpa using hc
        decide
    | none =>
        cases he : n.exponent with
        | none => simpa [Anchored, hf] using hrest
        | some e =>
            left
            intro c hc
            obtain rfl : e.mark = c := by simpa [Exponent.text] using hc
            rcases (h.exponent e he).1 with hmark | hmark <;> rw [hmark] <;> decide
  rw [body, List.append_assoc, unpadDigits_append h.integer htail, ← List.append_assoc]
  rfl

/-- The search for padding in a body finds that of the numeral. -/
theorem unpadDigits_body (h : n.Grammatical) : unpadDigits n.body = n.unpadded.body := by
  have hanchored : n.Anchored [] := .inl (by simp)
  simpa only [List.append_nil] using unpadDigits_body_append h hanchored

end Text.Numeral

/-! ### Texts before a conversion -/

/-- A text begins with a plus sign, with a minus sign or with neither. -/
theorem sign_cases (s : List Char) : (∃ rest, s = '+' :: rest) ∨ (∃ rest, s = '-' :: rest) ∨
    ∀ c ∈ s.head?, c ≠ '-' ∧ c ≠ '+' := by
  rcases s with - | ⟨c, rest⟩
  · exact .inr (.inr (by simp))
  by_cases hplus : c = '+'
  · exact .inl ⟨rest, by rw [hplus]⟩
  by_cases hminus : c = '-'
  · exact .inr (.inl ⟨rest, by rw [hminus]⟩)
  · exact .inr (.inr (by simp [hplus, hminus]))

/-- Behind a plus sign, padding is searched for only where the sign is dropped. -/
theorem unpad_of_plus (dropPlus : Bool) (h : unquoted s = '+' :: rest) :
    unpad dropPlus s = if dropPlus then unpadDigits rest else '+' :: rest := by
  rw [unpad, h]
  rfl

/-- Behind a minus sign, padding is searched for. -/
theorem unpad_of_minus (dropPlus : Bool) (h : unquoted s = '-' :: rest) :
    unpad dropPlus s = '-' :: unpadDigits rest := by
  rw [unpad, h]
  rfl

/-- Where there is no sign, padding is searched for at once. -/
theorem unpad_of_unsigned (dropPlus : Bool) (h : ∀ c ∈ (unquoted s).head?, c ≠ '-' ∧ c ≠ '+') :
    unpad dropPlus s = unpadDigits (unquoted s) := by
  rw [unpad]
  split
  · next hs => exact absurd rfl (h '+' (by rw [hs]; rfl)).2
  · next hs => exact absurd rfl (h '-' (by rw [hs]; rfl)).1
  · rfl

/-- **What is left of a numeral** before it is converted to a double is a numeral of the same
value. -/
theorem unpad_false_eq_text (h : n.Grammatical) (hs : unquoted s = n.text) :
    ∃ m : Numeral, m.Grammatical ∧ m.value = n.value ∧ unpad false s = m.text := by
  rw [Numeral.text_eq_append_body] at hs
  rcases h.sign with hsign | hsign | hsign
  · rw [hsign, List.nil_append] at hs
    refine ⟨n.unpadded, h.unpadded, n.value_unpadded, ?_⟩
    rw [unpad_of_unsigned _ (by rw [hs]; exact h.head_body), hs, Numeral.unpadDigits_body h,
      Numeral.text_eq_append_body, Numeral.unpadded, hsign]
    rfl
  · rw [hsign, List.singleton_append] at hs
    refine ⟨n.unpadded, h.unpadded, n.value_unpadded, ?_⟩
    rw [unpad_of_minus _ hs, Numeral.unpadDigits_body h, Numeral.text_eq_append_body,
      Numeral.unpadded, hsign]
    rfl
  · rw [hsign, List.singleton_append] at hs
    refine ⟨n, h, rfl, ?_⟩
    rw [unpad_of_plus _ hs, Numeral.text_eq_append_body, hsign]
    rfl

/-- **What is left of a numeral** before it is converted to an integer: the plus sign goes as
well. What follows the numeral is left as it is. -/
theorem unpad_true_eq_append (h : n.Grammatical) (hs : unquoted s = n.text ++ rest)
    (hrest : n.Anchored rest) : unpad true s = n.bare.text ++ rest := by
  have hunpad := Numeral.unpadDigits_body_append h hrest
  rw [Numeral.text_eq_append_body, List.append_assoc] at hs
  rw [Numeral.text_eq_append_body, List.append_assoc, Numeral.body_bare, ← hunpad]
  rcases h.sign with hsign | hsign | hsign
  · rw [hsign, List.nil_append] at hs
    have hhead : ∀ c ∈ (n.body ++ rest).head?, c ≠ '-' ∧ c ≠ '+' := by
      rw [List.head?_append_of_ne_nil _ h.body_ne_nil]
      exact h.head_body
    rw [unpad_of_unsigned _ (by rwa [hs]), hs, Numeral.bare, hsign]
    rfl
  · rw [hsign, List.singleton_append] at hs
    rw [unpad_of_minus _ hs, Numeral.bare, hsign]
    rfl
  · rw [hsign, List.singleton_append] at hs
    rw [unpad_of_plus _ hs, Numeral.bare, hsign]
    rfl

/-- A numeral in spaces and quotes is unpadded to the bare numeral. -/
theorem unpad_true_eq_text (h : n.Grammatical) (hs : unquoted s = n.text) :
    unpad true s = n.bare.text := by
  have hanchored : n.Anchored [] := .inl (by simp)
  rw [← List.append_nil n.text] at hs
  simpa only [List.append_nil] using unpad_true_eq_append h hs hanchored

end JsonPath
