import JsonPath.Filter.Predicate
import JsonPath.Proofs.Operand.Padding

/-!
# Which Texts Become Doubles

A text becomes a double if what stands between its line ends, quotes and spaces is a numeral
(`Operand.numeralPart`), and the double is then the number of that numeral. But it is not this
part that is found to be a numeral: the padding is dropped first, and what is left may be a
numeral that begins with a sign or a space. So `0-5` becomes the double `-5`. These texts,
zeros in front of such a numeral (`ZerosBeforeNumeral`), are the only ones that are converted
though they hold no numeral (`Operand.convertedAsNumeral_iff`).

Comparing is not misled: a text counts as a number there if it is a numeral with nothing but
spaces around it, and then its conversion reads the same numeral. So operands that are compared
as doubles are compared as the doubles that they are converted to, and these are the doubles
that arithmetic computes with (`Operand.compare_eq_compare_converted`).

## Main definitions

* `Operand.ConvertedAsNumeral`: a text is converted as the numeral that it holds.
* `ZerosBeforeNumeral`: zeros in front of a numeral that begins with a sign or a space.

## Main results

* `Operand.convertedAsNumeral_iff`: **which texts are converted as they should be**.
* `Operand.compare_eq_compare_converted`: **numbers are compared as arithmetic sees them**.
-/

namespace JsonPath

open Text

variable {s t : List Char} {n : Numeral}

/-! ### Texts without spaces and quotes around them -/

/-- A text without the spaces and quotes around it does not begin with one. -/
theorem head?_unquoted : ∀ c ∈ (unquoted s).head?, c ≠ ' ' ∧ c ≠ '"' := by
  intro c hc
  simpa using head?_trim c hc

/-- A text without the spaces and quotes around it does not end in one. -/
theorem getLast?_unquoted : ∀ c ∈ (unquoted s).getLast?, c ≠ ' ' ∧ c ≠ '"' := by
  intro c hc
  simpa using getLast?_trim c hc

/-- What is left of a text without padding does not end with a space either. -/
theorem getLast?_unpad (dropPlus : Bool) (s : List Char) :
    ∀ c ∈ (unpad dropPlus s).getLast?, c ≠ ' ' := by
  have hlast (front digits : List Char) (ht : unquoted s = front ++ digits) :
      ∀ c ∈ (unpadDigits digits).getLast?, c ≠ ' ' := by
    obtain ⟨k, hk⟩ := exists_eq_replicate_append_unpadDigits digits
    intro c hc
    refine (getLast?_unquoted (s := s) c ?_).1
    rw [ht, hk, ← List.append_assoc]
    exact List.mem_getLast?_append_of_mem_getLast? hc
  obtain ⟨digits, ht⟩ | ⟨digits, ht⟩ | hunsigned := sign_cases (unquoted s)
  · rw [unpad_of_plus _ ht, ← ht]
    split
    · exact hlast ['+'] digits ht
    · exact fun c hc => (getLast?_unquoted c hc).1
  · rw [unpad_of_minus _ ht]
    intro c hc
    rcases eq_or_mem_of_mem_getLast?_cons hc with rfl | hc
    · decide
    · exact hlast ['-'] digits ht c hc
  · rw [unpad_of_unsigned _ hunsigned]
    exact hlast [] (unquoted s) rfl

/-- A text without the spaces and quotes around it has no spaces left to trim. -/
theorem trimSpaces_unquoted : trimSpaces (unquoted s) = unquoted s :=
  trimSpaces_eq_self (fun c hc => (head?_unquoted c hc).1) fun c hc => (getLast?_unquoted c hc).1

/-- Inside the spaces and quotes there is a numeral exactly if the grammar has one there. -/
theorem isNumeral_unquoted_iff : isNumeral (unquoted s) = true ↔
    ∃ n : Numeral, n.Grammatical ∧ n.text = unquoted s := by
  rw [isNumeral_iff, trimSpaces_unquoted]
  simp only [Numeral.whole?_eq_some_iff]

/-- A numeral is what is left of it with spaces and quotes around it. -/
theorem Text.Numeral.Grammatical.unquoted_append {front back : List Char} (h : n.Grammatical)
    (hfront : ∀ c ∈ front, c ∈ [' ', '"']) (hback : ∀ c ∈ back, c ∈ [' ', '"']) :
    unquoted (front ++ n.text ++ back) = n.text := by
  have hplain : ∀ c ∈ n.text, (c == ' ' || c == '"') = false := by
    intro c hc
    have hc := h.plain c hc
    simp only [List.mem_cons, not_or] at hc
    simp [hc]
  exact trim_append (by simpa using hfront) (by simpa using hback)
    (fun c hc => hplain c (List.mem_of_mem_head? hc))
    fun c hc => hplain c (List.mem_of_mem_getLast? hc)

/-- Line ends behind all that do not matter either. -/
theorem Text.Numeral.Grammatical.unquoted_dropLineEnds {front back ends : List Char}
    (h : n.Grammatical) (hfront : ∀ c ∈ front, c ∈ [' ', '"']) (hback : ∀ c ∈ back, c ∈ [' ', '"'])
    (hends : ∀ c ∈ ends, c ∈ ['\n', '\r']) :
    unquoted (dropLineEnds (front ++ n.text ++ back ++ ends)) = n.text := by
  have hlast : ∀ c ∈ (front ++ n.text ++ back).getLast?, (c == '\n' || c == '\r') = false := by
    intro c hc
    have hquote {c : Char} (hc : c ∈ [' ', '"']) : (c == '\n' || c == '\r') = false := by
      have : c = ' ' ∨ c = '"' := by simpa using hc
      rcases this with rfl | rfl <;> decide
    have hmem := List.mem_of_mem_getLast? hc
    rw [List.mem_append, List.mem_append] at hmem
    rcases hmem with (hmem | hmem) | hmem
    · exact hquote (hfront c hmem)
    · have hc := h.plain c hmem
      simp only [List.mem_cons, not_or] at hc
      simp [hc]
    · exact hquote (hback c hmem)
  rw [dropLineEnds, dropTrailing_append _ (by simpa using hends), dropTrailing_eq_self hlast,
    h.unquoted_append hfront hback]

/-! ### Numerals behind zeros -/

/-- A numeral is its sign and what follows it. -/
theorem Text.Numeral.Grammatical.splitSign_text (h : n.Grammatical) :
    splitSign n.text = (n.sign, n.body) := by
  rw [n.text_eq_append_body, splitSign_append h.sign h.head_body]

/-- Zeros behind the sign of a numeral make another numeral. -/
theorem exists_text_eq_padded (k : Nat) (h : isNumeral t = true) (hhead : ∀ c ∈ t.head?, c ≠ ' ')
    (hlast : ∀ c ∈ t.getLast?, c ≠ ' ') : ∃ n : Numeral, n.Grammatical ∧
      n.text = (splitSign t).1 ++ (List.replicate k '0' ++ (splitSign t).2) := by
  obtain ⟨n, hn⟩ := isNumeral_iff.1 h
  obtain ⟨hg, htext⟩ := Numeral.whole?_eq_some_iff.1 hn
  rw [trimSpaces_eq_self hhead hlast] at htext
  refine ⟨n.padded k, hg.padded k, ?_⟩
  rw [Numeral.text_eq_append_body, Numeral.body_padded, ← htext, hg.splitSign_text]
  rfl

/-- Zeros in front of a numeral that begins with a sign or a space. -/
def ZerosBeforeNumeral (t : List Char) : Prop :=
  ∃ k u, t = List.replicate (k + 1) '0' ++ u ∧ (∃ c ∈ u.head?, c ∈ [' ', '+', '-']) ∧
    isNumeral u = true

/-- Such a text is no numeral: it begins with one that ends in front of the sign or space. -/
theorem ZerosBeforeNumeral.not_isNumeral (h : ZerosBeforeNumeral (unquoted s)) :
    isNumeral (unquoted s) = false := by
  obtain ⟨k, u, ht, ⟨c, hc, hmem⟩, -⟩ := h
  obtain ⟨rest, rfl⟩ : ∃ rest, u = c :: rest := by
    rcases u with - | ⟨d, rest⟩
    · cases hc
    · obtain rfl : d = c := by simpa using hc
      exact ⟨rest, rfl⟩
  have hzeros := Numeral.grammatical_of_digits (s := List.replicate (k + 1) '0')
    ⟨by simp, fun d hd => by rw [List.eq_of_mem_replicate hd]; rfl⟩
  have hafter : ∀ d ∈ (c :: rest).head?, d.isDigit = false ∧ d ≠ '.' ∧ d ≠ 'e' ∧ d ≠ 'E' := by
    intro d hd
    obtain rfl : c = d := by simpa using hd
    have : c = ' ' ∨ c = '+' ∨ c = '-' := by simpa using hmem
    rcases this with rfl | rfl | rfl <;> decide
  have htext : (⟨[], List.replicate (k + 1) '0', none, none⟩ : Numeral).text =
      List.replicate (k + 1) '0' := by
    simp [Numeral.text]
  have hscan := Numeral.scan_append hzeros hafter
  rw [htext, ← ht] at hscan
  rw [isNumeral_eq, trimSpaces_unquoted, Numeral.whole?, hscan]
  rfl

/-- **What is left of a text is a numeral** only if the text is one or has zeros in front of
one. -/
theorem isNumeral_of_isNumeral_unpad (h : isNumeral (unpad false s) = true) :
    isNumeral (unquoted s) = true ∨ ZerosBeforeNumeral (unquoted s) := by
  have hlast := getLast?_unpad false s
  rw [isNumeral_unquoted_iff]
  obtain ⟨rest, ht⟩ | ⟨rest, ht⟩ | hunsigned := sign_cases (unquoted s)
  · rw [unpad_of_plus _ ht, if_neg (by decide), ← ht] at h
    exact .inl (isNumeral_unquoted_iff.1 h)
  · obtain ⟨k, hk⟩ := exists_eq_replicate_append_unpadDigits rest
    rw [unpad_of_minus _ ht] at h hlast
    rw [ht, hk]
    exact .inl (exists_text_eq_padded k h (by simp) hlast)
  · obtain ⟨k, hk⟩ := exists_eq_replicate_append_unpadDigits (unquoted s)
    rw [unpad_of_unsigned _ hunsigned] at h hlast
    by_cases hhead : ∀ c ∈ (unpadDigits (unquoted s)).head?, c ∉ [' ', '+', '-']
    · have hne {d : Char} (hd : d ∈ [' ', '+', '-']) :
          ∀ c ∈ (unpadDigits (unquoted s)).head?, c ≠ d := by
        rintro c hc rfl
        exact hhead c hc hd
      have hsplit : splitSign (unpadDigits (unquoted s)) = ([], unpadDigits (unquoted s)) :=
        splitSign_append (.inl rfl) fun c hc => ⟨hne (by simp) c hc, hne (by simp) c hc⟩
      obtain ⟨n, hn, htext⟩ := exists_text_eq_padded k h (hne (by simp)) hlast
      rw [hsplit, List.nil_append, ← hk] at htext
      exact .inl ⟨n, hn, htext⟩
    · obtain ⟨c, hc, hmem⟩ : ∃ c ∈ (unpadDigits (unquoted s)).head?, c ∈ [' ', '+', '-'] := by
        simpa only [not_forall, not_not, exists_prop] using hhead
      rcases k with - | k
      · rw [List.replicate_zero, List.nil_append] at hk
        rw [← hk] at hc
        have hcases : c = ' ' ∨ c = '+' ∨ c = '-' := by simpa using hmem
        rcases hcases with hspace | hplus | hminus
        · exact absurd hspace (head?_unquoted c hc).1
        · exact absurd hplus (hunsigned c hc).2
        · exact absurd hminus (hunsigned c hc).1
      · exact .inr ⟨k, _, hk, ⟨c, hc, hmem⟩, h⟩

namespace Operand

/-! ### Converting texts -/

/-- What of a text is taken for a numeral: the text without the line ends behind it, and then
without the spaces and quotes around it. -/
def numeralPart (s : String) : List Char :=
  unquoted (dropLineEnds s.toList)

/-- A text is converted to the number of the numeral that it holds. If it holds none, it is not
converted and stays as it is. -/
def ConvertedAsNumeral (s : String) : Prop :=
  (isNumeral (numeralPart s) = true → ∃ n, Numeral.whole? (numeralPart s) = some n ∧
    (text s).update .double = (double (.ofDecimal n.value), .ok ())) ∧
  (isNumeral (numeralPart s) = false → ∃ e, (text s).update .double = (text s, .error e))

/-- A value that has a conversion is updated to it. -/
theorem update_of_convertTo?_eq_some {v w : Operand} {target : OperandKind}
    (h : v.convertTo? target = some w) : v.update target = (w, .ok ()) := by
  rw [update, convert, h]

/-- A value that has no conversion stays, and the error shows it with both kinds. -/
theorem update_of_convertTo?_eq_none {v : Operand} {target : OperandKind}
    (h : v.convertTo? target = none) :
    v.update target = (v, .error ⟨String.ofList v.display, v.kind, target⟩) := by
  rw [update, convert, h]

/-- An update to a double follows the conversion to one. -/
theorem update_double (v : Operand) : v.update .double = match v.toDouble? with
    | some x => (double x, .ok ())
    | none => (v, .error ⟨String.ofList v.display, v.kind, .double⟩) := by
  cases h : v.toDouble? with
  | none => exact update_of_convertTo?_eq_none (by rw [convertTo?, h, Option.map_none])
  | some x => exact update_of_convertTo?_eq_some (by rw [convertTo?, h, Option.map_some])

/-- A value that converts to a double is updated to it. -/
theorem update_double_of_eq_some {v : Operand} {x : Binary64} (h : v.toDouble? = some x) :
    v.update .double = (double x, .ok ()) := by
  rw [update_double, h]

/-- A text that holds a numeral converts to its number. -/
theorem toDouble?_text {s : String} (h : Numeral.whole? (numeralPart s) = some n) :
    (text s).toDouble? = some (.ofDecimal n.value) := by
  obtain ⟨hn, htext⟩ := Numeral.whole?_eq_some_iff.1 h
  obtain ⟨m, hm, hvalue, hunpad⟩ := unpad_false_eq_text hn htext.symm
  rw [toDouble?, hunpad, numberOf?_text hm, hvalue]

/-- **Which texts are converted as they should be**: all but those that hold zeros in front of a
numeral that begins with a sign or a space. -/
theorem convertedAsNumeral_iff (s : String) :
    ConvertedAsNumeral s ↔ ¬ ZerosBeforeNumeral (numeralPart s) := by
  constructor
  · rintro ⟨-, hother⟩ hzeros
    obtain ⟨e, he⟩ := hother hzeros.not_isNumeral
    obtain ⟨k, u, ht, ⟨c, hc, hmem⟩, hu⟩ := hzeros
    have hne : c ∉ ['0', '.', 'e', 'E'] := by
      have : c = ' ' ∨ c = '+' ∨ c = '-' := by simpa using hmem
      rcases this with rfl | rfl | rfl <;> decide
    have hunpad : unpad false (dropLineEnds s.toList) = u := by
      rw [unpad_of_unsigned, ← numeralPart, ht, unpadDigits_replicate_append_of_head _ hc hne]
      rw [← numeralPart, ht, List.replicate_succ]
      simp
    obtain ⟨x, hx⟩ : ∃ x, (text s).toDouble? = some x := by
      rw [toDouble?, hunpad, ← Option.isSome_iff_exists, numberOf?_isSome_iff, hu]
    rw [update_double_of_eq_some hx] at he
    cases he
  · intro hzeros
    refine ⟨fun h => ?_, fun h => ?_⟩
    · obtain ⟨n, hn⟩ := isNumeral_iff.1 h
      rw [numeralPart, trimSpaces_unquoted, ← numeralPart] at hn
      exact ⟨n, hn, update_double_of_eq_some (toDouble?_text hn)⟩
    · have hnone : (text s).toDouble? = none := by
        rw [toDouble?, ← Option.not_isSome_iff_eq_none, numberOf?_isSome_iff]
        intro hunpad
        rcases isNumeral_of_isNumeral_unpad hunpad with hnumeral | hslip
        · rw [numeralPart, hnumeral] at h
          cases h
        · exact hzeros hslip
      exact ⟨_, by rw [update_double, hnone]⟩

/-- Two digits with a minus sign between them are converted to a double, though they are no
numeral, so not all texts are converted as they should be. -/
theorem not_forall_convertedAsNumeral :
    (isNumeral (numeralPart "0-5") = false ∧
      (text "0-5").update .double = (double (.ofDecimal ⟨true, 5, 0⟩), .ok ())) ∧
      ¬ ∀ s, ConvertedAsNumeral s := by
  have hnumeral : isNumeral (numeralPart "0-5") = false := by decide
  have hupdate : (text "0-5").update .double = (double (.ofDecimal ⟨true, 5, 0⟩), .ok ()) := by
    decide +kernel
  refine ⟨⟨hnumeral, hupdate⟩, fun h => ?_⟩
  obtain ⟨e, he⟩ := (h "0-5").2 hnumeral
  rw [hupdate] at he
  cases he

/-! ### Comparing numbers -/

/-- A text that is a numeral, spaces around it aside, holds just that numeral. -/
theorem numeralPart_of_isNumeral {s : String} (h : isNumeral s.toList = true) :
    numeralPart s = trimSpaces s.toList := by
  obtain ⟨n, hn⟩ := isNumeral_iff.1 h
  obtain ⟨hg, htext⟩ := Numeral.whole?_eq_some_iff.1 hn
  obtain ⟨front, back, hs, hfront, hback⟩ := exists_append_of_trim (· == ' ') s.toList
  have hspace {c : Char} (hc : c == ' ') : c ∈ [' ', '"'] := by
    rw [beq_iff_eq.1 hc]
    decide
  rw [← trimSpaces, ← htext] at hs
  rw [numeralPart, ← htext, hs, ← List.append_nil (front ++ n.text ++ back)]
  exact hg.unquoted_dropLineEnds (fun c hc => hspace (hfront c hc))
    (fun c hc => hspace (hback c hc)) (by simp)

/-- A number is compared as the double that it is converted to. -/
theorem toDouble?_of_number? {v : Operand} {x : Binary64} (h : v.number? = some x) :
    v.toDouble? = some x := by
  cases v with
  | absent => cases h
  | bytes s => cases h
  | unsigned m => exact h
  | double y => exact h
  | text s =>
      have hnumeral : isNumeral s.toList = true := by
        rw [← numberOf?_isSome_iff, ← number?, h]
        rfl
      obtain ⟨n, hn⟩ := isNumeral_iff.1 hnumeral
      rw [number?, numberOf?_eq, hn] at h
      rw [toDouble?_text (numeralPart_of_isNumeral hnumeral ▸ hn)]
      exact h

/-- **Numbers are compared as arithmetic sees them.** Two numbers, not both of them integers, are
converted to doubles without fail; they compare as these doubles do, so every comparison of a
filter comes out alike for them; and arithmetic computes with the same doubles. -/
theorem compare_eq_compare_converted (env : Environment) {v w : Operand}
    (hv : v.isNumber = true) (hw : w.isNumber = true)
    (h : ¬ (v.kind = .unsigned ∧ w.kind = .unsigned)) :
    ∃ x y, v.update .double = (double x, .ok ()) ∧ w.update .double = (double y, .ok ()) ∧
      v.compare w = (double x).compare (double y) ∧
      (∀ op ∈ Operator.comparisons,
        applyBinary env op v w = applyBinary env op (double x) (double y)) ∧
      ∀ f, arithmetic f v w = double (f x y) := by
  obtain ⟨x, hx⟩ := Option.isSome_iff_exists.1 hv
  obtain ⟨y, hy⟩ := Option.isSome_iff_exists.1 hw
  have hcompare : v.compare w = (double x).compare (double y) :=
    compare_of_numbers hx hy (not_and_or.1 h)
  refine ⟨x, y, update_double_of_eq_some (toDouble?_of_number? hx),
    update_double_of_eq_some (toDouble?_of_number? hy), hcompare, fun op hop => ?_, fun f => ?_⟩
  · simp only [Operator.comparisons, List.mem_cons, List.not_mem_nil, or_false] at hop
    rcases hop with rfl | rfl | rfl | rfl | rfl | rfl <;> simp only [applyBinary, hcompare]
  · rw [arithmetic, toDouble?_of_number? hx, toDouble?_of_number? hy]

/-- A text with padding, a fraction and spaces around it, and an integer. -/
theorem compare_eq_compare_converted_padded :
    (text " 0012.50 ").isNumber = true ∧ (unsigned 12).isNumber = true ∧
      ¬ ((text " 0012.50 ").kind = .unsigned ∧ (unsigned 12).kind = .unsigned) ∧
      ∃ x y, (text " 0012.50 ").update .double = (double x, .ok ()) ∧
        (unsigned 12).update .double = (double y, .ok ()) ∧
        (text " 0012.50 ").compare (unsigned 12) = (double x).compare (double y) ∧
        (∀ op ∈ Operator.comparisons, applyBinary .standard op (text " 0012.50 ") (unsigned 12) =
          applyBinary .standard op (double x) (double y)) ∧
        ∀ f, arithmetic f (text " 0012.50 ") (unsigned 12) = double (f x y) := by
  have htext : (text " 0012.50 ").isNumber = true := by decide +kernel
  have hinteger : (unsigned 12).isNumber = true := rfl
  have hkind : ¬ ((text " 0012.50 ").kind = .unsigned ∧ (unsigned 12).kind = .unsigned) := by
    decide
  exact ⟨htext, hinteger, hkind, compare_eq_compare_converted .standard htext hinteger hkind⟩

end Operand

end JsonPath
