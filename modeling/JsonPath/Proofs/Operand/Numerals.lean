import JsonPath.Offsets
import JsonPath.Proofs.Document.Layout
import JsonPath.Proofs.Document.Scanning
import JsonPath.Proofs.Operand.Transitivity
import JsonPath.Proofs.Text.Trimming
import JsonPath.Query.Aggregate

/-!
# Four Readers of Numbers

Numbers are read in four places. A filter takes the numeral that a text begins with
(`Text.Numeral.scan`), a document has numbers of a narrower form (`Document.scanNumber`), a text
is found to be a numeral by counting its digits (`isNumeral`), and its double is then looked for
among its beginnings, the longest first (`leadingNumber`).

All of them agree on the grammar of numerals. Counting digits succeeds exactly on the texts
that are read as a whole (`isNumeral_eq`), and on these the search for the longest beginning
ends at once, with the whole text (`leadingNumber_eq`). So the number of a text is the number
that its numeral denotes (`numberOf?_eq`). What a document has as a number is a numeral too,
and it counts as a number wherever one is asked for.

## Main results

* `isNumeral_eq`: texts found to be numerals are those that are read as one.
* `numberOf?_eq`: **the number of a text** is that of its numeral.
* `readers_agree`: **the four readers agree**.
-/

namespace JsonPath

open Text Grammar

variable {s : List Char} {n : Numeral}

/-! ### Counting digits -/

/-- Digits are counted as they are split off. -/
theorem countDigits_eq (s : List Char) :
    countDigits s = ((splitDigits s).1.length, (splitDigits s).2) :=
  rfl

/-- The digits of a fraction are counted as they are split off. -/
theorem countFraction_eq (s : List Char) :
    countFraction s = (((splitFraction s).1.getD []).length, (splitFraction s).2) := by
  by_cases hpoint : ∃ rest, s = '.' :: rest
  · obtain ⟨rest, rfl⟩ := hpoint
    rfl
  · rw [splitFraction, countFraction]
    · rfl
    · exact fun rest hs => hpoint ⟨rest, hs⟩
    · exact fun rest hs => hpoint ⟨rest, hs⟩

/-- A text is a scale exactly if it is nothing or one exponent. -/
theorem isScale_iff : isScale s = true ↔ ∃ e, splitExponent? s = some (e, []) := by
  rcases s with - | ⟨c, s⟩
  · exact ⟨fun _ => ⟨none, rfl⟩, fun _ => rfl⟩
  by_cases hmark : c = 'e' ∨ c = 'E'
  · rw [splitExponent?, if_pos hmark, isScale, countDigits_eq]
    dsimp only
    cases hdigits : (splitDigits (splitSign s).2).1 with
    | nil => simp
    | cons d digits => simp [hmark]
  · rw [splitExponent?, if_neg hmark, isScale]
    have hne : (c == 'e' || c == 'E') = false := by simpa using hmark
    simp [hne]

/-- **Texts found to be numerals** by counting are those that are read as one. -/
theorem isNumeral_eq (s : List Char) :
    isNumeral s = (Numeral.whole? (trimSpaces s)).isSome := by
  rw [Bool.eq_iff_iff, isNumeral, countDigits_eq, countFraction_eq, Numeral.whole?, Numeral.scan]
  dsimp only
  set integer := splitDigits (splitSign (trimSpaces s)).2
  set fraction := splitFraction integer.2
  by_cases hdigits : integer.1 ++ fraction.1.getD [] = []
  · obtain ⟨hinteger, hfraction⟩ := List.append_eq_nil_iff.1 hdigits
    simp [hinteger, hfraction]
  · have hcount : (integer.1.length + (fraction.1.getD []).length != 0) = true := by
      rw [← List.length_append, bne_iff_ne]
      exact fun h => hdigits (List.eq_nil_of_length_eq_zero h)
    rw [hcount, Bool.true_and, isScale_iff, if_neg (by simpa using hdigits)]
    rcases splitExponent? fraction.2 with - | ⟨e, - | ⟨c, rest⟩⟩ <;> simp

/-- A text is a numeral exactly if the whole of it, spaces aside, is split into a numeral's
parts. -/
theorem isNumeral_iff : isNumeral s = true ↔ ∃ n, Numeral.whole? (trimSpaces s) = some n := by
  rw [isNumeral_eq, Option.isSome_iff_exists]

/-! ### The longest beginning -/

/-- A text that is one numeral is read as the double next to its value. -/
theorem read?_of_whole? (h : Numeral.whole? s = some n) :
    Binary64.read? s = some (Binary64.ofDecimal n.value) := by
  rw [Binary64.read?, h]

/-- The search for the longest beginning of a numeral ends with the whole of it. -/
theorem leadingNumber_eq (h : Numeral.whole? (trimSpaces s) = some n) :
    leadingNumber s = Binary64.ofDecimal n.value := by
  obtain ⟨hn, htext⟩ := Numeral.whole?_eq_some_iff.1 h
  have hall : (trimSpaces s).takeWhile isNumeralChar = trimSpaces s := by
    rw [← htext]
    refine List.takeWhile_eq_self_iff.2 (hn.text_induction ⟨rfl, rfl⟩ ?_ rfl ⟨rfl, rfl⟩)
    intro c hc
    simp [isNumeralChar, hc]
  have hpos : 0 < (trimSpaces s).length := by
    rw [List.length_pos_iff, ← htext]
    intro hnil
    refine hn.digits ?_
    simp only [Numeral.text, List.append_eq_nil_iff] at hnil
    cases hf : n.fraction <;> simp_all
  obtain ⟨k, hk⟩ := Nat.exists_eq_add_one.2 hpos
  rw [leadingNumber, hall, hk, readPrefix?, ← hk, List.take_length, read?_of_whole? h]
  rfl

/-- **The number of a text** is the one that its numeral denotes. -/
theorem numberOf?_eq (s : List Char) : numberOf? s =
    (Numeral.whole? (trimSpaces s)).map fun n => Binary64.ofDecimal n.value := by
  rw [numberOf?, isNumeral_eq]
  cases h : Numeral.whole? (trimSpaces s) with
  | none => rfl
  | some n => simp [leadingNumber_eq h]

/-- A text has a number exactly if a numeral of the grammar stands between its spaces, and it is the
double next to that numeral's value. -/
theorem numberOf?_eq_some_iff {x : Binary64} : numberOf? s = some x ↔
    ∃ n : Numeral, n.Grammatical ∧ n.text = trimSpaces s ∧ .ofDecimal n.value = x := by
  simp only [numberOf?_eq, Option.map_eq_some_iff, Numeral.whole?_eq_some_iff, and_assoc]

/-! ### Texts without spaces around them -/

/-- A text with no spaces at its ends stays as it is. -/
theorem trimSpaces_eq_self (hhead : ∀ c ∈ s.head?, c ≠ ' ') (hlast : ∀ c ∈ s.getLast?, c ≠ ' ') :
    trimSpaces s = s :=
  trim_eq_self (by simpa using hhead) (by simpa using hlast)

/-- There is no space, no quote and no line end in a numeral. -/
theorem Text.Numeral.Grammatical.plain (h : n.Grammatical) :
    ∀ c ∈ n.text, c ∉ [' ', '"', '\n', '\r'] := by
  refine h.text_induction (by decide) (fun c hc hmem => ?_) (by decide) (by decide)
  have : c = ' ' ∨ c = '"' ∨ c = '\n' ∨ c = '\r' := by simpa using hmem
  rcases this with rfl | rfl | rfl | rfl <;> exact absurd hc (by decide)

/-- A numeral has no space in it. -/
theorem Text.Numeral.Grammatical.ne_space (h : n.Grammatical) : ∀ c ∈ n.text, c ≠ ' ' := by
  rintro c hc rfl
  exact h.plain ' ' hc (by decide)

/-- A numeral has no spaces to trim. -/
theorem Text.Numeral.Grammatical.trimSpaces (h : n.Grammatical) :
    trimSpaces n.text = n.text :=
  trimSpaces_eq_self (fun c hc => h.ne_space c (List.mem_of_mem_head? hc))
    fun c hc => h.ne_space c (List.mem_of_mem_getLast? hc)

/-- What the grammar calls a numeral is recognised. -/
theorem isNumeral_text (h : n.Grammatical) : isNumeral n.text = true :=
  isNumeral_iff.2 ⟨n, by rw [h.trimSpaces]; exact Numeral.whole?_eq_some_iff.2 ⟨h, rfl⟩⟩

/-- Digits are a numeral. -/
theorem isNumeral_of_digits (h : Digits s) : isNumeral s = true := by
  simpa [Numeral.text] using isNumeral_text (Numeral.grammatical_of_digits h)

/-- The number of a numeral is the double next to its value. -/
theorem numberOf?_text (h : n.Grammatical) :
    numberOf? n.text = some (Binary64.ofDecimal n.value) := by
  rw [numberOf?_eq, h.trimSpaces, Numeral.whole?_eq_some_iff.2 ⟨h, rfl⟩]
  rfl

/-! ### Numbers of filters -/

/-- A text is a numeral if a filter reads a number from its beginning to its end. -/
theorem isNumeral_iff_endAt? {t : String} (hhead : ∀ c ∈ t.toList.head?, c ≠ ' ')
    (hlast : ∀ c ∈ t.toList.getLast?, c ≠ ' ') :
    isNumeral t.toList = true ↔ Numeral.endAt? t 0 = some (byteSize t.toList) := by
  rw [isNumeral_iff, trimSpaces_eq_self hhead hlast, Numeral.endAt?, dropBytes?_zero,
    Option.bind_some, Numeral.whole?]
  cases hscan : Numeral.scan t.toList with
  | none => simp
  | some p =>
      obtain ⟨n, rest⟩ := p
      have hsize := congrArg byteSize (Numeral.text_append_of_scan hscan)
      rw [byteSize_append] at hsize
      rcases rest with - | ⟨c, rest⟩
      · simp [offsetIn]
      · have hc := c.utf8Size_pos
        simp only [offsetIn, Option.map_some, Option.some.injEq, byteSize_cons, reduceCtorEq,
          exists_false, false_iff] at hsize ⊢
        omega

/-- A text whose first bytes are dropped is what follows a text of that size. -/
theorem exists_append_of_dropBytes? {k : Nat} {rest : List Char} (h : dropBytes? k s = some rest) :
    ∃ before, s = before ++ rest ∧ byteSize before = k := by
  fun_induction dropBytes? k s with
  | case1 => exact ⟨[], by simpa using h, rfl⟩
  | case2 => cases h
  | case3 k c s hc ih =>
      obtain ⟨before, rfl, hsize⟩ := ih h
      exact ⟨c :: before, rfl, by rw [byteSize_cons, hsize]; omega⟩
  | case4 => cases h

/-- What a filter takes for a number is a numeral, and it has a number as a whole. -/
theorem exists_slice_of_endAt? {t : String} {start stop : Nat}
    (h : Numeral.endAt? t start = some stop) :
    ∃ before slice after, t.toList = before ++ slice ++ after ∧ byteSize before = start ∧
      byteSize (before ++ slice) = stop ∧ DecimalText slice ∧
      ∃ x, NumberLiteral.ofText? slice = some ⟨String.ofList slice, x⟩ := by
  obtain ⟨s, hdrop, hend⟩ := Option.bind_eq_some_iff.1 h
  obtain ⟨⟨n, after⟩, hscan, hstop⟩ := Option.map_eq_some_iff.1 hend
  obtain ⟨before, htext, hstart⟩ := exists_append_of_dropBytes? hdrop
  have hn := Numeral.grammatical_of_scan hscan
  have hs := Numeral.text_append_of_scan hscan
  have hwhole : Numeral.whole? n.text = some n := Numeral.whole?_eq_some_iff.2 ⟨hn, rfl⟩
  refine ⟨before, n.text, after, by rw [htext, List.append_assoc, hs], hstart, ?_,
    hn.decimalText, _, by rw [NumberLiteral.ofText?, read?_of_whole? hwhole]; rfl⟩
  rw [← hstop, htext, ← hs, ← List.append_assoc, offsetIn_append]

/-- Where a filter finds a numeral, it finds a number. -/
theorem isSome_readNumber? (s : List Char) :
    (Token.readNumber? s).isSome = (Numeral.scan s).isSome := by
  rw [Token.readNumber?]
  cases hscan : Numeral.scan s with
  | none => rfl
  | some p =>
      have hwhole : Numeral.whole? p.1.text = some p.1 :=
        Numeral.whole?_eq_some_iff.2 ⟨Numeral.grammatical_of_scan hscan, rfl⟩
      rw [Option.bind_some, NumberLiteral.ofText?, read?_of_whole? hwhole]
      rfl

/-! ### Numbers of documents -/

/-- Digits without padding are digits. -/
theorem Grammar.Whole.toDigits (h : Whole s) : Digits s := by
  cases h with
  | zero => exact ⟨by simp, by simp [Char.isDigit]⟩
  | digits _ hdigits => exact hdigits

/-- A number of a document is a numeral. -/
theorem Text.Numeral.WellFormed.grammatical (h : n.WellFormed) : n.Grammatical where
  sign := h.sign.imp_right .inl
  integer := h.integer.toDigits.2
  fraction := fun s hs => (h.fraction s hs).2
  digits := by simp [h.integer.toDigits.1]
  exponent := h.exponent

/-- **A number of a document** counts as a number everywhere: as an operand it is compared with
other numbers as a double, and functions take it for one. -/
theorem Document.number_of_below {document : String} {root site : Site}
    (hroot : Document.ofString document = .ok root) (hsite : site.Below root)
    (hn : site.node = .number n) :
    isNumeral n.text = true ∧ site.decode env = .ok n.text ∧
      site.number env = .ok (Binary64.ofDecimal n.value) ∧
      ∀ v y, v.number? = some y → (Operand.text (String.ofList n.text)).compare v =
        compareDoubles (Binary64.ofDecimal n.value) y := by
  have hw : site.node.WellFormed := (Document.wellFormed_of_ofString hroot).of_below hsite
  rw [hn] at hw
  have hg : n.Grammatical := Text.Numeral.WellFormed.grammatical hw
  have hdecode : site.decode env = .ok n.text := by
    rw [Site.decode, hn, Site.text, hn]
    rfl
  refine ⟨isNumeral_text hg, hdecode, ?_, fun v y hv => ?_⟩
  · simp only [Site.number, hn, hdecode, numberOf?_text hg]
    rfl
  · have hx : (Operand.text (String.ofList n.text)).number? =
        some (Binary64.ofDecimal n.value) := by
      rw [Operand.number?, String.toList_ofList, numberOf?_text hg]
    exact Operand.compare_of_numbers hx hv (.inl (by simp [Operand.kind]))

/-! ### All readers -/

/-- **The four readers agree.** A text without spaces at its ends is found to be a numeral
exactly if a filter reads a number that ends where the text ends. What a document has as a
number is a numeral, counts as a number among operands and is refused by no function. What a
filter takes for a number is a numeral by the grammar and has a number as a whole. So have the
texts that are found to be numerals, which are those that are numerals by the grammar, and no
shorter beginning of them is ever asked for. -/
theorem readers_agree (env : Environment) (t : String) :
    ((∀ c ∈ t.toList.head?, c ≠ ' ') → (∀ c ∈ t.toList.getLast?, c ≠ ' ') →
      (isNumeral t.toList = true ↔ Numeral.endAt? t 0 = some (byteSize t.toList))) ∧
    (∀ n rest, Document.scanNumber t.toList = some (n, rest) → isNumeral n.text = true) ∧
    (∀ (root site : Site) (n : Numeral), Document.ofString t = .ok root → site.Below root →
      site.node = .number n →
      isNumeral n.text = true ∧ site.decode env = .ok n.text ∧
        site.number env = .ok (Binary64.ofDecimal n.value) ∧
        ∀ v y, v.number? = some y → (Operand.text (String.ofList n.text)).compare v =
          compareDoubles (Binary64.ofDecimal n.value) y) ∧
    (∀ start stop, Numeral.endAt? t start = some stop → ∃ before slice after,
      t.toList = before ++ slice ++ after ∧ byteSize before = start ∧
        byteSize (before ++ slice) = stop ∧ DecimalText slice ∧
        ∃ x, NumberLiteral.ofText? slice = some ⟨String.ofList slice, x⟩) ∧
    (Token.readNumber? t.toList).isSome = (Numeral.scan t.toList).isSome ∧
    (isNumeral t.toList = true ↔ DecimalText (trimSpaces t.toList)) ∧
    (isNumeral t.toList = true →
      Binary64.read? (trimSpaces t.toList) = some (leadingNumber t.toList)) := by
  refine ⟨?_, ?_, ?_, ?_, ?_, ?_, ?_⟩
  · intro hhead hlast
    exact isNumeral_iff_endAt? hhead hlast
  · intro n rest hscan
    exact isNumeral_text (Document.wellFormed_of_scanNumber hscan).grammatical
  · intro root site n hroot hsite hn
    exact Document.number_of_below hroot hsite hn
  · intro start stop hend
    exact exists_slice_of_endAt? hend
  · exact isSome_readNumber? t.toList
  · rw [isNumeral_iff, decimalText_iff]
  · intro hnumeral
    obtain ⟨n, hn⟩ := isNumeral_iff.1 hnumeral
    rw [leadingNumber_eq hn, read?_of_whole? hn]

/-- A number with all its parts, read by a filter, by a document and as a text. -/
theorem readers_agree_scaled :
    isNumeral "-1.50e+3".toList = true ∧
      Numeral.endAt? "-1.50e+3" 0 = some (byteSize "-1.50e+3".toList) ∧
      Document.scanNumber "-1.50e+3".toList =
        some (⟨['-'], ['1'], some ['5', '0'], some ⟨'e', ['+'], ['3']⟩⟩, []) ∧
      DecimalText (trimSpaces "-1.50e+3".toList) ∧
      Binary64.read? (trimSpaces "-1.50e+3".toList) = some (leadingNumber "-1.50e+3".toList) := by
  have hscan : Document.scanNumber "-1.50e+3".toList =
      some (⟨['-'], ['1'], some ['5', '0'], some ⟨'e', ['+'], ['3']⟩⟩, []) := by decide
  obtain ⟨hends, hdocument, -, -, -, hgrammar, hprefix⟩ := readers_agree .standard "-1.50e+3"
  have htext : (⟨['-'], ['1'], some ['5', '0'], some ⟨'e', ['+'], ['3']⟩⟩ : Numeral).text =
      "-1.50e+3".toList := by decide
  have hnumeral : isNumeral "-1.50e+3".toList = true := by
    rw [← htext]
    exact hdocument _ _ hscan
  have hends := hends (by simp) (by simp)
  exact ⟨hnumeral, hends.1 hnumeral, hscan, hgrammar.1 hnumeral, hprefix hnumeral⟩

end JsonPath
