import JsonPath.Document.Reader
import JsonPath.Proofs.Document.WellFormed
import JsonPath.Proofs.Text.Numerals

/-!
# Strings, Numbers and Words

The parts of a document that contain no other values. Each is read exactly if it is well
formed: a string up to its closing quote, a word as a whole, and a number in front of a rest
that can follow a value (`Document.Delimited`), since a number is read as long as it goes.

## Main results

* `Document.readBody_eq_ok_iff`: **strings**.
* `Document.scanNumber_eq_some_iff`: **numbers**.
* `Document.afterWord?_eq_some_iff`: **words**.
-/

namespace JsonPath.Document

open Text Grammar

/-- What a reader found and the rest of the text, without the bound on its length. -/
def Outcome.found? {α : Type} {s : List Char} : Outcome α s → Option (α × List Char)
  | .error _ => none
  | .ok (a, rest) => some (a, rest.1)

/-- Nothing, or a text that begins with a character that can follow a value. -/
def Delimited (s : List Char) : Prop :=
  ∀ c ∈ s.head?, isBlank c ∨ c ∈ [',', ']', '\x7d']

/-! ### Strings -/

/-- The digits of codes are the hexadecimal digits. -/
theorem isHex_iff (c : Char) : isHex c = true ↔ HexDigit c := by
  simp [isHex, HexDigit, Char.isDigit, or_assoc, Char.le_def]

/-- There are eight characters with short escapes. -/
theorem isEscapable_iff (c : Char) :
    isEscapable c = true ↔ c ∈ ['"', '\\', '/', 'b', 'f', 'n', 'r', 't'] := by
  simp [isEscapable]

/-- Control characters are those in front of the blank. -/
theorem lt_blank_iff (c : Char) : c < ' ' ↔ c.toNat < 0x20 := by
  rw [Char.lt_def, UInt32.lt_iff_toNat_lt]
  rfl

/-- What is read as the body of a string is one. -/
theorem characters_of_readBody {opening s body rest : List Char}
    (h : readBody opening s = .ok (body, rest)) : Characters body := by
  fun_induction readBody opening s generalizing body rest with
  | case1 => cases h
  | case2 =>
      obtain ⟨rfl, rfl⟩ := by simpa using h
      exact .nil
  | case3 a b c d tail hhex ih =>
      obtain ⟨p, hs, hp⟩ := map_eq_ok_iff.1 h
      obtain ⟨rfl, rfl⟩ := Prod.mk.inj hp
      simp only [Bool.and_eq_true, isHex_iff] at hhex
      exact .unicode hhex.1.1.1 hhex.1.1.2 hhex.1.2 hhex.2 (ih hs)
  | case4 => cases h
  | case5 => cases h
  | case6 c tail _ _ hescape ih =>
      obtain ⟨p, hs, hp⟩ := map_eq_ok_iff.1 h
      obtain ⟨rfl, rfl⟩ := Prod.mk.inj hp
      exact .escaped ((isEscapable_iff c).1 hescape) (ih hs)
  | case7 => cases h
  | case8 => cases h
  | case9 => cases h
  | case10 c tail hquote _ _ hpair hlone hcontrol ih =>
      obtain ⟨p, hs, hp⟩ := map_eq_ok_iff.1 h
      obtain ⟨rfl, rfl⟩ := Prod.mk.inj hp
      have hne : c ≠ '\\' := by
        rintro rfl
        rcases tail with - | ⟨d, tail⟩
        · exact hlone rfl rfl
        · exact hpair d tail rfl rfl
      rw [lt_blank_iff] at hcontrol
      exact .plain (Nat.not_lt.1 hcontrol) hquote hne (ih hs)

/-- The body of a string is read up to its closing quote. -/
theorem readBody_append (opening : List Char) {body : List Char} (h : Characters body)
    (rest : List Char) : readBody opening (body ++ '"' :: rest) = .ok (body, rest) := by
  induction h with
  | nil => rfl
  | @plain c s hcontrol hquote hescape _ ih =>
      have hlt : ¬ c < ' ' := by
        rw [lt_blank_iff]
        exact Nat.not_lt.2 hcontrol
      rw [List.cons_append, readBody.eq_def]
      split
      all_goals simp_all [Except.map]
  | @escaped c s hc _ ih =>
      have hu : c ≠ 'u' := by
        rintro rfl
        exact absurd hc (by decide)
      rw [List.cons_append, List.cons_append, readBody]
      · rw [if_pos ((isEscapable_iff c).2 hc), ih]
        rfl
      · simp_all
      · simp_all
  | @unicode a b c d s ha hb hc hd _ ih =>
      have hhex : (isHex a && isHex b && isHex c && isHex d) = true := by
        simp only [Bool.and_eq_true, isHex_iff]
        exact ⟨⟨⟨ha, hb⟩, hc⟩, hd⟩
      simp only [List.cons_append]
      rw [readBody, if_pos hhex, ih]
      rfl

/-- **Strings**: a body is read exactly if it is one and a quote follows. -/
theorem readBody_eq_ok_iff (opening : List Char) {s body rest : List Char} :
    readBody opening s = .ok (body, rest) ↔ Characters body ∧ s = body ++ '"' :: rest := by
  constructor
  · exact fun h => ⟨characters_of_readBody h, (append_of_readBody h).symm⟩
  · rintro ⟨h, rfl⟩
    exact readBody_append opening h rest

/-- A string is found exactly if a quoted text of permitted characters stands in front. -/
theorem readString_found?_iff {s body rest : List Char} {missing : Malformed} :
    (readString s missing).found? = some (body, rest) ↔
      Characters body ∧ s = quoted body ++ rest := by
  rw [readString.eq_def]
  split
  · next tail =>
      have hquoted : '"' :: tail = quoted body ++ rest ↔ tail = body ++ '"' :: rest := by
        simp [quoted]
      rw [hquoted, ← readBody_eq_ok_iff ('"' :: tail)]
      split
      · next hbody => simp [Outcome.found?, hbody]
      · next hbody => simp [Outcome.found?, hbody]
  · next hquote =>
      constructor
      · exact fun h => by cases h
      · rintro ⟨-, rfl⟩
        exact (hquote _ rfl).elim

/-! ### Numbers and words -/

/-- A minus in front of what is none is split off. -/
theorem splitMinus_append {minus after : List Char} (h : minus = [] ∨ minus = ['-'])
    (hafter : ∀ c ∈ after.head?, c ≠ '-') : splitMinus (minus ++ after) = (minus, after) := by
  rcases h with rfl | rfl
  · rw [List.nil_append, splitMinus]
    rintro rest rfl
    exact hafter '-' rfl rfl
  · rfl

/-- Digits without padding in front of what is no digit are split off. -/
theorem splitInteger_append {whole after : List Char} (h : Whole whole)
    (hafter : ∀ c ∈ after.head?, c.isDigit = false) :
    splitInteger (whole ++ after) = (whole, after) := by
  cases h with
  | zero => rfl
  | @digits c s hc hd =>
      rw [List.cons_append, splitInteger, ← List.cons_append, splitDigits_append hd.2 hafter]
      rintro rest hrest
      exact hc (List.cons.inj hrest).1

/-- The digits of a whole number are read without padding. -/
theorem whole_of_splitInteger {s : List Char} (h : (splitInteger s).1 ≠ []) :
    Whole (splitInteger s).1 := by
  rw [splitInteger.eq_def] at h ⊢
  split
  · exact .zero
  · next hzero =>
      rcases s with - | ⟨c, s⟩
      · exact absurd rfl h
      have hc : c.isDigit := by
        by_contra hc
        exact h (by simp [splitDigits, hc])
      have htake : (splitDigits (c :: s)).1 = c :: s.takeWhile Char.isDigit := by
        simp [splitDigits, hc]
      rw [htake]
      refine .digits (fun h0 => hzero s (by rw [h0])) ⟨by simp, ?_⟩
      rw [← htake]
      exact fun _ => List.mem_takeWhile_imp

/-- The parts that are read are those of a JSON number. -/
theorem wellFormed_of_scanNumber {s rest : List Char} {n : Numeral}
    (h : scanNumber s = some (n, rest)) : n.WellFormed := by
  simp only [scanNumber] at h
  split at h
  · cases h
  next hparts =>
  obtain ⟨⟨e, r⟩, he, hn⟩ := Option.map_eq_some_iff.1 h
  obtain ⟨rfl, rfl⟩ := Prod.mk.inj hn
  simp only [Bool.or_eq_true, List.isEmpty_iff, not_or] at hparts
  refine ⟨?_, whole_of_splitInteger hparts.1, ?_, ?_⟩
  · rw [splitMinus.eq_def]
    split
    · exact .inr rfl
    · exact .inl rfl
  · intro t ht
    have hne : t ≠ [] := by
      rintro rfl
      exact hparts.2 (by simpa using ht)
    exact ⟨hne, isDigit_of_mem_splitFraction t ht⟩
  · rintro e' rfl
    exact exponent_of_splitExponent? he

/-- What can follow a value continues no number. -/
theorem Delimited.continues_no_number {s : List Char} (h : Delimited s) {c : Char}
    (hc : c ∈ s.head?) : c.isDigit = false ∧ c ∉ ['.', 'e', 'E'] := by
  rcases h c hc with hblank | hmem
  · have hne := (not_blank hblank).2.2
    simp only [List.mem_cons, not_or] at hne ⊢
    exact ⟨(not_blank hblank).1, hne.2.2.1, hne.2.2.2.2.2.1, hne.2.2.2.2.2.2⟩
  · have hc' : c = ',' ∨ c = ']' ∨ c = '\x7d' := by simpa using hmem
    rcases hc' with rfl | rfl | rfl <;> decide

/-- A number is read up to what can follow it. -/
theorem scanNumber_append {n : Numeral} {rest : List Char} (h : n.WellFormed)
    (hrest : Delimited rest) : scanNumber (n.text ++ rest) = some (n, rest) := by
  have hstop : ∀ c ∈ rest.head?, c.isDigit = false ∧ c ≠ '.' ∧ c ≠ 'e' ∧ c ≠ 'E' := by
    intro c hc
    simpa using hrest.continues_no_number hc
  have hscale : ∀ c ∈ (n.exponent.elim [] Exponent.text ++ rest).head?,
      c.isDigit = false ∧ c ≠ '.' := by
    cases he : n.exponent with
    | none => exact fun c hc => ⟨(hstop c hc).1, (hstop c hc).2.1⟩
    | some e =>
        intro c hc
        obtain rfl : e.mark = c := by simpa [Exponent.text] using hc
        rcases (h.exponent e he).1 with hmark | hmark <;> rw [hmark] <;> decide
  have hpoint : ∀ c ∈ (n.fraction.elim [] ('.' :: ·) ++
      (n.exponent.elim [] Exponent.text ++ rest)).head?, c.isDigit = false := by
    cases hf : n.fraction with
    | none => exact fun c hc => (hscale c hc).1
    | some s =>
        intro c hc
        obtain rfl : '.' = c := by simpa using hc
        rfl
  have hsign : ∀ c ∈ (n.integer ++ (n.fraction.elim [] ('.' :: ·) ++
      (n.exponent.elim [] Exponent.text ++ rest))).head?, c ≠ '-' := by
    obtain ⟨d, t, ht, hd⟩ := h.integer.exists_eq_cons
    rw [ht]
    rintro c hc rfl
    obtain rfl : d = '-' := by simpa using hc
    exact absurd hd (by decide)
  have hparts : (n.integer.isEmpty || n.fraction == some []) = false := by
    obtain ⟨d, t, ht, -⟩ := h.integer.exists_eq_cons
    have hne : n.fraction ≠ some [] := fun hf => (h.fraction [] hf).1 rfl
    simp [ht, hne]
  simp only [scanNumber, Numeral.text, List.append_assoc, splitMinus_append h.sign hsign,
    splitInteger_append h.integer hpoint,
    splitFraction_append (fun s hs => (h.fraction s hs).2) hscale,
    splitExponent?_append h.exponent fun c hc => ⟨(hstop c hc).1, (hstop c hc).2.2⟩, hparts]
  rfl

/-- **Numbers**: in front of what can follow a value exactly the JSON numbers are read. -/
theorem scanNumber_eq_some_iff {s rest : List Char} {n : Numeral} (hrest : Delimited rest) :
    scanNumber s = some (n, rest) ↔ n.WellFormed ∧ s = n.text ++ rest := by
  constructor
  · exact fun h => ⟨wellFormed_of_scanNumber h, (text_append_of_scanNumber h).1.symm⟩
  · rintro ⟨h, rfl⟩
    exact scanNumber_append h hrest

/-- What follows a word is what is left behind it. -/
theorem afterWord?_append (word rest : List Char) : afterWord? word (word ++ rest) = some rest := by
  induction word with
  | nil => rfl
  | cons w word ih => rw [List.cons_append, afterWord?, if_pos rfl, ih]

/-- **Words** are read as a whole. -/
theorem afterWord?_eq_some_iff {word s rest : List Char} :
    afterWord? word s = some rest ↔ s = word ++ rest := by
  constructor
  · exact fun h => (append_of_afterWord? h).symm
  · rintro rfl
    exact afterWord?_append word rest

/-- A word is found exactly if it stands in front. -/
theorem readWord_found? {word : String} (hne : word.toList ≠ []) (value : Node)
    (s : List Char) :
    (readWord word value s).found? = (afterWord? word.toList s).map fun rest => (value, rest) := by
  rw [readWord, dif_neg hne]
  split
  · next h => simp [Outcome.found?, h]
  · next h => simp [Outcome.found?, h]

/-- A number is found exactly if the scanner finds one. -/
theorem readNumber_found? (s : List Char) :
    (readNumber s).found? = (scanNumber s).map fun p => (.number p.1, p.2) := by
  rw [readNumber]
  split
  · next h => simp [Outcome.found?, h]
  · next h => simp [Outcome.found?, h]

end JsonPath.Document
