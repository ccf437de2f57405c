import Mathlib.Data.List.TakeWhile
import JsonPath.Text.Numeral
import JsonPath.Text.Quoted

/-!
# Where a Reading Stops

A reader takes the longest beginning of a text that it can use, so it looks at the first
character of the rest and at nothing behind it. A text `after` that begins as the rest does,
or with a blank, or is empty, can stand in the place of the rest (`StopsAt`): the reader
stops in front of it as well. This is proved here for the parts of numerals and for quoted
text.

## Main results

* `Text.Numeral.scan_of_stopsAt`: **a numeral is read the same** in front of any such text.
* `Text.Quoted.split_append`: a quoted text is read the same in front of any text.
-/

namespace JsonPath.Text

/-! ### Runs of characters -/

/-- A run of characters is taken up to the first that does not belong to it. -/
theorem takeWhile_append_eq {p : Char → Bool} {s after : List Char} (hs : ∀ c ∈ s, p c)
    (hafter : ∀ c ∈ after.head?, p c = false) : (s ++ after).takeWhile p = s := by
  rw [List.takeWhile_append_of_pos hs]
  rcases after with - | ⟨c, after⟩
  · exact List.append_nil s
  · rw [List.takeWhile_cons_of_neg (by simp [hafter c rfl]), List.append_nil]

/-- A run of characters is dropped up to the first that does not belong to it. -/
theorem dropWhile_append_eq {p : Char → Bool} {s after : List Char} (hs : ∀ c ∈ s, p c)
    (hafter : ∀ c ∈ after.head?, p c = false) : (s ++ after).dropWhile p = after := by
  rw [List.dropWhile_append_of_pos hs]
  rcases after with - | ⟨c, after⟩
  · rfl
  · rw [List.dropWhile_cons_of_neg (by simp [hafter c rfl])]

/-- What `dropWhile` leaves does not begin with a character that it drops. -/
theorem head_dropWhile_eq_false {p : Char → Bool} {s : List Char} :
    ∀ c ∈ (s.dropWhile p).head?, p c = false := by
  induction s with
  | nil => simp
  | cons d s ih =>
      by_cases hd : p d
      · rwa [List.dropWhile_cons_of_pos hd]
      · rw [List.dropWhile_cons_of_neg hd]
        intro c hc
        obtain rfl : d = c := by simpa using hc
        simpa using hd

/-- Blanks in front of a text are skipped with its own. -/
theorem skipBlanks_append {blanks : List Char} (h : ∀ c ∈ blanks, isBlank c)
    (s : List Char) : skipBlanks (blanks ++ s) = skipBlanks s :=
  List.dropWhile_append_of_pos h

/-- Blanks are skipped up to a character that is none. -/
theorem skipBlanks_append_eq {blanks : List Char} (h : ∀ c ∈ blanks, isBlank c) {c : Char}
    (hc : isBlank c = false) (s : List Char) : skipBlanks (blanks ++ c :: s) = c :: s :=
  dropWhile_append_eq h (by simpa using hc)

/-- Blanks are no characters of a name or a number and begin no part of either. -/
theorem not_blank {c : Char} (h : isBlank c) :
    c.isDigit = false ∧ isWord c = false ∧ c ∉ ['+', '-', '.', '[', '=', 'e', 'E'] := by
  have hc : c = ' ' ∨ c = '\t' ∨ c = '\r' ∨ c = '\n' := by
    simpa [isBlank, or_assoc] using h
  rcases hc with rfl | rfl | rfl | rfl <;> decide

/-- A digit is no blank. -/
theorem isBlank_of_isDigit {c : Char} (h : c.isDigit = true) : isBlank c = false :=
  Bool.eq_false_iff.2 fun hblank => by simp [(not_blank hblank).1] at h

/-! ### What may stand in the place of a rest -/

/-- `after` is empty or begins with a blank or as `rest` does. -/
def StopsAt (rest after : List Char) : Prop :=
  ∀ c ∈ after.head?, isBlank c ∨ c ∈ rest.head?

/-- The same text in front of both. -/
theorem StopsAt.append {rest after : List Char} (h : StopsAt rest after) (s : List Char) :
    StopsAt (s ++ rest) (s ++ after) := by
  rcases s with - | ⟨d, s⟩
  · exact h
  · exact fun c hc => .inr hc

/-- Blanks in front of a text. -/
theorem StopsAt.of_blanks {blanks : List Char} (h : ∀ c ∈ blanks, isBlank c)
    {rest after : List Char} (hafter : StopsAt rest after) : StopsAt rest (blanks ++ after) := by
  rcases blanks with - | ⟨d, blanks⟩
  · exact hafter
  · intro c hc
    obtain rfl : d = c := by simpa using hc
    exact .inl (h d (by simp))

/-- What neither a blank nor the rest begins with, `after` does not begin with. -/
theorem StopsAt.head {rest after : List Char} (h : StopsAt rest after) {p : Char → Bool}
    (hblank : ∀ c, isBlank c → p c = false) (hrest : ∀ c ∈ rest.head?, p c = false) :
    ∀ c ∈ after.head?, p c = false :=
  fun c hc => (h c hc).elim (hblank c) (hrest c)

/-! ### Numerals -/

/-- A sign is split off alike in front of any text that stops what is left. -/
theorem splitSign_of_stopsAt {s after : List Char} (h : StopsAt (splitSign s).2 after) :
    splitSign ((splitSign s).1 ++ after) = ((splitSign s).1, after) := by
  rw [splitSign.eq_def s] at h ⊢
  split at h
  · rfl
  · rfl
  · next hminus hplus =>
      rcases after with - | ⟨c, after⟩
      · rfl
      have hne : c ≠ '-' ∧ c ≠ '+' := by
        rcases h c rfl with hc | hc
        · have := (not_blank hc).2.2
          simp only [List.mem_cons, not_or] at this
          exact ⟨this.2.1, this.1⟩
        · rcases s with - | ⟨d, s⟩
          · cases hc
          obtain rfl : d = c := by simpa using hc
          exact ⟨fun hd => hminus s (by rw [hd]), fun hd => hplus s (by rw [hd])⟩
      rw [List.nil_append, splitSign]
      · exact fun _ h' => hne.1 (List.cons.inj h').1
      · exact fun _ h' => hne.2 (List.cons.inj h').1

/-- Digits in front of what is none are split off. -/
theorem splitDigits_append {s after : List Char} (hs : ∀ c ∈ s, c.isDigit)
    (hafter : ∀ c ∈ after.head?, c.isDigit = false) : splitDigits (s ++ after) = (s, after) := by
  rw [splitDigits, takeWhile_append_eq hs hafter, dropWhile_append_eq hs hafter]

/-- Digits are split off alike in front of any text that stops what is left. -/
theorem splitDigits_of_stopsAt {s after : List Char} (h : StopsAt (splitDigits s).2 after) :
    splitDigits ((splitDigits s).1 ++ after) = ((splitDigits s).1, after) :=
  splitDigits_append (fun _ => List.mem_takeWhile_imp)
    (h.head (fun _ hc => (not_blank hc).1) head_dropWhile_eq_false)

/-- A fraction is split off alike in front of any text that stops what is left. -/
theorem splitFraction_of_stopsAt {s after : List Char} (h : StopsAt (splitFraction s).2 after) :
    splitFraction ((splitFraction s).1.elim [] ('.' :: ·) ++ after) =
      ((splitFraction s).1, after) := by
  rw [splitFraction.eq_def s] at h ⊢
  split at h
  · next rest =>
      show splitFraction ('.' :: ((splitDigits rest).1 ++ after)) = _
      rw [splitFraction, splitDigits_of_stopsAt h]
  · next hpoint =>
      rcases after with - | ⟨c, after⟩
      · rfl
      have hne : c ≠ '.' := by
        rcases h c rfl with hc | hc
        · rintro rfl
          exact absurd hc (by decide)
        · rcases s with - | ⟨d, s⟩
          · cases hc
          obtain rfl : d = c := by simpa using hc
          exact fun hd => hpoint s (by rw [hd])
      rw [Option.elim_none, List.nil_append, splitFraction]
      exact fun _ h' => hne (List.cons.inj h').1

/-- An exponent is split off alike in front of any text that stops what is left. -/
theorem splitExponent?_of_stopsAt {s rest after : List Char} {e : Option Exponent}
    (hs : splitExponent? s = some (e, rest)) (h : StopsAt rest after) :
    splitExponent? (e.elim [] Exponent.text ++ after) = some (e, after) := by
  have none_read (hne : ∀ c ∈ after.head?, ¬ (c = 'e' ∨ c = 'E')) :
      splitExponent? after = some (none, after) := by
    rcases after with - | ⟨c, after⟩
    · rfl
    · rw [splitExponent?, if_neg (hne c rfl)]
  rcases s with - | ⟨d, s⟩
  · obtain ⟨rfl, rfl⟩ : none = e ∧ [] = rest := by simpa [splitExponent?] using hs
    refine none_read fun c hc hmark => ?_
    rcases h c hc with hblank | hc
    · rcases hmark with rfl | rfl <;> exact absurd hblank (by decide)
    · cases hc
  by_cases hd : d = 'e' ∨ d = 'E'
  · rw [splitExponent?, if_pos hd] at hs
    dsimp only at hs
    split at hs
    · cases hs
    · next hdigits =>
        obtain ⟨rfl, rfl⟩ := by simpa using hs
        have hstop := h.append (splitDigits (splitSign s).2).1
        rw [append_splitDigits] at hstop
        have hsign := splitSign_of_stopsAt hstop
        simp only [Option.elim_some, Exponent.text, List.cons_append, List.append_assoc]
        rw [splitExponent?, if_pos hd]
        simp only [hsign, splitDigits_of_stopsAt h]
        rw [if_neg hdigits]
  · rw [splitExponent?, if_neg hd] at hs
    obtain ⟨rfl, rfl⟩ : none = e ∧ d :: s = rest := by simpa using hs
    refine none_read fun c hc hmark => ?_
    rcases h c hc with hblank | hc
    · rcases hmark with rfl | rfl <;> exact absurd hblank (by decide)
    · obtain rfl : d = c := by simpa using hc
      exact hd hmark

/-- **A numeral is read the same** in front of any text that can stand for its rest. -/
theorem Numeral.scan_of_stopsAt {s rest after : List Char} {n : Numeral}
    (hs : Numeral.scan s = some (n, rest)) (h : StopsAt rest after) :
    Numeral.scan (n.text ++ after) = some (n, after) := by
  simp only [Numeral.scan] at hs
  split at hs
  · cases hs
  next hdigits =>
  obtain ⟨⟨e, r⟩, he, hn⟩ := Option.map_eq_some_iff.1 hs
  obtain ⟨rfl, rfl⟩ := Prod.mk.inj hn
  have h₃ := h.append (e.elim [] Exponent.text)
  rw [append_splitExponent? he] at h₃
  have h₂ := h₃.append ((splitFraction (splitDigits (splitSign s).2).2).1.elim [] ('.' :: ·))
  rw [append_splitFraction] at h₂
  have h₁ := h₂.append (splitDigits (splitSign s).2).1
  rw [append_splitDigits] at h₁
  simp only [Numeral.scan, Numeral.text, List.append_assoc, splitSign_of_stopsAt h₁,
    splitDigits_of_stopsAt h₂, splitFraction_of_stopsAt h₃, splitExponent?_of_stopsAt he h]
  rw [if_neg hdigits]
  rfl

/-! ### Quoted text -/

/-- A quoted text is read the same in front of any text: its closing quote ends it. -/
theorem Quoted.split_append {α : Type} [DecidableEq α] {escape quote : α} {banned : α → Bool}
    {s body rest : List α} (h : split escape quote banned s = .ok (body, rest))
    (after : List α) : split escape quote banned (body ++ quote :: after) = .ok (body, after) := by
  fun_induction split escape quote banned s generalizing body rest with
  | case1 => cases h
  | case2 =>
      obtain ⟨rfl, rfl⟩ := by simpa using h
      rw [List.nil_append, split.eq_def]
      simp
  | case3 => cases h
  | case4 d tail hd hquote ih =>
      obtain ⟨p, hs, hp⟩ := map_eq_ok_iff.1 h
      obtain ⟨rfl, rfl⟩ := Prod.mk.inj hp
      rw [List.cons_append, List.cons_append, split, if_neg hquote, if_pos rfl, if_pos hd,
        ih hs]
      rfl
  | case5 => cases h
  | case6 => cases h
  | case7 c tail hquote hescape hbanned ih =>
      obtain ⟨p, hs, hp⟩ := map_eq_ok_iff.1 h
      obtain ⟨rfl, rfl⟩ := Prod.mk.inj hp
      rw [List.cons_append, split.eq_def]
      simp only [hquote, hescape, hbanned, if_false]
      rw [ih hs]
      rfl

end JsonPath.Text
