import JsonPath.Proofs.Filter.Arranging
import JsonPath.Proofs.Text.Stopping

/-!
# Blanks Between the Tokens of a Filter

A token is read in the same way whatever stands behind it, as long as the text behind it
begins with the same character as before, or with a blank, or is empty
(`Token.next_of_stopsAt`). So blanks that are put between the tokens of a filter change none
of its tokens: `Filter.Respaced` says that one text is another with more blanks between its
tokens, and `Filter.Respaced.enclosed?_eq` that both then have the same tokens.

## Main definitions

* `Token.readOther`: the tokens that are no operators.
* `Filter.Respaced`: a filter with more blanks between its tokens.

## Main results

* `Step.readAll_of_stopsAt`, `Token.next_of_stopsAt`: **steps and tokens are read the same**
  in front of any text that can stand for their rest.
* `Filter.Respaced.enclosed?_eq`: blanks between tokens leave no trace.
-/

namespace JsonPath

open Text

/-! ### References -/

namespace Step

/-- The bracket that closes a step is read alike, whatever follows. -/
theorem close?_append {step t : Step} {s rest : List Char} (h : close? step s = some (t, rest)) :
    ∃ u, u ≠ [] ∧ s = u ++ rest ∧ ∀ after, close? step (u ++ after) = some (t, after) := by
  rw [close?] at h
  split at h
  · next tail hs =>
      obtain ⟨rfl, rfl⟩ := by simpa using h
      refine ⟨s.takeWhile isBlank ++ [']'], by simp, ?_, fun after => ?_⟩
      · rw [List.append_assoc, List.singleton_append, ← hs]
        exact List.takeWhile_append_dropWhile.symm
      · rw [close?, List.append_assoc, skipBlanks_append fun _ => List.mem_takeWhile_imp]
        rfl
  · cases h

/-- A step by name in brackets is read alike, whatever follows. -/
theorem quoted?_append {quote : Char} {t : Step} {s rest : List Char}
    (h : quoted? quote s = some (t, rest)) :
    ∃ u, s = u ++ rest ∧ ∀ after, quoted? quote (u ++ after) = some (t, after) := by
  rw [quoted?] at h
  split at h
  · next d tail hs =>
      obtain ⟨u, -, rfl, hu⟩ := close?_append h
      have hd : d = quote := by
        simpa [hs] using head_dropWhile_eq_false (p := (· != quote)) (s := s)
      rw [hd] at hs
      have hsplit := List.takeWhile_append_dropWhile (p := (· != quote)) (l := s)
      rw [hs] at hsplit
      refine ⟨s.takeWhile (· != quote) ++ quote :: u, by simpa using hsplit.symm, ?_⟩
      intro after
      have htake : ∀ c ∈ s.takeWhile (· != quote), (c != quote) = true :=
        fun _ => List.mem_takeWhile_imp
      have hstop : ∀ c ∈ (quote :: (u ++ after)).head?, (c != quote) = false := by simp
      rw [List.append_assoc, List.cons_append, quoted?, dropWhile_append_eq htake hstop,
        takeWhile_append_eq htake hstop]
      exact hu after
  · cases h

/-- A step by position is read alike, whatever follows. -/
theorem position?_append {t : Step} {s rest : List Char} (h : position? s = some (t, rest)) :
    ∃ u, s = u ++ rest ∧ ∀ after, position? (u ++ after) = some (t, after) := by
  simp only [position?] at h
  split at h
  · next hlt =>
      obtain ⟨u, hne, hs, hu⟩ := close?_append h
      refine ⟨s.takeWhile Char.isDigit ++ u, ?_, fun after => ?_⟩
      · rw [List.append_assoc, ← hs, List.takeWhile_append_dropWhile]
      · have htake : ∀ c ∈ s.takeWhile Char.isDigit, c.isDigit = true :=
          fun _ => List.mem_takeWhile_imp
        have hstop : ∀ c ∈ (u ++ after).head?, c.isDigit = false := by
          have := head_dropWhile_eq_false (p := Char.isDigit) (s := s)
          rw [hs] at this
          obtain ⟨d, u, rfl⟩ := List.exists_cons_of_ne_nil hne
          exact this
        simp only [position?, List.append_assoc, dropWhile_append_eq htake hstop,
          takeWhile_append_eq htake hstop]
        rw [if_pos hlt]
        exact hu after
  · cases h

/-- A step in brackets is read alike, whatever follows. -/
theorem bracketed?_append {t : Step} {s rest : List Char} (h : bracketed? s = some (t, rest)) :
    ∃ u, s = u ++ rest ∧ ∀ after, bracketed? (u ++ after) = some (t, after) := by
  rw [bracketed?] at h
  split at h
  · next c tail hs =>
      have hblank : ∀ d ∈ s.takeWhile isBlank, isBlank d = true :=
        fun _ => List.mem_takeWhile_imp
      have hsplit : s = s.takeWhile isBlank ++ c :: tail := by
        rw [← hs]
        exact List.takeWhile_append_dropWhile.symm
      have hskip (X : List Char) : skipBlanks (s.takeWhile isBlank ++ c :: X) = c :: X := by
        have hc : isBlank c = false := by
          have := head_dropWhile_eq_false (p := isBlank) (s := s)
          exact this c (by rw [← skipBlanks, hs]; rfl)
        exact skipBlanks_append_eq hblank hc X
      split at h
      · next hquote =>
          obtain ⟨u, rfl, hu⟩ := quoted?_append h
          refine ⟨s.takeWhile isBlank ++ c :: u, by simpa using hsplit, fun after => ?_⟩
          rw [List.append_assoc, List.cons_append, bracketed?, hskip]
          simp only [if_pos hquote]
          exact hu after
      · next hquote =>
          split at h
          · next hdigit =>
              obtain ⟨u, hsu, hu⟩ := position?_append h
              rcases u with - | ⟨d, u⟩
              · exact absurd (hu (']' :: c :: tail))
                  (by simp [position?, close?, skipBlanks, isBlank])
              obtain ⟨rfl, rfl⟩ := List.cons.inj hsu
              refine ⟨s.takeWhile isBlank ++ c :: u, by simpa using hsplit, fun after => ?_⟩
              rw [List.append_assoc, List.cons_append, bracketed?, hskip]
              simp only [if_neg hquote, if_pos hdigit]
              exact hu after
          · cases h
  · cases h

/-- A step by a plain name is read alike in front of any text that stops its rest. -/
theorem named?_of_stopsAt {t : Step} {s rest : List Char} (h : named? s = some (t, rest)) :
    ∃ u, u ≠ [] ∧ (∀ c ∈ u, isWord c) ∧ s = u ++ rest ∧
      ∀ after, StopsAt rest after → named? (u ++ after) = some (t, after) := by
  simp only [named?] at h
  split at h
  · cases h
  · next hne =>
      obtain ⟨rfl, rfl⟩ := by simpa using h
      refine ⟨s.takeWhile isWord, by simpa using hne, fun _ => List.mem_takeWhile_imp,
        List.takeWhile_append_dropWhile.symm, fun after hafter => ?_⟩
      have htake : ∀ c ∈ s.takeWhile isWord, isWord c = true := fun _ => List.mem_takeWhile_imp
      have hstop : ∀ c ∈ after.head?, isWord c = false :=
        hafter.head (fun _ hc => (not_blank hc).2.1) head_dropWhile_eq_false
      simp only [named?, takeWhile_append_eq htake hstop, dropWhile_append_eq htake hstop]
      rw [if_neg hne]

/-- A step that is read begins as one. -/
theorem begins_of_read? {t : Step} {s rest : List Char} (h : read? s = some (t, rest)) :
    begins s = true := by
  rw [read?.eq_def] at h
  split at h <;> first | rfl | cases h

/-- A step is read the same in front of any text that can stand for its rest. -/
theorem read?_of_stopsAt {t : Step} {s rest : List Char} (h : read? s = some (t, rest)) :
    ∃ u, u ≠ [] ∧ s = u ++ rest ∧
      ∀ after, StopsAt rest after → read? (u ++ after) = some (t, after) := by
  rw [read?.eq_def] at h
  split at h
  · obtain ⟨u, rfl, hu⟩ := bracketed?_append h
    exact ⟨'.' :: '[' :: u, by simp, rfl, fun after _ => hu after⟩
  · obtain ⟨u, rfl, hu⟩ := bracketed?_append h
    exact ⟨'[' :: u, by simp, rfl, fun after _ => hu after⟩
  · next tail hbracket =>
      obtain ⟨u, hne, hword, rfl, hu⟩ := named?_of_stopsAt h
      refine ⟨'.' :: u, by simp, rfl, fun after hafter => ?_⟩
      obtain ⟨d, u, rfl⟩ := List.exists_cons_of_ne_nil hne
      rw [List.cons_append, List.cons_append, read?]
      · exact hu after hafter
      · rintro _ hd
        obtain ⟨rfl, -⟩ := List.cons.inj hd
        exact absurd (hword '[' (by simp)) (by decide)
  · cases h

/-- Where no step begins, there are none. -/
theorem readAll_of_not_begins {s : List Char} (h : begins s = false) : readAll s = .ok ([], s) := by
  rw [readAll, if_neg (by simp [h])]

/-- A step that is read is the first of the steps. -/
theorem readAll_of_read? {t : Step} {s rest : List Char} (h : read? s = some (t, rest)) :
    readAll s = (readAll rest).map fun p => (t :: p.1, p.2) := by
  rw [readAll, if_pos (begins_of_read? h)]
  split
  · next hnone =>
      rw [h] at hnone
      cases hnone
  · next hsome =>
      rw [h] at hsome
      obtain ⟨rfl, rfl⟩ : t = _ ∧ rest = _ := by simpa using hsome
      rfl

/-- **All the steps of a reference are read the same** in front of any text that can stand
for their rest. -/
theorem readAll_of_stopsAt {steps : List Step} {s rest : List Char}
    (h : readAll s = .ok (steps, rest)) :
    ∃ u, s = u ++ rest ∧ ∀ after, StopsAt rest after →
      readAll (u ++ after) = .ok (steps, after) := by
  induction hn : s.length using Nat.strong_induction_on generalizing s steps with
  | _ n ih =>
  by_cases hbegins : begins s = true
  · cases hread : read? s with
    | none =>
        rw [readAll, if_pos hbegins] at h
        split at h
        · cases h
        · next hsome =>
            rw [hread] at hsome
            cases hsome
    | some p =>
        obtain ⟨t, tail⟩ := p
        rw [readAll_of_read? hread] at h
        obtain ⟨q, htail, hp⟩ := map_eq_ok_iff.1 h
        obtain ⟨rfl, rfl⟩ := Prod.mk.inj hp
        obtain ⟨v, rfl, hv⟩ := ih tail.length (hn ▸ length_lt_of_read? hread) htail rfl
        obtain ⟨u, -, rfl, hu⟩ := read?_of_stopsAt hread
        refine ⟨u ++ v, by simp, fun after hafter => ?_⟩
        rw [List.append_assoc, readAll_of_read? (hu _ (hafter.append v)), hv after hafter]
        rfl
  · have hfalse : begins s = false := by simpa using hbegins
    rw [readAll_of_not_begins hfalse] at h
    obtain ⟨rfl, rfl⟩ : [] = steps ∧ s = rest := by simpa using h
    refine ⟨[], rfl, fun after hafter => readAll_of_not_begins ?_⟩
    rcases after with - | ⟨c, after⟩
    · rfl
    have hne : c ≠ '.' ∧ c ≠ '[' := by
      rcases hafter c rfl with hc | hc
      · have := (not_blank hc).2.2
        simp only [List.mem_cons, not_or] at this
        exact ⟨this.2.2.1, this.2.2.2.1⟩
      · rcases s with - | ⟨d, s⟩
        · cases hc
        obtain rfl : d = c := by simpa using hc
        constructor <;> rintro rfl <;> cases hfalse
    rw [begins.eq_def]
    split
    · next h' => exact absurd (List.cons.inj h').1 hne.1
    · next h' => exact absurd (List.cons.inj h').1 hne.2
    · rfl

end Step

/-! ### Tokens -/

namespace Token

/-- `=` cannot come to stand behind a text that it did not follow. -/
theorem ne_equals_cons {rest after : List Char} (hafter : StopsAt rest after)
    (h : ∀ r, rest = '=' :: r → False) (r : List Char) (hr : after = '=' :: r) : False := by
  subst hr
  rcases hafter '=' rfl with hc | hc
  · exact absurd hc (by decide)
  · obtain ⟨tail, rfl⟩ := List.head?_eq_some_iff.1 hc
    exact h tail rfl

/-- An operator is read alike in front of any text that stops its rest. -/
theorem readOperator?_of_stopsAt {previous : Role} {op : Operator} {s rest : List Char}
    (h : readOperator? previous s = some (op, rest)) :
    ∃ u, u ≠ [] ∧ s = u ++ rest ∧
      ∀ after, StopsAt rest after → readOperator? previous (u ++ after) = some (op, after) := by
  rw [readOperator?.eq_def] at h
  split at h
  case h_2 tail =>
      split at h
      · next hprevious =>
          obtain ⟨rfl, rfl⟩ := by simpa using h
          exact ⟨['-'], by simp, rfl, fun _ _ => if_pos hprevious⟩
      · cases h
  case h_6 tail hne =>
      obtain ⟨rfl, rfl⟩ := by simpa using h
      refine ⟨['!'], by simp, rfl, fun after hafter => ?_⟩
      rw [List.singleton_append, readOperator?]
      exact ne_equals_cons hafter hne
  case h_10 tail hne =>
      obtain ⟨rfl, rfl⟩ := by simpa using h
      refine ⟨['<'], by simp, rfl, fun after hafter => ?_⟩
      rw [List.singleton_append, readOperator?]
      exact ne_equals_cons hafter hne
  case h_12 tail hne =>
      obtain ⟨rfl, rfl⟩ := by simpa using h
      refine ⟨['>'], by simp, rfl, fun after hafter => ?_⟩
      rw [List.singleton_append, readOperator?]
      exact ne_equals_cons hafter hne
  case h_15 => cases h
  all_goals
      obtain ⟨rfl, rfl⟩ := by simpa using h
      first
        | exact ⟨[_], by simp, rfl, fun _ _ => rfl⟩
        | exact ⟨[_, _], by simp, rfl, fun _ _ => rfl⟩

/-- A character that begins no operator of two begins none in front of any text. -/
theorem readOperator?_eq_none {previous : Role} {c : Char} {s : List Char}
    (h : readOperator? previous (c :: s) = none) (hc : c ∉ ['=', '|', '&']) (t : List Char) :
    readOperator? previous (c :: t) = none := by
  rw [readOperator?.eq_def] at h ⊢
  split at h <;> simp_all

/-- A reference is read alike in front of any text that stops its rest. -/
theorem readReference_of_stopsAt {sign : Char} {reference : Reference} {s rest : List Char}
    (h : readReference sign s = .ok (reference, rest)) :
    ∃ u, s = u ++ rest ∧
      ∀ after, StopsAt rest after → readReference sign (u ++ after) = .ok (reference, after) := by
  rw [readReference] at h
  obtain ⟨p, hs, hp⟩ := map_eq_ok_iff.1 h
  obtain ⟨steps, tail⟩ := p
  obtain ⟨rfl, rfl⟩ := Prod.mk.inj hp
  obtain ⟨u, rfl, hu⟩ := Step.readAll_of_stopsAt hs
  refine ⟨u, rfl, fun after hafter => ?_⟩
  rw [readReference, hu after hafter]
  simp [Except.map]

/-- References become tokens in the same way for both signs. -/
theorem map_readReference_of_stopsAt {sign : Char} {make : Reference → Token} {t : Token}
    {s rest : List Char}
    (h : (readReference sign s).map (fun p => (make p.1, p.2)) = .ok (t, rest)) :
    ∃ u, s = u ++ rest ∧ ∀ after, StopsAt rest after →
      (readReference sign (u ++ after)).map (fun p => (make p.1, p.2)) = .ok (t, after) := by
  obtain ⟨p, hs, hp⟩ := map_eq_ok_iff.1 h
  obtain ⟨reference, tail⟩ := p
  obtain ⟨rfl, rfl⟩ := Prod.mk.inj hp
  obtain ⟨u, rfl, hu⟩ := readReference_of_stopsAt hs
  refine ⟨u, rfl, fun after hafter => ?_⟩
  rw [hu after hafter]
  rfl

/-- A text in quotes is read alike, whatever follows. -/
theorem readText?_append {quote : Char} {t : Token} {s rest : List Char}
    (h : readText? quote s = some (t, rest)) :
    ∃ u, s = u ++ rest ∧ ∀ after, readText? quote (u ++ after) = some (t, after) := by
  rw [readText?] at h
  split at h
  · next body tail hs =>
      obtain ⟨rfl, rfl⟩ := by simpa using h
      refine ⟨body ++ [quote], by simpa using (Quoted.append_of_split hs).symm, fun after => ?_⟩
      rw [readText?, List.append_assoc, List.singleton_append, Quoted.split_append hs]
  · cases h

/-- A number is read alike in front of any text that stops its rest. -/
theorem readNumber?_of_stopsAt {t : Token} {s rest : List Char}
    (h : readNumber? s = some (t, rest)) :
    ∃ u, s = u ++ rest ∧
      ∀ after, StopsAt rest after → readNumber? (u ++ after) = some (t, after) := by
  obtain ⟨⟨n, tail⟩, hs, hp⟩ := Option.bind_eq_some_iff.1 h
  obtain ⟨literal, hliteral, hr⟩ := Option.map_eq_some_iff.1 hp
  obtain ⟨rfl, rfl⟩ := Prod.mk.inj hr
  refine ⟨n.text, (Numeral.text_append_of_scan hs).symm, fun after hafter => ?_⟩
  rw [readNumber?, Numeral.scan_of_stopsAt hs hafter, Option.bind_some, hliteral,
    Option.map_some]

/-- The token that begins with a character where no operator does, and the rest. -/
def readOther (c : Char) (rest : List Char) : Except (List Char) (Token × List Char) :=
  if c = '(' then .ok (.opening, rest)
  else if c = ')' then .ok (.closing, rest)
  else if c = '@' then (readReference c rest).map fun p => (.candidate p.1, p.2)
  else if c = '$' then (readReference c rest).map fun p => (.root p.1, p.2)
  else if c = '\'' ∨ c = '"' then (readText? c rest).elim (.error (c :: rest)) .ok
  else if c = '-' ∨ c.isDigit then (readNumber? (c :: rest)).elim (.error (c :: rest)) .ok
  else .error (c :: rest)

/-- Where no operator begins, another token is read. -/
theorem read_eq_readOther {previous : Role} {c : Char} {s : List Char}
    (h : readOperator? previous (c :: s) = none) : read previous (c :: s) = readOther c s := by
  rw [read, h]
  rfl

/-- A token that is found is the one that is read. -/
theorem elim_eq_ok_iff {found : Option (Token × List Char)} {s : List Char}
    {p : Token × List Char} : found.elim (.error s) .ok = Except.ok p ↔ found = some p := by
  cases found <;> simp

/-- A number is read alike from its first character on. -/
theorem readNumber?_cons_of_stopsAt {c : Char} {t : Token} {s rest : List Char}
    (h : readNumber? (c :: s) = some (t, rest)) :
    ∃ u, s = u ++ rest ∧
      ∀ after, StopsAt rest after → readNumber? (c :: (u ++ after)) = some (t, after) := by
  obtain ⟨u, hs, hu⟩ := readNumber?_of_stopsAt h
  rcases u with - | ⟨d, u⟩
  · have hlt := length_lt_of_readNumber? h
    rw [hs] at hlt
    exact absurd hlt (lt_irrefl _)
  obtain ⟨rfl, rfl⟩ := List.cons.inj hs
  exact ⟨u, rfl, hu⟩

/-- A token that is no operator is read alike in front of any text that stops its rest. -/
theorem readOther_of_stopsAt {c : Char} {t : Token} {s rest : List Char}
    (h : readOther c s = .ok (t, rest)) :
    ∃ u, s = u ++ rest ∧
      ∀ after, StopsAt rest after → readOther c (u ++ after) = .ok (t, after) := by
  unfold readOther at h ⊢
  split_ifs at h ⊢ with hopening hclosing hcandidate hroot hquote hnumber
  · obtain ⟨rfl, rfl⟩ := by simpa using h
    exact ⟨[], rfl, fun _ _ => rfl⟩
  · obtain ⟨rfl, rfl⟩ := by simpa using h
    exact ⟨[], rfl, fun _ _ => rfl⟩
  · exact map_readReference_of_stopsAt h
  · exact map_readReference_of_stopsAt h
  · obtain ⟨u, hs, hu⟩ := readText?_append (elim_eq_ok_iff.1 h)
    exact ⟨u, hs, fun after _ => elim_eq_ok_iff.2 (hu after)⟩
  · obtain ⟨u, hs, hu⟩ := readNumber?_cons_of_stopsAt (elim_eq_ok_iff.1 h)
    exact ⟨u, hs, fun after hafter => elim_eq_ok_iff.2 (hu after hafter)⟩

/-- No operator of two characters begins with the first character of another token. -/
theorem notMem_of_readOther {c : Char} {s : List Char} {p : Token × List Char}
    (h : readOther c s = .ok p) : c ∉ ['=', '|', '&'] := by
  intro hc
  have hcases : c = '=' ∨ c = '|' ∨ c = '&' := by simpa using hc
  rcases hcases with rfl | rfl | rfl <;> cases h

/-- **A token is read the same** in front of any text that can stand for its rest. -/
theorem read_of_stopsAt {previous : Role} {t : Token} {s rest : List Char}
    (h : read previous s = .ok (t, rest)) :
    ∃ u, u ≠ [] ∧ s = u ++ rest ∧
      ∀ after, StopsAt rest after → read previous (u ++ after) = .ok (t, after) := by
  rcases s with - | ⟨c, s⟩
  · cases h
  cases hop : readOperator? previous (c :: s) with
  | none =>
      rw [read_eq_readOther hop] at h
      have hother (tail : List Char) : read previous (c :: tail) = readOther c tail :=
        read_eq_readOther (readOperator?_eq_none hop (notMem_of_readOther h) tail)
      obtain ⟨u, rfl, hu⟩ := readOther_of_stopsAt h
      exact ⟨c :: u, by simp, rfl, fun after hafter => (hother _).trans (hu after hafter)⟩
  | some found =>
      obtain ⟨op, tail⟩ := found
      rw [read, hop] at h
      obtain ⟨rfl, rfl⟩ := Prod.mk.inj (Except.ok.inj h)
      obtain ⟨u, hne, hs, hu⟩ := readOperator?_of_stopsAt hop
      refine ⟨u, hne, hs, fun after hafter => ?_⟩
      obtain ⟨d, u, rfl⟩ := List.exists_cons_of_ne_nil hne
      have hread := hu after hafter
      rw [List.cons_append] at hread ⊢
      rw [read, hread]

/-- **A token with blanks before it is read the same** in front of any text that can stand
for its rest. -/
theorem next_of_stopsAt {previous : Role} {t : Token} {s rest : List Char}
    (h : next previous s = .ok (t, rest)) :
    ∃ u, u ≠ [] ∧ s = u ++ rest ∧
      ∀ after, StopsAt rest after → next previous (u ++ after) = .ok (t, after) := by
  obtain ⟨u, hne, hs, hu⟩ := read_of_stopsAt h
  have hblank : ∀ c ∈ s.takeWhile isBlank, isBlank c = true := fun _ => List.mem_takeWhile_imp
  refine ⟨s.takeWhile isBlank ++ u, by simp [hne], ?_, fun after hafter => ?_⟩
  · rw [List.append_assoc, ← hs]
    exact List.takeWhile_append_dropWhile.symm
  · have hskip : skipBlanks (u ++ after) = u ++ after := by
      have hhead := head_dropWhile_eq_false (p := isBlank) (s := s)
      rw [← skipBlanks, hs] at hhead
      obtain ⟨d, u, rfl⟩ := List.exists_cons_of_ne_nil hne
      rw [skipBlanks, List.cons_append, List.dropWhile_cons_of_neg (by simp [hhead d rfl])]
    rw [next, List.append_assoc, skipBlanks_append hblank, hskip, hu after hafter]

/-- The sign of a reference without steps. -/
theorem next_candidate {previous : Role} {s : List Char} (h : Step.begins s = false) :
    next previous ('@' :: s) = .ok (.candidate ⟨"@", []⟩, s) := by
  simp [next, skipBlanks, isBlank, read, readOperator?, readReference,
    Step.readAll_of_not_begins h, Except.map]

end Token

/-! ### Whole filters -/

namespace Filter

/-- The second text is the first with more blanks in front of its tokens, up to the
parenthesis that closes the filter. -/
inductive Respaced : Role → Nat → List Char → List Char → Prop
  /-- Blanks in front of the parenthesis that closes the filter. -/
  | close {previous : Role} {s rest blanks : List Char} :
      Token.next previous s = .ok (.closing, rest) → (∀ c ∈ blanks, isBlank c) →
      Respaced previous 0 s (blanks ++ s)
  /-- Blanks in front of any other token, whose text with the blanks that it has is `u`. -/
  | token {previous : Role} {opened : Nat} {t : Token} {u rest rest' blanks : List Char} :
      Token.next previous (u ++ rest) = .ok (t, rest) → ¬ (t = .closing ∧ opened = 0) →
      (∀ c ∈ blanks, isBlank c) → Respaced t.trail (t.nesting opened) rest rest' →
      Respaced previous opened (u ++ rest) (blanks ++ (u ++ rest'))

/-- Blanks in front of a token are skipped. -/
theorem next_blanks_append {previous : Role} {s blanks : List Char}
    (h : ∀ c ∈ blanks, isBlank c) : Token.next previous (blanks ++ s) = Token.next previous s := by
  rw [Token.next, skipBlanks_append h, Token.next]

/-- A text with other blanks stops where the text does. -/
theorem Respaced.stopsAt {previous : Role} {opened : Nat} {s s' : List Char}
    (h : Respaced previous opened s s') : StopsAt s s' := by
  cases h with
  | close _ hblanks => exact StopsAt.of_blanks hblanks fun c hc => .inr hc
  | @token _ _ _ u rest rest' _ hnext _ hblanks _ =>
      refine StopsAt.of_blanks hblanks ?_
      rcases u with - | ⟨d, u⟩
      · exact absurd (Token.length_lt_of_next hnext) (lt_irrefl _)
      · exact fun c hc => .inr hc

/-- **Blanks between tokens leave no trace.** -/
theorem Respaced.enclosed?_eq {previous : Role} {opened : Nat} {s s' : List Char}
    (h : Respaced previous opened s s') :
    enclosed? previous opened s' = enclosed? previous opened s := by
  induction h with
  | close hnext hblanks =>
      rw [enclosed?_of_ok hnext, enclosed?_of_ok ((next_blanks_append hblanks).trans hnext)]
  | @token _ _ _ u rest rest' _ hnext hclose hblanks hrest ih =>
      obtain ⟨v, -, hv, hstops⟩ := Token.next_of_stopsAt hnext
      obtain rfl : u = v := List.append_cancel_right hv
      have hnext' := hstops rest' hrest.stopsAt
      rw [enclosed?_of_ok hnext, enclosed?_of_ok ((next_blanks_append hblanks).trans hnext'),
        if_neg hclose, if_neg hclose, ih]

end Filter

end JsonPath
