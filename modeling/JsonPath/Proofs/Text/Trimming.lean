import Mathlib.Data.List.DropRight
import JsonPath.Proofs.Text.Stopping

/-!
# What Trimming Leaves

A text loses the characters of a class at its end (`dropTrailing`) or at both ends (`trim`).
What is left neither ends nor begins with such a character, and together with what was dropped
it is the whole text. The two facts determine it: a text between characters of the class that
itself neither begins nor ends with one is what trimming leaves.

## Main results

* `exists_append_of_dropTrailing`, `dropTrailing_append`: what is dropped at the end.
* `exists_append_of_trim`, `trim_append`: what is dropped at both ends.
-/

namespace JsonPath.Text

variable {p : Char → Bool} {s tail : List Char}

/-! ### At the end -/

/-- The last character of a text is its first one or the last of what follows. -/
theorem eq_or_mem_of_mem_getLast?_cons {c d : Char} (h : c ∈ (d :: s).getLast?) :
    c = d ∨ c ∈ s.getLast? := by
  rcases s with - | ⟨e, s⟩
  · exact .inl (by simpa using h.symm)
  · exact .inr (by rwa [List.getLast?_cons_cons] at h)

/-- What is dropped at the end is dropped from behind. -/
theorem dropTrailing_eq_rdropWhile (p : Char → Bool) (s : List Char) :
    dropTrailing p s = s.rdropWhile p :=
  rfl

/-- What is left and what is dropped make up the text. -/
theorem exists_append_of_dropTrailing (p : Char → Bool) (s : List Char) :
    ∃ tail, s = dropTrailing p s ++ tail ∧ ∀ c ∈ tail, p c := by
  refine ⟨s.rtakeWhile p, ?_, fun c hc => List.mem_rtakeWhile_imp hc⟩
  rw [dropTrailing_eq_rdropWhile, List.rdropWhile_append_rtakeWhile]

/-- Where one character is dropped, it is repeated at the end. -/
theorem exists_append_replicate_of_dropTrailing (d : Char) (s : List Char) :
    ∃ k, s = dropTrailing (· == d) s ++ List.replicate k d := by
  obtain ⟨tail, hs, htail⟩ := exists_append_of_dropTrailing (· == d) s
  refine ⟨tail.length, ?_⟩
  rwa [← List.eq_replicate_of_mem fun c hc => by simpa using htail c hc]

/-- The characters that stay are characters of the text. -/
theorem mem_of_mem_dropTrailing : ∀ c ∈ dropTrailing p s, c ∈ s := by
  obtain ⟨tail, htail, -⟩ := exists_append_of_dropTrailing p s
  intro c hc
  rw [htail]
  exact List.mem_append_left _ hc

/-- Nothing stays exactly if every character is one to drop. -/
theorem dropTrailing_eq_nil_iff : dropTrailing p s = [] ↔ ∀ c ∈ s, p c := by
  simp [dropTrailing]

/-- What stays does not end in a character to drop. -/
theorem getLast?_dropTrailing : ∀ c ∈ (dropTrailing p s).getLast?, p c = false := by
  intro c hc
  have hne : s.rdropWhile p ≠ [] := by
    rintro h
    rw [dropTrailing_eq_rdropWhile, h] at hc
    cases hc
  rw [dropTrailing_eq_rdropWhile, List.getLast?_eq_some_getLast hne] at hc
  obtain rfl := Option.some.inj hc
  simpa using List.rdropWhile_last_not p s hne

/-- A text that does not end in a character to drop stays as it is. -/
theorem dropTrailing_eq_self (h : ∀ c ∈ s.getLast?, p c = false) : dropTrailing p s = s := by
  refine List.rdropWhile_eq_self_iff.2 fun hne => ?_
  rw [h _ (List.getLast?_eq_some_getLast hne)]
  decide

/-- Characters of the class can be added at the end. -/
theorem dropTrailing_append (s : List Char) (htail : ∀ c ∈ tail, p c) :
    dropTrailing p (s ++ tail) = dropTrailing p s := by
  have hreverse : ∀ c ∈ tail.reverse, p c := fun c hc => htail c (List.mem_reverse.1 hc)
  rw [dropTrailing, dropTrailing, List.reverse_append, List.dropWhile_append_of_pos hreverse]

/-- What stands in front and does not end with a character of the class is left as it is. -/
theorem dropTrailing_append_left {front : List Char} (hfront : ∀ c ∈ front.getLast?, p c = false)
    (s : List Char) : dropTrailing p (front ++ s) = front ++ dropTrailing p s := by
  obtain ⟨tail, hs, htail⟩ := exists_append_of_dropTrailing p s
  have hlast : ∀ c ∈ (front ++ dropTrailing p s).getLast?, p c = false := by
    intro c hc
    rcases hd : dropTrailing p s with - | ⟨d, rest⟩
    · rw [hd, List.append_nil] at hc
      exact hfront c hc
    · rw [hd, List.getLast?_append_of_ne_nil _ (List.cons_ne_nil d rest), ← hd] at hc
      exact getLast?_dropTrailing c hc
  conv => lhs; rw [hs, ← List.append_assoc, dropTrailing_append _ htail, dropTrailing_eq_self hlast]

/-! ### At both ends -/

/-- What stays of a trimmed text does not begin with a character to drop. -/
theorem head?_trim : ∀ c ∈ (trim p s).head?, p c = false := by
  intro c hc
  obtain ⟨tail, htail, -⟩ := exists_append_of_dropTrailing p (s.dropWhile p)
  refine head_dropWhile_eq_false (s := s) c ?_
  rw [htail]
  exact List.mem_head?_append_of_mem_head? hc

/-- What stays of a trimmed text does not end in a character to drop. -/
theorem getLast?_trim : ∀ c ∈ (trim p s).getLast?, p c = false :=
  getLast?_dropTrailing

/-- What is left stands between what is dropped. -/
theorem exists_append_of_trim (p : Char → Bool) (s : List Char) :
    ∃ front back, s = front ++ trim p s ++ back ∧ (∀ c ∈ front, p c) ∧ ∀ c ∈ back, p c := by
  obtain ⟨back, hback, hall⟩ := exists_append_of_dropTrailing p (s.dropWhile p)
  refine ⟨s.takeWhile p, back, ?_, fun _ => List.mem_takeWhile_imp, hall⟩
  rw [List.append_assoc, trim, ← hback, List.takeWhile_append_dropWhile]

/-- A text with no character to drop at its ends stays as it is. -/
theorem trim_eq_self (hhead : ∀ c ∈ s.head?, p c = false) (hlast : ∀ c ∈ s.getLast?, p c = false) :
    trim p s = s := by
  have hdrop : s.dropWhile p = s := dropWhile_append_eq (s := []) (by simp) hhead
  rw [trim, hdrop, dropTrailing_eq_self hlast]

/-- Characters of the class can be added at both ends. -/
theorem trim_append {front back : List Char} (hfront : ∀ c ∈ front, p c) (hback : ∀ c ∈ back, p c)
    (hhead : ∀ c ∈ s.head?, p c = false) (hlast : ∀ c ∈ s.getLast?, p c = false) :
    trim p (front ++ s ++ back) = s := by
  rcases s with - | ⟨c, s⟩
  · have hall : ∀ c ∈ front ++ back, p c := by
      simp only [List.mem_append]
      exact fun c hc => hc.elim (hfront c) (hback c)
    rw [List.append_nil, trim, List.dropWhile_eq_nil_iff.2 hall]
    rfl
  · rw [trim, List.append_assoc, List.cons_append,
      dropWhile_append_eq hfront (by simpa using hhead), ← List.cons_append,
      dropTrailing_append _ hback, dropTrailing_eq_self hlast]

end JsonPath.Text
