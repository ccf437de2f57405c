import JsonPath.Proofs.Document.Grammar
import JsonPath.Proofs.Path.Concatenation

/-!
# Lists of Positions and Slices

In brackets may stand integers with commas between them, or two integers with a colon between them,
either of which may be missing. Spaces and tabs may stand around the integers, but not in them. This
is a grammar of its own here (`Grammar.Listing`), with the selector as an index: a text of the
grammar says what it selects.

The loop that reads positions keeps the integers so far, the one it has just read, and whether it
has seen a comma or a colon. It is answered for in both directions. A text of the grammar is read
piece by piece, each piece by one lemma about the loop (`Selector.readPositions_listing`). What the
loop reads completes the grammar in every state, so that the invariant of the loop is the part of
the grammar that is still missing there (`Selector.Remainder`).

## Main definitions

* `Grammar.Listing`: **lists of integers and slices**, and what they select.
* `SkipsPads`: readers that skip spaces and tabs and refuse line ends.
* `Selector.Remainder`: what is still missing in a state of the loop.

## Main results

* `Selector.readPositions_listing`: a text of the grammar is read.
* `Selector.remainder_of_readPositions`: what is read is what was missing.
* `Path.ofString_positions_iff`: **brackets hold positions exactly by the grammar**.
-/

namespace JsonPath

open Text Grammar

/-! ### The grammar -/

namespace Grammar

/-- Any number of spaces and tabs. -/
def Pads (s : List Char) : Prop :=
  ∀ c ∈ s, c = ' ' ∨ c = '\t'

/-- Decimal digits, with a minus sign or without, for an integer that 64 bits can hold. -/
inductive Integer : List Char → Int → Prop
  | unsigned {digits : List Char} : Digits digits → digitsValue digits < Nat.pow 2 63 →
      Integer digits (digitsValue digits)
  | negative {digits : List Char} : Digits digits → digitsValue digits ≤ Nat.pow 2 63 →
      Integer ('-' :: digits) (-(digitsValue digits : Int))

/-- An integer, or nothing. -/
inductive OptionalInteger : List Char → Option Int → Prop
  | none : OptionalInteger [] none
  | some {s : List Char} {k : Int} : Integer s k → OptionalInteger s (some k)

/-- What follows the first integer of a list: the other integers, each behind a comma. -/
inductive Further : List Char → List Int → Prop
  | close {pads : List Char} : Pads pads → Further pads []
  | comma {left right s rest : List Char} {k : Int} {ks : List Int} : Pads left → Pads right →
      Integer s k → Further rest ks → Further (left ++ ',' :: (right ++ (s ++ rest))) (k :: ks)

/-- What follows the colon of a slice. -/
inductive Stop : List Char → Option Int → Prop
  | mk {left s right : List Char} {stop : Option Int} : Pads left → OptionalInteger s stop →
      Pads right → Stop (left ++ (s ++ right)) stop

/-- A list of integers or a slice, and what it selects. -/
inductive Listing : List Char → Selector → Prop
  | indices {s rest : List Char} {k : Int} {ks : List Int} : Integer s k → Further rest ks →
      Listing (s ++ rest) (.indices (k :: ks))
  | slice {s pads rest : List Char} {start stop : Option Int} : OptionalInteger s start →
      Pads pads → Stop rest stop → Listing (s ++ (pads ++ ':' :: rest)) (.slice start stop)

/-- The spaces and tabs of the grammar are those that the reader skips. -/
theorem pads_iff {s : List Char} : Pads s ↔ ∀ c ∈ s, isPad c := by
  simp [Pads, isPad]

/-- The empty text consists of pads. -/
theorem pads_nil : Pads [] :=
  fun _ h => by cases h

/-- Pads with a pad in front of them are pads. -/
theorem Pads.cons {c : Char} {s : List Char} (hc : isPad c = true) (hs : Pads s) :
    Pads (c :: s) :=
  pads_iff.2 (List.forall_mem_cons.2 ⟨hc, pads_iff.1 hs⟩)

/-- Pads are blanks. -/
theorem Pads.isBlank {s : List Char} (h : Pads s) : ∀ c ∈ s, isBlank c = true := by
  intro c hc
  rcases h c hc with rfl | rfl <;> rfl

/-- An integer is its first character and digits, and it is read as its value. -/
theorem Integer.exists_eq_cons {s : List Char} {k : Int} (h : Integer s k) :
    ∃ c digits, s = c :: digits ∧ (c = '-' ∨ c.isDigit) ∧ (∀ d ∈ digits, d.isDigit) ∧
      Selector.integer? s = some k := by
  cases h with
  | @unsigned digits hdigits hlt =>
      obtain ⟨c, tail, rfl⟩ := List.exists_cons_of_ne_nil hdigits.1
      have hc : c.isDigit := hdigits.2 c (by simp)
      refine ⟨c, tail, rfl, .inr hc, fun d hd => hdigits.2 d (by simp [hd]), ?_⟩
      rw [Selector.integer?]
      · rw [if_neg (by simpa [UInt64.size] using hlt)]
      · rintro _ ⟨⟩
        exact absurd hc (by decide)
  | @negative digits hdigits hle =>
      refine ⟨'-', digits, rfl, .inl rfl, hdigits.2, ?_⟩
      rw [Selector.integer?, if_neg (by simpa [UInt64.size, hdigits.1] using hle)]

/-- What is read as an integer is one. -/
theorem integer_of_integer? {c : Char} {digits : List Char} {k : Int} (hc : c = '-' ∨ c.isDigit)
    (hdigits : ∀ d ∈ digits, d.isDigit) (h : Selector.integer? (c :: digits) = some k) :
    Integer (c :: digits) k := by
  by_cases hminus : c = '-'
  · subst hminus
    rw [Selector.integer?] at h
    split at h
    · cases h
    · next hbound =>
        obtain rfl := Option.some.inj h
        obtain ⟨hne, hle⟩ : digits ≠ [] ∧ digitsValue digits ≤ Nat.pow 2 63 := by
          simpa [UInt64.size] using hbound
        exact .negative ⟨hne, hdigits⟩ hle
  · rw [Selector.integer?] at h
    · split at h
      · cases h
      · next hbound =>
          obtain rfl := Option.some.inj h
          have hall : ∀ d ∈ c :: digits, d.isDigit :=
            List.forall_mem_cons.2 ⟨hc.resolve_left hminus, hdigits⟩
          exact .unsigned ⟨List.cons_ne_nil _ _, hall⟩ (by simpa [UInt64.size] using hbound)
    · rintro _ ⟨⟩
      exact hminus rfl

/-- A list or a slice begins, behind spaces and tabs, with a digit, a sign or a colon. -/
theorem Listing.exists_eq_append {s : List Char} {selector : Selector} (h : Listing s selector) :
    ∃ pads c tail, Pads pads ∧ s = pads ++ c :: tail ∧ (c.isDigit ∨ c = ':' ∨ c = '-') := by
  have hinteger {s : List Char} {k : Int} (hs : Integer s k) (rest : List Char) :
      ∃ pads c tail, Pads pads ∧ s ++ rest = pads ++ c :: tail ∧
        (c.isDigit ∨ c = ':' ∨ c = '-') := by
    obtain ⟨c, digits, rfl, hc, -⟩ := hs.exists_eq_cons
    exact ⟨[], c, digits ++ rest, pads_nil, rfl, hc.elim (.inr ∘ .inr) .inl⟩
  cases h with
  | indices hs _ => exact hinteger hs _
  | @slice _ pads rest _ _ hs hpads _ =>
      cases hs with
      | none => exact ⟨pads, ':', rest, hpads, rfl, .inr (.inl rfl)⟩
      | some hs => exact hinteger hs _

/-- What may stand behind an integer: nothing that would go on with it. -/
def EndsInteger (s : List Char) : Prop :=
  ∀ c ∈ s.head?, c.isDigit = false ∧ c ≠ '-'

/-- Pads up to a separator or the closing bracket end an integer. -/
theorem Pads.endsInteger {pads : List Char} (h : Pads pads) {c : Char} (hc : c ∈ [']', ':', ','])
    (s : List Char) : EndsInteger (pads ++ c :: s) := by
  intro d hd
  rcases pads with - | ⟨e, pads⟩
  · obtain rfl : c = d := by simpa using hd
    simp only [List.mem_cons, List.not_mem_nil, or_false] at hc
    rcases hc with rfl | rfl | rfl <;> decide
  · obtain rfl : e = d := by simpa using hd
    rcases h e (by simp) with rfl | rfl <;> decide

/-- Further positions up to the closing bracket end an integer. -/
theorem Further.endsInteger {s : List Char} {ks : List Int} (h : Further s ks)
    (after : List Char) : EndsInteger (s ++ ']' :: after) := by
  cases h with
  | close hpads => exact hpads.endsInteger (by simp) after
  | comma hleft =>
      rw [List.append_assoc, List.cons_append]
      exact hleft.endsInteger (by simp) _

end Grammar

/-! ### Spaces and tabs -/

/-- A reader that skips spaces and tabs and refuses line ends. -/
structure SkipsPads {α : Type} (reader : List Char → Except Fault α) : Prop where
  /-- A space or a tab is skipped. -/
  pad : ∀ (c : Char) (s : List Char), isPad c = true → reader (c :: s) = reader s
  /-- A line end is refused. -/
  lineEnd : ∀ (c : Char) (s : List Char), isBlank c = true → isPad c = false →
    reader (c :: s) = .error (.unparsable (c :: s))

/-- A reader that skips pads reads on behind them. -/
theorem SkipsPads.pads {α : Type} {reader : List Char → Except Fault α} (h : SkipsPads reader)
    {pads : List Char} (hpads : Pads pads) (s : List Char) : reader (pads ++ s) = reader s := by
  induction pads with
  | nil => rfl
  | cons c pads ih =>
      obtain ⟨hc, hpads'⟩ := List.forall_mem_cons.1 (pads_iff.1 hpads)
      rw [List.cons_append, h.pad c _ hc, ih (pads_iff.2 hpads')]

/-- A reader that skips pads refuses a blank that is none, where it stands. -/
theorem SkipsPads.blanks {α : Type} {reader : List Char → Except Fault α} (h : SkipsPads reader)
    {blanks : List Char} (hblanks : Blanks blanks) (hpads : ¬ Pads blanks) (s : List Char) :
    reader (blanks ++ s) = .error (.unparsable (blanks.dropWhile isPad ++ s)) := by
  induction blanks with
  | nil => exact absurd pads_nil hpads
  | cons c blanks ih =>
      obtain ⟨hc, hblanks'⟩ := List.forall_mem_cons.1 (blanks_iff.1 hblanks)
      cases hpad : isPad c with
      | true =>
          rw [List.cons_append, h.pad c _ hpad, List.dropWhile_cons_of_pos hpad,
            ih (blanks_iff.2 hblanks') fun hrest => hpads (hrest.cons hpad)]
      | false =>
          rw [List.cons_append, h.lineEnd c _ hc hpad,
            List.dropWhile_cons_of_neg (by simp [hpad])]
          rfl

/-- The line ends are the blanks that are neither spaces nor tabs. -/
theorem eq_of_isBlank {c : Char} (hblank : isBlank c = true) (hpad : isPad c = false) :
    c = '\r' ∨ c = '\n' := by
  simp only [isBlank, Bool.or_eq_true, beq_iff_eq] at hblank
  simp only [isPad, Bool.or_eq_false_iff, beq_eq_false_iff_ne] at hpad
  tauto

namespace Selector

/-! ### The pieces of the grammar are read -/

/-- Positions are read with spaces and tabs around them, in every state of the loop. -/
theorem skipsPads_readPositions (kind : Positions) (done : List Int) (current : Option Int) :
    SkipsPads (readPositions kind done current) where
  pad c s hc := by
    rw [readPositions.eq_def]
    rcases (by simpa [isPad] using hc : c = ' ' ∨ c = '\t') with rfl | rfl <;> rfl
  lineEnd c s hblank hpad := by
    rw [readPositions.eq_def]
    rcases eq_of_isBlank hblank hpad with rfl | rfl <;> rfl

/-- The reader of positions skips pads. -/
theorem readPositions_pads {pads : List Char} (h : Pads pads) (kind : Positions)
    (done : List Int) (current : Option Int) (s : List Char) :
    readPositions kind done current (pads ++ s) = readPositions kind done current s :=
  (skipsPads_readPositions kind done current).pads h s

/-- An integer that is read becomes the current one. -/
theorem readPositions_integer {s rest : List Char} {k : Int} (h : Integer s k)
    (hrest : EndsInteger rest) (kind : Positions) (done : List Int) :
    readPositions kind done none (s ++ rest) = readPositions kind done (some k) rest := by
  obtain ⟨c, digits, rfl, hc, hdigits, hk⟩ := h.exists_eq_cons
  exact readPositions_digits hc hdigits (fun d hd => (hrest d hd).1)
    (fun hminus => (hrest '-' hminus).2 rfl) hk kind done

/-- A colon makes the current integer the start of a slice. -/
theorem readPositions_colon (done : List Int) (current : Option Int) (s : List Char) :
    readPositions .undecided done current (':' :: s) =
      readPositions (.slice current) [] none s := by
  rw [readPositions.eq_def]
  rfl

/-- A comma adds the current integer to the list. -/
theorem readPositions_comma {kind : Positions} (hkind : ∀ start, kind ≠ .slice start)
    (done : List Int) (k : Int) (s : List Char) :
    readPositions kind done (some k) (',' :: s) = readPositions .list (done ++ [k]) none s := by
  rw [readPositions.eq_def]
  cases kind with
  | slice start => exact absurd rfl (hkind start)
  | _ => rfl

/-- The closing bracket adds the current integer and ends the list. -/
theorem readPositions_close_list {kind : Positions} (hkind : ∀ start, kind ≠ .slice start)
    (done : List Int) (k : Int) (s : List Char) :
    readPositions kind done (some k) (']' :: s) = .ok (.indices (done ++ [k]), ']' :: s) := by
  rw [readPositions.eq_def]
  cases kind with
  | slice start => exact absurd rfl (hkind start)
  | _ => rfl

/-- The closing bracket ends a slice with the current integer, if there is one, as its end. -/
theorem readPositions_close_slice (start stop : Option Int) (done : List Int) (s : List Char) :
    readPositions (.slice start) done stop (']' :: s) = .ok (.slice start stop, ']' :: s) := by
  rw [readPositions.eq_def]
  rfl

/-- The further integers of a list are read one by one. -/
theorem readPositions_further {s : List Char} {ks : List Int} (h : Further s ks)
    {kind : Positions} (hkind : ∀ start, kind ≠ .slice start) (done : List Int) (k : Int)
    (after : List Char) : readPositions kind done (some k) (s ++ ']' :: after) =
      .ok (.indices (done ++ k :: ks), ']' :: after) := by
  induction h generalizing kind done k with
  | close hpads => rw [readPositions_pads hpads, readPositions_close_list hkind]
  | @comma left right s rest next ks hleft hright hs hrest ih =>
      simp only [List.append_assoc, List.cons_append]
      rw [readPositions_pads hleft, readPositions_comma hkind, readPositions_pads hright,
        readPositions_integer hs (hrest.endsInteger after), ih (fun _ hslice => by cases hslice),
        List.append_assoc]
      rfl

/-- The end of a slice is read up to the closing bracket. -/
theorem readPositions_stop {s : List Char} {stop : Option Int} (h : Stop s stop)
    (start : Option Int) (done : List Int) (after : List Char) :
    readPositions (.slice start) done none (s ++ ']' :: after) =
      .ok (.slice start stop, ']' :: after) := by
  obtain ⟨hleft, hs, hright⟩ := h
  simp only [List.append_assoc]
  rw [readPositions_pads hleft]
  cases hs with
  | none => rw [List.nil_append, readPositions_pads hright, readPositions_close_slice]
  | some hs =>
      rw [readPositions_integer hs (hright.endsInteger (by simp) after),
        readPositions_pads hright, readPositions_close_slice]

/-- **A list or a slice is read** as what it selects. -/
theorem readPositions_listing {s : List Char} {selector : Selector} (h : Listing s selector)
    (after : List Char) :
    readPositions .undecided [] none (s ++ ']' :: after) = .ok (selector, ']' :: after) := by
  cases h with
  | indices hs hrest =>
      rw [List.append_assoc, readPositions_integer hs (hrest.endsInteger after),
        readPositions_further hrest (fun _ hslice => by cases hslice)]
      rfl
  | slice hs hpads hrest =>
      simp only [List.append_assoc, List.cons_append]
      cases hs with
      | none =>
          rw [List.nil_append, readPositions_pads hpads, readPositions_colon,
            readPositions_stop hrest]
      | some hs =>
          rw [readPositions_integer hs (hpads.endsInteger (by simp) _),
            readPositions_pads hpads, readPositions_colon, readPositions_stop hrest]

/-! ### Nothing else is read -/

/-- What may follow an integer `k` that is not the stop of a slice, behind the integers in `done`:
the rest of a list or, as long as there was no comma, the colon of a slice. -/
inductive Continuation : Positions → List Int → Int → List Char → Selector → Prop
  | further {kind : Positions} {done ks : List Int} {k : Int} {s : List Char} :
      (∀ start, kind ≠ .slice start) → Further s ks →
      Continuation kind done k s (.indices (done ++ k :: ks))
  | colon {done : List Int} {k : Int} {pads rest : List Char} {stop : Option Int} : Pads pads →
      Stop rest stop → Continuation .undecided done k (pads ++ ':' :: rest) (.slice (some k) stop)

/-- What is still missing up to the closing bracket, in each state of the loop, and what the loop
gives in the end. -/
inductive Remainder : Positions → List Int → Option Int → List Char → Selector → Prop
  | stop {start stop : Option Int} {done : List Int} {s : List Char} : Stop s stop →
      Remainder (.slice start) done none s (.slice start stop)
  | stopped {start : Option Int} {done : List Int} {k : Int} {s : List Char} : Pads s →
      Remainder (.slice start) done (some k) s (.slice start (some k))
  | continued {kind : Positions} {done : List Int} {k : Int} {s : List Char} {selector : Selector} :
      Continuation kind done k s selector → Remainder kind done (some k) s selector
  | integer {kind : Positions} {done : List Int} {k : Int} {pads s rest : List Char}
      {selector : Selector} : Pads pads → Integer s k → Continuation kind done k rest selector →
      Remainder kind done none (pads ++ (s ++ rest)) selector
  | colon {done : List Int} {pads rest : List Char} {stop : Option Int} : Pads pads →
      Stop rest stop → Remainder .undecided done none (pads ++ ':' :: rest) (.slice none stop)

/-- Whatever is missing, a space or a tab may stand in front of it. -/
theorem Remainder.pad {kind : Positions} {done : List Int} {current : Option Int} {s : List Char}
    {selector : Selector} {c : Char} (hc : isPad c = true)
    (h : Remainder kind done current s selector) :
    Remainder kind done current (c :: s) selector := by
  cases h with
  | stop hstop =>
      obtain ⟨hleft, hs, hright⟩ := hstop
      exact .stop (.mk (hleft.cons hc) hs hright)
  | stopped hpads => exact .stopped (hpads.cons hc)
  | continued hcontinued =>
      refine .continued ?_
      cases hcontinued with
      | further hkind hfurther =>
          refine .further hkind ?_
          cases hfurther with
          | close hpads => exact .close (hpads.cons hc)
          | comma hleft hright hs hrest => exact .comma (hleft.cons hc) hright hs hrest
      | colon hpads hstop => exact .colon (hpads.cons hc) hstop
  | integer hpads hs hrest => exact .integer (hpads.cons hc) hs hrest
  | colon hpads hstop => exact .colon (hpads.cons hc) hstop

/-- What is missing behind an integer is missing in front of it, with the integer. -/
theorem Remainder.of_integer {kind : Positions} {done : List Int} {k : Int} {s rest : List Char}
    {selector : Selector} (hs : Integer s k) (h : Remainder kind done (some k) rest selector) :
    Remainder kind done none (s ++ rest) selector := by
  cases h with
  | stopped hpads => exact .stop (.mk pads_nil (.some hs) hpads)
  | continued hcontinued => exact .integer pads_nil hs hcontinued

/-- In the beginning a list or a slice is missing. -/
theorem Remainder.listing {s : List Char} {selector : Selector}
    (h : Remainder .undecided [] none s selector) (hhead : ∀ c ∈ s.head?, isPad c = false) :
    Listing s selector := by
  have pads_eq_nil {pads rest : List Char} (hpads : Pads pads)
      (hhead : ∀ c ∈ (pads ++ rest).head?, isPad c = false) : pads = [] := by
    rcases pads with - | ⟨c, pads⟩
    · rfl
    · have hc := hhead c rfl
      rw [pads_iff.1 hpads c (by simp)] at hc
      cases hc
  cases h with
  | integer hpads hs hrest =>
      obtain rfl := pads_eq_nil hpads hhead
      rw [List.nil_append]
      cases hrest with
      | further _ hfurther => exact .indices hs hfurther
      | colon hpads hstop => exact .slice (.some hs) hpads hstop
  | colon hpads hstop => exact .slice .none hpads hstop

/-- **What is read is what was missing**, in every state of the loop. -/
theorem remainder_of_readPositions {kind : Positions} {done : List Int} {current : Option Int}
    {s rest : List Char} {selector : Selector}
    (h : readPositions kind done current s = .ok (selector, rest)) :
    ∃ content after, s = content ++ ']' :: after ∧ rest = ']' :: after ∧
      Remainder kind done current content selector := by
  fun_induction readPositions kind done current s with
  | case5 kind done current c s hdigit hcurrent hminus k hk _ ih =>
      obtain ⟨content, after, hs, hrest, hremainder⟩ := ih h
      obtain rfl : current = none := by simpa using hcurrent
      have hinteger := integer_of_integer? hdigit (fun _ => List.mem_takeWhile_imp) hk
      refine ⟨_, after, ?_, hrest, hremainder.of_integer hinteger⟩
      rw [List.append_assoc, ← hs, List.cons_append, List.takeWhile_append_dropWhile]
  | case6 done s start stop hdigit =>
      obtain ⟨rfl, rfl⟩ := Prod.mk.inj (Except.ok.inj h)
      refine ⟨[], s, rfl, rfl, ?_⟩
      cases stop with
      | none => exact .stop (.mk pads_nil .none pads_nil)
      | some k => exact .stopped pads_nil
  | case7 kind done s k hkind hdigit =>
      obtain ⟨rfl, rfl⟩ := Prod.mk.inj (Except.ok.inj h)
      exact ⟨[], s, rfl, rfl, .continued (.further hkind (.close pads_nil))⟩
  | case9 done current s hdigit hbracket ih =>
      obtain ⟨content, after, rfl, hrest, hremainder⟩ := ih h
      refine ⟨':' :: content, after, rfl, hrest, ?_⟩
      cases hremainder with
      | stop hstop =>
          cases current with
          | none => exact .colon pads_nil hstop
          | some k => exact .continued (.colon pads_nil hstop)
      | integer hpads hs hcontinued =>
          cases hcontinued with
          | further hkind => exact absurd rfl (hkind current)
  | case12 kind done s k hkind hdigit hbracket hcolon ih =>
      obtain ⟨content, after, rfl, hrest, hremainder⟩ := ih h
      refine ⟨',' :: content, after, rfl, hrest, .continued ?_⟩
      cases hremainder with
      | integer hpads hs hcontinued =>
          cases hcontinued with
          | further _ hfurther =>
              rw [List.append_assoc]
              exact .further hkind (.comma pads_nil hpads hs hfurther)
  | case14 kind done current c s hdigit hbracket hcolon hcomma hpad ih =>
      obtain ⟨content, after, rfl, hrest, hremainder⟩ := ih h
      exact ⟨c :: content, after, rfl, hrest, hremainder.pad hpad⟩
  | _ => cases h

/-! ### Brackets -/

/-- Up to a bracket that ends the text, the loop reads the lists and the slices and nothing else. -/
theorem readPositions_eq_ok_iff {s rest : List Char} {selector : Selector} (hs : ']' ∉ s)
    (hhead : ∀ c ∈ s.head?, isPad c = false) :
    readPositions .undecided [] none (s ++ [']']) = .ok (selector, rest) ↔
      rest = [']'] ∧ Listing s selector := by
  constructor
  · intro h
    obtain ⟨content, after, htext, rfl, hremainder⟩ := remainder_of_readPositions h
    obtain ⟨rfl, rfl⟩ : s = content ∧ [] = after := by
      rcases List.eq_nil_or_concat after with rfl | ⟨init, last, rfl⟩
      · exact ⟨List.append_inj_left' htext rfl, rfl⟩
      · have htext' : s ++ [']'] = (content ++ ']' :: init) ++ [last] := by simpa using htext
        obtain rfl := List.append_inj_left' htext' rfl
        exact absurd (by simp) hs
    exact ⟨rfl, hremainder.listing hhead⟩
  · rintro ⟨rfl, hlisting⟩
    exact readPositions_listing hlisting []

/-- What begins like positions is read as positions. -/
theorem readListed_positions {c : Char} (hc : c.isDigit ∨ c = ':' ∨ c = '-') (s : List Char) :
    readListed (c :: s) = readPositions .undecided [] none (c :: s) := by
  have hother : c ≠ '?' ∧ c ≠ '*' ∧ c ≠ '\'' ∧ c ≠ '"' := by
    refine ⟨?_, ?_, ?_, ?_⟩ <;> rintro rfl <;> exact absurd hc (by decide)
  rw [readListed_cons hother.1 hother.2.1, if_neg (by simp [hother]), if_pos hc]

/-- What is no blank is no pad. -/
theorem isPad_of_isBlank_eq_false {c : Char} (h : isBlank c = false) : isPad c = false := by
  simp only [isBlank, Bool.or_eq_false_iff] at h
  simp [isPad, h.1.1]

/-- Positions do not begin with a blank. -/
theorem isBlank_of_positions {c : Char} (hc : c.isDigit ∨ c = ':' ∨ c = '-') :
    isBlank c = false := by
  rcases hc with hdigit | rfl | rfl
  · exact isBlank_of_isDigit hdigit
  · rfl
  · rfl

/-- A list or a slice is read in brackets, whatever follows them. -/
theorem readBracketed_listing {s : List Char} {selector : Selector} (h : Listing s selector)
    (after : List Char) : readBracketed (s ++ ']' :: after) = .ok (selector, after) := by
  obtain ⟨pads, c, tail, hpads, rfl, hc⟩ := h.exists_eq_append
  have hread := readPositions_listing h after
  rw [List.append_assoc, readPositions_pads hpads, List.cons_append,
    ← readListed_positions hc] at hread
  rw [readBracketed, List.append_assoc, List.cons_append,
    skipBlanks_append_eq hpads.isBlank (isBlank_of_positions hc), hread]
  rfl

/-- Brackets that begin like positions, behind blanks, hold a list or a slice. -/
theorem readBracketed_positions_iff {blanks content rest : List Char} {selector : Selector}
    (hblanks : Blanks blanks) (hclose : ']' ∉ content)
    (hhead : ∃ c ∈ content.head?, c.isDigit ∨ c = '-' ∨ c = ':') :
    readBracketed (blanks ++ (content ++ [']'])) = .ok (selector, rest) ↔
      rest = [] ∧ Listing content selector := by
  obtain ⟨c, hc, hkind⟩ := hhead
  replace hkind : c.isDigit ∨ c = ':' ∨ c = '-' := hkind.imp_right Or.symm
  obtain ⟨tail, rfl⟩ := List.head?_eq_some_iff.1 hc
  have hblank : isBlank c = false := isBlank_of_positions hkind
  have hskip : skipBlanks (blanks ++ (c :: tail ++ [']'])) = c :: tail ++ [']'] :=
    skipBlanks_append_eq (blanks_iff.1 hblanks) hblank (tail ++ [']'])
  have hlisted : readListed (c :: tail ++ [']']) =
      readPositions .undecided [] none (c :: tail ++ [']']) :=
    readListed_positions hkind (tail ++ [']'])
  have hread (selector : Selector) (rest : List Char) :
      readPositions .undecided [] none (c :: tail ++ [']']) = .ok (selector, rest) ↔
        rest = [']'] ∧ Listing (c :: tail) selector := by
    refine readPositions_eq_ok_iff hclose fun d hd => ?_
    obtain rfl : c = d := by simpa using hd
    exact isPad_of_isBlank_eq_false hblank
  rw [readBracketed, hskip, hlisted]
  constructor
  · intro h
    split at h
    · cases h
    · next found rest' hfound =>
        obtain ⟨rfl, hlisting⟩ := (hread found rest').1 hfound
        obtain ⟨rfl, rfl⟩ := Prod.mk.inj (Except.ok.inj h)
        exact ⟨rfl, hlisting⟩
  · rintro ⟨rfl, hlisting⟩
    rw [(hread selector [']']).2 ⟨rfl, hlisting⟩]
    rfl

end Selector

/-! ### Paths -/

/-- **Brackets hold positions exactly by the grammar.** A text that begins like a position or a
slice and holds no bracket is read in brackets, behind any blanks, exactly if it is a list of
integers or a slice. Then the path selects the listed positions in their order, or the slice whose
start and stop are there exactly if they are written. -/
theorem Path.ofString_positions_iff {blanks content : String} (hblanks : Blanks blanks.toList)
    (hclose : ']' ∉ content.toList)
    (hhead : ∃ c ∈ content.toList.head?, c.isDigit ∨ c = '-' ∨ c = ':') (p : Path) :
    ofString ("$[" ++ blanks ++ content ++ "]") = .ok p ↔
      ∃ selector, Listing content.toList selector ∧ p = ⟨[⟨selector, false⟩]⟩ := by
  have hread (selector : Selector) (rest : List Char) :
      Selector.readBracketed ((blanks ++ content).toList ++ [']']) = .ok (selector, rest) ↔
        rest = [] ∧ Listing content.toList selector := by
    rw [String.toList_append, List.append_assoc]
    exact Selector.readBracketed_positions_iff hblanks hclose hhead
  have htext : "$[" ++ blanks ++ content = "$[" ++ (blanks ++ content) := String.append_assoc
  rw [htext, ofString_brackets_iff fun selector rest h => ((hread selector rest).1 h).1]
  constructor
  · rintro ⟨selector, h, rfl⟩
    exact ⟨selector, ((hread selector []).1 h).2, rfl⟩
  · rintro ⟨selector, hlisting, rfl⟩
    exact ⟨selector, (hread selector []).2 ⟨rfl, hlisting⟩, rfl⟩

/-- A list that ends with the smallest integer, and a slice without a start. -/
theorem Path.ofString_positions_iff_smallest :
    Blanks " \n".toList ∧ ']' ∉ "07 ,\t-9223372036854775808".toList ∧ ']' ∉ ": -1\t".toList ∧
      ofString ("$[" ++ " \n" ++ "07 ,\t-9223372036854775808" ++ "]") =
        .ok ⟨[⟨.indices [7, -9223372036854775808], false⟩]⟩ ∧
      ofString ("$[" ++ " \n" ++ ": -1\t" ++ "]") = .ok ⟨[⟨.slice none (some (-1)), false⟩]⟩ := by
  have hblanks : Blanks " \n".toList := by simp [Blanks]
  have hlist : ']' ∉ "07 ,\t-9223372036854775808".toList := by decide
  have hslice : ']' ∉ ": -1\t".toList := by decide
  have hspace : Pads [' '] := by simp [Pads]
  have htab : Pads ['\t'] := by simp [Pads]
  have hseven : Integer "07".toList 7 :=
    .unsigned ⟨by decide, List.all_eq_true.1 rfl⟩ (by decide)
  have hsmallest : Integer ('-' :: "9223372036854775808".toList) (-9223372036854775808) :=
    .negative ⟨by decide, List.all_eq_true.1 rfl⟩ (by decide)
  have hone : Integer ['-', '1'] (-1) :=
    .negative ⟨by decide, List.all_eq_true.1 rfl⟩ (by decide)
  have hindices : Listing "07 ,\t-9223372036854775808".toList
      (.indices [7, -9223372036854775808]) := by
    simpa using Listing.indices hseven (.comma hspace htab hsmallest (.close pads_nil))
  have hstop : Listing ": -1\t".toList (.slice none (some (-1))) := by
    simpa using Listing.slice .none pads_nil (.mk hspace (.some hone) htab)
  exact ⟨hblanks, hlist, hslice,
    (ofString_positions_iff hblanks hlist ⟨'0', rfl, by decide⟩ _).2 ⟨_, hindices, rfl⟩,
    (ofString_positions_iff hblanks hslice ⟨':', rfl, by decide⟩ _).2 ⟨_, hstop, rfl⟩⟩

end JsonPath
