import Mathlib.Data.List.TakeWhile
import JsonPath.Path.Reader
import JsonPath.Proofs.Filter.Lookahead

/-!
# Where Segments End

A segment begins with a point or a bracket, and neither can continue a segment: a name ends in
front of both, and brackets end with the bracket that closes them. So what follows a segment can be
taken away, and any other segments put in its place, without a change to how the segment is read
(`Segment.read_of_continues`).

Each reader is answered for in the same form. What it has read is a text `u` in front of the rest,
and behind `u` it reads the same in front of every text that can stand for the rest. Which texts
can, depends on the reader: a list in brackets needs the bracket that closes it, a filter a text
that begins as the rest does, and a bracketed segment needs nothing at all.

## Main definitions

* `Selector.Continues`: what may stand behind a segment.
* `Segment.Points`: the points in front of the body of a segment.

## Main results

* `Selector.readBracketed_of_close`: brackets are read the same in front of any text.
* `Segment.read_eq_ok_iff`: **a segment is its points and its body**.
* `Segment.read_of_continues`: **a segment is read the same** in front of other segments.
-/

namespace JsonPath

open Text

namespace Text

/-- A text is its leading blanks and what is left of it without them. -/
theorem exists_eq_append_skipBlanks (s : List Char) :
    ∃ blanks, (∀ c ∈ blanks, isBlank c = true) ∧ s = blanks ++ skipBlanks s :=
  ⟨s.takeWhile isBlank, fun _ => List.mem_takeWhile_imp, List.takeWhile_append_dropWhile.symm⟩

/-- A text that begins as the rest does can stand in its place. -/
theorem StopsAt.of_head_eq {rest after : List Char} (h : after.head? = rest.head?) :
    StopsAt rest after :=
  fun _ hc => .inr (h ▸ hc)

end Text

/-! ### Filters -/

/-- A token that is read is arranged, and either ends the run or is followed by the next. -/
theorem Arrangement.run_of_next {a : Arrangement} {s rest : List Char} {t : Token}
    (h : Token.next a.previous s = .ok (t, rest)) :
    a.run s = match a.feed t with
      | none => .error (skipBlanks s)
      | some (.done b) => .ok (b, rest)
      | some (.more b) => b.run rest := by
  rw [run]
  split
  · next h' =>
      rw [h] at h'
      cases h'
  · next h' =>
      rw [h] at h'
      obtain ⟨rfl, rfl⟩ := Prod.mk.inj (Except.ok.inj h')
      rfl

/-- The tokens of a filter are read the same in front of any text that can stand for the rest. -/
theorem Arrangement.run_of_stopsAt {a b : Arrangement} {s rest : List Char}
    (h : a.run s = .ok (b, rest)) :
    ∃ u, s = u ++ rest ∧ ∀ after, StopsAt rest after → a.run (u ++ after) = .ok (b, after) := by
  fun_induction run a s with
  | case1 => cases h
  | case2 => cases h
  | case3 a s t tail hnext _ b' hfeed =>
      obtain ⟨rfl, rfl⟩ := Prod.mk.inj (Except.ok.inj h)
      obtain ⟨u, -, rfl, hu⟩ := Token.next_of_stopsAt hnext
      refine ⟨u, rfl, fun after hafter => ?_⟩
      rw [run_of_next (hu after hafter), hfeed]
  | case4 a s t tail hnext _ b' hfeed ih =>
      obtain ⟨v, rfl, hv⟩ := ih h
      obtain ⟨u, -, rfl, hu⟩ := Token.next_of_stopsAt hnext
      refine ⟨u ++ v, (List.append_assoc _ _ _).symm, fun after hafter => ?_⟩
      rw [List.append_assoc, run_of_next (hu _ (hafter.append v)), hfeed]
      exact hv after hafter

/-- **A filter that is read is read alike** in front of any text that stops its rest. -/
theorem Filter.read_of_stopsAt {s rest : List Char} {ts : List Token}
    (h : read s = .ok (ts, rest)) :
    ∃ u, s = u ++ rest ∧ ∀ after, StopsAt rest after → read (u ++ after) = .ok (ts, after) := by
  rw [read.eq_def] at h
  split at h
  · next s =>
      split at h
      · cases h
      · next a tail hrun =>
          split at h
          · cases h
          · next hclosed =>
              obtain ⟨rfl, rfl⟩ := Prod.mk.inj (Except.ok.inj h)
              obtain ⟨u, rfl, hu⟩ := Arrangement.run_of_stopsAt hrun
              refine ⟨'(' :: u, rfl, fun after hafter => ?_⟩
              simp only [List.cons_append, read, hu after hafter]
              exact if_neg hclosed
  · cases h

/-! ### Brackets -/

namespace Selector

/-- Names are read up to the bracket that closes them, whatever follows it. -/
theorem readNames_of_close {done names : List String} {settled : Bool} {s rest : List Char}
    (h : readNames done settled s = .ok (names, rest)) :
    ∃ u tail, s = u ++ ']' :: tail ∧ rest = ']' :: tail ∧ ∀ after,
      readNames done settled (u ++ ']' :: after) = .ok (names, ']' :: after) := by
  fun_induction readNames done settled s with
  | case2 =>
      obtain ⟨rfl, rfl⟩ := Prod.mk.inj (Except.ok.inj h)
      refine ⟨[], _, rfl, rfl, fun after => ?_⟩
      rw [List.nil_append, readNames]
      rfl
  | case7 done settled c s hbracket hquote hsettled body tail hsplit _ hbody ih =>
      obtain ⟨u, tail', rfl, hrest, hu⟩ := ih h
      obtain rfl := Quoted.append_of_split hsplit
      refine ⟨c :: (body ++ c :: u), tail', by simp, hrest, fun after => ?_⟩
      have hsplit' := Quoted.split_append hsplit (u ++ ']' :: after)
      simp only [List.cons_append, List.append_assoc]
      rw [readNames, if_neg hbracket, if_pos hquote, if_neg hsettled]
      split
      · next hfault =>
          rw [hsplit'] at hfault
          cases hfault
      · next hok =>
          rw [hsplit'] at hok
          obtain ⟨rfl, rfl⟩ := Prod.mk.inj (Except.ok.inj hok)
          rw [if_neg hbody]
          exact hu after
  | case8 done settled c s hbracket hquote hpad ih =>
      obtain ⟨u, tail, rfl, hrest, hu⟩ := ih h
      refine ⟨c :: u, tail, rfl, hrest, fun after => ?_⟩
      rw [List.cons_append, readNames, if_neg hbracket, if_neg hquote, if_pos hpad]
      exact hu after
  | case9 done s hbracket hquote hpad ih =>
      obtain ⟨u, tail, rfl, hrest, hu⟩ := ih h
      refine ⟨',' :: u, tail, rfl, hrest, fun after => ?_⟩
      rw [List.cons_append, readNames, if_neg hbracket, if_neg hquote, if_neg hpad]
      exact hu after
  | _ => cases h

/-- A number in front of what cannot go on with it becomes the current one. -/
theorem readPositions_digits {c : Char} {digits rest : List Char} {k : Int}
    (hc : c = '-' ∨ c.isDigit) (hdigits : ∀ d ∈ digits, d.isDigit = true)
    (hend : ∀ d ∈ rest.head?, d.isDigit = false) (hminus : rest.head? ≠ some '-')
    (hk : integer? (c :: digits) = some k) (kind : Positions) (done : List Int) :
    readPositions kind done none (c :: (digits ++ rest)) =
      readPositions kind done (some k) rest := by
  rw [readPositions.eq_def]
  dsimp only
  rw [if_pos hc, if_neg (by simp), takeWhile_append_eq hdigits hend,
    dropWhile_append_eq hdigits hend, hk, if_neg hminus]

/-- Positions are read up to the bracket that closes them, whatever follows it. -/
theorem readPositions_of_close {kind : Positions} {done : List Int} {current : Option Int}
    {s rest : List Char} {selector : Selector}
    (h : readPositions kind done current s = .ok (selector, rest)) :
    ∃ u tail, s = u ++ ']' :: tail ∧ rest = ']' :: tail ∧ ∀ after,
      readPositions kind done current (u ++ ']' :: after) = .ok (selector, ']' :: after) := by
  fun_induction readPositions kind done current s with
  | case5 kind done current c s hdigit hcurrent hminus k hk _ ih =>
      obtain rfl : current = none := by simpa using hcurrent
      obtain ⟨u, tail, htail, hrest, hu⟩ := ih h
      have hs := List.takeWhile_append_dropWhile (p := Char.isDigit) (l := s)
      have hnone := head_dropWhile_eq_false (p := Char.isDigit) (s := s)
      rw [htail] at hs hminus hnone
      refine ⟨c :: (s.takeWhile Char.isDigit ++ u), tail, by simp [hs], hrest, fun after => ?_⟩
      have hend : (u ++ ']' :: after).head? = (u ++ ']' :: tail).head? := by
        cases u <;> rfl
      rw [← hend] at hminus hnone
      rw [List.cons_append, List.append_assoc,
        readPositions_digits hdigit (fun _ => List.mem_takeWhile_imp) hnone hminus hk]
      exact hu after
  | case6 done s start stop hdigit =>
      obtain ⟨rfl, rfl⟩ := Prod.mk.inj (Except.ok.inj h)
      refine ⟨[], s, rfl, rfl, fun after => ?_⟩
      rw [List.nil_append, readPositions.eq_def]
      rfl
  | case7 kind done s k hkind hdigit =>
      obtain ⟨rfl, rfl⟩ := Prod.mk.inj (Except.ok.inj h)
      refine ⟨[], s, rfl, rfl, fun after => ?_⟩
      rw [List.nil_append, readPositions.eq_def]
      rcases kind with - | - | start
      · rfl
      · rfl
      · exact (hkind start rfl).elim
  | case9 done current s hdigit hbracket ih =>
      obtain ⟨u, tail, rfl, hrest, hu⟩ := ih h
      refine ⟨':' :: u, tail, rfl, hrest, fun after => ?_⟩
      rw [List.cons_append, readPositions.eq_def]
      exact hu after
  | case12 kind done s k hkind hdigit hbracket hcolon ih =>
      obtain ⟨u, tail, rfl, hrest, hu⟩ := ih h
      refine ⟨',' :: u, tail, rfl, hrest, fun after => ?_⟩
      rw [List.cons_append, readPositions.eq_def]
      rcases kind with - | - | start
      · exact hu after
      · exact hu after
      · exact (hkind start rfl).elim
  | case14 kind done current c s hdigit hbracket hcolon hcomma hpad ih =>
      obtain ⟨u, tail, rfl, hrest, hu⟩ := ih h
      refine ⟨c :: u, tail, rfl, hrest, fun after => ?_⟩
      rw [List.cons_append, readPositions.eq_def]
      dsimp only
      rw [if_neg hdigit, if_neg hbracket, if_neg hcolon, if_neg hcomma, if_pos hpad]
      exact hu after
  | _ => cases h

/-- What is listed goes by its first character: names begin with a quote, positions with a digit, a
colon or a minus. -/
theorem readListed_cons {c : Char} (hfilter : c ≠ '?') (hall : c ≠ '*') (s : List Char) :
    readListed (c :: s) =
      if c = '\'' ∨ c = '"' then (readNames [] false (c :: s)).map fun p => (.names p.1, p.2)
      else if c.isDigit ∨ c = ':' ∨ c = '-' then readPositions .undecided [] none (c :: s)
      else .error (.unparsable (c :: s)) := by
  rw [readListed]
  · exact hfilter
  · exact hall

/-- The inside of brackets is read the same in front of any text that begins as the rest does. -/
theorem readListed_of_head_eq {s rest : List Char} {selector : Selector}
    (h : readListed s = .ok (selector, rest)) :
    ∃ u, s = u ++ rest ∧ ∀ after, after.head? = rest.head? →
      readListed (u ++ after) = .ok (selector, after) := by
  rcases s with - | ⟨c, s⟩
  · cases h
  by_cases hfilter : c = '?'
  · subst hfilter
    obtain ⟨p, hs, hp⟩ := map_eq_ok_iff.1 h
    obtain ⟨rfl, rfl⟩ := Prod.mk.inj hp
    obtain ⟨u, rfl, hu⟩ := Filter.read_of_stopsAt hs
    refine ⟨'?' :: u, rfl, fun after hafter => ?_⟩
    rw [List.cons_append, readListed, hu after (.of_head_eq hafter)]
    rfl
  by_cases hall : c = '*'
  · subst hall
    obtain ⟨rfl, rfl⟩ := Prod.mk.inj (Except.ok.inj h)
    exact ⟨['*'], rfl, fun after _ => rfl⟩
  rw [readListed_cons hfilter hall] at h
  suffices hclose : ∃ u tail, s = u ++ ']' :: tail ∧ rest = ']' :: tail ∧ ∀ after,
      readListed (c :: (u ++ ']' :: after)) = .ok (selector, ']' :: after) by
    obtain ⟨u, tail, rfl, rfl, hu⟩ := hclose
    refine ⟨c :: u, rfl, fun after hafter => ?_⟩
    obtain ⟨after, rfl⟩ := List.head?_eq_some_iff.1 hafter
    exact hu after
  split at h
  · next hquote =>
      obtain ⟨p, hs, hp⟩ := map_eq_ok_iff.1 h
      obtain ⟨rfl, rfl⟩ := Prod.mk.inj hp
      obtain ⟨u, tail, hsu, hrest, hu⟩ := readNames_of_close hs
      rcases u with - | ⟨d, u⟩
      · obtain ⟨rfl, -⟩ := List.cons.inj hsu
        exact absurd hquote (by decide)
      obtain ⟨rfl, rfl⟩ := List.cons.inj hsu
      refine ⟨u, tail, rfl, hrest, fun after => ?_⟩
      rw [readListed_cons hfilter hall, if_pos hquote, ← List.cons_append, hu after]
      rfl
  · next hquote =>
      split at h
      · next hposition =>
          obtain ⟨u, tail, hsu, hrest, hu⟩ := readPositions_of_close h
          rcases u with - | ⟨d, u⟩
          · obtain ⟨rfl, -⟩ := List.cons.inj hsu
            exact absurd hposition (by decide)
          obtain ⟨rfl, rfl⟩ := List.cons.inj hsu
          refine ⟨u, tail, rfl, hrest, fun after => ?_⟩
          rw [readListed_cons hfilter hall, if_neg hquote, if_pos hposition, ← List.cons_append,
            hu after]
      · cases h

/-- What stands in brackets is read the same in front of any text. -/
theorem readBracketed_of_close {s rest : List Char} {selector : Selector}
    (h : readBracketed s = .ok (selector, rest)) :
    ∃ u, s = u ++ rest ∧ ∀ after, readBracketed (u ++ after) = .ok (selector, after) := by
  rw [readBracketed] at h
  split at h
  · cases h
  next mid hlisted =>
  split at h
  · next tail htail =>
      obtain ⟨rfl, rfl⟩ := Prod.mk.inj (Except.ok.inj h)
      obtain ⟨u, hsu, hu⟩ := readListed_of_head_eq hlisted
      obtain ⟨blanks, hblanks, hs⟩ := exists_eq_append_skipBlanks s
      obtain ⟨pads, hpads, hmid⟩ := exists_eq_append_skipBlanks mid
      rw [htail] at hmid
      refine ⟨blanks ++ (u ++ (pads ++ [']'])), by rw [hs, hsu, hmid]; simp, fun after => ?_⟩
      have hfirst : (pads ++ ']' :: after).head? = mid.head? := by
        rw [hmid]
        cases pads <;> rfl
      have hinside : (u ++ (pads ++ ']' :: after)).head? = (skipBlanks s).head? := by
        rw [hsu, List.head?_append, hfirst, List.head?_append]
      have hskip : skipBlanks (blanks ++ (u ++ (pads ++ ']' :: after))) =
          u ++ (pads ++ ']' :: after) :=
        dropWhile_append_eq hblanks (hinside ▸ head_dropWhile_eq_false)
      simp only [List.append_assoc, List.singleton_append]
      rw [readBracketed, hskip, hu _ hfirst]
      dsimp only
      rw [skipBlanks_append_eq hpads rfl]
      rfl
  · cases h

/-- What brackets hold is what is read inside them. -/
theorem exists_readListed_of_readBracketed {s rest : List Char} {selector : Selector}
    (h : readBracketed s = .ok (selector, rest)) :
    ∃ inside rest', readListed inside = .ok (selector, rest') := by
  rw [readBracketed] at h
  split at h
  · cases h
  next hlisted =>
  split at h
  · obtain ⟨rfl, -⟩ := Prod.mk.inj (Except.ok.inj h)
    exact ⟨_, _, hlisted⟩
  · cases h

/-! ### Points -/

/-- What may stand behind a segment: nothing, or what begins with a point or a bracket. -/
def Continues (after : List Char) : Prop :=
  ∀ c ∈ after.head?, c = '.' ∨ c = '['

/-- Where a text and its rest continue a segment, it does so with any other rest that continues
one. -/
theorem Continues.replace {s rest after : List Char} (hs : Continues (s ++ rest))
    (h : Continues after) : Continues (s ++ after) := by
  rcases s with - | ⟨c, s⟩
  · exact h
  · exact hs

/-- What continues a segment begins with a point or a bracket. -/
theorem Continues.head {after : List Char} (h : Continues after) {p : Char → Bool}
    (hpoint : p '.' = false) (hbracket : p '[' = false) : ∀ c ∈ after.head?, p c = false := by
  intro c hc
  rcases h c hc with rfl | rfl
  · exact hpoint
  · exact hbracket

/-- What is no bracket of a call stays none. -/
theorem callParentheses?_of_head {s : List Char} (h : ∀ c ∈ s.head?, c ≠ '(') :
    callParentheses? s = none := by
  rcases s with - | ⟨c, s⟩
  · rfl
  · rw [callParentheses?]
    rintro _ ⟨⟩
    exact h '(' rfl rfl

/-- The parentheses of a call are read the same in front of any text. -/
theorem callParentheses?_of_close {s parentheses rest : List Char}
    (h : callParentheses? s = some (parentheses, rest)) :
    s = parentheses ++ rest ∧ parentheses.head? = some '(' ∧
      ∀ after, callParentheses? (parentheses ++ after) = some (parentheses, after) := by
  rw [callParentheses?.eq_def] at h
  split at h
  · next s =>
      split at h
      · next tail htail =>
          obtain ⟨rfl, rfl⟩ := Prod.mk.inj (Option.some.inj h)
          have hblanks : ∀ c ∈ s.takeWhile isBlank, isBlank c = true :=
            fun _ => List.mem_takeWhile_imp
          have hs := List.takeWhile_append_dropWhile (p := isBlank) (l := s)
          rw [← skipBlanks, htail] at hs
          refine ⟨by simp [hs], rfl, fun after => ?_⟩
          rw [List.cons_append, List.append_assoc, List.singleton_append, callParentheses?,
            skipBlanks_append_eq hblanks rfl, takeWhile_append_eq hblanks (by simp [isBlank])]
          rfl
      · cases h
  · cases h

/-- A character of a name is not the star. -/
theorem head_ne_star {name text : List Char} (hname : ∀ c ∈ name, isWord c)
    (htext : ∀ c ∈ text.head?, c ≠ '*') (rest : List Char) : name ++ text ≠ '*' :: rest := by
  intro h
  rcases name with - | ⟨c, name⟩
  · exact htext '*' (by rw [← List.nil_append text, h]; rfl) rfl
  · obtain ⟨rfl, -⟩ := List.cons.inj h
    exact absurd (hname '*' (by simp)) (by decide)

/-- A name is read up to a character that neither continues nor calls it. -/
theorem readDotted_name {name text : List Char} (hne : name ≠ []) (hname : ∀ c ∈ name, isWord c)
    (htext : ∀ c ∈ text.head?, isWord c = false ∧ c ≠ '(' ∧ c ≠ '*') :
    readDotted (name ++ text) = .ok (.names [String.ofList name], text) := by
  have hword : ∀ c ∈ text.head?, isWord c = false := fun c hc => (htext c hc).1
  rw [readDotted, takeWhile_append_eq hname hword, dropWhile_append_eq hname hword]
  · rw [callParentheses?_of_head fun c hc => (htext c hc).2.1]
    exact if_neg (by simpa using hne)
  · exact head_ne_star hname fun c hc => (htext c hc).2.2

/-- A call is read with its parentheses. -/
theorem readDotted_call {name text parentheses after : List Char} {f : Aggregate}
    (hname : ∀ c ∈ name, isWord c) (htext : callParentheses? text = some (parentheses, after))
    (hf : Aggregate.ofName? (String.ofList name) = some f) :
    readDotted (name ++ text) = .ok (.apply f, after) := by
  obtain ⟨htext', hopen, -⟩ := callParentheses?_of_close htext
  have hhead : ∀ c ∈ text.head?, c = '(' := fun c hc => by
    rw [htext', List.head?_append, hopen] at hc
    exact (Option.some.inj hc).symm
  have hword : ∀ c ∈ text.head?, isWord c = false := fun c hc => by rw [hhead c hc]; rfl
  rw [readDotted, takeWhile_append_eq hname hword, dropWhile_append_eq hname hword, htext]
  · simp only [hf]
  · exact head_ne_star hname fun c hc => by rw [hhead c hc]; decide

/-- What follows a point is read the same in front of other segments. -/
theorem readDotted_of_continues {s rest : List Char} {selector : Selector}
    (h : readDotted s = .ok (selector, rest)) :
    ∃ u, u ≠ [] ∧ s = u ++ rest ∧ ∀ after, Continues after →
      readDotted (u ++ after) = .ok (selector, after) := by
  rw [readDotted.eq_def] at h
  split at h
  · obtain ⟨rfl, rfl⟩ := Prod.mk.inj (Except.ok.inj h)
    exact ⟨['*'], List.cons_ne_nil _ _, rfl, fun after _ => rfl⟩
  have hs := List.takeWhile_append_dropWhile (p := isWord) (l := s)
  have hname : ∀ c ∈ s.takeWhile isWord, isWord c = true := fun _ => List.mem_takeWhile_imp
  dsimp only at h
  split at h
  · next parentheses tail hparentheses =>
      split at h
      · next f hf =>
          obtain ⟨rfl, rfl⟩ := Prod.mk.inj (Except.ok.inj h)
          obtain ⟨hrest, hopen, hclose⟩ := callParentheses?_of_close hparentheses
          refine ⟨s.takeWhile isWord ++ parentheses, ?_, by rw [List.append_assoc, ← hrest, hs],
            fun after _ => ?_⟩
          · refine List.append_ne_nil_of_right_ne_nil _ ?_
            rintro rfl
            cases hopen
          · rw [List.append_assoc]
            exact readDotted_call hname (hclose after) hf
      · cases h
  · split at h
    · cases h
    · next hne =>
        obtain ⟨rfl, rfl⟩ := Prod.mk.inj (Except.ok.inj h)
        refine ⟨s.takeWhile isWord, by simpa using hne, hs.symm, fun after hafter => ?_⟩
        refine readDotted_name (by simpa using hne) hname fun c hc => ?_
        rcases hafter c hc with rfl | rfl <;> decide

/-- Behind a point stand the star, a call or one name. -/
theorem selector_of_readDotted {s rest : List Char} {selector : Selector}
    (h : readDotted s = .ok (selector, rest)) :
    selector = .all ∨ (∃ f, selector = .apply f) ∨
      ∃ name, name ≠ [] ∧ selector = .names [String.ofList name] := by
  rw [readDotted.eq_def] at h
  split at h
  · obtain ⟨rfl, -⟩ := Prod.mk.inj (Except.ok.inj h)
    exact .inl rfl
  dsimp only at h
  split at h
  · split at h
    · obtain ⟨rfl, -⟩ := Prod.mk.inj (Except.ok.inj h)
      exact .inr (.inl ⟨_, rfl⟩)
    · cases h
  · split at h
    · cases h
    · next hname =>
        obtain ⟨rfl, -⟩ := Prod.mk.inj (Except.ok.inj h)
        exact .inr (.inr ⟨_, by simpa using hname, rfl⟩)

end Selector

/-! ### Segments -/

namespace Segment

/-- The points in front of a body that begins with `c`: none in front of brackets, one, or two,
which detach. -/
def Points (detached : Bool) (points : List Char) (c : Char) : Prop :=
  c ≠ '.' ∧ (points = [] ∧ c = '[' ∧ detached = false ∨
    points = ['.'] ∧ detached = false ∨ points = ['.', '.'] ∧ detached = true)

/-- Behind the points no further point may stand, and a bracket opens brackets. -/
theorem openingAfter_cons (detached : Bool) (c : Char) (s : List Char) :
    openingAfter detached (c :: s) =
      if c = '.' then .error (.unparsable (c :: s)) else .ok (⟨c == '[', detached⟩, c :: s) := by
  by_cases hpoint : c = '.'
  · subst hpoint
    rfl
  by_cases hbracket : c = '['
  · subst hbracket
    rfl
  · rw [openingAfter, if_neg hpoint, beq_false_of_ne hbracket]
    · exact List.cons_ne_nil _ _
    · rintro _ ⟨⟩
      exact hpoint rfl
    · rintro _ ⟨⟩
      exact hbracket rfl

/-- A selector opens behind its points exactly if a character other than a point stands there. -/
theorem openingAfter_eq_ok_iff {detached : Bool} {s body : List Char} {opening : Opening} :
    openingAfter detached s = .ok (opening, body) ↔
      ∃ c tail, s = c :: tail ∧ body = s ∧ c ≠ '.' ∧ opening = ⟨c == '[', detached⟩ := by
  rcases s with - | ⟨c, s⟩
  · simp [openingAfter]
  · rw [openingAfter_cons]
    split
    · next hpoint => simp [hpoint]
    · next hpoint => simp [hpoint, eq_comm, and_comm]

/-- What a segment begins with is the points in front of its body. -/
theorem readOpening_eq_ok_iff {s body : List Char} {opening : Opening} :
    readOpening s = .ok (opening, body) ↔
      ∃ points c tail, s = points ++ body ∧ body = c :: tail ∧
        opening.bracketed = (c == '[') ∧ Points opening.detached points c := by
  constructor
  · intro h
    rw [readOpening.eq_def] at h
    split at h
    · obtain ⟨c, tail, rfl, rfl, hc, rfl⟩ := openingAfter_eq_ok_iff.1 h
      exact ⟨['.', '.'], c, tail, rfl, rfl, rfl, hc, .inr (.inr ⟨rfl, rfl⟩)⟩
    · obtain ⟨c, tail, rfl, rfl, hc, rfl⟩ := openingAfter_eq_ok_iff.1 h
      exact ⟨['.'], c, tail, rfl, rfl, rfl, hc, .inr (.inl ⟨rfl, rfl⟩)⟩
    · obtain ⟨rfl, rfl⟩ := Prod.mk.inj (Except.ok.inj h)
      exact ⟨[], '[', _, rfl, rfl, rfl, by decide, .inl ⟨rfl, rfl, rfl⟩⟩
    · cases h
  · obtain ⟨bracketed, detached⟩ := opening
    rintro ⟨points, c, tail, rfl, rfl, hbracketed, hc, hpoints⟩
    obtain rfl : bracketed = (c == '[') := hbracketed
    rcases hpoints with ⟨rfl, rfl, hdetached⟩ | ⟨rfl, hdetached⟩ | ⟨rfl, hdetached⟩ <;>
      obtain rfl := hdetached
    · rfl
    · rw [List.singleton_append, readOpening, openingAfter_cons, if_neg hc]
      rintro _ ⟨⟩
      exact hc rfl
    · exact (openingAfter_cons true c tail).trans (if_neg hc)

/-- **A segment is its points and its body**, which is brackets or what may follow a point. -/
theorem read_eq_ok_iff {s body rest : List Char} {segment : Segment} :
    read s = .ok (segment, body, rest) ↔
      ∃ points c tail, s = points ++ body ∧ body = c :: tail ∧ Points segment.detached points c ∧
        (if c = '[' then Selector.readBracketed tail else Selector.readDotted body) =
          .ok (segment.selector, rest) := by
  have hbody {opening : Opening} {c : Char} (hbracketed : opening.bracketed = (c == '['))
      (tail : List Char) : readBody opening (c :: tail) =
        if c = '[' then Selector.readBracketed tail else Selector.readDotted (c :: tail) := by
    rw [readBody, hbracketed]
    simp
  constructor
  · intro h
    rw [read] at h
    split at h
    · cases h
    next opening text hopening =>
    obtain ⟨p, hread, hp⟩ := map_eq_ok_iff.1 h
    obtain ⟨rfl, rfl, rfl⟩ : _ ∧ text = body ∧ p.2 = rest := by simpa using hp
    obtain ⟨points, c, tail, rfl, rfl, hbracketed, hpoints⟩ := readOpening_eq_ok_iff.1 hopening
    exact ⟨points, c, tail, rfl, rfl, hpoints, (hbody hbracketed tail).symm.trans hread⟩
  · rintro ⟨points, c, tail, rfl, rfl, hpoints, hread⟩
    have hopening : readOpening (points ++ c :: tail) =
        .ok (⟨c == '[', segment.detached⟩, c :: tail) :=
      readOpening_eq_ok_iff.2 ⟨points, c, tail, rfl, rfl, rfl, hpoints⟩
    rw [read, hopening]
    dsimp only
    rw [hbody rfl, hread]
    rfl

/-- A segment does what brackets hold or what follows a point. -/
theorem selector_of_read {s body rest : List Char} {segment : Segment}
    (h : read s = .ok (segment, body, rest)) :
    (∃ inside rest', Selector.readListed inside = .ok (segment.selector, rest')) ∨
      ∃ dotted rest', Selector.readDotted dotted = .ok (segment.selector, rest') := by
  obtain ⟨_, _, _, -, -, -, hbody⟩ := read_eq_ok_iff.1 h
  split at hbody
  · exact .inl (Selector.exists_readListed_of_readBracketed hbody)
  · exact .inr ⟨_, _, hbody⟩

/-- **A segment is read the same** in front of other segments. -/
theorem read_of_continues {s body rest : List Char} {segment : Segment}
    (h : read s = .ok (segment, body, rest)) :
    ∃ u, s = u ++ rest ∧ ∀ after, Selector.Continues after →
      ∃ body', read (u ++ after) = .ok (segment, body', after) := by
  obtain ⟨points, c, tail, rfl, rfl, hpoints, hbody⟩ := read_eq_ok_iff.1 h
  obtain ⟨u, rfl, hu⟩ : ∃ u, tail = u ++ rest ∧ ∀ after, Selector.Continues after →
      (if c = '[' then Selector.readBracketed (u ++ after)
        else Selector.readDotted (c :: (u ++ after))) = .ok (segment.selector, after) := by
    by_cases hbracket : c = '['
    · simp only [if_pos hbracket] at hbody ⊢
      obtain ⟨u, htail, hu⟩ := Selector.readBracketed_of_close hbody
      exact ⟨u, htail, fun after _ => hu after⟩
    · simp only [if_neg hbracket] at hbody ⊢
      obtain ⟨u, hne, htail, hu⟩ := Selector.readDotted_of_continues hbody
      obtain ⟨d, u, rfl⟩ := List.exists_cons_of_ne_nil hne
      obtain ⟨rfl, rfl⟩ := List.cons.inj htail
      exact ⟨u, rfl, hu⟩
  refine ⟨points ++ c :: u, by simp, fun after hafter => ⟨c :: (u ++ after), ?_⟩⟩
  exact read_eq_ok_iff.2 ⟨points, c, u ++ after, by simp, rfl, hpoints, hu after hafter⟩

/-- A segment begins with a point or a bracket. -/
theorem continues_of_read {s body rest : List Char} {segment : Segment}
    (h : read s = .ok (segment, body, rest)) : Selector.Continues s := by
  obtain ⟨points, c, tail, rfl, rfl, ⟨-, hpoints⟩, -⟩ := read_eq_ok_iff.1 h
  rcases hpoints with ⟨rfl, rfl, -⟩ | ⟨rfl, -⟩ | ⟨rfl, -⟩ <;> simp [Selector.Continues]

end Segment

end JsonPath
