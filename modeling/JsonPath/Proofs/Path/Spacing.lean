import JsonPath.Proofs.Path.Joining
import JsonPath.Proofs.Path.Quoting

/-!
# Blanks in Brackets

Blanks in brackets do not count, as long as they stand outside quotes and not inside an integer.
That is true of spaces and tabs at every such place. It is not true of line ends: behind the opening
bracket and around a star all blanks are skipped, but the loops that read names and positions know
only spaces and tabs, up to the closing bracket. A line end between the parts of a list is refused
where it stands, and so is one in front of the closing bracket (`Path.ofString_spaced`).

At a place outside quotes and integers the reader of a list is in some state, whatever comes next.
All states treat blanks in one way (`SkipsPads`), so it is enough that the text up to the place
leads to a state (`Selector.readNames_unquoted`, `Selector.readPositions_place`). The segments in
front are read the same when the text behind them changes (`Path.readSegments_of_reaches`).

## Main definitions

* `Place`: the places outside quotes and integers.
* `Selector.Passes`: a text leads the reader of positions from a state to another one.
* `Path.Brackets`: a segment in brackets in the text of a path.

## Main results

* `Selector.readBracketed_spaced`: blanks at a place in brackets.
* `Path.ofString_spaced`: **blanks in the brackets of a path**, where they are skipped and where
  they are refused.
* `Path.not_forall_ofString_spaced`: not all blanks are skipped at all places.
-/

namespace JsonPath

open Text Grammar

/-! ### Places -/

/-- Texts at whose end no quote is open. -/
inductive Unquoted : List Char → Prop
  | nil : Unquoted []
  | char {c : Char} {s : List Char} : c ≠ '\'' → c ≠ '"' → Unquoted s → Unquoted (c :: s)
  | quoted {quote : Char} {name s : List Char} : quote = '\'' ∨ quote = '"' → Unquoted s →
      Unquoted (Quoted.enclose quote name ++ s)

/-- Not inside an integer: no sign or digit stands in front of a digit. -/
def NoInteger (left right : List Char) : Prop :=
  ∀ c ∈ left.getLast?, c = '-' ∨ c.isDigit → ∀ d ∈ right.head?, d.isDigit = false

/-- A place between two texts, outside quotes and not inside an integer. -/
structure Place (left right : List Char) : Prop where
  /-- No quote is open. -/
  unquoted : Unquoted left
  /-- No integer is cut in two. -/
  noInteger : NoInteger left right

/-- A place that is not inside an integer is not inside one when less stands in front of it. -/
theorem NoInteger.of_append {u left right : List Char} (h : NoInteger (u ++ left) right) :
    NoInteger left right := by
  intro c hc
  refine h c ?_
  rw [List.getLast?_append, Option.mem_def.1 hc]
  rfl

/-- The bracket that closes a list may stand behind the place. -/
theorem Place.close {left right : List Char} (h : Place left right) (after : List Char) :
    Place left (right ++ ']' :: after) where
  unquoted := h.unquoted
  noInteger := by
    rcases right with - | ⟨c, right⟩
    · exact fun _ _ _ d hd => by obtain rfl : ']' = d := by simpa using hd
                                 rfl
    · exact h.noInteger

/-- Without the blanks in front of it, a text has no open quote either. -/
theorem Unquoted.of_blanks {blanks s : List Char} (hblanks : ∀ c ∈ blanks, isBlank c = true)
    (h : Unquoted (blanks ++ s)) : Unquoted s := by
  induction blanks with
  | nil => exact h
  | cons c blanks ih =>
      obtain ⟨hc, hblanks⟩ := List.forall_mem_cons.1 hblanks
      rw [List.cons_append] at h
      generalize htext : c :: (blanks ++ s) = text at h
      cases h with
      | nil => cases htext
      | char _ _ hrest =>
          obtain ⟨-, rfl⟩ := List.cons.inj htext
          exact ih hblanks hrest
      | quoted hquote =>
          obtain ⟨rfl, -⟩ := List.cons.inj htext
          rcases hquote with rfl | rfl <;> exact absurd hc (by decide)

/-- Without blanks far in front of it, a place is still one. -/
theorem Place.of_blanks {blanks left right : List Char}
    (hblanks : ∀ c ∈ blanks, isBlank c = true) (h : Place (blanks ++ left) right) :
    Place left right where
  unquoted := h.unquoted.of_blanks hblanks
  noInteger := h.noInteger.of_append

namespace Selector

/-! ### States at a place -/

/-- A quoted text without banned characters is a quoted text. -/
theorem split_of_banned {quote : Char} {banned : Char → Bool} {s body rest : List Char}
    (h : Quoted.split '\\' quote banned s = .ok (body, rest)) :
    Quoted.split '\\' quote (fun _ => false) s = .ok (body, rest) := by
  fun_induction Quoted.split '\\' quote banned s generalizing body with
  | case2 =>
      obtain ⟨rfl, rfl⟩ := Prod.mk.inj (Except.ok.inj h)
      rw [Quoted.split.eq_def]
      exact if_pos rfl
  | case4 d tail hd hquote ih =>
      obtain ⟨p, hs, hp⟩ := map_eq_ok_iff.1 h
      obtain ⟨rfl, rfl⟩ := Prod.mk.inj hp
      rw [Quoted.split, if_neg hquote, if_pos rfl, if_pos hd, ih hs]
      rfl
  | case7 c tail hquote hescape hbanned ih =>
      obtain ⟨p, hs, hp⟩ := map_eq_ok_iff.1 h
      obtain ⟨rfl, rfl⟩ := Prod.mk.inj hp
      rw [Quoted.split.eq_def]
      simp only [hquote, hescape, if_false]
      rw [if_neg Bool.false_ne_true, ih hs]
      rfl
  | _ => cases h

/-- A quoted name settles the list, whatever follows it. -/
theorem readNames_quoted {quote : Char} (hquote : quote = '\'' ∨ quote = '"') {name s : List Char}
    {done names : List String} {settled : Bool} {rest : List Char}
    (h : readNames done settled (Quoted.enclose quote name ++ s) = .ok (names, rest)) :
    ∃ done', ∀ after, readNames done settled (Quoted.enclose quote name ++ after) =
      readNames done' true after := by
  have hbracket : quote ≠ ']' := by rcases hquote with rfl | rfl <;> decide
  have hbackslash : quote ≠ '\\' := by rcases hquote with rfl | rfl <;> decide
  rw [Quoted.enclose_append, readNames, if_neg hbracket, if_pos hquote] at h
  split at h
  · cases h
  next hsettled =>
  split at h
  · cases h
  next body rest' hsplit =>
  have hfree := split_of_banned hsplit
  rw [Quoted.split_escape hbackslash fun _ _ => rfl] at hfree
  obtain ⟨rfl, rfl⟩ := Prod.mk.inj (Except.ok.inj hfree)
  split at h
  · cases h
  next hbody =>
  refine ⟨done ++ [String.ofList (Quoted.unquote (Quoted.escape quote name))], fun after => ?_⟩
  have hsplit' := Quoted.split_append hsplit after
  rw [Quoted.enclose_append, readNames, if_neg hbracket, if_pos hquote, if_neg hsettled]
  split
  · next hfault =>
      rw [hsplit'] at hfault
      cases hfault
  · next hok =>
      rw [hsplit'] at hok
      obtain ⟨rfl, rfl⟩ := Prod.mk.inj (Except.ok.inj hok)
      exact if_neg hbody

/-- What stands in front of a place in a list of names leads to a state. -/
theorem readNames_unquoted {left : List Char} (hleft : Unquoted left) {done names : List String}
    {settled : Bool} {s after : List Char}
    (h : readNames done settled (left ++ s) = .ok (names, ']' :: after))
    (hafter : after.length < s.length) :
    ∃ done' settled', ∀ next,
      readNames done settled (left ++ next) = readNames done' settled' next := by
  induction hleft generalizing done settled with
  | nil => exact ⟨done, settled, fun _ => rfl⟩
  | @char c left hsingle hdouble _ ih =>
      have hquote : ¬ (c = '\'' ∨ c = '"') := not_or.2 ⟨hsingle, hdouble⟩
      rw [List.cons_append, readNames] at h
      by_cases hbracket : c = ']'
      · rw [if_pos hbracket] at h
        split at h
        · obtain ⟨-, htext⟩ := Prod.mk.inj (Except.ok.inj h)
          have hlength := congrArg List.length htext
          simp at hlength
          omega
        · cases h
      rw [if_neg hbracket, if_neg hquote] at h
      by_cases hpad : isPad c = true
      · rw [if_pos hpad] at h
        obtain ⟨done', settled', hstate⟩ := ih h
        refine ⟨done', settled', fun next => ?_⟩
        rw [List.cons_append, (skipsPads_readNames _ _).pad c _ hpad, hstate]
      · rw [if_neg hpad] at h
        split at h
        · next hcomma =>
            split at h
            · next hsettled =>
                subst hcomma hsettled
                obtain ⟨done', settled', hstate⟩ := ih h
                refine ⟨done', settled', fun next => ?_⟩
                rw [List.cons_append, readNames_comma, hstate]
            · cases h
        · cases h
  | @quoted quote name left hquote _ ih =>
      rw [List.append_assoc] at h
      obtain ⟨done', hstate⟩ := readNames_quoted hquote h
      rw [hstate] at h
      obtain ⟨done'', settled', hstate'⟩ := ih h
      refine ⟨done'', settled', fun next => ?_⟩
      rw [List.append_assoc, hstate, hstate']

/-- The integer that begins in front of a place ends there or earlier. -/
theorem exists_digits {c : Char} {left s : List Char} (hc : c = '-' ∨ c.isDigit)
    (hplace : NoInteger (c :: left) s) :
    ∃ digits later, left = digits ++ later ∧ (∀ d ∈ digits, d.isDigit = true) ∧
      (∀ d ∈ (later ++ s).head?, d.isDigit = false) ∧ NoInteger later s := by
  have hsplit := List.takeWhile_append_dropWhile (p := Char.isDigit) (l := left)
  have hdigits : ∀ d ∈ left.takeWhile Char.isDigit, d.isDigit = true :=
    fun _ => List.mem_takeWhile_imp
  refine ⟨_, _, hsplit.symm, hdigits, fun d hd => ?_, ?_⟩
  · rcases hlater : left.dropWhile Char.isDigit with - | ⟨e, later⟩
    · rw [hlater] at hsplit hd
      rw [List.append_nil] at hsplit
      rw [hsplit] at hdigits
      obtain ⟨last, hlast⟩ : ∃ last, last ∈ (c :: left).getLast? :=
        ⟨_, List.getLast?_eq_some_getLast (List.cons_ne_nil c left)⟩
      refine hplace last hlast ?_ d hd
      rcases List.mem_cons.1 (List.mem_of_getLast? hlast) with rfl | hmem
      · exact hc
      · exact .inr (hdigits last hmem)
    · have hhead := head_dropWhile_eq_false (p := Char.isDigit) (s := left)
      rw [hlater] at hhead hd
      exact hhead d hd
  · rw [← hsplit, ← List.cons_append] at hplace
    exact hplace.of_append

/-- A text leads the reader of positions from a state to another one, unless it goes on with an
integer behind the text. -/
def Passes (kind : Positions) (done : List Int) (current : Option Int)
    (left s : List Char) : Prop :=
  ∃ kind' done' current', ∀ next, next = s ∨ EndsInteger next →
    readPositions kind done current (left ++ next) = readPositions kind' done' current' next

/-- The empty text leaves the reader of positions in the state it is in. -/
theorem passes_nil (kind : Positions) (done : List Int) (current : Option Int) (s : List Char) :
    Passes kind done current [] s :=
  ⟨kind, done, current, fun _ _ => rfl⟩

/-- A character leads to a state from which the text behind it does. -/
theorem Passes.cons {kind kind' : Positions} {done done' : List Int} {current current' : Option Int}
    {c : Char} {left s : List Char} (h : Passes kind' done' current' left s)
    (hstep : ∀ next, readPositions kind done current (c :: next) =
      readPositions kind' done' current' next) : Passes kind done current (c :: left) s := by
  obtain ⟨kind'', done'', current'', hstate⟩ := h
  refine ⟨kind'', done'', current'', fun next hnext => ?_⟩
  rw [List.cons_append, hstep, hstate next hnext]

/-- An integer leads to a state from which the text behind it does. -/
theorem Passes.integer {kind : Positions} {done : List Int} {c : Char} {digits left s : List Char}
    {k : Int} (h : Passes kind done (some k) left s) (hinteger : Integer (c :: digits) k)
    (hends : EndsInteger (left ++ s)) : Passes kind done none (c :: (digits ++ left)) s := by
  obtain ⟨kind', done', current', hstate⟩ := h
  refine ⟨kind', done', current', fun next hnext => ?_⟩
  have hends' : EndsInteger (left ++ next) := by
    rcases left with - | ⟨d, left⟩
    · exact hnext.elim (fun hs => hs ▸ hends) id
    · exact hends
  rw [← List.cons_append, List.append_assoc, readPositions_integer hinteger hends',
    hstate next hnext]

/-- What stands in front of a place among positions leads to a state. -/
theorem readPositions_place {kind : Positions} {done : List Int} {current : Option Int}
    {text left s after : List Char} {selector : Selector} (htext : text = left ++ s)
    (h : readPositions kind done current text = .ok (selector, ']' :: after))
    (hafter : after.length < s.length) (hplace : NoInteger left s) :
    Passes kind done current left s := by
  have not_closed {d : Char} {left s' : List Char} {found : Selector}
      (htext : ']' :: s' = d :: left ++ s) :
      (.ok (found, ']' :: s') : Except Fault (Selector × List Char)) ≠
        .ok (selector, ']' :: after) := by
    rintro ⟨⟩
    have hlength := congrArg List.length htext
    simp at hlength
    omega
  fun_induction readPositions kind done current text generalizing left with
  | case5 kind done current c rest hdigit hcurrent hminus k hk _ ih =>
      rcases left with - | ⟨d, left⟩
      · exact passes_nil ..
      rw [List.cons_append] at htext
      obtain ⟨rfl, rfl⟩ := List.cons.inj htext
      obtain rfl : current = none := by simpa using hcurrent
      obtain ⟨digits, later, rfl, hdigits, hend, hlater⟩ := exists_digits hdigit hplace
      rw [List.append_assoc] at hminus hk ih h
      rw [dropWhile_append_eq hdigits hend] at hminus h ih
      rw [takeWhile_append_eq hdigits hend] at hk
      exact (ih rfl h hlater).integer (integer_of_integer? hdigit hdigits hk) fun d hd =>
        ⟨hend d hd, by rintro rfl; exact hminus hd⟩
  | case6 | case7 =>
      rcases left with - | ⟨d, left⟩
      · exact passes_nil ..
      exact absurd h (not_closed htext)
  | case9 done current s' hdigit hbracket ih =>
      rcases left with - | ⟨d, left⟩
      · exact passes_nil ..
      rw [List.cons_append] at htext
      obtain ⟨rfl, rfl⟩ := List.cons.inj htext
      exact (ih rfl h (hplace.of_append (u := [':']))).cons (readPositions_colon _ _)
  | case12 kind done s' k hkind hdigit hbracket hcolon ih =>
      rcases left with - | ⟨d, left⟩
      · exact passes_nil ..
      rw [List.cons_append] at htext
      obtain ⟨rfl, rfl⟩ := List.cons.inj htext
      exact (ih rfl h (hplace.of_append (u := [',']))).cons (readPositions_comma hkind _ _)
  | case14 kind done current c s' hdigit hbracket hcolon hcomma hpad ih =>
      rcases left with - | ⟨d, left⟩
      · exact passes_nil ..
      rw [List.cons_append] at htext
      obtain ⟨rfl, rfl⟩ := List.cons.inj htext
      exact (ih rfl h (hplace.of_append (u := [c]))).cons fun next =>
        (skipsPads_readPositions _ _ _).pad c next hpad
  | _ => cases h

/-! ### Brackets -/

/-- What is read as positions does not select everything. -/
theorem ne_all_of_readPositions {s rest : List Char} {selector : Selector}
    (h : readPositions .undecided [] none s = .ok (selector, rest)) : selector ≠ .all := by
  obtain ⟨_, _, -, -, hremainder⟩ := remainder_of_readPositions h
  rintro rfl
  cases hremainder with
  | integer _ _ hcontinued => cases hcontinued

/-- What stands in front of a place in a list leads to a state in which blanks are treated alike. -/
theorem readListed_place {c : Char} {left s rest after : List Char} {selector : Selector}
    (h : readListed (c :: (left ++ s)) = .ok (selector, rest)) (hfilter : c ≠ '?') (hall : c ≠ '*')
    (hrest : skipBlanks rest = ']' :: after) (hafter : after.length < s.length)
    (hplace : Place (c :: left) s) :
    selector ≠ .all ∧ ∃ reader, SkipsPads reader ∧ ∀ next, next = s ∨ EndsInteger next →
      readListed (c :: (left ++ next)) = reader next := by
  rw [readListed_cons hfilter hall] at h
  split at h
  · next hquote =>
      obtain ⟨⟨names, rest'⟩, hread, hp⟩ := map_eq_ok_iff.1 h
      obtain ⟨rfl, rfl⟩ := Prod.mk.inj hp
      obtain ⟨_, after', -, rfl, -⟩ := readNames_of_close hread
      obtain rfl : after' = after := (List.cons.inj hrest).2
      obtain ⟨done, settled, hstate⟩ := readNames_unquoted hplace.unquoted hread hafter
      have hskips := skipsPads_readNames done settled
      refine ⟨nofun, fun next => (readNames done settled next).map fun p => (.names p.1, p.2),
        ⟨fun c s hc => ?_, fun c s hblank hpad => ?_⟩, fun next _ => ?_⟩
      · rw [hskips.pad c s hc]
      · rw [hskips.lineEnd c s hblank hpad]
        rfl
      · rw [readListed_cons hfilter hall, if_pos hquote, ← List.cons_append, hstate]
  · next hquote =>
      split at h
      · next hposition =>
          obtain ⟨_, after', -, rfl, -⟩ := readPositions_of_close h
          obtain rfl : after' = after := (List.cons.inj hrest).2
          obtain ⟨kind, done, current, hstate⟩ :=
            readPositions_place List.cons_append.symm h hafter hplace.noInteger
          refine ⟨ne_all_of_readPositions h, _, skipsPads_readPositions kind done current,
            fun next hnext => ?_⟩
          rw [readListed_cons hfilter hall, if_neg hquote, if_pos hposition, ← List.cons_append,
            hstate next hnext]
      · cases h

/-- Blanks behind the opening bracket are skipped. -/
theorem readBracketed_blanks {blanks : List Char} (h : ∀ c ∈ blanks, isBlank c = true)
    (s : List Char) : readBracketed (blanks ++ s) = readBracketed s := by
  rw [readBracketed, readBracketed, skipBlanks_append h]

/-- Behind a star in brackets stand only blanks. -/
theorem readBracketed_star_eq_ok_iff {s after : List Char} {selector : Selector} :
    readBracketed ('*' :: s) = .ok (selector, after) ↔
      selector = .all ∧ skipBlanks s = ']' :: after := by
  have hlisted : readListed (skipBlanks ('*' :: s)) = .ok (.all, s) := rfl
  rw [readBracketed, hlisted]
  dsimp only
  split
  · next hclose =>
      rw [hclose]
      simp [eq_comm]
  · next hopen =>
      constructor
      · intro h
        cases h
      · rintro ⟨-, hclose⟩
        exact absurd hclose (hopen after)

/-- Blanks behind a star in brackets are skipped, line ends too. -/
theorem readBracketed_star {left s after : List Char} {selector : Selector}
    (h : readBracketed ('*' :: (left ++ s)) = .ok (selector, after))
    (hafter : after.length < s.length) :
    selector = .all ∧ ∀ blanks, (∀ c ∈ blanks, isBlank c = true) →
      readBracketed ('*' :: (left ++ (blanks ++ s))) = .ok (selector, after) := by
  obtain ⟨rfl, hclose⟩ := readBracketed_star_eq_ok_iff.1 h
  have hleft : ∀ c ∈ left, isBlank c = true := by
    rw [← List.dropWhile_eq_nil_iff]
    by_contra hsome
    have hpos := List.length_pos_iff.2 hsome
    rw [skipBlanks, List.dropWhile_append, if_neg (by rwa [List.isEmpty_iff])] at hclose
    have hlength := congrArg List.length hclose
    rw [List.length_append, List.length_cons] at hlength
    omega
  refine ⟨rfl, fun blanks hblanks => readBracketed_star_eq_ok_iff.2 ⟨rfl, ?_⟩⟩
  rw [skipBlanks_append hleft] at hclose
  rw [skipBlanks_append hleft, skipBlanks_append hblanks, hclose]

/-- Blanks at a place in a list are skipped if they are spaces and tabs. Otherwise the first line
end among them is refused. -/
theorem readBracketed_list_spaced {c : Char} {inside s blanks after : List Char}
    {selector : Selector} (h : readBracketed (c :: (inside ++ s)) = .ok (selector, after))
    (hfilter : ∀ tokens, selector ≠ .filter tokens) (hstar : c ≠ '*') (hblank : isBlank c = false)
    (hafter : after.length < s.length) (hplace : Place (c :: inside) s) (hblanks : Blanks blanks) :
    selector ≠ .all ∧
      (Pads blanks → readBracketed (c :: (inside ++ (blanks ++ s))) = .ok (selector, after)) ∧
      (¬ Pads blanks → readBracketed (c :: (inside ++ (blanks ++ s))) =
        .error (.unparsable (blanks.dropWhile isPad ++ s))) := by
  have hskip (next : List Char) : skipBlanks (c :: next) = c :: next :=
    List.dropWhile_cons_of_neg (by simp [hblank])
  rw [readBracketed, hskip] at h
  split at h
  · cases h
  next found rest hlisted =>
  split at h
  · next tail hrest =>
      obtain ⟨rfl, rfl⟩ := Prod.mk.inj (Except.ok.inj h)
      have hquestion : c ≠ '?' := by
        rintro rfl
        obtain ⟨p, -, hp⟩ := map_eq_ok_iff.1 hlisted
        exact hfilter p.1 (Prod.mk.inj hp).1.symm
      obtain ⟨hall, reader, hskips, hreader⟩ :=
        readListed_place hlisted hquestion hstar hrest hafter hplace
      have hnext : blanks ++ s = s ∨ EndsInteger (blanks ++ s) := by
        rcases blanks with - | ⟨d, blanks⟩
        · exact .inl rfl
        · refine .inr fun e he => ?_
          obtain rfl : d = e := by simpa using he
          rcases hblanks d (by simp) with rfl | rfl | rfl | rfl <;> decide
      rw [readBracketed, hskip, hreader _ hnext]
      refine ⟨hall, fun hpads => ?_, fun hline => ?_⟩
      · rw [hskips.pads hpads, ← hreader s (.inl rfl), hlisted]
        dsimp only
        rw [hrest]
        rfl
      · rw [hskips.blanks hblanks hline]
  · cases h

/-- **Blanks at a place in brackets** leave no trace if they are spaces and tabs, if nothing but
blanks stands in front of them, or if the brackets hold a star. In all other cases the first line
end among them is refused. -/
theorem readBracketed_spaced {left right blanks after : List Char} {selector : Selector}
    (h : readBracketed (left ++ (right ++ ']' :: after)) = .ok (selector, after))
    (hfilter : ∀ tokens, selector ≠ .filter tokens) (hplace : Place left right)
    (hblanks : Blanks blanks) :
    (Pads blanks ∨ Blanks left ∨ selector = .all →
      readBracketed (left ++ (blanks ++ (right ++ ']' :: after))) = .ok (selector, after)) ∧
    (¬ (Pads blanks ∨ Blanks left ∨ selector = .all) →
      readBracketed (left ++ (blanks ++ (right ++ ']' :: after))) =
        .error (.unparsable (blanks.dropWhile isPad ++ (right ++ ']' :: after)))) := by
  have hafter : after.length < (right ++ ']' :: after).length := by
    rw [List.length_append, List.length_cons]
    omega
  have hplace' := hplace.close after
  generalize right ++ ']' :: after = s at h hafter hplace'
  obtain ⟨lead, hlead, hleft⟩ := exists_eq_append_skipBlanks left
  rcases hinside : skipBlanks left with - | ⟨c, inside⟩
  · obtain rfl : left = lead := by rw [hleft, hinside, List.append_nil]
    refine ⟨fun _ => ?_, fun hnone => absurd (.inr (.inl (blanks_iff.2 hlead))) hnone⟩
    rw [readBracketed_blanks hlead] at h ⊢
    rw [readBracketed_blanks (blanks_iff.1 hblanks), h]
  have hc : isBlank c = false :=
    head_dropWhile_eq_false (p := isBlank) (s := left) c (by rw [← skipBlanks, hinside]; rfl)
  rw [hinside] at hleft
  subst hleft
  have hnotBlanks : ¬ Blanks (lead ++ c :: inside) := fun hall => by
    rw [blanks_iff.1 hall c (by simp)] at hc
    cases hc
  simp only [List.append_assoc, List.cons_append, readBracketed_blanks hlead] at h ⊢
  by_cases hstar : c = '*'
  · subst hstar
    obtain ⟨hall, hread⟩ := readBracketed_star h hafter
    exact ⟨fun _ => hread _ (blanks_iff.1 hblanks), fun hnone => absurd (.inr (.inr hall)) hnone⟩
  · obtain ⟨hall, haccepted, hrefused⟩ := readBracketed_list_spaced h hfilter hstar hc hafter
      (hplace'.of_blanks hlead) hblanks
    exact ⟨fun hskipped => haccepted (by simpa [hnotBlanks, hall] using hskipped),
      fun hnone => hrefused fun hpads => hnone (.inl hpads)⟩

end Selector

/-! ### Paths -/

/-- Brackets behind their points. -/
theorem Segment.read_brackets {detached : Bool} {points : List Char}
    (h : Points detached points '[') (s : List Char) :
    read (points ++ '[' :: s) =
      (Selector.readBracketed s).map fun p => (⟨p.1, detached⟩, '[' :: s, p.2) := by
  obtain ⟨-, ⟨rfl, -, rfl⟩ | ⟨rfl, rfl⟩ | ⟨rfl, rfl⟩⟩ := h <;> rfl

namespace Path

/-- A segment in brackets in the text of a path. -/
structure Brackets where
  /-- The segments in front, behind the root. -/
  front : List Char
  /-- The points in front of the brackets. -/
  points : List Char
  /-- What stands in the brackets. -/
  content : List Char
  /-- The segments behind. -/
  after : List Char

namespace Brackets

/-- The text from the points on. -/
def tail (b : Brackets) : List Char :=
  b.points ++ '[' :: (b.content ++ ']' :: b.after)

/-- The text of the path. -/
def text (b : Brackets) : String :=
  String.ofList ('$' :: (b.front ++ b.tail))

/-- The path is the root, what stands in front of the place in the brackets, and what stands behind
it. -/
theorem text_eq (b : Brackets) : b.text = "$" ++ String.ofList (b.front ++ b.tail) := by
  apply String.toList_injective
  simp [text]

/-- The brackets are read as a segment: the segments in front end where it begins, and it ends with
the closing bracket. -/
structure IsRead (b : Brackets) (segment : Segment) : Prop where
  /-- It begins behind the segments in front. -/
  begins : Reaches (b.front ++ b.tail) b.tail
  /-- It ends with the bracket. -/
  ends : Segment.read b.tail = .ok (segment, '[' :: (b.content ++ ']' :: b.after), b.after)

/-- Brackets that are read as a segment are read up to the closing one. -/
theorem IsRead.readBracketed {b : Brackets} {segment : Segment} (h : b.IsRead segment) :
    Segment.Points segment.detached b.points '[' ∧
      Selector.readBracketed (b.content ++ ']' :: b.after) = .ok (segment.selector, b.after) := by
  obtain ⟨points, c, tail, htext, hbody, hpoints, hread⟩ := Segment.read_eq_ok_iff.1 h.ends
  obtain ⟨rfl, rfl⟩ := List.cons.inj hbody
  obtain rfl : b.points = points := List.append_cancel_right htext
  exact ⟨hpoints, by simpa using hread⟩

end Brackets

open Brackets in
/-- **Blanks in the brackets of a path.** Wherever blanks are put in brackets that hold no filter,
outside quotes and not inside an integer, the path stays the same if they are spaces and tabs, if
they stand behind the opening bracket with nothing but blanks before them, or if the brackets hold a
star. In all other cases the first line end among them is refused. -/
theorem ofString_spaced {b : Brackets} {segment : Segment} {p : Path} (hb : b.IsRead segment)
    (hp : ofString b.text = .ok p) (hfilter : ∀ tokens, segment.selector ≠ .filter tokens)
    {left right : List Char} (hcontent : b.content = left ++ right) (hplace : Place left right)
    {blanks : List Char} (hblanks : Blanks blanks) :
    (Pads blanks ∨ Blanks left ∨ segment.selector = .all →
      ofString { b with content := left ++ (blanks ++ right) }.text = .ok p) ∧
    (¬ (Pads blanks ∨ Blanks left ∨ segment.selector = .all) →
      ofString { b with content := left ++ (blanks ++ right) }.text = .error (.unparsable
        (byteSize ('$' :: (b.front ++ (b.points ++ '[' :: (left ++ blanks.takeWhile isPad)))))
        (String.ofList (blanks.dropWhile isPad ++ (right ++ ']' :: b.after))))) := by
  have hread := (ofString_root_eq_ok_iff.1 (b.text_eq ▸ hp)).2
  rw [String.toList_ofList] at hread
  obtain ⟨front, earlier, later, hfront, hsegments, hlater, hnext⟩ :=
    readSegments_of_reaches hb.begins hread
  obtain rfl : b.front = front := List.append_cancel_right hfront
  obtain ⟨hpoints, hinside⟩ := hb.readBracketed
  rw [hcontent, List.append_assoc] at hinside
  obtain ⟨haccepted, hrefused⟩ :=
    Selector.readBracketed_spaced hinside hfilter hplace hblanks
  have htail : tail { b with content := left ++ (blanks ++ right) } =
      b.points ++ '[' :: (left ++ (blanks ++ (right ++ ']' :: b.after))) := by
    simp [tail]
  have hcontinues : Selector.Continues
      (b.points ++ '[' :: (left ++ (blanks ++ (right ++ ']' :: b.after)))) := by
    obtain ⟨-, ⟨hp, -⟩ | ⟨hp, -⟩ | ⟨hp, -⟩⟩ := hpoints <;> simp [hp, Selector.Continues]
  have hbrackets := Segment.read_brackets hpoints
    (left ++ (blanks ++ (right ++ ']' :: b.after)))
  rw [text_eq, htail]
  constructor
  · intro hskipped
    rw [haccepted hskipped] at hbrackets
    rw [readSegments_of_read hb.ends] at hlater
    rw [ofString_root_eq_ok_iff, String.toList_ofList, hnext _ hcontinues,
      readSegments_of_read hbrackets]
    split at hlater
    · cases hlater
    · next hallowed =>
        rw [if_neg hallowed, hlater]
        exact ⟨by simp, congrArg Except.ok hsegments.symm⟩
  · intro hrefusal
    rw [hrefused hrefusal] at hbrackets
    have hfault := hnext _ hcontinues
    rw [readSegments_of_error hbrackets (by simp)] at hfault
    have hsplit : blanks ++ (right ++ ']' :: b.after) =
        blanks.takeWhile isPad ++ (blanks.dropWhile isPad ++ (right ++ ']' :: b.after)) := by
      rw [← List.append_assoc (blanks.takeWhile isPad), List.takeWhile_append_dropWhile]
    refine ofString_of_readSegments_eq_error ?_ (by simp) ?_
    · rw [String.toList_ofList, hsplit]
      simp
    · rw [String.toList_ofList]
      exact hfault

/-- The brackets of `$['a']`. -/
def singleName : Brackets :=
  ⟨[], [], ['\'', 'a', '\''], []⟩

/-- The single name in brackets is read as a segment. -/
theorem singleName_isRead : singleName.IsRead ⟨.names ["a"], false⟩ where
  begins := .here
  ends := by cbv

/-- The path with a single name is read as such. -/
theorem ofString_singleName : ofString singleName.text = .ok ⟨[⟨.names ["a"], false⟩]⟩ := by
  rw [singleName.text_eq, ofString_root_eq_ok_iff, String.toList_ofList]
  refine ⟨List.cons_ne_nil _ _, ?_⟩
  show readSegments false singleName.tail = _
  rw [readSegments_of_read singleName_isRead.ends]
  show (readSegments false []).map _ = _
  rw [readSegments_nil]
  rfl

/-- Behind the name there is a place for blanks. -/
theorem place_behind_singleName : Place singleName.content [] where
  unquoted := @Unquoted.quoted '\'' ['a'] [] (.inl rfl) .nil
  noInteger := by simp [NoInteger]

/-- A tab and a line end in front of the bracket that closes a list of names. -/
theorem ofString_spaced_singleName :
    singleName.IsRead ⟨.names ["a"], false⟩ ∧
      ofString singleName.text = .ok ⟨[⟨.names ["a"], false⟩]⟩ ∧ Place singleName.content [] ∧
      ofString "$['a'\t]" = .ok ⟨[⟨.names ["a"], false⟩]⟩ ∧
      ofString "$['a'\n]" = .error (.unparsable 5 "\n]") := by
  have hspaced {c : Char} (hc : Blanks [c]) := ofString_spaced singleName_isRead
    ofString_singleName nofun (List.append_nil _).symm place_behind_singleName hc
  have htab : Pads ['\t'] := by simp [Pads]
  have hline : ¬ (Pads ['\n'] ∨ Blanks singleName.content ∨ Selector.names ["a"] = .all) := by
    simp [Pads, Blanks, singleName]
  exact ⟨singleName_isRead, ofString_singleName, place_behind_singleName,
    (hspaced (by simp [Blanks])).1 (.inl htab), (hspaced (by simp [Blanks])).2 hline⟩

/-- A line end in front of the bracket that closes a list of names. -/
theorem not_forall_ofString_spaced :
    ¬ ∀ (b : Brackets) (segment : Segment) (p : Path) (left right blanks : List Char),
      b.IsRead segment → ofString b.text = .ok p →
      (∀ tokens, segment.selector ≠ .filter tokens) → b.content = left ++ right →
      Place left right → Blanks blanks →
        ofString { b with content := left ++ (blanks ++ right) }.text = .ok p := by
  intro h
  have hspaced := h singleName _ _ singleName.content [] ['\n'] singleName_isRead
    ofString_singleName nofun (List.append_nil _).symm place_behind_singleName (by simp [Blanks])
  have hrefused : Segment.read "['a'\n]".toList = .error (.unparsable "\n]".toList) := by cbv
  have hread : readSegments false "['a'\n]".toList = .ok [⟨.names ["a"], false⟩] :=
    (ofString_root_eq_ok_iff (s := "['a'\n]").1 hspaced).2
  rw [readSegments_of_error hrefused (by decide)] at hread
  cases hread

end Path

end JsonPath
