import JsonPath.Proofs.Document.Scanning

/-!
# The Reader Accepts Exactly JSON

The readers of lists are given the reader of the values in them, so what is proved of them
assumes that it reads values up to some depth (`Document.ReadsValues`): in front of a rest
that can follow a value it finds exactly the well-formed trees of at most that depth. A list
is treated by induction on the length of the text, element by element, and the value reader
by induction on the room that is left for containers.

## Main results

* `Document.readItems_iff`, `Document.readMembers_iff`: lists of values and of members.
* `Document.readsValues_readValue`: **the value reader finds exactly the well-formed trees**
  for which there is room.
* `Document.ofString_iff_derives`: **a text is accepted exactly if it is JSON**.
-/

namespace JsonPath.Document

open Text Grammar

/-- In front of a rest that can follow a value, `element` finds exactly the well-formed trees
of at most some depth. -/
def ReadsValues (element : (s : List Char) → Outcome Node s) (depth : Nat) : Prop :=
  ∀ s value rest, Delimited rest →
    ((element s).found? = some (value, rest) ↔
      value.WellFormed ∧ value.depth ≤ depth ∧ s = value.text ++ rest)

/-! ### Blanks -/

/-- Blanks are skipped up to the first character that is none. -/
theorem skipBlanks_append_cons {blanks : List Char} (h : Blanks blanks) {c : Char}
    (hc : isBlank c = false) (s : List Char) : skipBlanks (blanks ++ c :: s) = c :: s :=
  skipBlanks_append_eq (blanks_iff.1 h) hc s

/-- The blanks in front of a text end at the first character that is none. -/
theorem takeWhile_append_cons {blanks : List Char} (h : Blanks blanks) {c : Char}
    (hc : isBlank c = false) (s : List Char) : (blanks ++ c :: s).takeWhile isBlank = blanks :=
  takeWhile_append_eq (blanks_iff.1 h) (by simpa using hc)

/-- What is taken as blanks consists of blanks. -/
theorem blanks_takeWhile (s : List Char) : Blanks (s.takeWhile isBlank) :=
  blanks_iff.2 fun _ => List.mem_takeWhile_imp

/-- The blanks in front and the text without them make up the text. -/
theorem takeWhile_append_skipBlanks (s : List Char) :
    s.takeWhile isBlank ++ skipBlanks s = s :=
  List.takeWhile_append_dropWhile

/-- Blanks and a character that can follow a value. -/
theorem delimited_append {blanks : List Char} (h : Blanks blanks) {c : Char}
    (hc : c ∈ [',', ']', '\x7d']) (s : List Char) : Delimited (blanks ++ c :: s) := by
  rcases blanks with - | ⟨d, blanks⟩
  · intro e he
    obtain rfl : c = e := by simpa using he
    exact .inr hc
  · intro e he
    obtain rfl : d = e := by simpa using he
    exact .inl (blanks_iff.1 h d (by simp))

/-- Blanks up to a character that can follow a value. -/
theorem delimited_of_skipBlanks {s after : List Char} {c : Char} (h : skipBlanks s = c :: after)
    (hc : c ∈ [',', ']', '\x7d']) : Delimited s := by
  rw [← takeWhile_append_skipBlanks s, h]
  exact delimited_append (blanks_takeWhile s) hc after

/-- A separator, with the blanks around it, and what stands behind them. -/
theorem separator_append {s after : List Char} {c : Char} (h : skipBlanks s = c :: after) :
    s.takeWhile isBlank ++ c :: (after.takeWhile isBlank ++ skipBlanks after) = s := by
  rw [takeWhile_append_skipBlanks, ← h, takeWhile_append_skipBlanks]

/-- Behind a character the text without blanks is shorter. -/
theorem length_skipBlanks_lt {s after : List Char} {c : Char} (h : skipBlanks s = c :: after) :
    (skipBlanks after).length < s.length := by
  have hs := length_skipBlanks_le s
  have hafter := length_skipBlanks_le after
  rw [h, List.length_cons] at hs
  omega

/-! ### The elements of an array -/

/-- One step of the reader of elements, without the bounds on its rests. -/
theorem readElements_found? (element : (s : List Char) → Outcome Node s)
    (gap s : List Char) :
    (readElements element gap s).found? = (element s).found?.bind fun p =>
      match skipBlanks p.2 with
      | ',' :: after =>
        (readElements element (p.2.takeWhile isBlank ++ ',' :: after.takeWhile isBlank)
          (skipBlanks after)).found?.map fun q => (.item gap p.1 q.1, q.2)
      | ']' :: after => some (.item gap p.1 (.close (p.2.takeWhile isBlank)), after)
      | _ => none := by
  rw [readElements]
  cases element s with
  | error flaw => rfl
  | ok p =>
      obtain ⟨value, rest, hrest⟩ := p
      dsimp only
      split
      · next after h =>
          simp only [Outcome.found?, Option.bind_some, h]
          cases readElements element (rest.takeWhile isBlank ++ ',' :: after.takeWhile isBlank)
            (skipBlanks after) <;> rfl
      · next after h => simp only [Outcome.found?, Option.bind_some, h]
      · next h => simp only [Outcome.found?, Option.bind_some, h]
      · next c after hcomma hclose h =>
          simp only [Outcome.found?, Option.bind_some, h]
          split
          · next h' => exact (hcomma (List.cons.inj h').1).elim
          · next h' => exact (hclose (List.cons.inj h').1).elim
          · rfl

/-- The blanks in front of a list, then the list if it is not at its end. -/
theorem readItems_found? (element : (s : List Char) → Outcome Node s) (s : List Char) :
    (readItems element s).found? =
      match skipBlanks s with
      | ']' :: after => some (.close (s.takeWhile isBlank), after)
      | _ => (readElements element (s.takeWhile isBlank) (skipBlanks s)).found? := by
  rw [readItems]
  split
  · next h => simp only [Outcome.found?, h]
  · next hclose =>
      split
      · next h => exact (hclose _ h).elim
      · cases readElements element (s.takeWhile isBlank) (skipBlanks s) <;> rfl

/-- What follows an element can follow a value. -/
theorem delimited_items_append {items : Items} (h : items.WellFormed false)
    (rest : List Char) : Delimited (items.text ++ rest) := by
  cases items with
  | close blanks =>
      rw [Items.text, List.append_assoc]
      exact delimited_append h (by decide) _
  | item gap value tail =>
      obtain ⟨⟨before, after, rfl, hbefore, -⟩, -⟩ := h
      rw [Items.text, List.append_assoc, List.append_assoc]
      exact delimited_append hbefore (by decide) _

/-- A well-formed value begins where blanks end. -/
theorem skipBlanks_append_text {blanks : List Char} (h : Blanks blanks) {value : Node}
    (hvalue : value.WellFormed) (s : List Char) :
    skipBlanks (blanks ++ (value.text ++ s)) = value.text ++ s ∧
      (blanks ++ (value.text ++ s)).takeWhile isBlank = blanks := by
  obtain ⟨c, t, ht, hc, -⟩ := hvalue.exists_text_eq_cons
  rw [ht, List.cons_append]
  exact ⟨skipBlanks_append_cons h hc _, takeWhile_append_cons h hc _⟩

/-- What the reader of elements finds is well formed. The induction is on the length of the
text; what stands behind a comma is shorter. -/
theorem readElements_sound {element : (s : List Char) → Outcome Node s} {depth : Nat}
    (he : ReadsValues element depth) {gap s rest : List Char} {items : Items}
    (h : (readElements element gap s).found? = some (items, rest)) :
    ∃ value tail, items = .item gap value tail ∧ value.WellFormed ∧ value.depth ≤ depth ∧
      tail.WellFormed false ∧ tail.depth ≤ depth ∧ s = value.text ++ (tail.text ++ rest) := by
  induction hn : s.length using Nat.strong_induction_on generalizing gap s items with
  | _ n ih =>
  rw [readElements_found?] at h
  obtain ⟨⟨value, r⟩, hvalue, hr⟩ := Option.bind_eq_some_iff.1 h
  have hblanks := blanks_takeWhile r
  dsimp only at hr
  split at hr
  · next after hskip =>
      obtain ⟨⟨more, rest'⟩, hmore, heq⟩ := Option.map_eq_some_iff.1 hr
      obtain ⟨rfl, rfl⟩ : .item gap value more = items ∧ rest' = rest := Prod.mk.inj heq
      have hdelimited := delimited_of_skipBlanks hskip (by decide)
      obtain ⟨hw, hd, rfl⟩ := (he s value r hdelimited).1 hvalue
      have hlt : (skipBlanks after).length < n := by
        have hlength := length_skipBlanks_lt hskip
        rw [← hn, List.length_append]
        omega
      obtain ⟨value', tail', rfl, hw', hd', htw, htd, hafter⟩ := ih _ hlt hmore rfl
      refine ⟨value, _, rfl, hw, hd, ⟨⟨_, _, rfl, hblanks, blanks_takeWhile after⟩, hw', htw⟩,
        Nat.max_le.2 ⟨hd', htd⟩, ?_⟩
      simp only [Items.text, List.append_assoc, List.cons_append]
      rw [← hafter, separator_append hskip]
  · next after hskip =>
      obtain ⟨rfl, rfl⟩ := by simpa using hr
      have hdelimited := delimited_of_skipBlanks hskip (by decide)
      obtain ⟨hw, hd, rfl⟩ := (he s value r hdelimited).1 hvalue
      refine ⟨value, _, rfl, hw, hd, hblanks, Nat.zero_le _, ?_⟩
      rw [Items.text, List.append_assoc, List.singleton_append, ← hskip,
        takeWhile_append_skipBlanks]
  · cases hr

/-- Well-formed elements are read. The induction is on the elements that follow. -/
theorem readElements_complete {element : (s : List Char) → Outcome Node s} {depth : Nat}
    (he : ReadsValues element depth) (gap : List Char) {value : Node} {tail : Items}
    (hw : value.WellFormed) (hd : value.depth ≤ depth) (htw : tail.WellFormed false)
    (htd : tail.depth ≤ depth) (rest : List Char) :
    (readElements element gap (value.text ++ (tail.text ++ rest))).found? =
      some (.item gap value tail, rest) := by
  cases tail with
  | close blanks =>
      have hvalue := (he _ value (blanks ++ ']' :: rest)
        (delimited_append htw (by decide) rest)).2 ⟨hw, hd, rfl⟩
      rw [readElements_found?, Items.text, List.append_assoc, List.singleton_append, hvalue,
        Option.bind_some]
      dsimp only
      rw [skipBlanks_append_cons htw (by decide), takeWhile_append_cons htw (by decide)]
      rfl
  | item gap' value' tail' =>
      have hdelimited := delimited_items_append htw rest
      have hvalue := (he _ value _ hdelimited).2 ⟨hw, hd, rfl⟩
      obtain ⟨⟨before, after, rfl, hbefore, hafter⟩, hw', htw'⟩ := htw
      have hrest := readElements_complete he (before ++ ',' :: after) hw'
        (Nat.le_trans (Nat.le_max_left _ _) htd) htw' (Nat.le_trans (Nat.le_max_right _ _) htd)
        rest
      obtain ⟨hskip, htake⟩ := skipBlanks_append_text hafter hw' (tail'.text ++ rest)
      rw [readElements_found?, hvalue, Option.bind_some]
      dsimp only
      simp only [Items.text, List.append_assoc, List.cons_append]
      rw [skipBlanks_append_cons hbefore (by decide), takeWhile_append_cons hbefore (by decide)]
      simp only [htake]
      rw [hskip, hrest, Option.map_some]

/-- **Elements**: they are found exactly if they are well formed. -/
theorem readElements_iff {element : (s : List Char) → Outcome Node s} {depth : Nat}
    (he : ReadsValues element depth) {gap s rest : List Char} {items : Items} :
    (readElements element gap s).found? = some (items, rest) ↔
      ∃ value tail, items = .item gap value tail ∧ value.WellFormed ∧ value.depth ≤ depth ∧
        tail.WellFormed false ∧ tail.depth ≤ depth ∧
        s = value.text ++ (tail.text ++ rest) := by
  constructor
  · exact readElements_sound he
  · rintro ⟨value, tail, rfl, hw, hd, htw, htd, rfl⟩
    exact readElements_complete he gap hw hd htw htd rest

/-- What stands in brackets is found exactly if it is well formed. -/
theorem readItems_iff {element : (s : List Char) → Outcome Node s} {depth : Nat}
    (he : ReadsValues element depth) {s rest : List Char} {items : Items} :
    (readItems element s).found? = some (items, rest) ↔
      items.WellFormed true ∧ items.depth ≤ depth ∧ s = items.text ++ rest := by
  rw [readItems_found?]
  constructor
  · intro h
    have hsplit := takeWhile_append_skipBlanks s
    split at h
    · next after hskip =>
        obtain ⟨rfl, rfl⟩ := by simpa using h
        refine ⟨blanks_takeWhile s, Nat.zero_le _, ?_⟩
        rw [Items.text, List.append_assoc, List.singleton_append, ← hskip, hsplit]
    · obtain ⟨value, tail, rfl, hw, hd, htw, htd, hs⟩ := (readElements_iff he).1 h
      refine ⟨⟨blanks_takeWhile s, hw, htw⟩, Nat.max_le.2 ⟨hd, htd⟩, ?_⟩
      rw [Items.text, List.append_assoc, List.append_assoc, ← hs, hsplit]
  · rintro ⟨hw, hd, rfl⟩
    cases items with
    | close blanks =>
        rw [Items.text, List.append_assoc, List.singleton_append,
          skipBlanks_append_cons hw (by decide), takeWhile_append_cons hw (by decide)]
        rfl
    | item gap value tail =>
        obtain ⟨hgap, hvalue, htail⟩ := hw
        obtain ⟨hskip, htake⟩ := skipBlanks_append_text hgap hvalue (tail.text ++ rest)
        rw [Items.text, List.append_assoc, List.append_assoc, hskip, htake]
        split
        · next after hclose =>
            obtain ⟨c, t, ht, -, hne⟩ := hvalue.exists_text_eq_cons
            rw [ht] at hclose
            exact absurd (List.cons.inj hclose).1 fun hc => hne (by simp [hc])
        · exact readElements_complete he gap hvalue (Nat.le_trans (Nat.le_max_left _ _) hd)
            htail (Nat.le_trans (Nat.le_max_right _ _) hd) rest

/-! ### The members of an object -/

/-- A member is a key, a colon between blanks, and a value. -/
theorem readMember_found? (element : (s : List Char) → Outcome Node s) (s : List Char) :
    (readMember element s).found? = (readString s .keyExpected).found?.bind fun p =>
      match skipBlanks p.2 with
      | ':' :: after => (element (skipBlanks after)).found?.map fun q =>
          ((p.1, p.2.takeWhile isBlank ++ ':' :: after.takeWhile isBlank, q.1), q.2)
      | _ => none := by
  rw [readMember]
  cases readString s .keyExpected with
  | error flaw => rfl
  | ok p =>
      obtain ⟨key, rest, hrest⟩ := p
      dsimp only
      split
      · next after h =>
          simp only [Outcome.found?, Option.bind_some, h]
          cases element (skipBlanks after) <;> rfl
      · simp only [Outcome.found?, Option.bind_some]

/-- **A member**: a key, a colon and a value, each well formed. -/
theorem readMember_iff {element : (s : List Char) → Outcome Node s} {depth : Nat}
    (he : ReadsValues element depth) {s key colon rest : List Char} {value : Node}
    (hrest : Delimited rest) :
    (readMember element s).found? = some ((key, colon, value), rest) ↔
      Characters key ∧ Colon colon ∧ value.WellFormed ∧ value.depth ≤ depth ∧
        s = quoted key ++ (colon ++ (value.text ++ rest)) := by
  rw [readMember_found?]
  constructor
  · intro h
    obtain ⟨⟨key', r⟩, hkey, hr⟩ := Option.bind_eq_some_iff.1 h
    split at hr
    · next after hskip =>
        obtain ⟨⟨value', _⟩, hvalue, heq⟩ := Option.map_eq_some_iff.1 hr
        obtain ⟨⟨rfl, rfl, rfl⟩, rfl⟩ := by simpa using heq
        obtain ⟨hcharacters, rfl⟩ := readString_found?_iff.1 hkey
        obtain ⟨hw, hd, hs⟩ := (he _ _ _ hrest).1 hvalue
        refine ⟨hcharacters, ⟨_, _, rfl, blanks_takeWhile r, blanks_takeWhile after⟩, hw, hd, ?_⟩
        simp only [List.append_assoc, List.cons_append]
        rw [← hs, separator_append hskip]
    · cases hr
  · rintro ⟨hkey, ⟨left, right, rfl, hleft, hright⟩, hw, hd, rfl⟩
    have hvalue := (he _ value rest hrest).2 ⟨hw, hd, rfl⟩
    obtain ⟨hskip, htake⟩ := skipBlanks_append_text hright hw rest
    rw [readString_found?_iff.2 ⟨hkey, rfl⟩, Option.bind_some]
    dsimp only
    simp only [List.append_assoc, List.cons_append]
    rw [skipBlanks_append_cons hleft (by decide), takeWhile_append_cons hleft (by decide)]
    simp only [htake]
    rw [hskip, hvalue, Option.map_some]

/-- One step of the reader of members, without the bounds on its rests. -/
theorem readMemberList_found? (element : (s : List Char) → Outcome Node s)
    (gap s : List Char) :
    (readMemberList element gap s).found? = (readMember element s).found?.bind fun p =>
      match skipBlanks p.2 with
      | ',' :: after =>
        (readMemberList element (p.2.takeWhile isBlank ++ ',' :: after.takeWhile isBlank)
          (skipBlanks after)).found?.map fun q => (.member gap p.1.1 p.1.2.1 p.1.2.2 q.1, q.2)
      | '\x7d' :: after =>
        some (.member gap p.1.1 p.1.2.1 p.1.2.2 (.close (p.2.takeWhile isBlank)), after)
      | _ => none := by
  rw [readMemberList]
  cases readMember element s with
  | error flaw => rfl
  | ok p =>
      obtain ⟨⟨key, colon, value⟩, rest, hrest⟩ := p
      dsimp only
      split
      · next after h =>
          simp only [Outcome.found?, Option.bind_some, h]
          cases readMemberList element (rest.takeWhile isBlank ++ ',' :: after.takeWhile isBlank)
            (skipBlanks after) <;> rfl
      · next after h => simp only [Outcome.found?, Option.bind_some, h]
      · next h => simp only [Outcome.found?, Option.bind_some, h]
      · next c after hcomma hclose h =>
          simp only [Outcome.found?, Option.bind_some, h]
          split
          · next h' => exact (hcomma (List.cons.inj h').1).elim
          · next h' => exact (hclose (List.cons.inj h').1).elim
          · rfl

/-- The blanks in front of a list, then the list if it is not at its end. -/
theorem readMembers_found? (element : (s : List Char) → Outcome Node s) (s : List Char) :
    (readMembers element s).found? =
      match skipBlanks s with
      | '\x7d' :: after => some (.close (s.takeWhile isBlank), after)
      | _ => (readMemberList element (s.takeWhile isBlank) (skipBlanks s)).found? := by
  rw [readMembers]
  split
  · next h => simp only [Outcome.found?, h]
  · next hclose =>
      split
      · next h => exact (hclose _ h).elim
      · cases readMemberList element (s.takeWhile isBlank) (skipBlanks s) <;> rfl

/-- What follows a member can follow a value. -/
theorem delimited_members_append {members : Members} (h : members.WellFormed false)
    (rest : List Char) : Delimited (members.text ++ rest) := by
  cases members with
  | close blanks =>
      rw [Members.text, List.append_assoc]
      exact delimited_append h (by decide) _
  | member gap key colon value tail =>
      obtain ⟨⟨before, after, rfl, hbefore, -⟩, -⟩ := h
      rw [Members.text, List.append_assoc, List.append_assoc]
      exact delimited_append hbefore (by decide) _

/-- A key begins where blanks end. -/
theorem skipBlanks_append_quoted {blanks : List Char} (h : Blanks blanks) (key s : List Char) :
    skipBlanks (blanks ++ (quoted key ++ s)) = quoted key ++ s ∧
      (blanks ++ (quoted key ++ s)).takeWhile isBlank = blanks :=
  ⟨skipBlanks_append_cons h (by decide) _, takeWhile_append_cons h (by decide) _⟩

/-- What the reader of members finds is well formed. -/
theorem readMemberList_sound {element : (s : List Char) → Outcome Node s} {depth : Nat}
    (he : ReadsValues element depth) {gap s rest : List Char} {members : Members}
    (h : (readMemberList element gap s).found? = some (members, rest)) :
    ∃ key colon value tail, members = .member gap key colon value tail ∧ Characters key ∧
      Colon colon ∧ value.WellFormed ∧ value.depth ≤ depth ∧ tail.WellFormed false ∧
      tail.depth ≤ depth ∧
      s = quoted key ++ (colon ++ (value.text ++ (tail.text ++ rest))) := by
  induction hn : s.length using Nat.strong_induction_on generalizing gap s members with
  | _ n ih =>
  rw [readMemberList_found?] at h
  obtain ⟨⟨⟨key, colon, value⟩, r⟩, hmember, hr⟩ := Option.bind_eq_some_iff.1 h
  have hblanks := blanks_takeWhile r
  dsimp only at hr
  split at hr
  · next after hskip =>
      obtain ⟨⟨more, rest'⟩, hmore, heq⟩ := Option.map_eq_some_iff.1 hr
      obtain ⟨rfl, rfl⟩ : .member gap key colon value more = members ∧ rest' = rest :=
        Prod.mk.inj heq
      have hdelimited := delimited_of_skipBlanks hskip (by decide)
      obtain ⟨hkey, hcolon, hw, hd, rfl⟩ := (readMember_iff he hdelimited).1 hmember
      have hlt : (skipBlanks after).length < n := by
        have hlength := length_skipBlanks_lt hskip
        rw [← hn]
        simp
        omega
      obtain ⟨key', colon', value', tail', rfl, hkey', hcolon', hw', hd', htw, htd, hafter⟩ :=
        ih _ hlt hmore rfl
      refine ⟨key, colon, value, _, rfl, hkey, hcolon, hw, hd,
        ⟨⟨_, _, rfl, hblanks, blanks_takeWhile after⟩, hkey', hcolon', hw', htw⟩,
        Nat.max_le.2 ⟨hd', htd⟩, ?_⟩
      simp only [Members.text, List.append_assoc, List.cons_append]
      rw [← hafter, separator_append hskip]
  · next after hskip =>
      obtain ⟨rfl, rfl⟩ := by simpa using hr
      have hdelimited := delimited_of_skipBlanks hskip (by decide)
      obtain ⟨hkey, hcolon, hw, hd, rfl⟩ := (readMember_iff he hdelimited).1 hmember
      refine ⟨key, colon, value, _, rfl, hkey, hcolon, hw, hd, hblanks, Nat.zero_le _, ?_⟩
      rw [Members.text, List.append_assoc, List.singleton_append, ← hskip,
        takeWhile_append_skipBlanks]
  · cases hr

/-- Well-formed members are read. -/
theorem readMemberList_complete {element : (s : List Char) → Outcome Node s} {depth : Nat}
    (he : ReadsValues element depth) (gap : List Char) {key colon : List Char} {value : Node}
    {tail : Members} (hkey : Characters key) (hcolon : Colon colon) (hw : value.WellFormed)
    (hd : value.depth ≤ depth) (htw : tail.WellFormed false) (htd : tail.depth ≤ depth)
    (rest : List Char) :
    (readMemberList element gap
        (quoted key ++ (colon ++ (value.text ++ (tail.text ++ rest))))).found? =
      some (.member gap key colon value tail, rest) := by
  have hmember := (readMember_iff he (delimited_members_append htw rest)).2
    ⟨hkey, hcolon, hw, hd, rfl⟩
  rw [readMemberList_found?, hmember, Option.bind_some]
  dsimp only
  cases tail with
  | close blanks =>
      rw [Members.text, List.append_assoc, List.singleton_append,
        skipBlanks_append_cons htw (by decide), takeWhile_append_cons htw (by decide)]
      rfl
  | member gap' key' colon' value' tail' =>
      obtain ⟨⟨before, after, rfl, hbefore, hafter⟩, hkey', hcolon', hw', htw'⟩ := htw
      have hrest := readMemberList_complete he (before ++ ',' :: after) hkey' hcolon' hw'
        (Nat.le_trans (Nat.le_max_left _ _) htd) htw' (Nat.le_trans (Nat.le_max_right _ _) htd)
        rest
      obtain ⟨hskip, htake⟩ := skipBlanks_append_quoted hafter key'
        (colon' ++ (value'.text ++ (tail'.text ++ rest)))
      simp only [Members.text, List.append_assoc, List.cons_append]
      rw [skipBlanks_append_cons hbefore (by decide), takeWhile_append_cons hbefore (by decide)]
      simp only [htake]
      rw [hskip, hrest, Option.map_some]

/-- What stands in braces is found exactly if it is well formed. -/
theorem readMembers_iff {element : (s : List Char) → Outcome Node s} {depth : Nat}
    (he : ReadsValues element depth) {s rest : List Char} {members : Members} :
    (readMembers element s).found? = some (members, rest) ↔
      members.WellFormed true ∧ members.depth ≤ depth ∧ s = members.text ++ rest := by
  rw [readMembers_found?]
  constructor
  · intro h
    have hsplit := takeWhile_append_skipBlanks s
    split at h
    · next after hskip =>
        obtain ⟨rfl, rfl⟩ := by simpa using h
        refine ⟨blanks_takeWhile s, Nat.zero_le _, ?_⟩
        rw [Members.text, List.append_assoc, List.singleton_append, ← hskip, hsplit]
    · obtain ⟨key, colon, value, tail, rfl, hkey, hcolon, hw, hd, htw, htd, hs⟩ :=
        readMemberList_sound he h
      refine ⟨⟨blanks_takeWhile s, hkey, hcolon, hw, htw⟩, Nat.max_le.2 ⟨hd, htd⟩, ?_⟩
      simp only [Members.text, List.append_assoc]
      rw [← hs, hsplit]
  · rintro ⟨hw, hd, rfl⟩
    cases members with
    | close blanks =>
        rw [Members.text, List.append_assoc, List.singleton_append,
          skipBlanks_append_cons hw (by decide), takeWhile_append_cons hw (by decide)]
        rfl
    | member gap key colon value tail =>
        obtain ⟨hgap, hkey, hcolon, hvalue, htail⟩ := hw
        obtain ⟨hskip, htake⟩ := skipBlanks_append_quoted hgap key
          (colon ++ (value.text ++ (tail.text ++ rest)))
        rw [Members.text, List.append_assoc, List.append_assoc, List.append_assoc,
          List.append_assoc, hskip, htake]
        exact readMemberList_complete he gap hkey hcolon hvalue
          (Nat.le_trans (Nat.le_max_left _ _) hd) htail
          (Nat.le_trans (Nat.le_max_right _ _) hd) rest

/-! ### Values -/

/-- An opening bracket begins an array, one level further down. -/
theorem readValue_array (depth : Nat) (s : List Char) :
    (readValue (depth + 1) ('[' :: s)).found? =
      (readItems (readValue depth) s).found?.map fun p => (.array p.1, p.2) := by
  rw [readValue]
  cases readItems (readValue depth) s <;> rfl

/-- An opening brace begins an object, one level further down. -/
theorem readValue_object (depth : Nat) (s : List Char) :
    (readValue (depth + 1) ('\x7b' :: s)).found? =
      (readMembers (readValue depth) s).found?.map fun p => (.object p.1, p.2) := by
  rw [readValue]
  cases readMembers (readValue depth) s <;> rfl

/-- A quote begins a string. -/
theorem readValue_string (depth : Nat) (s : List Char) :
    (readValue depth ('"' :: s)).found? =
      (readString ('"' :: s) .noValue).found?.map fun p => (.string p.1, p.2) := by
  rw [readValue]
  cases readString ('"' :: s) .noValue <;> rfl

/-- The values that contain no others and have no quotes. -/
theorem readValue_other (depth : Nat) {c : Char} (hc : c ∉ ['[', '\x7b', '"']) (s : List Char) :
    (readValue depth (c :: s)).found? =
      if c = '-' ∨ c.isDigit then
        (scanNumber (c :: s)).map fun p => (.number p.1, p.2)
      else if c = 't' then
        (afterWord? ['t', 'r', 'u', 'e'] (c :: s)).map fun rest => (.bool true, rest)
      else if c = 'f' then
        (afterWord? ['f', 'a', 'l', 's', 'e'] (c :: s)).map fun rest => (.bool false, rest)
      else if c = 'n' then
        (afterWord? ['n', 'u', 'l', 'l'] (c :: s)).map fun rest => (.null, rest)
      else none := by
  simp only [List.mem_cons, List.not_mem_nil, or_false, not_or] at hc
  have hread : readValue depth (c :: s) =
      if c = '-' ∨ c.isDigit then readNumber (c :: s)
      else if c = 't' then readWord "true" (.bool true) (c :: s)
      else if c = 'f' then readWord "false" (.bool false) (c :: s)
      else if c = 'n' then readWord "null" .null (c :: s)
      else .error ⟨c :: s, .noValue⟩ := by
    cases depth with
    | zero => rw [readValue] <;> simp_all
    | succ depth => rw [readValue] <;> simp_all
  rw [hread]
  split_ifs
  · exact readNumber_found? _
  · exact readWord_found? (by decide) _ _
  · exact readWord_found? (by decide) _ _
  · exact readWord_found? (by decide) _ _
  · rfl

/-- What the value reader finds is well formed, if that is so with less room. -/
theorem readValue_sound {depth : Nat}
    (ih : ∀ d, depth = d + 1 → ReadsValues (readValue d) d) {s rest : List Char}
    {value : Node} (h : (readValue depth s).found? = some (value, rest)) :
    value.WellFormed ∧ value.depth ≤ depth ∧ s = value.text ++ rest := by
  rcases s with - | ⟨c, s⟩
  · rw [readValue] at h
    cases h
  by_cases harray : c = '['
  · subst harray
    rcases depth with - | depth
    · rw [readValue] at h
      cases h
    rw [readValue_array] at h
    obtain ⟨⟨items, _⟩, hitems, heq⟩ := Option.map_eq_some_iff.1 h
    obtain ⟨rfl, rfl⟩ := Prod.mk.inj heq
    obtain ⟨hw, hd, rfl⟩ := (readItems_iff (ih depth rfl)).1 hitems
    exact ⟨hw, Nat.succ_le_succ hd, rfl⟩
  by_cases hobject : c = '\x7b'
  · subst hobject
    rcases depth with - | depth
    · rw [readValue] at h
      cases h
    rw [readValue_object] at h
    obtain ⟨⟨members, _⟩, hmembers, heq⟩ := Option.map_eq_some_iff.1 h
    obtain ⟨rfl, rfl⟩ := Prod.mk.inj heq
    obtain ⟨hw, hd, rfl⟩ := (readMembers_iff (ih depth rfl)).1 hmembers
    exact ⟨hw, Nat.succ_le_succ hd, rfl⟩
  by_cases hquote : c = '"'
  · subst hquote
    rw [readValue_string] at h
    obtain ⟨⟨body, _⟩, hbody, heq⟩ := Option.map_eq_some_iff.1 h
    obtain ⟨rfl, rfl⟩ := Prod.mk.inj heq
    obtain ⟨hw, hs⟩ := readString_found?_iff.1 hbody
    exact ⟨hw, Nat.zero_le _, hs⟩
  rw [readValue_other depth (by simp [harray, hobject, hquote])] at h
  split_ifs at h
  · obtain ⟨⟨n, _⟩, hn, heq⟩ := Option.map_eq_some_iff.1 h
    obtain ⟨rfl, rfl⟩ := Prod.mk.inj heq
    exact ⟨wellFormed_of_scanNumber hn, Nat.zero_le _, (text_append_of_scanNumber hn).1.symm⟩
  all_goals
    obtain ⟨_, hword, heq⟩ := Option.map_eq_some_iff.1 h
    obtain ⟨rfl, rfl⟩ := Prod.mk.inj heq
    exact ⟨trivial, Nat.zero_le _, afterWord?_eq_some_iff.1 hword⟩

/-- A well-formed tree is read, if that is so with less room. -/
theorem readValue_complete {depth : Nat}
    (ih : ∀ d, depth = d + 1 → ReadsValues (readValue d) d) {rest : List Char}
    (hrest : Delimited rest) {value : Node} (hw : value.WellFormed) (hd : value.depth ≤ depth) :
    (readValue depth (value.text ++ rest)).found? = some (value, rest) := by
  cases value with
  | null => exact readValue_other depth (by decide) _
  | bool b => cases b <;> exact readValue_other depth (by decide) _
  | number n =>
      obtain ⟨c, t, ht, hc⟩ : ∃ c t, n.text = c :: t ∧ (c = '-' ∨ c.isDigit) := by
        obtain ⟨d, t, ht, hd⟩ := hw.integer.exists_eq_cons
        rcases hw.sign with hsign | hsign
        · exact ⟨d, _, by rw [Numeral.text, hsign, ht]; rfl, .inr hd⟩
        · exact ⟨'-', _, by rw [Numeral.text, hsign]; rfl, .inl rfl⟩
      have hne : c ∉ ['[', '\x7b', '"'] := by
        intro hmem
        have hc' : c = '[' ∨ c = '\x7b' ∨ c = '"' := by simpa using hmem
        rcases hc' with rfl | rfl | rfl <;> exact absurd hc (by decide)
      have hscan := (scanNumber_eq_some_iff hrest).2 ⟨hw, rfl⟩
      rw [Node.text, ht, List.cons_append, readValue_other depth hne, if_pos hc]
      rw [ht, List.cons_append] at hscan
      rw [hscan, Option.map_some]
  | string body =>
      have hbody : (readString (quoted body ++ rest) .noValue).found? = some (body, rest) :=
        readString_found?_iff.2 ⟨hw, rfl⟩
      rw [Node.text, quoted, List.cons_append, readValue_string]
      rw [quoted, List.cons_append] at hbody
      rw [hbody, Option.map_some]
  | array items =>
      rcases depth with - | depth
      · exact absurd hd (Nat.not_succ_le_zero _)
      have hitems : (readItems (readValue depth) (items.text ++ rest)).found? =
          some (items, rest) :=
        (readItems_iff (ih depth rfl)).2 ⟨hw, Nat.le_of_succ_le_succ hd, rfl⟩
      rw [Node.text, List.cons_append, readValue_array, hitems, Option.map_some]
  | object members =>
      rcases depth with - | depth
      · exact absurd hd (Nat.not_succ_le_zero _)
      have hmembers : (readMembers (readValue depth) (members.text ++ rest)).found? =
          some (members, rest) :=
        (readMembers_iff (ih depth rfl)).2 ⟨hw, Nat.le_of_succ_le_succ hd, rfl⟩
      rw [Node.text, List.cons_append, readValue_object, hmembers, Option.map_some]

/-- **The value reader** finds, in front of a rest that can follow a value, exactly the
well-formed trees for which there is room. The induction is on the room. -/
theorem readsValues_readValue (depth : Nat) : ReadsValues (readValue depth) depth := by
  induction depth with
  | zero =>
      intro s value rest hrest
      have ih : ∀ d, 0 = d + 1 → ReadsValues (readValue d) d := fun d h => by cases h
      refine ⟨readValue_sound ih, ?_⟩
      rintro ⟨hw, hd, rfl⟩
      exact readValue_complete ih hrest hw hd
  | succ depth ihdepth =>
      intro s value rest hrest
      have ih : ∀ d, depth + 1 = d + 1 → ReadsValues (readValue d) d := by
        intro d h
        obtain rfl := Nat.succ.inj h
        exact ihdepth
      refine ⟨readValue_sound ih, ?_⟩
      rintro ⟨hw, hd, rfl⟩
      exact readValue_complete ih hrest hw hd

/-! ### Documents -/

/-- Nothing is left without blanks exactly if a text consists of them. -/
theorem isEmpty_skipBlanks_iff {s : List Char} : (skipBlanks s).isEmpty = true ↔ Blanks s := by
  rw [List.isEmpty_iff, skipBlanks, List.dropWhile_eq_nil_iff, blanks_iff]

/-- A whole document: blanks, a value and blanks. -/
theorem read_eq_ok_iff {s front : List Char} {value : Node} :
    read s = .ok (front, value) ↔ ∃ rest, s = front ++ (value.text ++ rest) ∧ Blanks front ∧
      Blanks rest ∧ value.WellFormed ∧ value.depth ≤ maxDepth := by
  have hsplit := takeWhile_append_skipBlanks s
  rw [read]
  constructor
  · intro h
    split at h
    · cases h
    · split at h
      · cases h
      next value' rest _ hread =>
      split at h
      · next hrest =>
          obtain ⟨rfl, rfl⟩ := by simpa using h
          have hblanks := isEmpty_skipBlanks_iff.1 hrest
          have hfound : (readValue maxDepth (skipBlanks s)).found? = some (value', rest) := by
            rw [hread]
            rfl
          have hdelimited : Delimited rest := fun c hc =>
            .inl (blanks_iff.1 hblanks c (List.mem_of_mem_head? hc))
          obtain ⟨hw, hd, hs⟩ := (readsValues_readValue maxDepth _ _ _ hdelimited).1 hfound
          refine ⟨rest, ?_, blanks_takeWhile s, hblanks, hw, hd⟩
          rw [← hs, hsplit]
      · cases h
  · rintro ⟨rest, rfl, hfront, hrest, hw, hd⟩
    obtain ⟨hskip, htake⟩ := skipBlanks_append_text hfront hw rest
    have hdelimited : Delimited rest := fun c hc =>
      .inl (blanks_iff.1 hrest c (List.mem_of_mem_head? hc))
    have hfound := (readsValues_readValue maxDepth _ _ _ hdelimited).2 ⟨hw, hd, rfl⟩
    have hne : (value.text ++ rest).isEmpty = false := by
      obtain ⟨c, t, ht, -⟩ := hw.exists_text_eq_cons
      rw [ht]
      rfl
    rw [← hskip] at hfound hne
    rw [if_neg (by simp [hne])]
    cases hread : readValue maxDepth (skipBlanks (front ++ (value.text ++ rest))) with
    | error flaw =>
        rw [hread] at hfound
        cases hfound
    | ok p =>
        obtain ⟨value', rest', _⟩ := p
        rw [hread] at hfound
        obtain ⟨rfl, rfl⟩ : value' = value ∧ rest' = rest := by
          simpa [Outcome.found?] using hfound
        rw [htake]
        exact if_pos (isEmpty_skipBlanks_iff.2 hrest)

/-- **Documents**: the tree of a document is well formed and its text stands where the tree
says, with only blanks around it. -/
theorem ofString_eq_ok_iff {document : String} {site : Site} :
    ofString document = .ok site ↔ ∃ front rest,
      document.toList = front ++ (site.text ++ rest) ∧ Blanks front ∧ Blanks rest ∧
      site.node.WellFormed ∧ site.node.depth ≤ maxDepth ∧ site.start = byteSize front := by
  rw [ofString]
  constructor
  · intro h
    split at h
    · cases h
    · next front value hread =>
        obtain rfl := Except.ok.inj h
        obtain ⟨rest, hs, hfront, hrest, hw, hd⟩ := read_eq_ok_iff.1 hread
        exact ⟨front, rest, hs, hfront, hrest, hw, hd, rfl⟩
  · rintro ⟨front, rest, hs, hfront, hrest, hw, hd, hstart⟩
    rw [read_eq_ok_iff.2 ⟨rest, hs, hfront, hrest, hw, hd⟩]
    dsimp only
    rw [← hstart]

/-- **A text is accepted exactly if it is JSON**: blanks, a value with containers nested at
most 512 deep, and blanks. What is found is that value, at its place. -/
theorem ofString_iff_derives (document : String) :
    ((∃ site, ofString document = .ok site) ↔
      ∃ before value after, document.toList = before ++ (value ++ after) ∧ Blanks before ∧
        Blanks after ∧ Derives .value 512 value) ∧
    ∀ site before value after, document.toList = before ++ (value ++ after) → Blanks before →
      Blanks after → Derives .value 512 value → ofString document = .ok site →
      site.start = byteSize before ∧ site.text = value := by
  have found {before value after : List Char}
      (h : document.toList = before ++ (value ++ after)) (hbefore : Blanks before)
      (hafter : Blanks after) (hvalue : Derives .value 512 value) :
      ∃ node : Node, node.text = value ∧ ofString document = .ok ⟨byteSize before, node⟩ := by
    obtain ⟨node, hw, hd, rfl⟩ := hvalue.hasTree
    exact ⟨node, rfl, ofString_eq_ok_iff.2 ⟨before, after, h, hbefore, hafter, hw, hd, rfl⟩⟩
  refine ⟨⟨?_, ?_⟩, ?_⟩
  · rintro ⟨site, hsite⟩
    obtain ⟨before, after, h, hbefore, hafter, hw, hd, -⟩ := ofString_eq_ok_iff.1 hsite
    exact ⟨before, site.text, after, h, hbefore, hafter, hw.derives hd⟩
  · rintro ⟨before, value, after, h, hbefore, hafter, hvalue⟩
    obtain ⟨node, -, hnode⟩ := found h hbefore hafter hvalue
    exact ⟨_, hnode⟩
  · intro site before value after h hbefore hafter hvalue hsite
    obtain ⟨node, rfl, hnode⟩ := found h hbefore hafter hvalue
    obtain rfl : ⟨byteSize before, node⟩ = site := Except.ok.inj (hnode.symm.trans hsite)
    exact ⟨rfl, rfl⟩

/-- `[]` with a blank on either side is accepted at its place. -/
theorem ofString_brackets_iff_derives :
    ∃ site, ofString " [] " = .ok site ∧ site.start = 1 ∧ site.text = ['[', ']'] := by
  have hblank : Blanks [' '] := by simp [Blanks]
  have hempty : Blanks [] := by simp [Blanks]
  have hvalue : Derives .value 512 ['[', ']'] := .emptyArray hempty
  have htext : " [] ".toList = [' '] ++ (['[', ']'] ++ [' ']) := rfl
  obtain ⟨haccepted, hspan⟩ := ofString_iff_derives " [] "
  obtain ⟨site, hsite⟩ := haccepted.2 ⟨_, _, _, htext, hblank, hblank, hvalue⟩
  exact ⟨site, hsite, hspan site _ _ _ htext hblank hblank hvalue hsite⟩

end JsonPath.Document
