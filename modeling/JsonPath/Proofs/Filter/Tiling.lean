import JsonPath.Offsets
import JsonPath.Proofs.Operand.Numerals
import JsonPath.Proofs.Path.Faults

/-!
# Tokens Tile a Text

A token is read from an offset on: blanks are skipped, and what follows them is the text of the
token up to the offset behind it. Every kind of token ends by a rule of its own, an operator after
one character or two, a number or a reference as late as it can, a quoted text at its quote.
Whatever the rule is, the token takes at least one character, and all tokens but quoted texts show
as exactly the characters that they were read from (`Token.display_append_of_read`). Where no token
can be read, the reading stands behind the blanks.

So the reading can be repeated until the text ends or a token fails (`Token.lexFrom`), with any role
given for what stands in front of a token, and the tokens that it finds lie one behind the other
with nothing but blanks between them (`Token.Tiles`).

## Main definitions

* `Token.lexFrom`: the tokens of a text from an offset on.
* `Token.Tiles`: tokens that lie one behind the other in a text.

## Main results

* `Token.display_append_of_read`: a token shows as it is written.
* `Token.tiles_lexFrom`: the tokens that are read one after the other tile the text.
* `Token.readAt_tiles`: **tokens lie where they are said to lie**, and tile the text.
-/

namespace JsonPath

open Text

namespace Token

/-! ### One token -/

/-- The symbol of an operator and what is left make up the text. -/
theorem symbol_append_of_readOperator? {previous : Role} {op : Operator} {s rest : List Char}
    (h : readOperator? previous s = some (op, rest)) : op.symbol.toList ++ rest = s := by
  rw [readOperator?.eq_def] at h
  split at h
  case h_2 tail =>
      split at h
      · obtain ⟨rfl, rfl⟩ := by simpa using h
        rfl
      · cases h
  case h_15 => cases h
  all_goals
      obtain ⟨rfl, rfl⟩ := by simpa using h
      rfl

/-- The text of a reference and what is left make up the text from its sign on. -/
theorem text_append_of_readReference {sign : Char} {reference : Reference} {s rest : List Char}
    (h : readReference sign s = .ok (reference, rest)) :
    reference.text.toList ++ rest = sign :: s := by
  obtain ⟨⟨steps, tail⟩, hsteps, hp⟩ := map_eq_ok_iff.1 h
  obtain ⟨rfl, rfl⟩ := Prod.mk.inj hp
  obtain ⟨u, rfl, -⟩ := Step.readAll_of_stopsAt hsteps
  simp

/-- The text of a number and what is left make up the text. -/
theorem text_append_of_readNumber? {t : Token} {s rest : List Char}
    (h : readNumber? s = some (t, rest)) :
    ∃ literal, t = .number literal ∧ literal.text.toList ++ rest = s := by
  obtain ⟨⟨n, tail⟩, hs, hp⟩ := Option.bind_eq_some_iff.1 h
  obtain ⟨literal, hliteral, hr⟩ := Option.map_eq_some_iff.1 hp
  obtain ⟨rfl, rfl⟩ := Prod.mk.inj hr
  obtain ⟨x, -, rfl⟩ := Option.map_eq_some_iff.1 hliteral
  refine ⟨_, rfl, ?_⟩
  rw [String.toList_ofList]
  exact Numeral.text_append_of_scan hs

/-- **A token shows as it is written**, unless it is a quoted text, which shows without its quotes
and escapes. -/
theorem display_append_of_read {previous : Role} {t : Token} {s rest : List Char}
    (h : read previous s = .ok (t, rest)) (ht : ∀ value, t ≠ .text value) :
    t.display.toList ++ rest = s := by
  rcases s with - | ⟨c, s⟩
  · cases h
  have reference {make : Reference → Token} (hmake : ∀ r, (make r).display = r.text)
      (h : (readReference c s).map (fun p => (make p.1, p.2)) = .ok (t, rest)) :
      t.display.toList ++ rest = c :: s := by
    obtain ⟨p, hread, hp⟩ := map_eq_ok_iff.1 h
    obtain ⟨rfl, rfl⟩ := Prod.mk.inj hp
    rw [hmake]
    exact text_append_of_readReference hread
  rw [read] at h
  split at h
  · next hop =>
      obtain ⟨rfl, rfl⟩ := by simpa using h
      exact symbol_append_of_readOperator? hop
  split_ifs at h with hopening hclosing hcandidate hroot hquote hnumber
  · obtain ⟨rfl, rfl⟩ := by simpa using h
    rw [hopening]
    rfl
  · obtain ⟨rfl, rfl⟩ := by simpa using h
    rw [hclosing]
    rfl
  · exact reference (fun _ => rfl) h
  · exact reference (fun _ => rfl) h
  · cases htext : readText? c s with
    | none => simp [htext] at h
    | some p =>
        obtain rfl : p = (t, rest) := by simpa [htext] using h
        rw [readText?] at htext
        split at htext
        · obtain ⟨rfl, -⟩ := Prod.mk.inj (Option.some.inj htext)
          exact absurd rfl (ht _)
        · cases htext
  · cases hread : readNumber? (c :: s) with
    | none => simp [hread] at h
    | some p =>
        obtain rfl : p = (t, rest) := by simpa [hread] using h
        obtain ⟨literal, rfl, htext⟩ := text_append_of_readNumber? hread
        exact htext

/-- **Where a token lies.** It is read from the first character that is no blank, takes at least one
character, and shows as what it takes. -/
theorem exists_body_of_next {previous : Role} {t : Token} {s rest : List Char}
    (h : next previous s = .ok (t, rest)) :
    ∃ body, body ≠ [] ∧ skipBlanks s = body ++ rest ∧
      ((∀ value, t ≠ .text value) → t.display.toList = body) := by
  obtain ⟨body, hne, hs, -⟩ := read_of_stopsAt h
  refine ⟨body, hne, hs, fun ht => ?_⟩
  have hdisplay := display_append_of_read h ht
  rw [hs] at hdisplay
  exact List.append_cancel_right hdisplay

/-! ### Offsets -/

/-- What is read behind a text, at the offset that is its size. -/
theorem readAt_of_append (front s : List Char) (previous : Role) :
    readAt (String.ofList (front ++ s)) (byteSize front) previous =
      match next previous s with
      | .ok (t, rest) =>
        ⟨.ok (t, byteSize (front ++ s.takeWhile isBlank)), offsetIn (front ++ s) rest⟩
      | .error fault =>
        ⟨.error ((Fault.unparsable fault).report (front ++ s)),
          byteSize (front ++ s.takeWhile isBlank)⟩ := by
  have htext : front ++ s = front ++ s.takeWhile isBlank ++ skipBlanks s := by
    rw [skipBlanks, List.append_assoc, List.takeWhile_append_dropWhile]
  have hstart : offsetIn (front ++ s) (skipBlanks s) = byteSize (front ++ s.takeWhile isBlank) := by
    rw [htext, offsetIn_append]
  have hdrop : dropBytes? (byteSize front) (String.ofList (front ++ s)).toList = some s := by
    rw [String.toList_ofList, dropBytes?_byteSize]
  have hread := readAt_of_dropBytes? hdrop previous
  rw [String.toList_ofList, hstart] at hread
  exact hread

/-- **A token that is found at an offset**, with the blanks in front of it and what follows. -/
theorem exists_of_readAt {front s : List Char} {previous : Role} {t : Token} {start position : Nat}
    (h : readAt (String.ofList (front ++ s)) (byteSize front) previous =
      ⟨.ok (t, start), position⟩) :
    ∃ blanks body rest, s = blanks ++ (body ++ rest) ∧ (∀ c ∈ blanks, isBlank c) ∧ body ≠ [] ∧
      skipBlanks s = body ++ rest ∧ next previous s = .ok (t, rest) ∧
      start = byteSize front + byteSize blanks ∧
      position = byteSize front + byteSize (blanks ++ body) ∧
      ((∀ value, t ≠ .text value) → t.display.toList = body) := by
  rw [readAt_of_append] at h
  cases hnext : next previous s with
  | error rest =>
      rw [hnext] at h
      cases (Found.mk.inj h).1
  | ok p =>
      obtain ⟨t', rest⟩ := p
      rw [hnext] at h
      obtain ⟨hresult, rfl⟩ := Found.mk.inj h
      obtain ⟨rfl, rfl⟩ := Prod.mk.inj (Except.ok.inj hresult)
      obtain ⟨body, hne, hbody, hdisplay⟩ := exists_body_of_next hnext
      have hs : s = s.takeWhile isBlank ++ (body ++ rest) := by
        rw [← hbody]
        exact List.takeWhile_append_dropWhile.symm
      have htext : front ++ s = front ++ (s.takeWhile isBlank ++ body) ++ rest := by
        conv => lhs; rw [hs]
        simp only [List.append_assoc]
      refine ⟨s.takeWhile isBlank, body, rest, hs, fun _ => List.mem_takeWhile_imp, hne, hbody, rfl,
        byteSize_append front _, ?_, hdisplay⟩
      rw [htext, offsetIn_append, byteSize_append]

/-- Where no token can be read, the reading ends behind the blanks. -/
theorem position_of_readAt {front s : List Char} {previous : Role} {e : Error} {position : Nat}
    (h : readAt (String.ofList (front ++ s)) (byteSize front) previous = ⟨.error e, position⟩) :
    position = byteSize (front ++ s.takeWhile isBlank) := by
  rw [readAt_of_append] at h
  cases hnext : next previous s with
  | error rest =>
      rw [hnext] at h
      exact (Found.mk.inj h).2.symm
  | ok p =>
      rw [hnext] at h
      cases (Found.mk.inj h).1

/-- A reading ends behind the offset that a token is read from, and in the text. -/
theorem lt_of_readAt {text : String} {offset start position : Nat} {previous : Role} {t : Token}
    (h : readAt text offset previous = ⟨.ok (t, start), position⟩) :
    offset < position ∧ position ≤ text.utf8ByteSize := by
  cases hdrop : dropBytes? offset text.toList with
  | none =>
      rw [readAt, hdrop] at h
      cases (Found.mk.inj h).1
  | some s =>
      obtain ⟨front, htext, rfl⟩ := exists_append_of_dropBytes? hdrop
      obtain rfl : text = String.ofList (front ++ s) := by rw [← htext, String.ofList_toList]
      obtain ⟨blanks, body, rest, rfl, -, hne, -, -, -, rfl, -⟩ := exists_of_readAt h
      have hpos := byteSize_pos hne
      rw [utf8ByteSize_ofList]
      simp only [byteSize_append]
      omega

/-! ### All tokens -/

/-- A token with the offsets at which it begins and ends. -/
structure Lexeme where
  /-- Where the token begins. -/
  start : Nat
  /-- The token. -/
  token : Token
  /-- The offset behind the token. -/
  stop : Nat

/-- The tokens of a text from an offset on, up to the end of the text or to the first that cannot be
read, and the error that is found there. `roles` says for one token after the other which role is
given for what stands in front of it. -/
def lexFrom (text : String) (offset : Nat) (roles : Nat → Role) : List Lexeme × Option Error :=
  if offset < text.utf8ByteSize then
    match h : readAt text offset (roles 0) with
    | ⟨.error e, _⟩ => ([], some e)
    | ⟨.ok (t, start), position⟩ =>
      have := lt_of_readAt h
      let later := lexFrom text position fun n => roles (n + 1)
      (⟨start, t, position⟩ :: later.1, later.2)
  else
    ([], none)
termination_by text.utf8ByteSize - offset

section

variable {text : String} {offset position : Nat} {roles : Nat → Role}

/-- At the end of a text there are no tokens. -/
theorem lexFrom_of_le (h : text.utf8ByteSize ≤ offset) :
    lexFrom text offset roles = ([], none) := by
  rw [lexFrom, if_neg (Nat.not_lt.2 h)]

/-- Where no token can be read, the reading is over. -/
theorem lexFrom_of_error {e : Error} (hoffset : offset < text.utf8ByteSize)
    (h : readAt text offset (roles 0) = ⟨.error e, position⟩) :
    lexFrom text offset roles = ([], some e) := by
  rw [lexFrom, if_pos hoffset]
  split
  · next h' =>
      obtain ⟨hresult, -⟩ := Found.mk.inj (h.symm.trans h')
      rw [Except.error.inj hresult]
  · next h' => cases (Found.mk.inj (h.symm.trans h')).1

/-- Behind a token the reading goes on where it ended. -/
theorem lexFrom_of_ok {t : Token} {start : Nat}
    (h : readAt text offset (roles 0) = ⟨.ok (t, start), position⟩) :
    lexFrom text offset roles =
      (⟨start, t, position⟩ :: (lexFrom text position fun n => roles (n + 1)).1,
        (lexFrom text position fun n => roles (n + 1)).2) := by
  have hoffset : offset < text.utf8ByteSize := (lt_of_readAt h).1.trans_le (lt_of_readAt h).2
  rw [lexFrom, if_pos hoffset]
  split
  · next h' => cases (Found.mk.inj (h.symm.trans h')).1
  · next h' =>
      obtain ⟨hresult, rfl⟩ := Found.mk.inj (h.symm.trans h')
      obtain ⟨rfl, rfl⟩ := Prod.mk.inj (Except.ok.inj hresult)
      rfl

end

/-- Tokens that lie one behind the other in a text that begins at an offset, with nothing but blanks
between them, and what is left of the text behind them. -/
inductive Tiles : Nat → List Char → List Lexeme → List Char → Prop
  | nil {start : Nat} {s : List Char} : Tiles start s [] s
  | cons {start : Nat} {blanks body s rest : List Char} {t : Token} {later : List Lexeme} :
      (∀ c ∈ blanks, isBlank c) → body ≠ [] →
      ((∀ value, t ≠ .text value) → t.display.toList = body) →
      Tiles (start + byteSize (blanks ++ body)) s later rest →
      Tiles start (blanks ++ (body ++ s))
        (⟨start + byteSize blanks, t, start + byteSize (blanks ++ body)⟩ :: later) rest

/-- **The tokens that are read one after the other tile the text**, up to its end or to the first
that cannot be read. -/
theorem tiles_lexFrom (front s : List Char) (roles : Nat → Role) :
    ∃ rest, Tiles (byteSize front) s
        (lexFrom (String.ofList (front ++ s)) (byteSize front) roles).1 rest ∧
      ((lexFrom (String.ofList (front ++ s)) (byteSize front) roles).2 = none ↔ rest = []) := by
  induction hn : s.length using Nat.strong_induction_on generalizing front s roles with
  | _ n ih =>
  cases hfound : readAt (String.ofList (front ++ s)) (byteSize front) (roles 0) with
  | mk result position =>
  cases result with
  | error e =>
      have hsize : (String.ofList (front ++ s)).utf8ByteSize = byteSize front + byteSize s := by
        rw [utf8ByteSize_ofList, byteSize_append]
      rcases s with - | ⟨c, s⟩
      · rw [lexFrom_of_le (by rw [hsize]; rfl)]
        exact ⟨[], .nil, by simp⟩
      · have hc := c.utf8Size_pos
        rw [lexFrom_of_error (by rw [hsize, byteSize_cons]; omega) hfound]
        exact ⟨c :: s, .nil, by simp⟩
  | ok p =>
      obtain ⟨t, start⟩ := p
      obtain ⟨blanks, body, rest, rfl, hblanks, hne, -, hnext, rfl, rfl, hdisplay⟩ :=
        exists_of_readAt hfound
      obtain ⟨left, htiles, hleft⟩ := ih rest.length (hn ▸ length_lt_of_next hnext)
        (front ++ (blanks ++ body)) rest (fun n => roles (n + 1)) rfl
      rw [byteSize_append, List.append_assoc, List.append_assoc] at htiles hleft
      rw [lexFrom_of_ok hfound]
      exact ⟨left, .cons hblanks hne hdisplay htiles, hleft⟩

/-- **Tokens lie where they are said to lie.** From the size of a text on, blanks are skipped up to
the beginning of a token, or up to where one should be, and there the reading ends if no token can
be read. A token takes at least one character, so that the reading ends behind its beginning, in the
text and between two characters, and it shows as what stands between these offsets, unless it is a
quoted text. Whatever the roles are that are given for what stands in front of them, the tokens that
are read one after the other tile the text up to its end or to the first that cannot be read. -/
theorem readAt_tiles (before after : String) (previous : Role) :
    ∃ blanks rest : String, after = blanks ++ rest ∧ (∀ c ∈ blanks.toList, isBlank c) ∧
      (∀ c ∈ rest.toList.head?, isBlank c = false) ∧
      (∀ e position,
        readAt (before ++ after) before.utf8ByteSize previous = ⟨.error e, position⟩ →
        position = (before ++ blanks).utf8ByteSize) ∧
      (∀ t start position,
        readAt (before ++ after) before.utf8ByteSize previous = ⟨.ok (t, start), position⟩ →
        start = (before ++ blanks).utf8ByteSize ∧ start < position ∧
        position ≤ (before ++ after).utf8ByteSize ∧
        String.Pos.Raw.IsValid (before ++ after) ⟨position⟩ ∧
        ∃ body left, rest = body ++ left ∧ position = (before ++ blanks ++ body).utf8ByteSize ∧
          ((∀ value, t ≠ .text value) → t.display = body)) ∧
      ∀ roles : Nat → Role, ∃ left,
        Tiles before.utf8ByteSize after.toList
          (lexFrom (before ++ after) before.utf8ByteSize roles).1 left ∧
        ((lexFrom (before ++ after) before.utf8ByteSize roles).2 = none ↔ left = []) := by
  obtain ⟨front, rfl⟩ : ∃ front, before = String.ofList front :=
    ⟨before.toList, String.ofList_toList.symm⟩
  obtain ⟨s, rfl⟩ : ∃ s, after = String.ofList s := ⟨after.toList, String.ofList_toList.symm⟩
  refine ⟨String.ofList (s.takeWhile isBlank), String.ofList (skipBlanks s), ?_, ?_, ?_, ?_, ?_, ?_⟩
  · rw [← String.ofList_append, skipBlanks, List.takeWhile_append_dropWhile]
  · rw [String.toList_ofList]
    exact fun _ => List.mem_takeWhile_imp
  · rw [String.toList_ofList]
    exact head_dropWhile_eq_false
  · intro e position hfound
    rw [← String.ofList_append, utf8ByteSize_ofList] at hfound
    rw [← String.ofList_append, utf8ByteSize_ofList]
    exact position_of_readAt hfound
  · intro t start position hfound
    rw [← String.ofList_append, utf8ByteSize_ofList] at hfound
    obtain ⟨blanks, body, rest, hs, -, hne, hskip, -, rfl, rfl, hdisplay⟩ := exists_of_readAt hfound
    have hblanks : s.takeWhile isBlank = blanks := by
      refine (List.append_left_inj (body ++ rest)).1 ?_
      rw [← hs, ← hskip]
      exact List.takeWhile_append_dropWhile
    have hposition : byteSize front + byteSize (blanks ++ body) =
        (String.ofList (front ++ blanks ++ body)).utf8ByteSize := by
      rw [utf8ByteSize_ofList, List.append_assoc, byteSize_append front]
    have htext : String.ofList front ++ String.ofList s =
        String.ofList (front ++ blanks ++ body) ++ String.ofList rest := by
      rw [← String.ofList_append, ← String.ofList_append, hs]
      simp only [List.append_assoc]
    refine ⟨?_, ?_, (lt_of_readAt hfound).2.trans (by rw [String.ofList_append]), ?_,
      String.ofList body, String.ofList rest, ?_, ?_, fun ht => ?_⟩
    · rw [hblanks, ← String.ofList_append, utf8ByteSize_ofList, byteSize_append]
    · have hpos := byteSize_pos hne
      rw [byteSize_append]
      omega
    · exact String.Pos.Raw.isValid_iff_exists_append.2 ⟨_, _, htext, by rw [hposition]; rfl⟩
    · rw [hskip, String.ofList_append]
    · rw [hposition, hblanks, ← String.ofList_append, ← String.ofList_append]
    · rw [← hdisplay ht, String.ofList_toList]
  · intro roles
    obtain ⟨left, htiles, hleft⟩ := tiles_lexFrom front s roles
    rw [← String.ofList_append, utf8ByteSize_ofList, String.toList_ofList]
    exact ⟨left, htiles, hleft⟩

/-- An operator of two characters, behind a blank and a character that takes two bytes, and a place
behind a blank where no token can be read. -/
theorem readAt_tiles_search :
    readAt ("'é'" ++ " =~@)") 4 .operand = ⟨.ok (.operator .search, 5), 7⟩ ∧
      (∃ blanks body left : String, " =~@)" = blanks ++ (body ++ left) ∧
        (∀ c ∈ blanks.toList, isBlank c) ∧ 5 = ("'é'" ++ blanks).utf8ByteSize ∧
        ("'é'" ++ blanks ++ body).utf8ByteSize = 7 ∧ body = "=~") ∧
      (∃ e, (readAt ("'é'" ++ " =@)") 4 .operand) = ⟨.error e, 5⟩) := by
  have hfound : readAt ("'é'" ++ " =~@)") 4 .operand = ⟨.ok (.operator .search, 5), 7⟩ := by cbv
  obtain ⟨blanks, rest, hafter, hblanks, -, -, htoken, -⟩ := readAt_tiles "'é'" " =~@)" .operand
  obtain ⟨hstart, -, -, -, body, left, rfl, hstop, hdisplay⟩ := htoken _ _ _ hfound
  exact ⟨hfound, ⟨blanks, body, left, hafter, hblanks, hstart, hstop.symm,
    (hdisplay fun _ h => by cases h).symm⟩, _, by cbv⟩

end Token

end JsonPath
