import JsonPath.Offsets
import JsonPath.Proofs.Path.Positions

/-!
# Quoted Texts Are Read Back

A text is put in quotes by writing a backslash before every backslash in it and before every quote
of the kind it is put in (`Text.Quoted.enclose`). Filters have texts in quotes as operands, brackets
have names in quotes. Both readers look for the closing quote with the same rule, which does not
take an escaped quote for it (`Text.Quoted.split_escape`), and both then drop the backslashes.

So any text that is put in quotes is read back in a filter, whatever follows it. A list of names is
read back in brackets, if none of them is empty or has a null character in it; each may stand in
quotes of either kind, with spaces and tabs around it.

## Main definitions

* `Text.Quoted.enclose`: a text in quotes.
* `ListedName`: a name of a list as it is written.

## Main results

* `Token.readAt_enclose`: a text in quotes is a token of a filter.
* `Selector.readBracketed_listed`: names in brackets.
* `quoted_read_back`: **what is put in quotes is read back**, in filters and in brackets.
-/

namespace JsonPath

open Text Grammar

namespace Text.Quoted

/-- A text as it is written between two quotes: a backslash before every backslash and every quote
of that kind. -/
def enclose (quote : Char) (s : List Char) : List Char :=
  quote :: (escape quote s ++ [quote])

/-- What follows a quoted text follows its closing quote. -/
theorem enclose_append (quote : Char) (s rest : List Char) :
    enclose quote s ++ rest = quote :: (escape quote s ++ quote :: rest) := by
  simp [enclose]

/-- **The closing quote is found**: no quote that was escaped is taken for it. -/
theorem split_escape {quote : Char} (hquote : quote ≠ '\\') {banned : Char → Bool}
    {s : List Char} (hs : ∀ c ∈ s, banned c = false) (rest : List Char) :
    split '\\' quote banned (escape quote s ++ quote :: rest) = .ok (escape quote s, rest) := by
  induction s with
  | nil =>
      rw [escape, List.nil_append, split.eq_def]
      exact if_pos rfl
  | cons c s ih =>
      obtain ⟨hc, hs⟩ := List.forall_mem_cons.1 hs
      rw [escape]
      split
      · next hescaped =>
          rw [List.cons_append, List.cons_append, split, if_neg hquote.symm, if_pos rfl,
            if_pos hescaped, ih hs]
          rfl
      · next hplain =>
          obtain ⟨hne, hbackslash⟩ := not_or.1 hplain
          rw [List.cons_append, split.eq_def]
          dsimp only
          rw [if_neg hne, if_neg hbackslash, if_neg (by simp [hc]), ih hs]
          rfl

/-- Escaping does not make a text empty. -/
theorem escape_ne_nil {quote : Char} {s : List Char} (hs : s ≠ []) : escape quote s ≠ [] := by
  obtain ⟨c, s, rfl⟩ := List.exists_cons_of_ne_nil hs
  rw [escape]
  split <;> exact List.cons_ne_nil _ _

end Text.Quoted

/-! ### Filters -/

namespace Token

/-- A text in quotes is a token, whatever stands in front of it and behind it. -/
theorem read_enclose {quote : Char} (hquote : quote = '\'' ∨ quote = '"') (previous : Role)
    (s rest : List Char) :
    read previous (Quoted.enclose quote s ++ rest) = .ok (.text (String.ofList s), rest) := by
  have hsplit : Quoted.split '\\' quote (fun _ => false) (Quoted.escape quote s ++ quote :: rest) =
      .ok (Quoted.escape quote s, rest) :=
    Quoted.split_escape (by rcases hquote with rfl | rfl <;> decide) (fun _ _ => rfl) rest
  have htext : readText? quote (Quoted.escape quote s ++ quote :: rest) =
      some (.text (String.ofList s), rest) := by
    simp only [readText?, hsplit, Quoted.unquote_escape]
  rw [Quoted.enclose_append, read]
  rcases hquote with rfl | rfl
  · simp [readOperator?, htext]
  · simp [readOperator?, htext]

/-- At the place where a text in quotes begins there is one token, which is that text. It ends
right behind the closing quote. -/
theorem readAt_enclose {quote : Char} (hquote : quote = '\'' ∨ quote = '"') (previous : Role)
    (before s after : String) :
    readAt (before ++ String.ofList (Quoted.enclose quote s.toList) ++ after)
        (byteSize before.toList) previous =
      ⟨.ok (.text s, byteSize before.toList),
        byteSize before.toList + byteSize (Quoted.enclose quote s.toList)⟩ := by
  have hskip : skipBlanks (Quoted.enclose quote s.toList ++ after.toList) =
      Quoted.enclose quote s.toList ++ after.toList := by
    rcases hquote with rfl | rfl <;> rfl
  have htext : (before ++ String.ofList (Quoted.enclose quote s.toList) ++ after).toList =
      before.toList ++ (Quoted.enclose quote s.toList ++ after.toList) := by
    simp
  have hdrop : dropBytes? (byteSize before.toList)
      (before ++ String.ofList (Quoted.enclose quote s.toList) ++ after).toList =
        some (Quoted.enclose quote s.toList ++ after.toList) := by
    rw [htext, dropBytes?_byteSize]
  rw [readAt_of_dropBytes? hdrop, next, hskip, read_enclose hquote, htext, String.ofList_toList]
  dsimp only
  rw [offsetIn_append, ← List.append_assoc, offsetIn_append, byteSize_append]

end Token

/-! ### Lists of names -/

/-- A name in a list of names as it is written: in quotes of either kind, with spaces and tabs
around it. -/
structure ListedName where
  /-- The spaces and tabs in front of it. -/
  before : List Char
  /-- The quote on either side of it. -/
  quote : Char
  /-- The name. -/
  name : String
  /-- The spaces and tabs behind it. -/
  after : List Char
  /-- Nothing else stands in front of it. -/
  padsBefore : Pads before
  /-- Nothing else stands behind it. -/
  padsAfter : Pads after
  /-- The quotes are of one of the two kinds. -/
  isQuote : quote = '\'' ∨ quote = '"'
  /-- The name is not empty. -/
  nonempty : name ≠ ""
  /-- There is no null character in the name. -/
  noNull : '\x00' ∉ name.toList

namespace ListedName

/-- The text of a name in a list. -/
def text (n : ListedName) : List Char :=
  n.before ++ (Quoted.enclose n.quote n.name.toList ++ n.after)

/-- The text of a list of names, with commas between them. -/
def listText (listed : List ListedName) : List Char :=
  [','].intercalate (listed.map text)

/-- A single name is listed by itself. -/
theorem listText_singleton (n : ListedName) : listText [n] = n.text :=
  List.intercalate_singleton

/-- Names that are listed stand between commas. -/
theorem listText_cons_cons (n next : ListedName) (listed : List ListedName) :
    listText (n :: next :: listed) = n.text ++ ',' :: listText (next :: listed) := by
  rw [listText, listText, List.map_cons, List.map_cons, List.intercalate_cons_cons,
    List.append_assoc]
  rfl

/-- A list of names begins with the spaces and tabs in front of the first quote. -/
theorem exists_listText_eq {listed : List ListedName} (h : listed ≠ []) :
    ∃ n ∈ listed, ∃ tail, listText listed = n.before ++ n.quote :: tail := by
  obtain ⟨n, listed, rfl⟩ := List.exists_cons_of_ne_nil h
  refine ⟨n, by simp, ?_⟩
  cases listed with
  | nil =>
      rw [listText_singleton, text, Quoted.enclose_append]
      exact ⟨_, rfl⟩
  | cons next listed =>
      rw [listText_cons_cons, text, List.append_assoc, List.append_assoc, Quoted.enclose_append]
      exact ⟨_, rfl⟩

end ListedName

namespace Selector

/-- Names are read with spaces and tabs around them, in every state of the loop. -/
theorem skipsPads_readNames (done : List String) (settled : Bool) :
    SkipsPads (readNames done settled) where
  pad c s hc := by
    rw [readNames]
    rcases (by simpa [isPad] using hc : c = ' ' ∨ c = '\t') with rfl | rfl <;> rfl
  lineEnd c s hblank hpad := by
    rw [readNames]
    rcases eq_of_isBlank hblank hpad with rfl | rfl <;> rfl

/-- The reader of names skips pads. -/
theorem readNames_pads {pads : List Char} (h : Pads pads) (done : List String) (settled : Bool)
    (s : List Char) : readNames done settled (pads ++ s) = readNames done settled s :=
  (skipsPads_readNames done settled).pads h s

/-- A quoted name is added to those that were read. -/
theorem readNames_enclose {quote : Char} (hquote : quote = '\'' ∨ quote = '"') {name : String}
    (hname : name ≠ "") (hnull : '\x00' ∉ name.toList) (done : List String) (rest : List Char) :
    readNames done false (Quoted.enclose quote name.toList ++ rest) =
      readNames (done ++ [name]) true rest := by
  have hsplit : Quoted.split '\\' quote (· == '\x00')
      (Quoted.escape quote name.toList ++ quote :: rest) =
        .ok (Quoted.escape quote name.toList, rest) :=
    Quoted.split_escape (by rcases hquote with rfl | rfl <;> decide)
      (fun c hc => beq_eq_false_iff_ne.2 (by rintro rfl; exact hnull hc)) rest
  have hbody : Quoted.escape quote name.toList ≠ [] := Quoted.escape_ne_nil (by simpa using hname)
  have hbracket : quote ≠ ']' := by rcases hquote with rfl | rfl <;> decide
  rw [Quoted.enclose_append, readNames, if_neg hbracket, if_pos hquote, if_neg (by simp)]
  split
  · next hfault =>
      rw [hsplit] at hfault
      cases hfault
  · next hok =>
      rw [hsplit] at hok
      obtain ⟨rfl, rfl⟩ := Prod.mk.inj (Except.ok.inj hok)
      rw [if_neg (by simpa using hbody), Quoted.unquote_escape, String.ofList_toList]

/-- A comma asks for a further name. -/
theorem readNames_comma (done : List String) (s : List Char) :
    readNames done true (',' :: s) = readNames done false s := by
  rw [readNames]
  rfl

/-- The closing bracket ends the names. -/
theorem readNames_close (done : List String) (s : List Char) :
    readNames done true (']' :: s) = .ok (done, ']' :: s) := by
  rw [readNames]
  rfl

/-- Names are read one by one, up to the bracket that closes their list. -/
theorem readNames_listed {listed : List ListedName} (h : listed ≠ []) (done : List String)
    (rest : List Char) : readNames done false (ListedName.listText listed ++ ']' :: rest) =
      .ok (done ++ listed.map ListedName.name, ']' :: rest) := by
  induction listed generalizing done with
  | nil => exact absurd rfl h
  | cons n listed ih =>
      have hfirst (s : List Char) : readNames done false (n.text ++ s) =
          readNames (done ++ [n.name]) true s := by
        rw [ListedName.text, List.append_assoc, List.append_assoc, readNames_pads n.padsBefore,
          readNames_enclose n.isQuote n.nonempty n.noNull, readNames_pads n.padsAfter]
      cases listed with
      | nil =>
          rw [ListedName.listText_singleton, hfirst, readNames_close]
          rfl
      | cons next listed =>
          rw [ListedName.listText_cons_cons, List.append_assoc, hfirst, List.cons_append,
            readNames_comma, ih (List.cons_ne_nil _ _), List.append_assoc]
          rfl

/-- Names in brackets are read with the bracket that closes them. -/
theorem readBracketed_listed {listed : List ListedName} (h : listed ≠ []) (rest : List Char) :
    readBracketed (ListedName.listText listed ++ ']' :: rest) =
      .ok (.names (listed.map ListedName.name), rest) := by
  have hread := readNames_listed h [] rest
  obtain ⟨n, -, tail, htext⟩ := ListedName.exists_listText_eq h
  have hquote := n.isQuote
  rw [htext, List.append_assoc, List.cons_append] at hread ⊢
  rw [readNames_pads n.padsBefore] at hread
  have hskip (s : List Char) : skipBlanks (n.before ++ n.quote :: s) = n.quote :: s :=
    skipBlanks_append_eq n.padsBefore.isBlank
      (by rcases hquote with hquote | hquote <;> rw [hquote] <;> rfl) s
  have hlisted : readListed (n.quote :: (tail ++ ']' :: rest)) =
      .ok (.names (listed.map ListedName.name), ']' :: rest) := by
    have hother : n.quote ≠ '?' ∧ n.quote ≠ '*' := by
      rcases hquote with hquote | hquote <;> rw [hquote] <;> decide
    rw [readListed_cons hother.1 hother.2, if_pos hquote, hread]
    rfl
  rw [readBracketed, hskip, hlisted]
  rfl

end Selector

/-! ### Filters and paths -/

/-- **What is put in quotes is read back.** In a filter a text in quotes of either kind is the token
of that text, wherever it stands and whatever follows it, and the reading goes on right behind the
closing quote. In brackets a list of names, each in quotes of either kind, is a path of one segment
that selects exactly those names, in their order. -/
theorem quoted_read_back :
    (∀ quote, quote = '\'' ∨ quote = '"' → ∀ (before s after : String) (previous : Role),
      Token.readAt (before ++ String.ofList (Quoted.enclose quote s.toList) ++ after)
          (byteSize before.toList) previous =
        ⟨.ok (.text s, byteSize before.toList),
          byteSize before.toList + byteSize (Quoted.enclose quote s.toList)⟩) ∧
    ∀ listed : List ListedName, listed ≠ [] →
      Path.ofString ("$[" ++ String.ofList (ListedName.listText listed) ++ "]") =
        .ok ⟨[⟨.names (listed.map ListedName.name), false⟩]⟩ := by
  constructor
  · intro quote hquote before s after previous
    exact Token.readAt_enclose hquote previous before s after
  · intro listed hlisted
    have hread : Selector.readBracketed
        ((String.ofList (ListedName.listText listed)).toList ++ [']']) =
          .ok (.names (listed.map ListedName.name), []) := by
      rw [String.toList_ofList]
      exact Selector.readBracketed_listed hlisted []
    rw [Path.ofString_brackets_iff]
    · exact ⟨_, hread, rfl⟩
    · intro selector rest h
      rw [hread] at h
      exact (Prod.mk.inj (Except.ok.inj h)).2.symm

/-- A text with a backslash and both quotes in a filter, and two names with separators in them. -/
theorem quoted_read_back_bothQuotes :
    Token.readAt ("@ == " ++ "'\\'\"\\\\'" ++ ")") 5 .binary = ⟨.ok (.text "'\"\\", 5), 12⟩ ∧
      Path.ofString ("$[" ++ "'a,]' ,\t\"it's\"" ++ "]") =
        .ok ⟨[⟨.names ["a,]", "it's"], false⟩]⟩ := by
  have hquoted : String.ofList (Quoted.enclose '\'' "'\"\\".toList) = "'\\'\"\\\\'" := by decide
  have hsizes : byteSize "@ == ".toList = 5 ∧
      byteSize (Quoted.enclose '\'' "'\"\\".toList) = 7 := by decide
  have htoken := quoted_read_back.1 '\'' (.inl rfl) "@ == " "'\"\\" ")" .binary
  rw [hquoted, hsizes.1, hsizes.2] at htoken
  obtain ⟨first, hfirst, hfirstName⟩ : ∃ n : ListedName,
      n.text = "'a,]' ".toList ∧ n.name = "a,]" :=
    ⟨⟨[], '\'', "a,]", [' '], pads_nil, by simp [Pads], .inl rfl, by decide, by decide⟩,
      by decide, rfl⟩
  obtain ⟨second, hsecond, hsecondName⟩ : ∃ n : ListedName,
      n.text = "\t\"it's\"".toList ∧ n.name = "it's" :=
    ⟨⟨['\t'], '"', "it's", [], by simp [Pads], pads_nil, .inr rfl, by decide, by decide⟩,
      by decide, rfl⟩
  have hpath := quoted_read_back.2 [first, second] (by simp)
  have hlist : String.ofList (ListedName.listText [first, second]) = "'a,]' ,\t\"it's\"" := by
    rw [ListedName.listText_cons_cons, ListedName.listText_singleton, hfirst, hsecond]
    decide
  rw [hlist, List.map_cons, List.map_singleton, hfirstName, hsecondName] at hpath
  exact ⟨htoken, hpath⟩

end JsonPath
