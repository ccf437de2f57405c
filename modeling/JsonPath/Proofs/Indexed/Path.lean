import JsonPath.Proofs.Indexed.Token

/-!
# Paths Read from Bytes

A program that holds a path as its bytes keeps the place it has come to as an offset. It ends a name
or a number where no byte of its class stands, finds the closing quote of a name by the byte of the
opening one, and takes the name, the number or the call in between as a part of the text. All these
offsets are those of rests of the path: a class of ASCII characters ends in front of a character, a
quote and a bracket are characters of one byte, and an escaped character is told by one byte more.
So no part of a path is missing, and the program comes to what the reader of paths comes to
(`compile_eq`), be that a path or an error.

A list of names and a list of positions are read in one loop each, which decides at every byte
whether a name or a number is open. The offset of its beginning is what the loop keeps of it. The
positions are gathered in one list with marks of what was seen between them (`Listing`), which says
the same as the kind of list and the numbers that the reader keeps (`listingOf`).

## Main definitions

* `readFilter`, `readNames`, `readPositions`, `readDotted`: the bodies of a segment, from an offset
  on.
* `readSegment`, `readSegments`: one segment, and all that follow.
* `compile`: the path that a text denotes.

## Main results

* `readNames_offsetIn`, `readPositions_offsetIn`: the loops end where the readers do.
* `readSegment_offsetIn`: a segment at an offset is the one that the reader finds there.
* `compile_eq`: **the path is read, or refused, without a part that does not exist**.
-/

namespace JsonPath.Indexed

open Text

variable {text s : List Char}

/-! ### Filters -/

/-- Feeds tokens from an offset on, up to the parenthesis that closes the filter. -/
def runFilter (text : List Char) (a : Arrangement) (i : Nat) : Checked (Arrangement × Nat) := do
  let (t, start, stop) ← nextToken text a.previous i
  match a.feed t with
  | none => unparsable text start
  | some (.done b) => pure (b, stop)
  | some (.more b) =>
    let depth ← tally text b.depth
    onward text i stop fun _ => runFilter text { b with depth := depth } stop
termination_by byteSize text - i

/-- The filter in parentheses that begins at an offset. -/
def readFilter (text : List Char) (start : Nat) : Checked (List Token × Nat) := do
  if byteAt? text start = some '(' then
    let (a, stop) ← runFilter text .start (start + 1)
    if a.stack.contains .opening then
      let expression ← slice text start stop
      throw (.unbalanced start (String.ofList expression))
    else
      pure (a.output ++ a.stack, stop)
  else
    unparsable text start

/-- **Tokens are fed** as the reader feeds them. No more parentheses are open than there are bytes
in front of the next token. -/
theorem runFilter_offsetIn (a : Arrangement) (h : s <:+ text) (hdepth : a.depth ≤ offsetIn text s) :
    runFilter text a (offsetIn text s) = settle text ((a.run s).mapError .unparsable) := by
  fun_induction Arrangement.run a s with
  | case1 a s rest hnext =>
      rw [runFilter, nextToken_offsetIn _ h, hnext]
      rfl
  | case2 a s t rest hnext _ hfeed =>
      rw [runFilter, nextToken_offsetIn _ h, hnext]
      simp only [pure_bind, hfeed]
      exact unparsable_offsetIn ((suffix_skipBlanks s).trans h)
  | case3 a s t rest hnext _ b hfeed =>
      rw [runFilter, nextToken_offsetIn _ h, hnext]
      simp only [pure_bind, hfeed]
      rfl
  | case4 a s t rest hnext hlt b hfeed ih =>
      obtain ⟨u, -, hu, -⟩ := Token.next_of_stopsAt hnext
      have hrest := (hu ▸ List.suffix_append u rest).trans h
      have hlater : offsetIn text s < offsetIn text rest :=
        not_le.1 fun hle => Nat.not_le_of_lt hlt ((offsetIn_le_iff hrest h).1 hle)
      have hdepth : b.depth ≤ offsetIn text rest := by
        have hmore := Arrangement.depth_le_of_feed hfeed
        omega
      rw [runFilter, nextToken_offsetIn _ h, hnext]
      simp only [pure_bind, hfeed, tally_of_le (hdepth.trans (offsetIn_le_byteSize rest))]
      exact (onward_offsetIn h hrest hlt _).trans (ih hrest hdepth)

/-- **A filter** is the one that the reader finds. -/
theorem readFilter_offsetIn (h : s <:+ text) :
    readFilter text (offsetIn text s) = settle text (Filter.read s) := by
  rw [readFilter]
  simp (disch := decide) only [byteAt?_eq_some_iff h]
  split
  · next hopening =>
      obtain ⟨s, rfl⟩ := List.head?_eq_some_iff.1 hopening
      have hdepth : Arrangement.start.depth ≤ offsetIn text s := by
        rw [← offsetIn_succ h (by decide)]
        exact Nat.le_add_left 1 _
      rw [offsetIn_succ h (by decide), runFilter_offsetIn _ ((List.suffix_cons _ _).trans h) hdepth,
        Filter.read]
      cases hrun : Arrangement.start.run s with
      | error rest => rfl
      | ok p =>
          obtain ⟨a, rest⟩ := p
          simp [Except.mapError, Arrangement.opening_notMem_of_run hrun]
  · next hopening =>
      rw [unparsable_offsetIn h, Filter.read]
      · rfl
      · rintro s rfl
        exact hopening rfl

/-! ### Names -/

/-- The names of a list from an offset on, up to the bracket that closes it. `opened` is the offset
of the quote that is open, `settled` says whether a name was read since the last comma. -/
def readNames (text : List Char) (names : List String) (opened : Option Nat) (settled : Bool)
    (i : Nat) : Checked (List String × Nat) := do
  match byteAt? text i with
  | none => unparsable text i
  | some b =>
    match opened with
    | none =>
      if b = ']' then
        if settled then pure (names, i) else unparsable text i
      else if b = '\'' ∨ b = '"' then
        if settled then unparsable text i
        else onward text i (i + 1) fun _ => readNames text names (some i) settled (i + 1)
      else if isPad b then
        onward text i (i + 1) fun _ => readNames text names none settled (i + 1)
      else if b = ',' then
        if settled then onward text i (i + 1) fun _ => readNames text names none false (i + 1)
        else unparsable text i
      else
        unparsable text i
    | some start =>
      if (b = '\'' ∨ b = '"') ∧ byteAt? text start = some b then
        if start + 1 = i then
          unparsable text start
        else
          let body ← slice text (start + 1) i
          onward text i (i + 1) fun _ =>
            readNames text (names ++ [String.ofList (Quoted.unquote body)]) none true (i + 1)
      else if b = '\\' then
        let next := byteAt? text (i + 1)
        if next ≠ some '\\' ∧ next ≠ byteAt? text start then unparsable text i
        else onward text i (i + 2) fun _ => readNames text names (some start) settled (i + 2)
      else if b = '\x00' then
        unparsable text i
      else
        onward text i (i + 1) fun _ => readNames text names (some start) settled (i + 1)
termination_by byteSize text - i

section Quoted

variable {quote : Char} (hquote : quote = '\'' ∨ quote = '"')

include hquote

/-- Either quote is an ASCII character. -/
theorem toNat_lt_of_quote : quote.toNat < 128 := by
  rcases hquote with rfl | rfl <;> decide

/-- One byte inside quotes. -/
theorem readNames_inside {start i : Nat} {b : Char} (hstart : byteAt? text start = some quote)
    (hi : byteAt? text i = some b) (names : List String) (settled : Bool) :
    readNames text names (some start) settled i =
      if b = quote then
        if start + 1 = i then unparsable text start
        else slice text (start + 1) i >>= fun body =>
          readNames text (names ++ [String.ofList (Quoted.unquote body)]) none true (i + 1)
      else if b = '\\' then
        if byteAt? text (i + 1) = some '\\' ∨ byteAt? text (i + 1) = some quote then
          onward text i (i + 2) fun _ => readNames text names (some start) settled (i + 2)
        else unparsable text i
      else if b = '\x00' then unparsable text i
      else readNames text names (some start) settled (i + 1) := by
  have hclosing : ((b = '\'' ∨ b = '"') ∧ some quote = some b) ↔ b = quote := by
    rw [Option.some.injEq]
    exact ⟨fun h => h.2.symm, fun h => ⟨h ▸ hquote, h.symm⟩⟩
  rw [readNames, hi]
  simp only [hstart, hclosing, ← not_or, ite_not, onward_succ (lt_of_byteAt? hi)]

variable {whole : List Char} (h : quote :: whole <:+ text)

include h

/-- The quote that is open stands at its offset. -/
theorem byteAt?_opened : byteAt? text (offsetIn text (quote :: whole)) = some quote := by
  rw [byteAt?_cons h, lead_of_ascii (toNat_lt_of_quote hquote)]

/-- The closing quote adds the name that was passed, unless that is empty. -/
theorem readNames_closing {passed rest : List Char} (hwhole : whole = passed ++ quote :: rest)
    (names : List String) (settled : Bool) :
    readNames text names (some (offsetIn text (quote :: whole))) settled
        (offsetIn text (quote :: rest)) =
      if passed.isEmpty then throw ((Fault.unparsable (quote :: whole)).report text)
      else readNames text (names ++ [String.ofList (Quoted.unquote passed)]) none true
        (offsetIn text rest) := by
  subst hwhole
  have hascii := toNat_lt_of_quote hquote
  have hinside := (List.suffix_cons _ _).trans h
  have hs := (List.suffix_append passed (quote :: rest)).trans hinside
  rw [readNames_inside hquote (byteAt?_opened hquote h) (byteAt?_cons hs)]
  simp only [lead_of_ascii hascii, if_true, offsetIn_succ h hascii, offsetIn_succ hs hascii,
    offsetIn_inj hinside hs, List.append_left_eq_self, List.isEmpty_iff]
  split
  · exact unparsable_offsetIn h
  · rw [slice_offsetIn hinside, pure_bind]

/-- A backslash is passed with the quote or the backslash behind it, and refused in front of
anything else. -/
theorem readNames_backslash (hs : '\\' :: s <:+ text) (hne : '\\' ≠ quote) (names : List String)
    (settled : Bool) :
    readNames text names (some (offsetIn text (quote :: whole))) settled
        (offsetIn text ('\\' :: s)) =
      if s.head? = some '\\' ∨ s.head? = some quote then
        readNames text names (some (offsetIn text (quote :: whole))) settled (offsetIn text s.tail)
      else throw ((Fault.unparsable ('\\' :: s)).report text) := by
  have hascii := toNat_lt_of_quote hquote
  have hescape : '\\'.toNat < 128 := by decide
  have htail := (List.suffix_cons _ _).trans hs
  rw [readNames_inside hquote (byteAt?_opened hquote h) (byteAt?_cons hs), lead_of_ascii hescape,
    if_neg hne, if_pos rfl]
  simp only [offsetIn_succ hs hescape, byteAt?_eq_some_iff htail hescape,
    byteAt?_eq_some_iff htail hascii]
  split
  · next hhead =>
      rcases s with - | ⟨d, tail⟩
      · simp at hhead
      have hd : d = '\\' ∨ d = quote := by simpa using hhead
      have hd' : d.toNat < 128 := by rcases hd with rfl | rfl <;> assumption
      have hskip : offsetIn text ('\\' :: d :: tail) + 2 = offsetIn text tail := by
        rw [← offsetIn_succ htail hd', ← offsetIn_succ hs hescape]
      rw [hskip]
      exact onward_offsetIn hs ((List.suffix_cons _ _).trans htail) (by simp) _
  · exact unparsable_offsetIn hs

/-- A character that is no quote, no backslash and no null is passed. -/
theorem readNames_passed {c : Char} (hs : c :: s <:+ text) (hne : c ≠ quote) (hescape : c ≠ '\\')
    (hnull : c ≠ '\x00') (names : List String) (settled : Bool) :
    readNames text names (some (offsetIn text (quote :: whole))) settled (offsetIn text (c :: s)) =
      readNames text names (some (offsetIn text (quote :: whole))) settled (offsetIn text s) := by
  refine eq_of_passes hs fun b hb i hi => ?_
  rw [readNames_inside hquote (byteAt?_opened hquote h) hi, if_neg, if_neg, if_neg]
  · rwa [eq_iff_of_mem_bytesOf hb (by decide)]
  · rwa [eq_iff_of_mem_bytesOf hb (by decide)]
  · rwa [eq_iff_of_mem_bytesOf hb (toNat_lt_of_quote hquote)]

/-- **A quoted name is read up to its closing quote.** `whole` is what follows the opening quote,
and `before` the part of it that was passed. -/
theorem readNames_quoted {before : List Char} (hwhole : whole = before ++ s) (names : List String)
    (settled : Bool) :
    readNames text names (some (offsetIn text (quote :: whole))) settled (offsetIn text s) =
      match Quoted.split '\\' quote (· == '\x00') s with
      | .error rest => throw ((Fault.unparsable rest).report text)
      | .ok (body, rest) =>
        if (before ++ body).isEmpty then
          throw ((Fault.unparsable (quote :: whole)).report text)
        else
          readNames text (names ++ [String.ofList (Quoted.unquote (before ++ body))]) none true
            (offsetIn text rest) := by
  have hs : s <:+ text :=
    (hwhole ▸ List.suffix_append before s).trans ((List.suffix_cons _ _).trans h)
  fun_induction Quoted.split '\\' quote (· == '\x00') s generalizing before with
  | case1 =>
      rw [readNames, byteAt?_nil hs]
      exact unparsable_offsetIn hs
  | case2 rest =>
      simp only [readNames_closing hquote h hwhole, List.append_nil]
  | case3 hne =>
      rw [readNames_backslash hquote h hs hne, if_neg (by simp)]
  | case4 d tail hd hne ih =>
      have htail := (List.suffix_append ['\\', d] tail).trans hs
      rw [readNames_backslash hquote h hs hne, if_pos (by simpa using hd.symm), List.tail_cons,
        @ih (before ++ ['\\', d]) (by simp [hwhole]) htail]
      cases Quoted.split '\\' quote (· == '\x00') tail <;> simp [Except.map]
  | case5 d tail hd hne =>
      rw [readNames_backslash hquote h hs hne, if_neg (by simpa [and_comm] using hd)]
  | case6 c rest hne hescape hbanned =>
      obtain rfl : c = '\x00' := by simpa using hbanned
      rw [readNames_inside hquote (byteAt?_opened hquote h) (byteAt?_cons hs),
        lead_of_ascii (by decide), if_neg hne, if_neg hescape, if_pos rfl]
      exact unparsable_offsetIn hs
  | case7 c rest hne hescape hbanned ih =>
      rw [readNames_passed hquote h hs hne hescape (by simpa using hbanned),
        @ih (before ++ [c]) (by simp [hwhole]) ((List.suffix_cons _ _).trans hs)]
      cases Quoted.split '\\' quote (· == '\x00') rest <;> simp [Except.map]

end Quoted

/-- One character between the names. -/
theorem readNames_outside {c : Char} (h : c :: s <:+ text) (names : List String) (settled : Bool) :
    readNames text names none settled (offsetIn text (c :: s)) =
      if c = ']' then
        if settled then pure (names, offsetIn text (c :: s))
        else unparsable text (offsetIn text (c :: s))
      else if c = '\'' ∨ c = '"' then
        if settled then unparsable text (offsetIn text (c :: s))
        else readNames text names (some (offsetIn text (c :: s))) settled
          (offsetIn text (c :: s) + 1)
      else if isPad c then readNames text names none settled (offsetIn text (c :: s) + 1)
      else if c = ',' then
        if settled then readNames text names none false (offsetIn text (c :: s) + 1)
        else unparsable text (offsetIn text (c :: s))
      else unparsable text (offsetIn text (c :: s)) := by
  have hbyte := byteAt?_cons h
  rw [readNames, hbyte]
  simp (disch := decide) only [lead_eq_iff, bytewise_isPad.lead, onward_succ (lt_of_byteAt? hbyte)]

/-- **The names of a list** are those that the reader finds. -/
theorem readNames_offsetIn (names : List String) (settled : Bool) (h : s <:+ text) :
    readNames text names none settled (offsetIn text s) =
      settle text (Selector.readNames names settled s) := by
  fun_induction Selector.readNames names settled s with
  | case1 =>
      rw [readNames, byteAt?_nil h]
      exact unparsable_offsetIn h
  | case2 names s =>
      rw [readNames_outside h, if_pos rfl, if_pos rfl, settle_ok]
  | case3 names settled s hsettled =>
      rw [readNames_outside h, if_pos rfl, if_neg hsettled]
      exact unparsable_offsetIn h
  | case4 names c s hbracket hquote =>
      rw [readNames_outside h, if_neg hbracket, if_pos hquote, if_pos rfl]
      exact unparsable_offsetIn h
  | case5 names settled c s hbracket hquote hsettled rest hsplit =>
      have hs := (List.suffix_cons _ _).trans h
      rw [readNames_outside h, if_neg hbracket, if_pos hquote, if_neg hsettled,
        offsetIn_succ h (toNat_lt_of_quote hquote),
        readNames_quoted hquote h (List.nil_append _).symm, hsplit]
      rfl
  | case6 names settled c s hbracket hquote hsettled body rest hsplit _ hbody =>
      rw [readNames_outside h, if_neg hbracket, if_pos hquote, if_neg hsettled,
        offsetIn_succ h (toNat_lt_of_quote hquote),
        readNames_quoted hquote h (List.nil_append _).symm, hsplit]
      exact if_pos hbody
  | case7 names settled c s hbracket hquote hsettled body rest hsplit _ hbody ih =>
      have hrest := ((Quoted.suffix_of_split hsplit).trans (List.suffix_cons _ _)).trans h
      rw [readNames_outside h, if_neg hbracket, if_pos hquote, if_neg hsettled,
        offsetIn_succ h (toNat_lt_of_quote hquote),
        readNames_quoted hquote h (List.nil_append _).symm, hsplit]
      exact (if_neg hbody).trans (ih hrest)
  | case8 names settled c s hbracket hquote hpad ih =>
      rw [readNames_outside h, if_neg hbracket, if_neg hquote, if_pos hpad,
        offsetIn_succ h (toNat_lt_of_isPad hpad)]
      exact ih ((List.suffix_cons _ _).trans h)
  | case9 names s hbracket hquote hpad ih =>
      rw [readNames_outside h, if_neg hbracket, if_neg hquote, if_neg hpad, if_pos rfl, if_pos rfl,
        offsetIn_succ h (by decide)]
      exact ih ((List.suffix_cons _ _).trans h)
  | case10 names settled s hsettled hbracket hquote hpad =>
      rw [readNames_outside h, if_neg hbracket, if_neg hquote, if_neg hpad, if_pos rfl,
        if_neg hsettled]
      exact unparsable_offsetIn h
  | case11 names settled c s hbracket hquote hpad hcomma =>
      rw [readNames_outside h, if_neg hbracket, if_neg hquote, if_neg hpad, if_neg hcomma]
      exact unparsable_offsetIn h

/-! ### Positions -/

/-- What was read of a list of positions or of a slice. -/
structure Listing where
  /-- The numbers, those of a slice as well. -/
  values : List Int
  /-- Whether a number was read since the last comma or colon. -/
  parsed : Bool
  /-- Whether there was a comma. -/
  isList : Bool
  /-- Whether there was a colon. -/
  isSlice : Bool
  /-- Whether a number was read before the colon. -/
  hasStart : Bool

namespace Listing

/-- The selector that a listing stands for once it is closed, if it stands for one. -/
def selector? (l : Listing) : Option Selector :=
  if l.isSlice then
    some (.slice (if l.hasStart then l.values.head? else none)
      (if l.parsed then l.values.getLast? else none))
  else if l.parsed then
    some (.indices l.values)
  else
    none

/-- The number that began at an offset, if one did, ends at `i`. -/
def endNumber (text : List Char) (l : Listing) (number : Option Nat) (i : Nat) :
    Checked Listing :=
  match number with
  | none => pure l
  | some start => do
    let digits ← slice text start i
    match Selector.integer? digits with
    | none => unparsable text start
    | some k => pure { l with values := l.values ++ [k], parsed := true }

end Listing

mutual

/-- Positions or a slice from an offset on, up to the bracket that closes them. `number` is the
offset of the number that is being read. -/
def readPositions (text : List Char) (l : Listing) (number : Option Nat) (i : Nat) :
    Checked (Selector × Nat) := do
  if (byteAt? text i).any Char.isDigit then
    if number.isNone then
      if l.parsed then unparsable text i
      else onward text i (i + 1) fun _ => readPositions text l (some i) (i + 1)
    else
      onward text i (i + 1) fun _ => readPositions text l number (i + 1)
  else if byteAt? text i = some '-' then
    if number.isSome ∨ l.parsed then unparsable text i
    else onward text i (i + 1) fun _ => readPositions text l (some i) (i + 1)
  else
    let l ← l.endNumber text number i
    readMark text l i
termination_by (byteSize text - i, 1)

/-- What may stand between the numbers. -/
def readMark (text : List Char) (l : Listing) (i : Nat) : Checked (Selector × Nat) := do
  if byteAt? text i = some ']' then
    match l.selector? with
    | none => unparsable text i
    | some selector => pure (selector, i)
  else if byteAt? text i = some ':' then
    if l.isSlice ∨ l.isList then
      unparsable text i
    else
      onward text i (i + 1) fun _ =>
        readPositions text { l with isSlice := true, hasStart := l.parsed, parsed := false } none
          (i + 1)
  else if byteAt? text i = some ',' then
    if l.isSlice ∨ !l.parsed then
      unparsable text i
    else
      onward text i (i + 1) fun _ =>
        readPositions text { l with isList := true, parsed := false } none (i + 1)
  else if (byteAt? text i).any isPad then
    onward text i (i + 1) fun _ => readPositions text l none (i + 1)
  else
    unparsable text i
termination_by (byteSize text - i, 0)

end

/-- The listing that belongs to what the reader holds. -/
def listingOf (kind : Selector.Positions) (done : List Int) (current : Option Int) : Listing :=
  match kind with
  | .undecided => ⟨done ++ current.toList, current.isSome, false, false, false⟩
  | .list => ⟨done ++ current.toList, current.isSome, true, false, false⟩
  | .slice start => ⟨start.toList ++ current.toList, current.isSome, false, true, start.isSome⟩

/-- A position has been read exactly if there is a current one. -/
theorem parsed_listingOf (kind : Selector.Positions) (done : List Int) (current : Option Int) :
    (listingOf kind done current).parsed = current.isSome := by
  cases kind <;> rfl

/-- Unless the reader is in a slice, the listing is none. -/
theorem isSlice_listingOf {kind : Selector.Positions} (hkind : ∀ start, kind ≠ .slice start)
    (done : List Int) (current : Option Int) : (listingOf kind done current).isSlice = false := by
  cases kind with
  | slice start => exact absurd rfl (hkind start)
  | _ => rfl

/-- In a slice the listing gives the slice with its bounds. -/
theorem selector?_listingOf_slice (start : Option Int) (done : List Int) (stop : Option Int) :
    (listingOf (.slice start) done stop).selector? = some (.slice start stop) := by
  cases start <;> cases stop <;> rfl

/-- Outside slices the listing gives the positions, if there is a current one to end them. -/
theorem selector?_listingOf {kind : Selector.Positions} (hkind : ∀ start, kind ≠ .slice start)
    (done : List Int) (current : Option Int) :
    (listingOf kind done current).selector? = current.map fun k => .indices (done ++ [k]) := by
  cases kind with
  | slice start => exact absurd rfl (hkind start)
  | _ => cases current <;> rfl

/-- A colon makes a slice of what was read. -/
theorem listingOf_colon (current : Option Int) :
    { listingOf .undecided [] current with
      isSlice := true, hasStart := (listingOf .undecided [] current).parsed, parsed := false } =
        listingOf (.slice current) [] none := by
  simp [listingOf]

/-- A comma makes a list of what was read. -/
theorem listingOf_comma {kind : Selector.Positions} (hkind : ∀ start, kind ≠ .slice start)
    (done : List Int) (k : Int) :
    { listingOf kind done (some k) with isList := true, parsed := false } =
      listingOf .list (done ++ [k]) none := by
  cases kind with
  | slice start => exact absurd rfl (hkind start)
  | _ => simp [listingOf]

/-- Where neither a digit nor a minus sign stands, a number ends. -/
theorem readPositions_of_mark (h : s <:+ text) (hdigit : ∀ c ∈ s.head?, c.isDigit = false)
    (hminus : s.head? ≠ some '-') (l : Listing) (number : Option Nat) :
    readPositions text l number (offsetIn text s) =
      l.endNumber text number (offsetIn text s) >>= fun l => readMark text l (offsetIn text s) := by
  rw [readPositions]
  simp (disch := decide) only [any_byteAt? bytewise_isDigit h, byteAt?_eq_some_iff h, if_neg hminus]
  rw [if_neg (by cases hs : s.head? <;> simp_all)]

/-- The digits of a number are passed. -/
theorem readPositions_digits (h : s <:+ text) (l : Listing) (start : Nat) :
    readPositions text l (some start) (offsetIn text s) =
      readPositions text l (some start) (offsetIn text (s.dropWhile Char.isDigit)) := by
  induction s with
  | nil => rfl
  | cons c s ih =>
      by_cases hc : c.isDigit = true
      · have hs := (List.suffix_cons _ _).trans h
        rw [List.dropWhile_cons_of_pos hc, ← ih hs, readPositions, any_byteAt? bytewise_isDigit h,
          if_pos (by simpa using hc), offsetIn_succ h (toNat_lt_of_isDigit hc)]
        exact onward_offsetIn h hs (Nat.lt_succ_self _) _
      · rw [List.dropWhile_cons_of_neg hc]

/-- A number that is read becomes the current position. -/
theorem listingOf_number (kind : Selector.Positions) (done : List Int) (k : Int) :
    { listingOf kind done none with
      values := (listingOf kind done none).values ++ [k], parsed := true } =
        listingOf kind done (some k) := by
  cases kind <;> simp [listingOf]

/-- **A number** is read from its first character up to what is no digit. -/
theorem readPositions_number {c : Char} (h : c :: s <:+ text) (hc : c = '-' ∨ c.isDigit = true)
    (kind : Selector.Positions) (done : List Int) :
    readPositions text (listingOf kind done none) none (offsetIn text (c :: s)) =
      if (s.dropWhile Char.isDigit).head? = some '-' then
        throw ((Fault.unparsable (s.dropWhile Char.isDigit)).report text)
      else
        match Selector.integer? (c :: s.takeWhile Char.isDigit) with
        | none => throw ((Fault.unparsable (c :: s)).report text)
        | some k => readPositions text (listingOf kind done (some k)) none
            (offsetIn text (s.dropWhile Char.isDigit)) := by
  have hs := (List.suffix_cons _ _).trans h
  have hrest : s.dropWhile Char.isDigit <:+ text := (List.dropWhile_suffix _).trans hs
  have hascii : c.toNat < 128 := by
    rcases hc with rfl | hc
    · decide
    · exact toNat_lt_of_isDigit hc
  have hnone : (listingOf kind done none).parsed = false := parsed_listingOf kind done none
  have hfirst : readPositions text (listingOf kind done none) none (offsetIn text (c :: s)) =
      readPositions text (listingOf kind done none) (some (offsetIn text (c :: s)))
        (offsetIn text s) := by
    rw [readPositions]
    simp (disch := decide) only [any_byteAt? bytewise_isDigit h, byteAt?_eq_some_iff h,
      onward_succ (lt_of_byteAt? (byteAt?_cons h)), offsetIn_succ h hascii, hnone]
    rcases hc with rfl | hc
    · rfl
    · simp [hc]
  have hdigit : ∀ d ∈ (s.dropWhile Char.isDigit).head?, d.isDigit = false :=
    head_dropWhile_eq_false
  rw [hfirst, readPositions_digits hs]
  split
  · next hminus =>
      obtain ⟨rest, heq⟩ := List.head?_eq_some_iff.1 hminus
      rw [heq] at hrest ⊢
      rw [readPositions]
      simp (disch := decide) only [any_byteAt? bytewise_isDigit hrest, byteAt?_eq_some_iff hrest]
      exact unparsable_offsetIn hrest
  · next hminus =>
      have hnumber : c :: s.takeWhile Char.isDigit ++ s.dropWhile Char.isDigit <:+ text := by
        rwa [List.cons_append, List.takeWhile_append_dropWhile]
      have hslice := slice_offsetIn hnumber
      rw [List.cons_append, List.takeWhile_append_dropWhile] at hslice
      rw [readPositions_of_mark hrest hdigit hminus, Listing.endNumber, hslice, pure_bind]
      cases Selector.integer? (c :: s.takeWhile Char.isDigit) with
      | none =>
          dsimp only
          rw [unparsable_offsetIn h]
          rfl
      | some k =>
          dsimp only
          rw [readPositions_of_mark hrest hdigit hminus, pure_bind, listingOf_number]
          rfl

/-- A number behind a number is refused. -/
theorem readPositions_again {c : Char} (h : c :: s <:+ text) (hc : c = '-' ∨ c.isDigit = true)
    {l : Listing} (hl : l.parsed = true) :
    readPositions text l none (offsetIn text (c :: s)) =
      throw ((Fault.unparsable (c :: s)).report text) := by
  rw [readPositions]
  simp (disch := decide) only [any_byteAt? bytewise_isDigit h, byteAt?_eq_some_iff h, hl]
  rcases hc with rfl | hdigit
  · exact unparsable_offsetIn h
  · simp [hdigit, unparsable_offsetIn h]

/-- One character between the numbers. -/
theorem readPositions_between {c : Char} (h : c :: s <:+ text)
    (hc : ¬ (c = '-' ∨ c.isDigit = true)) (l : Listing) :
    readPositions text l none (offsetIn text (c :: s)) =
      if c = ']' then
        match l.selector? with
        | none => unparsable text (offsetIn text (c :: s))
        | some selector => pure (selector, offsetIn text (c :: s))
      else if c = ':' then
        if l.isSlice ∨ l.isList then unparsable text (offsetIn text (c :: s))
        else readPositions text
          { l with isSlice := true, hasStart := l.parsed, parsed := false } none
          (offsetIn text (c :: s) + 1)
      else if c = ',' then
        if l.isSlice ∨ !l.parsed then unparsable text (offsetIn text (c :: s))
        else readPositions text { l with isList := true, parsed := false } none
          (offsetIn text (c :: s) + 1)
      else if isPad c then readPositions text l none (offsetIn text (c :: s) + 1)
      else unparsable text (offsetIn text (c :: s)) := by
  rw [not_or] at hc
  rw [readPositions_of_mark h (by simpa using hc.2) (by simpa using hc.1)]
  refine (pure_bind _ _).trans ?_
  rw [readMark]
  simp (disch := decide) only [any_byteAt? bytewise_isPad h, byteAt?_eq_some_iff h, List.head?_cons,
    Option.some.injEq, Option.any_some, onward_succ (lt_of_byteAt? (byteAt?_cons h))]

/-- The closing bracket ends a listing that stands for a selector. -/
theorem readPositions_close (h : ']' :: s <:+ text) (l : Listing) :
    readPositions text l none (offsetIn text (']' :: s)) =
      settle? text (']' :: s) (l.selector?.map fun selector => (selector, ']' :: s)) := by
  rw [readPositions_between h (by decide), if_pos rfl]
  cases l.selector? with
  | none => exact unparsable_offsetIn h
  | some selector => rfl

/-- A colon makes a slice of one number or of none. -/
theorem readPositions_colon (h : ':' :: s <:+ text) (l : Listing) :
    readPositions text l none (offsetIn text (':' :: s)) =
      if l.isSlice ∨ l.isList then throw ((Fault.unparsable (':' :: s)).report text)
      else readPositions text { l with isSlice := true, hasStart := l.parsed, parsed := false } none
        (offsetIn text s) := by
  rw [readPositions_between h (by decide), if_neg (by decide), if_pos rfl,
    offsetIn_succ h (by decide), unparsable_offsetIn h]

/-- A comma asks for a further number of a list. -/
theorem readPositions_comma (h : ',' :: s <:+ text) (l : Listing) :
    readPositions text l none (offsetIn text (',' :: s)) =
      if l.isSlice ∨ !l.parsed then throw ((Fault.unparsable (',' :: s)).report text)
      else readPositions text { l with isList := true, parsed := false } none
        (offsetIn text s) := by
  rw [readPositions_between h (by decide), if_neg (by decide), if_neg (by decide), if_pos rfl,
    offsetIn_succ h (by decide), unparsable_offsetIn h]

/-- **Positions and slices** are those that the reader finds. -/
theorem readPositions_offsetIn {kind : Selector.Positions} {done : List Int}
    {current : Option Int} (hkind : kind = .undecided → done = []) (h : s <:+ text) :
    readPositions text (listingOf kind done current) none (offsetIn text s) =
      settle text (Selector.readPositions kind done current s) := by
  fun_induction Selector.readPositions kind done current s with
  | case1 kind done current =>
      rw [readPositions_of_mark h (by simp) (by simp)]
      refine (pure_bind _ _).trans ?_
      rw [readMark, byteAt?_nil h]
      exact unparsable_offsetIn h
  | case2 kind done current c s hnumber hcurrent =>
      exact readPositions_again h hnumber ((parsed_listingOf kind done current).trans hcurrent)
  | case3 kind done current c s hnumber hcurrent hminus =>
      obtain rfl : current = none := by simpa using hcurrent
      rw [readPositions_number h hnumber, if_pos hminus, settle_error]
  | case4 kind done current c s hnumber hcurrent hminus hnone =>
      obtain rfl : current = none := by simpa using hcurrent
      rw [readPositions_number h hnumber, if_neg hminus, hnone, settle_error]
  | case5 kind done current c s hnumber hcurrent hminus k hk _ ih =>
      obtain rfl : current = none := by simpa using hcurrent
      rw [readPositions_number h hnumber, if_neg hminus, hk]
      exact ih hkind (((List.dropWhile_suffix _).trans (List.suffix_cons _ _)).trans h)
  | case6 done s start stop =>
      rw [readPositions_close h, selector?_listingOf_slice]
      rfl
  | case7 kind done s k hslice | case8 kind done s hslice =>
      rw [readPositions_close h, selector?_listingOf hslice]
      rfl
  | case9 done current s hnumber hbracket ih =>
      obtain rfl := hkind rfl
      rw [readPositions_colon h, if_neg (by simp [listingOf]), listingOf_colon]
      exact ih (by simp) ((List.suffix_cons _ _).trans h)
  | case10 kind done current s hundecided =>
      refine (readPositions_colon h _).trans (if_pos ?_)
      cases kind with
      | undecided => exact (hundecided rfl).elim
      | _ => simp [listingOf]
  | case11 done current s start =>
      exact (readPositions_comma h _).trans (if_pos (by simp [listingOf]))
  | case12 kind done s k hslice hnumber hbracket hcolon ih =>
      rw [readPositions_comma h, if_neg (by simp [isSlice_listingOf hslice, parsed_listingOf]),
        listingOf_comma hslice]
      exact ih (by simp) ((List.suffix_cons _ _).trans h)
  | case13 kind done s hslice =>
      exact (readPositions_comma h _).trans (if_pos (by simp [parsed_listingOf]))
  | case14 kind done current c s hnumber hbracket hcolon hcomma hpad ih =>
      rw [readPositions_between h hnumber, if_neg hbracket, if_neg hcolon, if_neg hcomma,
        if_pos hpad, offsetIn_succ h (toNat_lt_of_isPad hpad)]
      exact ih hkind ((List.suffix_cons _ _).trans h)
  | case15 kind done current c s hnumber hbracket hcolon hcomma hpad =>
      rw [readPositions_between h hnumber, if_neg hbracket, if_neg hcolon, if_neg hcomma,
        if_neg hpad]
      exact unparsable_offsetIn h

/-! ### Segments -/

/-- What follows a point, from an offset on: `*`, a name, or a function call. -/
def readDotted (text : List Char) (start : Nat) : Checked (Selector × Nat) := do
  if byteAt? text start = some '*' then
    pure (.all, start + 1)
  else
    let stop := skipWhile isWord text start
    let close := skipWhile isBlank text (stop + 1)
    if byteAt? text stop = some '(' ∧ byteAt? text close = some ')' then
      let name ← slice text start stop
      match Aggregate.ofName? (String.ofList name) with
      | some function => pure (.apply function, close + 1)
      | none =>
        let construct ← slice text start (close + 1)
        throw (.unsupported start (String.ofList construct))
    else if stop = start then
      unparsable text start
    else
      let name ← slice text start stop
      pure (.names [String.ofList name], stop)

/-- What stands in brackets, from its first byte on. -/
def readListed (text : List Char) (i : Nat) : Checked (Selector × Nat) := do
  match byteAt? text i with
  | none => unparsable text i
  | some b =>
    if b = '?' then
      let (tokens, stop) ← readFilter text (i + 1)
      pure (.filter tokens, stop)
    else if b = '*' then
      pure (.all, i + 1)
    else if b = '\'' ∨ b = '"' then
      let (names, stop) ← readNames text [] none false i
      pure (.names names, stop)
    else if b.isDigit ∨ b = ':' ∨ b = '-' then
      readPositions text ⟨[], false, false, false, false⟩ none i
    else
      unparsable text i

/-- What stands in brackets, from behind the opening one on, with the closing one. -/
def readBracketed (text : List Char) (i : Nat) : Checked (Selector × Nat) := do
  let (selector, stop) ← readListed text (skipWhile isBlank text i)
  let close := skipWhile isBlank text stop
  if byteAt? text close = some ']' then pure (selector, close + 1) else unparsable text close

/-- The segment whose body begins at an offset, with that offset and the one behind it. `pointed`
says whether a point stands in front of the body. -/
def readBody (text : List Char) (pointed detached : Bool) (body : Nat) :
    Checked (Segment × Nat × Nat) := do
  let (selector, stop) ←
    if byteAt? text body = some '[' then
      readBracketed text (body + 1)
    else if pointed ∧ (byteAt? text body).any (· != '.') then
      readDotted text body
    else
      unparsable text body
  pure (⟨selector, detached⟩, body, stop)

/-- The segment that begins at an offset, the offset of its body, and the offset behind it. -/
def readSegment (text : List Char) (i : Nat) : Checked (Segment × Nat × Nat) :=
  if byteAt? text i = some '.' then
    if byteAt? text (i + 1) = some '.' then readBody text true true (i + 2)
    else readBody text true false (i + 1)
  else
    readBody text false false i

/-- The segments of a path from an offset on, after those that were read. -/
def readSegments (text : List Char) (segments : List Segment) (i : Nat) :
    Checked (List Segment) := do
  if i < byteSize text then
    let (segment, body, stop) ← readSegment text i
    if segments.getLast?.any Segment.isFunction ∧ !segment.isFunction then
      unparsable text body
    else
      onward text i stop fun _ => readSegments text (segments ++ [segment]) stop
  else
    pure segments
termination_by byteSize text - i

/-- The path that a text denotes. -/
def compile (text : List Char) : Checked Path := do
  if byteAt? text 0 ≠ some '$' ∨ byteSize text = 1 then
    throw .missingRoot
  else
    let segments ← readSegments text [] 1
    pure ⟨segments⟩

/-- The parentheses of a call are told by the bytes they begin and end with. -/
theorem callParentheses?_offsetIn (h : s <:+ text) :
    match Selector.callParentheses? s with
    | some (_, after) =>
      (byteAt? text (offsetIn text s) = some '(' ∧
        byteAt? text (skipWhile isBlank text (offsetIn text s + 1)) = some ')') ∧
        skipWhile isBlank text (offsetIn text s + 1) + 1 = offsetIn text after
    | none =>
      ¬ (byteAt? text (offsetIn text s) = some '(' ∧
        byteAt? text (skipWhile isBlank text (offsetIn text s + 1)) = some ')') := by
  rw [byteAt?_eq_some_iff h (by decide)]
  by_cases hopening : s.head? = some '('
  · obtain ⟨s, rfl⟩ := List.head?_eq_some_iff.1 hopening
    have hs := (List.suffix_cons _ _).trans h
    have hskip := (suffix_skipBlanks s).trans hs
    rw [offsetIn_succ h (by decide), skipWhile_offsetIn bytewise_isBlank hs,
      byteAt?_eq_some_iff ((List.dropWhile_suffix _).trans hs) (by decide)]
    rw [Selector.callParentheses?, ← skipBlanks]
    split
    · next hclosing =>
        split at hclosing
        · next after hafter =>
            obtain ⟨-, rfl⟩ := Prod.mk.inj (Option.some.inj hclosing)
            rw [hafter] at hskip ⊢
            exact ⟨⟨rfl, rfl⟩, offsetIn_succ hskip (by decide)⟩
        · cases hclosing
    · next hclosing =>
        rintro ⟨-, hbyte⟩
        obtain ⟨after, hafter⟩ := List.head?_eq_some_iff.1 hbyte
        rw [hafter] at hclosing
        cases hclosing
  · rw [Selector.callParentheses?_of_head fun c hc hc' => hopening (hc' ▸ hc)]
    exact fun hboth => hopening hboth.1

/-- A selector behind a point is read by offsets as it is read from the rest. -/
theorem readDotted_offsetIn (h : s <:+ text) :
    readDotted text (offsetIn text s) = settle text (Selector.readDotted s) := by
  have hrest := (List.dropWhile_suffix isWord).trans h
  rw [readDotted]
  simp (disch := decide) only [byteAt?_eq_some_iff h]
  by_cases hall : s.head? = some '*'
  · obtain ⟨rest, rfl⟩ := List.head?_eq_some_iff.1 hall
    rw [if_pos hall, offsetIn_succ h (by decide)]
    rfl
  have hsplit : s.takeWhile isWord ++ s.dropWhile isWord = s := List.takeWhile_append_dropWhile
  have hcall := callParentheses?_offsetIn hrest
  rw [if_neg hall, Selector.readDotted]
  · simp only [skipWhile_offsetIn bytewise_isWord h, slice_takeWhile isWord h]
    cases hparentheses : Selector.callParentheses? (s.dropWhile isWord) with
    | some p =>
        obtain ⟨parentheses, after⟩ := p
        rw [hparentheses] at hcall
        obtain ⟨hcall, hclose⟩ := hcall
        obtain ⟨hrest, -, -⟩ := Selector.callParentheses?_of_close hparentheses
        rw [if_pos hcall, hclose, pure_bind]
        cases Aggregate.ofName? (String.ofList (s.takeWhile isWord)) with
        | some f => rfl
        | none =>
            have hconstruct : s.takeWhile isWord ++ parentheses ++ after = s := by
              rw [List.append_assoc, ← hrest, hsplit]
            have hslice := slice_offsetIn (hconstruct.symm ▸ h)
            rw [hconstruct] at hslice
            simp only [hslice, pure_bind]
            rfl
    | none =>
        rw [hparentheses] at hcall
        rw [if_neg hcall]
        simp only [offsetIn_dropWhile_eq_iff h, List.isEmpty_iff]
        split
        · exact unparsable_offsetIn h
        · rfl
  · rintro rest rfl
    exact hall rfl

/-- What is listed is read by offsets as it is read from the rest. -/
theorem readListed_offsetIn (h : s <:+ text) :
    readListed text (offsetIn text s) = settle text (Selector.readListed s) := by
  rcases s with - | ⟨c, s⟩
  · rw [readListed, byteAt?_nil h]
    exact unparsable_offsetIn h
  have hs := (List.suffix_cons c s).trans h
  rw [readListed, byteAt?_cons h]
  simp (disch := decide) only [lead_eq_iff, bytewise_isDigit.lead]
  by_cases hfilter : c = '?'
  · subst hfilter
    rw [if_pos rfl, offsetIn_succ h (by decide), readFilter_offsetIn hs, Selector.readListed]
    cases Filter.read s <;> rfl
  by_cases hall : c = '*'
  · subst hall
    rw [if_neg hfilter, if_pos rfl, offsetIn_succ h (by decide)]
    rfl
  have hpositions :
      readPositions text (listingOf .undecided [] none) none (offsetIn text (c :: s)) =
        settle text (Selector.readPositions .undecided [] none (c :: s)) :=
    readPositions_offsetIn (fun _ => rfl) h
  rw [if_neg hfilter, if_neg hall, Selector.readListed_cons hfilter hall]
  split_ifs
  · rw [readNames_offsetIn [] false h]
    cases Selector.readNames [] false (c :: s) <;> rfl
  · exact hpositions
  · exact unparsable_offsetIn h

/-- A selector in brackets is read by offsets as it is read from the rest. -/
theorem readBracketed_offsetIn (h : s <:+ text) :
    readBracketed text (offsetIn text s) = settle text (Selector.readBracketed s) := by
  have hskip := (suffix_skipBlanks s).trans h
  rw [readBracketed, skipWhile_offsetIn bytewise_isBlank h, ← skipBlanks,
    readListed_offsetIn hskip, Selector.readBracketed]
  cases hlisted : Selector.readListed (skipBlanks s) with
  | error fault => rfl
  | ok p =>
      obtain ⟨selector, rest⟩ := p
      obtain ⟨u, hu, -⟩ := Selector.readListed_of_head_eq hlisted
      have hrest : rest <:+ text := (hu ▸ List.suffix_append u rest).trans hskip
      have hclose := (suffix_skipBlanks rest).trans hrest
      have hblanks :
          skipWhile isBlank text (offsetIn text rest) = offsetIn text (skipBlanks rest) :=
        skipWhile_offsetIn bytewise_isBlank hrest
      simp only [settle_ok, pure_bind, hblanks]
      simp (disch := decide) only [byteAt?_eq_some_iff hclose]
      split
      · next hbracket =>
          obtain ⟨tail, htail⟩ := List.head?_eq_some_iff.1 hbracket
          rw [htail] at hclose ⊢
          rw [offsetIn_succ hclose (by decide)]
          rfl
      · next hbracket =>
          rw [unparsable_offsetIn hclose]
          split
          · next tail htail => exact (hbracket (htail ▸ rfl)).elim
          · rfl

/-- What a program on offsets makes of a segment that a reader gives. -/
def settleSegment (text : List Char) :
    Except Fault (Segment × List Char × List Char) → Checked (Segment × Nat × Nat)
  | .ok (segment, body, rest) => pure (segment, offsetIn text body, offsetIn text rest)
  | .error fault => throw (fault.report text)

/-- Brackets are the body of a segment, be there points or not. -/
theorem readBody_bracket (h : '[' :: s <:+ text) (pointed detached : Bool) :
    readBody text pointed detached (offsetIn text ('[' :: s)) =
      settleSegment text
        ((Selector.readBracketed s).map fun p => (⟨p.1, detached⟩, '[' :: s, p.2)) := by
  rw [readBody, byteAt?_cons h, lead_of_ascii (by decide), if_pos rfl, offsetIn_succ h (by decide),
    readBracketed_offsetIn ((List.suffix_cons _ _).trans h)]
  cases Selector.readBracketed s <;> rfl

/-- The body of a segment behind its points. -/
theorem readBody_pointed {body : List Char} {detached : Bool} (h : body <:+ text)
    (hs : Segment.readOpening s = Segment.openingAfter detached body) :
    readBody text true detached (offsetIn text body) = settleSegment text (Segment.read s) := by
  rw [Segment.read, hs]
  rcases body with - | ⟨c, body⟩
  · rw [readBody, byteAt?_nil h]
    exact congrArg (· >>= _) (unparsable_offsetIn h)
  rw [Segment.openingAfter_cons]
  by_cases hbracket : c = '['
  · subst hbracket
    exact readBody_bracket h true detached
  rw [readBody, byteAt?_cons h]
  simp (disch := decide) only [Option.some.injEq, lead_eq_iff, if_neg hbracket, Option.any_some,
    (bytewise_ne _).lead, true_and, bne_iff_ne]
  by_cases hpoint : c = '.'
  · rw [if_neg (not_not.2 hpoint), if_pos hpoint, unparsable_offsetIn h]
    rfl
  · rw [if_pos hpoint, if_neg hpoint, readDotted_offsetIn h]
    simp only [Segment.readBody, beq_false_of_ne hbracket]
    cases Selector.readDotted (c :: body) <;> rfl

/-- **A segment at an offset** is the one that the reader finds there. -/
theorem readSegment_offsetIn (h : s <:+ text) :
    readSegment text (offsetIn text s) = settleSegment text (Segment.read s) := by
  rw [readSegment]
  simp (disch := decide) only [byteAt?_eq_some_iff h]
  by_cases hpoint : s.head? = some '.'
  · obtain ⟨s, rfl⟩ := List.head?_eq_some_iff.1 hpoint
    have hs := (List.suffix_cons _ _).trans h
    rw [if_pos hpoint]
    simp (disch := decide) only [offsetIn_succ h, byteAt?_eq_some_iff hs]
    by_cases hdetached : s.head? = some '.'
    · obtain ⟨body, rfl⟩ := List.head?_eq_some_iff.1 hdetached
      have hskip : offsetIn text ('.' :: '.' :: body) + 2 = offsetIn text body := by
        rw [← offsetIn_succ hs (by decide), ← offsetIn_succ h (by decide)]
      rw [if_pos hdetached, hskip]
      exact readBody_pointed ((List.suffix_cons _ _).trans hs) rfl
    · rw [if_neg hdetached]
      refine readBody_pointed hs ?_
      rw [Segment.readOpening]
      rintro body rfl
      exact hdetached rfl
  · rw [if_neg hpoint]
    by_cases hbracket : s.head? = some '['
    · obtain ⟨s, rfl⟩ := List.head?_eq_some_iff.1 hbracket
      exact readBody_bracket h false false
    · have hopening : Segment.readOpening s = .error (.unparsable s) := by
        unfold Segment.readOpening
        split <;> simp_all
      rw [readBody, Segment.read, hopening]
      simp (disch := decide) only [byteAt?_eq_some_iff h, if_neg hbracket, false_and, if_false,
        Bool.false_eq_true, unparsable_offsetIn h]
      rfl

/-- **The segments from an offset on** are those that the reader finds there. -/
theorem readSegments_offsetIn {afterFunction : Bool} (segments : List Segment)
    (hlast : segments.getLast?.any Segment.isFunction = afterFunction) (h : s <:+ text) :
    readSegments text segments (offsetIn text s) =
      match Path.readSegments afterFunction s with
      | .ok more => pure (segments ++ more)
      | .error fault => throw (fault.report text) := by
  fun_induction Path.readSegments afterFunction s generalizing segments with
  | case1 afterFunction s hempty =>
      obtain rfl := List.isEmpty_iff.1 hempty
      rw [readSegments, if_neg (by rw [offsetIn_lt_byteSize_iff h]; simp)]
      simp
  | case2 afterFunction s hne fault hread =>
      rw [readSegments, if_pos (by rw [offsetIn_lt_byteSize_iff h]; simpa using hne),
        readSegment_offsetIn h, hread]
      rfl
  | case3 afterFunction s hne segment body rest hread _ hfunction =>
      obtain ⟨points, -, -, rfl, -⟩ := Segment.read_eq_ok_iff.1 hread
      rw [readSegments, if_pos (by rw [offsetIn_lt_byteSize_iff h]; simpa using hne),
        readSegment_offsetIn h, hread]
      simp only [settleSegment, pure_bind, hlast]
      rw [if_pos (by simpa using hfunction)]
      exact unparsable_offsetIn ((List.suffix_append points body).trans h)
  | case4 afterFunction s hne segment body rest hread hlt hfunction ih =>
      obtain ⟨u, rfl, -⟩ := Segment.read_of_continues hread
      have hrest := (List.suffix_append u rest).trans h
      rw [readSegments, if_pos (by rw [offsetIn_lt_byteSize_iff h]; simpa using hne),
        readSegment_offsetIn h, hread]
      simp only [settleSegment, pure_bind, hlast]
      rw [if_neg (by simpa using hfunction), onward_offsetIn h hrest hlt, ih _ (by simp) hrest]
      cases Path.readSegments segment.isFunction rest <;> simp [Except.map]

/-- **The path that a text denotes** is read from its bytes as it is from its characters. -/
theorem compile_eq (text : List Char) :
    compile text = Checked.ofExcept (Path.ofString (String.ofList text)) := by
  have hstart : offsetIn text text = 0 := by rw [offsetIn, Nat.sub_self]
  have hroot : byteAt? text 0 = some '$' ↔ text.head? = some '$' := by
    rw [← hstart]
    exact byteAt?_eq_some_iff (List.suffix_refl _) (by decide)
  rw [compile, Path.ofString, String.toList_ofList]
  by_cases hdollar : text.head? = some '$'
  · obtain ⟨s, rfl⟩ := List.head?_eq_some_iff.1 hdollar
    have hone : offsetIn ('$' :: s) s = 1 := by
      rw [← offsetIn_succ (List.suffix_refl ('$' :: s)) (by decide), hstart]
    rcases s with - | ⟨c, s⟩
    · rfl
    · have hsize : byteSize ('$' :: c :: s) ≠ 1 := by
        have hpos := c.utf8Size_pos
        have hroot : '$'.utf8Size = 1 := rfl
        rw [byteSize_cons, byteSize_cons, hroot]
        omega
      have hnone : ([] : List Segment).getLast?.any Segment.isFunction = false := rfl
      have hread := readSegments_offsetIn [] hnone (List.suffix_cons '$' (c :: s))
      rw [if_neg (not_or.2 ⟨not_not.2 (hroot.2 rfl), hsize⟩), ← hone, hread, Path.read]
      cases Path.readSegments false (c :: s) <;> rfl
  · rw [if_pos (.inl (hroot.not.2 hdollar)), Path.read]
    · rfl
    · rintro c s rfl
      exact hdollar rfl

end JsonPath.Indexed
