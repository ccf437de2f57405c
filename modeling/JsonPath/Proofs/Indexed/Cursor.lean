import JsonPath.Proofs.Indexed.Document
import JsonPath.Proofs.Query.Containment

/-!
# Values by Two Offsets

A document that was accepted is not kept as a tree. A value of it is known by the offsets of its
beginning and of its end (`Cursor`), and all that is asked of it is answered from the bytes between
them: its kind by the first of them, its text as a part of the document, its children by a walk over
the inside that scans each child again. What a string stands for is decoded from the part between
its quotes, which is taken from one byte behind its beginning up to one byte before its end.

None of these parts is missing as long as the value stands in the document (`Located`). The value of
a document that was accepted does, and what a value that does leads to does again: its children, and
the values that steps lead to. The walk goes along with the one over the spans of the document
(`Walks`), which finds the children of the tree.

## Main definitions

* `Cursor`, `parse`: a value by its offsets, and the value of a document.
* `collect`: the children of a container from an offset on, with the error that ends them.
* `Cursor.elements`, `Cursor.members`, `Cursor.decode`, `Cursor.resolve?`: what is asked of a value.
* `Located`: a value that stands in the document.
* `Cursor.Represents`: the answers are those of the tree.

## Main results

* `parse_eq`: **a document is read**, or refused, as the reader does.
* `Walks.collect_eq`: a walk by offsets finds what the walk over spans finds.
* `unescape_quoted`: the inside of a string is taken from between its quotes.
* `Located.represents`: **a value is represented by its offsets**.
-/

namespace JsonPath

open Text Document

/-- A program goes on with an error as with a result. -/
def Checked.attempt {α : Type} (x : Checked α) : Checked (Except Error α) :=
  ExceptT.mk (x.run.map .ok)

namespace Indexed

/-- A value of a document by the offsets of its beginning and of its end. -/
structure Cursor where
  /-- Where the value begins. -/
  start : Nat
  /-- Where it ends. -/
  stop : Nat
  deriving DecidableEq, Repr

variable {text : List Char}

/-- The value of a document. -/
def parse (text : List Char) : Checked Cursor := do
  let start := skipWhile isBlank text 0
  if start = byteSize text then
    malformed start .empty
  else
    let stop ← scanValue text start 0
    let trailing := skipWhile isBlank text stop
    if trailing = byteSize text then pure ⟨start, stop⟩ else malformed trailing .trailing

/-- The place of a value whose tree is known. -/
def Cursor.of (s : Site) : Cursor :=
  ⟨s.start, s.stop⟩

/-- **A document is read**, or refused, as the reader does. -/
theorem parse_eq (text : List Char) :
    parse text = Checked.ofExcept ((ofString (String.ofList text)).map Cursor.of) := by
  have hstart : offsetIn text text = 0 := by rw [offsetIn, Nat.sub_self]
  have hskip : skipWhile isBlank text 0 = offsetIn text (skipBlanks text) := by
    rw [← hstart]
    exact skipBlanks_offsetIn (List.suffix_refl _)
  have hvalue := suffix_skipBlanks text
  rw [parse, hskip, ofString, String.toList_ofList, Document.read]
  simp only [offsetIn_eq_byteSize_iff hvalue, List.isEmpty_iff]
  split
  · next hempty =>
      rw [hempty]
      rfl
  rw [(follows_readValue (Nat.zero_add maxDepth)).scan hvalue]
  cases hread : readValue maxDepth (skipBlanks text) with
  | error flaw => rfl
  | ok p =>
      obtain ⟨value, rest, hlt⟩ := p
      have hrest := (suffix_of_readValue hread).trans hvalue
      have htrailing := (suffix_skipBlanks rest).trans hrest
      simp only [stopOf, pure_bind, skipBlanks_offsetIn hrest, offsetIn_eq_byteSize_iff htrailing]
      split
      · obtain ⟨-, -, hs⟩ := readValue_sound (fun d _ => readsValues_readValue d)
          (congrArg Outcome.found? hread)
        have hfront : offsetIn text (skipBlanks text) = byteSize (text.takeWhile isBlank) := by
          conv_lhs => arg 1; rw [← List.takeWhile_append_dropWhile (p := isBlank) (l := text)]
          exact offsetIn_append _ _
        have hstop := offsetIn_add_byteSize (hs ▸ hvalue)
        have hcursor : (⟨offsetIn text (skipBlanks text), offsetIn text rest⟩ : Cursor) =
            Cursor.of ⟨byteSize (text.takeWhile isBlank), value⟩ := by
          rw [Cursor.of, Site.stop, ← hfront, ← hstop, ← hs]
          rfl
        rw [hcursor]
        rfl
      · rfl

/-! ### Walking -/

/-- The kind of the value, by its first byte. -/
def Cursor.kind (text : List Char) (c : Cursor) : Checked Kind := do
  let b ← Checked.ofOption (byteAt? text c.start)
  pure
    (if b = '\x7b' then .object
    else if b = '[' then .array
    else if b = '"' then .string
    else if b = 't' ∨ b = 'f' then .bool
    else if b = 'n' then .null
    else .number)

/-- The text of the value. -/
def Cursor.written (text : List Char) (c : Cursor) : Checked (List Char) :=
  slice text c.start c.stop

section Walking

variable {α : Type}

/-- A child at an offset, and the offset behind it. An error takes the place of a child, and is the
last. -/
def childFrom (child : Nat → Checked (α × Nat)) (stop i : Nat) :
    Checked (Option (Except Error α × Nat)) := do
  match ← (child i).attempt with
  | .ok (value, behind) => pure (some (.ok value, behind))
  | .error e => pure (some (.error e, stop))

/-- The next child of a container that ends at `stop`, from an offset on: past blanks and, except in
front of the first child, a comma. -/
def nextChild (text : List Char) (closing : Char) (missing : Malformed)
    (child : Nat → Checked (α × Nat)) (stop : Nat) (first : Bool) (i : Nat) :
    Checked (Option (Except Error α × Nat)) :=
  if stop ≤ i then
    pure none
  else
    let mark := skipWhile isBlank text i
    if !first then
      if byteAt? text mark = some ',' then childFrom child stop (skipWhile isBlank text (mark + 1))
      else if byteAt? text mark = some closing then pure none
      else pure (some (.error (.document mark missing.message), stop))
    else if byteAt? text mark = some closing then
      pure none
    else
      childFrom child stop mark

/-- All children from an offset on. -/
def collect (text : List Char) (closing : Char) (missing : Malformed)
    (child : Nat → Checked (α × Nat)) (stop : Nat) (first : Bool) (i : Nat) :
    Checked (List (Except Error α)) := do
  match ← nextChild text closing missing child stop first i with
  | none => pure []
  | some (found, behind) =>
    let more ← onward text i behind fun _ => collect text closing missing child stop false behind
    pure (found :: more)
termination_by byteSize text - i

end Walking

/-- The value at an offset, read with room for the full depth. -/
def readElementAt (text : List Char) (i : Nat) : Checked (Cursor × Nat) := do
  let stop ← scanValue text i 0
  pure (⟨i, stop⟩, stop)

/-- The key at an offset and the value of its member. -/
def readPairAt (text : List Char) (i : Nat) : Checked ((Cursor × Cursor) × Nat) := do
  if byteAt? text i = some '"' then
    let behind ← scanValue text i 0
    let value ← colonEnd text behind
    let stop ← scanValue text value 0
    pure ((⟨i, behind⟩, ⟨value, stop⟩), stop)
  else
    malformed i .keyExpected

namespace Cursor

/-- The elements of an array; nothing else has elements. -/
def elements (text : List Char) (c : Cursor) : Checked (List (Except Error Cursor)) := do
  let kind ← c.kind text
  let inside := if kind = .array then c.start + 1 else c.stop
  collect text ']' .elementEnd (readElementAt text) c.stop true inside

/-- The members of an object, each with its key; nothing else has members. -/
def members (text : List Char) (c : Cursor) : Checked (List (Except Error (Cursor × Cursor))) := do
  let kind ← c.kind text
  let inside := if kind = .object then c.start + 1 else c.stop
  collect text '\x7d' .memberEnd (readPairAt text) c.stop true inside

/-- The place of a span. -/
def ofSpan (text : List Char) (s : Span) : Cursor :=
  ⟨offsetIn text s.rest, offsetIn text s.after⟩

end Cursor

/-- What a reader of children gives, as a program on offsets has it. -/
def childOf {α β : Type} {s : List Char} (text : List Char) (f : α → β) :
    Outcome α s → Checked (β × Nat)
  | .ok (a, rest) => pure (f a, offsetIn text rest.1)
  | .error flaw => throw (flaw.report text)

/-- What an iterator over spans gives, as it is given by offsets. -/
def placed {α β : Type} (text : List Char) (f : α → β) : Except Flaw α → Except Error β
  | .ok a => .ok (f a)
  | .error flaw => .error (flaw.report text)

section Walking

variable {α β : Type} {f : α → β} {child : (s : List Char) → Outcome α s}
  {childAt : Nat → Checked (β × Nat)} {closing : Char} {missing : Malformed}

/-- A child at an offset that is read as the reader of children does. -/
structure Walks (text : List Char) (f : α → β) (child : (s : List Char) → Outcome α s)
    (childAt : Nat → Checked (β × Nat)) : Prop where
  /-- The child at an offset is the one that the reader finds. -/
  read : ∀ {s}, s <:+ text → childAt (offsetIn text s) = childOf text f (child s)
  /-- The reader leaves an end of its text. -/
  suffix : ∀ {s a rest hlt}, child s = .ok (a, ⟨rest, hlt⟩) → rest <:+ s

/-- Reading on from a rest gives the child that the reader finds there, by its offset, or ends with
the flaw it reports. -/
theorem Walks.childFrom_eq (hc : Walks text f child childAt) {s stop : List Char} (h : s <:+ text) :
    childFrom childAt (offsetIn text stop) (offsetIn text s) =
      pure (some (match child s with
        | .ok (a, rest) => (.ok (f a), offsetIn text rest.1)
        | .error flaw => (.error (flaw.report text), offsetIn text stop))) := by
  rw [childFrom, hc.read h]
  cases child s <;> rfl

/-- What is looked for in front of a child, as it is found by offsets. -/
theorem nextChild_eq_next? (hclosing : closing.toNat < 128)
    {s : Scan} (h : s.rest <:+ text) (hstop : ¬ s.rest.length ≤ s.stop.length)
    (hend : s.stop <:+ text) :
    nextChild text closing missing childAt (offsetIn text s.stop) s.first (offsetIn text s.rest) =
      match s.next? closing missing with
      | .ok none => pure none
      | .ok (some rest) => childFrom childAt (offsetIn text s.stop) (offsetIn text rest)
      | .error flaw => pure (some (.error (flaw.report text), offsetIn text s.stop)) := by
  have hmark := (suffix_skipBlanks s.rest).trans h
  rw [nextChild, if_neg (by rwa [offsetIn_le_iff hend h]), skipBlanks_offsetIn h, Scan.next?]
  cases hskip : skipBlanks s.rest with
  | nil =>
      rw [hskip] at hmark
      dsimp only
      rw [byteAt?_nil hmark]
      cases s.first <;> rfl
  | cons c after =>
      rw [hskip] at hmark
      have hbehind : c = ',' → skipWhile isBlank text (offsetIn text (c :: after) + 1) =
          offsetIn text (skipBlanks after) := by
        rintro rfl
        rw [offsetIn_succ hmark (by decide),
          skipBlanks_offsetIn ((List.suffix_cons _ _).trans hmark)]
      simp (disch := first | decide | assumption) only [byteAt?_eq_some_iff hmark, List.head?_cons,
        Option.some.injEq]
      cases s.first with
      | true =>
          by_cases hclose : c = closing <;> simp [hclose]
      | false =>
          by_cases hcomma : c = ','
          · subst hcomma
            simp [hbehind]
          · by_cases hclose : c = closing
            · subst hclose
              simp [hcomma]
            · simp [hcomma, hclose, Flaw.report]

/-- A walk looks for a child in front of an end of its text. -/
theorem suffix_of_next? {s : Scan} {rest : List Char}
    (h : s.next? closing missing = .ok (some rest)) : rest <:+ s.rest := by
  have hskip := suffix_skipBlanks s.rest
  rw [Scan.next?] at h
  split at h
  · split_ifs at h
    obtain rfl := Option.some.inj (Except.ok.inj h)
    exact List.nil_suffix
  · next c after hc =>
      split_ifs at h
      · obtain rfl := Option.some.inj (Except.ok.inj h)
        exact suffix_behind (List.suffix_refl _) hc
      · cases h
      · obtain rfl := Option.some.inj (Except.ok.inj h)
        exact hc ▸ hskip

/-- **One step of a walk** by offsets is the step of the walk. -/
theorem Walks.nextChild_eq (hc : Walks text f child childAt) (hclosing : closing.toNat < 128)
    {s : Scan} (h : s.rest <:+ text) (hend : s.stop <:+ text) :
    nextChild text closing missing childAt (offsetIn text s.stop) s.first (offsetIn text s.rest) =
      pure ((s.step closing missing child).map fun p =>
        (placed text f p.1, offsetIn text p.2.rest)) := by
  rw [Scan.step]
  split
  · next hstop =>
      rw [nextChild, if_pos ((offsetIn_le_iff hend h).2 hstop)]
      rfl
  · next hstop =>
      rw [nextChild_eq_next? hclosing h hstop hend]
      cases hnext : s.next? closing missing with
      | error flaw => rfl
      | ok found =>
          cases found with
          | none => rfl
          | some rest =>
              dsimp only
              rw [hc.childFrom_eq ((suffix_of_next? hnext).trans h)]
              cases child rest <;> rfl

/-- A step leads to an end of the text: behind a child, or behind the container if the child cannot
be read. -/
theorem Walks.step_cases (hc : Walks text f child childAt) {s t : Scan} {found : Except Flaw α}
    (hstep : s.step closing missing child = some (found, t)) (h : s.rest <:+ text) :
    t.stop = s.stop ∧ (t.rest <:+ text ∧ t.first = false ∨
      t.rest = s.stop ∧ ∃ flaw, found = .error flaw) := by
  rw [Scan.step] at hstep
  split at hstep
  · cases hstep
  split at hstep
  · obtain ⟨rfl, rfl⟩ := Prod.mk.inj (Option.some.inj hstep)
    exact ⟨rfl, .inr ⟨rfl, _, rfl⟩⟩
  · cases hstep
  · next rest hnext =>
      split at hstep
      · obtain ⟨rfl, rfl⟩ := Prod.mk.inj (Option.some.inj hstep)
        exact ⟨rfl, .inr ⟨rfl, _, rfl⟩⟩
      · next value after hread =>
          obtain ⟨rfl, rfl⟩ := Prod.mk.inj (Option.some.inj hstep)
          exact ⟨rfl, .inl ⟨(hc.suffix hread).trans ((suffix_of_next? hnext).trans h), rfl⟩⟩

/-- Behind the container a walk is at its end. -/
theorem nextChild_stop (first : Bool) (stop : Nat) :
    nextChild text closing missing childAt stop first stop = pure none :=
  if_pos (Nat.le_refl stop)

/-- **A walk** by offsets finds what the walk finds. -/
theorem Walks.collect_eq (hc : Walks text f child childAt) (hclosing : closing.toNat < 128)
    {s : Scan} (h : s.rest <:+ text) (hend : s.stop <:+ text) :
    collect text closing missing childAt (offsetIn text s.stop) s.first (offsetIn text s.rest) =
      pure ((s.collect closing missing child).map (placed text f)) := by
  fun_induction Scan.collect closing missing child s with
  | case1 s hstep =>
      rw [collect, hc.nextChild_eq hclosing h hend, hstep]
      rfl
  | case2 s found t hstep hlt ih =>
      rw [collect, hc.nextChild_eq hclosing h hend, hstep]
      obtain ⟨hstop, ⟨ht, hfirst⟩ | ⟨ht, flaw, rfl⟩⟩ := hc.step_cases hstep h
      · rw [hstop, hfirst] at ih
        simp [onward_offsetIn h ht hlt, ih ht hend]
      · have hnone : t.step closing missing child = none := by
          rw [Scan.step, if_pos (by rw [ht, hstop])]
        rw [Scan.collect_of_step_eq_none hnone]
        rw [ht] at hlt
        simp only [Option.map_some, pure_bind, ht, onward_offsetIn h hend hlt]
        rw [collect, nextChild_stop]
        rfl

/-! ### The children of a value -/

/-- Elements are walked by offsets as they are read. -/
theorem walks_readElement :
    Walks text (Cursor.ofSpan text) Span.readElement (readElementAt text) where
  read {s} h := by
    rw [readElementAt, (follows_readValue (Nat.zero_add maxDepth)).scan h, Span.readElement]
    cases readValue maxDepth s <;> rfl
  suffix {s a rest hlt} h := by
    rw [Span.readElement] at h
    cases hread : readValue maxDepth s with
    | error flaw =>
        rw [hread] at h
        cases h
    | ok p =>
        obtain ⟨value, after, hafter⟩ := p
        rw [hread] at h
        obtain ⟨-, rfl⟩ : _ ∧ after = rest := by simpa using h
        exact suffix_of_readValue hread

/-- The place of a key and the place of its value. -/
def Cursor.ofPair (text : List Char) (p : Span × Span) : Cursor × Cursor :=
  (.ofSpan text p.1, .ofSpan text p.2)

/-- A member at an offset is the one that the reader finds there. -/
theorem readPairAt_offsetIn {s : List Char} (h : s <:+ text) :
    readPairAt text (offsetIn text s) = childOf text (Cursor.ofPair text) (Span.readPair s) := by
  rw [readPairAt]
  simp (disch := decide) only [byteAt?_eq_some_iff h]
  by_cases hquote : s.head? = some '"'
  · obtain ⟨s, rfl⟩ := List.head?_eq_some_iff.1 hquote
    rw [if_pos hquote, scanValue_quote h 0 .keyExpected, Span.readPair]
    cases hkey : readString ('"' :: s) .keyExpected with
    | error flaw => rfl
    | ok p =>
        obtain ⟨key, behind, hlt⟩ := p
        have hrest := (suffix_of_readString hkey).trans h
        have hbehind : stopOf text (.ok (key, ⟨behind, hlt⟩) : Outcome (List Char) ('"' :: s)) =
            pure (offsetIn text behind) := rfl
        rw [hbehind, pure_bind, colonEnd_offsetIn hrest]
        dsimp only
        split
        · next after hafter =>
            rw [pure_bind,
              (follows_readValue (Nat.zero_add maxDepth)).scan (suffix_behind hrest hafter)]
            split
            · next after' hafter' =>
                obtain rfl : after = after' := List.tail_eq_of_cons_eq (hafter.symm.trans hafter')
                cases readValue maxDepth (skipBlanks after) <;> rfl
            · next hne => exact (hne after hafter).elim
        · next hne =>
            split
            · next after hafter => exact (hne after hafter).elim
            · rfl
  · rw [if_neg hquote, Span.readPair, readString]
    · rfl
    · rintro tail rfl
      exact hquote rfl

/-- A member leaves an end of the text. -/
theorem suffix_of_readPair {s : List Char} {pair : Span × Span} {rest : List Char}
    {hlt : rest.length < s.length} (h : Span.readPair s = .ok (pair, ⟨rest, hlt⟩)) :
    rest <:+ s := by
  rw [Span.readPair] at h
  cases hkey : readString s .keyExpected with
  | error flaw =>
      rw [hkey] at h
      cases h
  | ok p =>
      obtain ⟨key, behind, hbehind⟩ := p
      rw [hkey] at h
      dsimp only at h
      split at h
      · next after hafter =>
          cases hvalue : readValue maxDepth (skipBlanks after) with
          | error flaw =>
              rw [hvalue] at h
              cases h
          | ok q =>
              obtain ⟨value, tail, htail⟩ := q
              rw [hvalue] at h
              obtain ⟨-, rfl⟩ : _ ∧ tail = rest := by simpa using h
              exact (suffix_of_readValue hvalue).trans
                (suffix_behind (suffix_of_readString hkey) hafter)
      · cases h

/-- Members are walked by offsets as they are read. -/
theorem walks_readPair : Walks text (Cursor.ofPair text) Span.readPair (readPairAt text) where
  read := readPairAt_offsetIn
  suffix := suffix_of_readPair

end Walking

/-- A value stands somewhere in a document. -/
def Located (text : List Char) (s : Site) : Prop :=
  ∃ level after, s.Placed text level after

namespace Located

variable {env : Environment} {s t : Site} {m : MemberSite}

/-- The elements of a located site are located. -/
theorem element (h : Located text s) (ht : t ∈ s.elements) : Located text t := by
  obtain ⟨level, after, h⟩ := h
  exact ⟨level + 1, h.element ht⟩

/-- The keys of a located site are located. -/
theorem key (h : Located text s) (hm : m ∈ s.members) : Located text m.keySite := by
  obtain ⟨level, after, h⟩ := h
  exact ⟨level + 1, (h.member hm).1⟩

/-- The values of a located site's members are located. -/
theorem value (h : Located text s) (hm : m ∈ s.members) : Located text m.value := by
  obtain ⟨level, after, h⟩ := h
  exact ⟨level + 1, (h.member hm).2⟩

/-- The children of a located site are located. -/
theorem child (h : Located text s) {c : Child} (hc : c ∈ s.children) : Located text c.site := by
  rcases Site.mem_children_iff.1 hc with ⟨m, hm, rfl⟩ | ⟨i, t, ht, rfl⟩
  · exact h.value hm
  · exact h.element (List.mem_of_getElem? ht)

/-- What a step leads to stands in the document. -/
theorem child? (h : Located text s) {step : Step} (hstep : s.child? env step = .ok (some t)) :
    Located text t := by
  cases step with
  | name name =>
      obtain ⟨m, hm, rfl⟩ := exists_member_of_findMember hstep
      exact h.value hm
  | index position => exact h.element (List.mem_of_getElem? (Except.ok.inj hstep))

/-- What a reference leads to stands in the document. -/
theorem resolve? {steps : List Step} (h : Located text s)
    (hsteps : s.resolve? env steps = .ok (some t)) : Located text t := by
  induction steps generalizing s with
  | nil =>
      obtain rfl : s = t := by simpa [Site.resolve?] using hsteps
      exact h
  | cons step steps ih =>
      rw [Site.resolve?] at hsteps
      split at hsteps
      · cases hsteps
      · cases hsteps
      · next next hnext => exact ih (h.child? hnext) hsteps

/-- What a document contains stands in it. -/
theorem of_contains {top : Site} {behind : List Char} (htop : top.Placed text 0 behind)
    {level : Nat} (h : top.Contains level s) : Located text s :=
  ⟨level, h.placed htop⟩

end Located

section Placed

variable {level : Nat} {after : List Char} {s : Site}

/-- The offsets of a value are those of the text from it on and behind it. -/
theorem Cursor.of_eq (h : s.Placed text level after) :
    Cursor.of s = ⟨offsetIn text (s.text ++ after), offsetIn text after⟩ := by
  rw [h.stands.offsetIn.1, h.stands.offsetIn.2]
  rfl

/-- The span of a located site has the site's own cursor. -/
theorem Cursor.ofSpan_spanIn (h : Located text s) : Cursor.ofSpan text (s.spanIn text) = .of s := by
  obtain ⟨level, after, h⟩ := h
  rw [Site.spanIn_eq h.stands, Cursor.of_eq h]
  rfl

/-- A placed site and what stands behind it are an end of the document. -/
theorem suffix_of_placed (h : s.Placed text level after) : s.text ++ after <:+ text := by
  obtain ⟨front, hdocument, -⟩ := h.stands
  exact ⟨front, hdocument.symm⟩

/-- **The text of a value** is taken from the document. -/
theorem Cursor.written_eq (h : Located text s) : (Cursor.of s).written text = pure s.text := by
  obtain ⟨level, after, h⟩ := h
  rw [Cursor.of_eq h]
  exact slice_offsetIn (suffix_of_placed h)

/-- The kind of a span, by comparisons with its first character. -/
theorem kind_cons (c : Char) (s after : List Char) :
    Span.kind ⟨c :: s, after⟩ =
      if c = '\x7b' then .object
      else if c = '[' then .array
      else if c = '"' then .string
      else if c = 't' ∨ c = 'f' then .bool
      else if c = 'n' then .null
      else .number := by
  split_ifs with hobject harray hstring hbool hnull
  · subst hobject
    rfl
  · subst harray
    rfl
  · subst hstring
    rfl
  · rcases hbool with rfl | rfl <;> rfl
  · subst hnull
    rfl
  · unfold Span.kind
    split <;> simp_all

/-- **The kind of a value** is told by its first byte. -/
theorem Cursor.kind_eq (h : Located text s) : (Cursor.of s).kind text = pure s.node.kind := by
  obtain ⟨level, after, h⟩ := h
  have hkind := Span.kind_eq h.wellFormed after
  have hsuffix := suffix_of_placed h
  obtain ⟨c, tail, htext, -⟩ := Node.WellFormed.exists_text_eq_cons h.wellFormed
  rw [Cursor.of_eq h, Cursor.kind]
  have hwritten : s.text ++ after = c :: (tail ++ after) := by rw [Site.text, htext]; rfl
  rw [← Site.text, hwritten] at hkind
  rw [hwritten] at hsuffix ⊢
  rw [byteAt?_cons hsuffix, ← hkind]
  simp (disch := decide) only [Checked.ofOption_some, pure_bind, lead_eq_iff]
  congr 1
  exact (kind_cons c _ after).symm

/-- A container begins with a bracket or a brace. -/
theorem exists_text_of_kind {node : Node} {kind : Kind} (hkind : node.kind = kind)
    (hcontainer : kind = .array ∨ kind = .object) :
    ∃ c tail, node.text = c :: tail ∧ c.toNat < 128 := by
  subst hkind
  cases node with
  | array items => exact ⟨'[', _, rfl, by decide⟩
  | object members => exact ⟨'\x7b', _, rfl, by decide⟩
  | _ => rcases hcontainer with h | h <;> cases h

/-- A walk by offsets begins where the walk over the span begins. -/
theorem scan_offsetIn (h : s.Placed text level after) {kind : Kind}
    (hcontainer : kind = .array ∨ kind = .object) :
    ((s.spanIn text).scan kind).rest <:+ text ∧
      (if s.node.kind = kind then (Cursor.of s).start + 1 else (Cursor.of s).stop) =
        offsetIn text ((s.spanIn text).scan kind).rest := by
  have hsuffix := suffix_of_placed h
  have hkind : Span.kind ⟨s.text ++ after, after⟩ = s.node.kind := Span.kind_eq h.wellFormed after
  rw [Site.spanIn_eq h.stands, Span.scan, hkind, Cursor.of_eq h]
  split
  · next hs =>
      obtain ⟨c, tail, htext, hc⟩ := exists_text_of_kind hs hcontainer
      have hwritten : s.text ++ after = c :: (tail ++ after) := by rw [Site.text, htext]; rfl
      rw [hwritten] at hsuffix ⊢
      exact ⟨(List.suffix_cons _ _).trans hsuffix, offsetIn_succ hsuffix hc⟩
  · exact ⟨(List.suffix_append s.text after).trans hsuffix, rfl⟩

/-- A walk by offsets over the children of a value finds what the walk over its span finds. -/
theorem Walks.collect_scan {α β : Type} {f : α → β} {child : (s : List Char) → Outcome α s}
    {childAt : Nat → Checked (β × Nat)} {closing : Char} {missing : Malformed}
    (hc : Walks text f child childAt) (hclosing : closing.toNat < 128)
    (h : s.Placed text level after) {kind : Kind} (hcontainer : kind = .array ∨ kind = .object) :
    collect text closing missing childAt (Cursor.of s).stop true
        (if s.node.kind = kind then (Cursor.of s).start + 1 else (Cursor.of s).stop) =
      pure ((((s.spanIn text).scan kind).collect closing missing child).map (placed text f)) := by
  obtain ⟨hrest, hstart⟩ := scan_offsetIn h hcontainer
  have hstop : ((s.spanIn text).scan kind).stop = after := by
    rw [Site.spanIn_eq h.stands, Span.scan]
  have hend : after <:+ text := (List.suffix_append s.text after).trans (suffix_of_placed h)
  have hcollect : collect text closing missing childAt (offsetIn text _) true (offsetIn text _) =
      pure _ := hc.collect_eq hclosing hrest (hstop ▸ hend)
  rw [hstop] at hcollect
  rw [hstart, Cursor.of_eq h]
  exact hcollect

/-- **The elements of a value** are found at their places. -/
theorem Cursor.elements_eq (hs : Located text s) :
    (Cursor.of s).elements text = pure (s.elements.map fun t => .ok (.of t)) := by
  obtain ⟨level, after, h⟩ := id hs
  have hdepth := h.depth
  have helements := Span.elements_spanIn h.wellFormed (by omega) h.stands
  rw [Cursor.elements, Cursor.kind_eq hs, pure_bind]
  refine (walks_readElement.collect_scan (by decide) h (.inl rfl)).trans ?_
  rw [← Span.elements, helements, List.map_map]
  refine congrArg pure (List.map_congr_left fun t ht => ?_)
  exact congrArg Except.ok (Cursor.ofSpan_spanIn (hs.element ht))

/-- **The members of a value** are found at their places. -/
theorem Cursor.members_eq (hs : Located text s) :
    (Cursor.of s).members text =
      pure (s.members.map fun m => .ok (.of m.keySite, .of m.value)) := by
  obtain ⟨level, after, h⟩ := id hs
  have hdepth := h.depth
  have hmembers := Span.members_spanIn h.wellFormed (by omega) h.stands
  rw [Cursor.members, Cursor.kind_eq hs, pure_bind]
  refine (walks_readPair.collect_scan (by decide) h (.inr rfl)).trans ?_
  rw [← Span.members, hmembers, List.map_map]
  refine congrArg pure (List.map_congr_left fun m hm => ?_)
  exact congrArg Except.ok
    (Prod.ext (Cursor.ofSpan_spanIn (hs.key hm)) (Cursor.ofSpan_spanIn (hs.value hm)))

end Placed

/-- A child begins at a later offset than the value it is a child of. -/
theorem Located.start_lt (h : Located text s) {c : Child} (hc : c ∈ s.children) :
    (Cursor.of s).start < (Cursor.of c.site).start ∧ (Cursor.of c.site).start ≤ byteSize text := by
  obtain ⟨level, after, hchild⟩ := h.child hc
  refine ⟨(s.children_layout.1 c hc).1, ?_⟩
  rw [Cursor.of_eq hchild]
  exact offsetIn_le_byteSize _

/-! ### Decoding -/

/-- What a string stands for, taken from between its quotes. -/
def unescape (env : Environment) (raw : List Char) (start : Nat) : Checked (List Char) := do
  let last ← minus (byteSize raw) 1
  let inner ← slice raw 1 last
  Checked.ofExcept (decodeAt env start inner)

namespace Cursor

/-- The text of a value: what a string stands for, nothing for `null`, and every other value as it
is written. -/
def decode (env : Environment) (text : List Char) (c : Cursor) : Checked (List Char) := do
  match ← c.kind text with
  | .string =>
    let raw ← c.written text
    unescape env raw c.start
  | .null => pure []
  | _ => c.written text

/-- The first member with a name. -/
def findMember (env : Environment) (text name : List Char) :
    List (Except Error (Cursor × Cursor)) → Checked (Option Cursor)
  | [] => pure none
  | found :: rest => do
    let (key, value) ← Checked.ofExcept found
    let decoded ← key.decode env text
    if decoded = name then pure (some value) else findMember env text name rest

/-- The value one step below, if there is one. -/
def child? (env : Environment) (text : List Char) (c : Cursor) : Step → Checked (Option Cursor)
  | .name name => do
    let members ← c.members text
    findMember env text name.toList members
  | .index position => do
    let elements ← c.elements text
    match elements[position]? with
    | none => pure none
    | some found => (Checked.ofExcept found).map some

/-- The value that steps lead to, if they lead to one. -/
def resolve? (env : Environment) (text : List Char) (c : Cursor) :
    List Step → Checked (Option Cursor)
  | [] => pure (some c)
  | step :: steps => do
    match ← c.child? env text step with
    | none => pure none
    | some next => next.resolve? env text steps

end Cursor

/-- **The inside of a string** is taken from between its quotes. -/
theorem unescape_quoted (env : Environment) (body : List Char) (start : Nat) :
    unescape env (quoted body) start = Checked.ofExcept (decodeAt env start body) := by
  have hquote : '"'.utf8Size = 1 := rfl
  have hwhole : quoted body <:+ quoted body := List.suffix_refl _
  have hinside : body ++ ['"'] <:+ quoted body := List.suffix_cons _ _
  have hstart : offsetIn (quoted body) (quoted body) = 0 := by rw [offsetIn, Nat.sub_self]
  have hfirst : offsetIn (quoted body) (body ++ ['"']) = 1 := by
    rw [← offsetIn_succ hwhole (by decide), ← quoted, hstart]
  have hsize : byteSize (quoted body) = byteSize body + 2 := by
    rw [quoted, byteSize_cons, byteSize_append, byteSize_cons, byteSize_nil, hquote]
    omega
  have hlast : offsetIn (quoted body) ['"'] = byteSize body + 1 := by
    rw [← offsetIn_add_byteSize hinside, hfirst, Nat.add_comm]
  have hslice := slice_offsetIn hinside
  rw [hfirst, hlast] at hslice
  rw [unescape, hsize, minus_of_le (by omega), pure_bind, Nat.add_succ_sub_one, hslice, pure_bind]

section Located

variable {env : Environment} {s : Site}

/-- **The text of a value** is decoded as it is from its tree. -/
theorem Cursor.decode_eq (h : Located text s) :
    (Cursor.of s).decode env text = Checked.ofExcept (s.decode env) := by
  have hwritten := Cursor.written_eq h
  rw [Cursor.decode, Cursor.kind_eq h, pure_bind, Site.decode]
  obtain ⟨start, node⟩ := s
  cases node with
  | string body =>
      dsimp only [Node.kind]
      rw [hwritten, pure_bind]
      exact unescape_quoted env body start
  | null => rfl
  | _ => exact hwritten

/-- **The member with a name** is found as it is in the tree. -/
theorem Cursor.findMember_eq {name : List Char} {members : List MemberSite}
    (h : ∀ m ∈ members, Located text m.keySite) :
    findMember env text name (members.map fun m => .ok (.of m.keySite, .of m.value)) =
      Checked.ofExcept ((JsonPath.findMember env name members).map (Option.map .of)) := by
  induction members with
  | nil => rfl
  | cons m members ih =>
      rw [List.map_cons, findMember, JsonPath.findMember]
      simp only [Checked.ofExcept_ok, pure_bind, Cursor.decode_eq (h m List.mem_cons_self)]
      have hname : m.keySite.decode env = m.name env := rfl
      rw [hname]
      cases m.name env with
      | error e => rfl
      | ok decoded =>
          simp only [Checked.ofExcept_ok, pure_bind]
          split
          · rfl
          · exact ih fun m hm => h m (List.mem_cons_of_mem _ hm)

/-- **A step** leads to the value that it leads to in the tree. -/
theorem Cursor.child?_eq (h : Located text s) (step : Step) :
    (Cursor.of s).child? env text step =
      Checked.ofExcept ((s.child? env step).map (Option.map .of)) := by
  cases step with
  | name name =>
      rw [Cursor.child?, Cursor.members_eq h, pure_bind]
      exact Cursor.findMember_eq fun m hm => h.key hm
  | index position =>
      rw [Cursor.child?, Cursor.elements_eq h, pure_bind, List.getElem?_map, Site.child?]
      cases s.elements[position]? <;> rfl

/-- **Steps** lead to the value that they lead to in the tree. -/
theorem Cursor.resolve?_eq (h : Located text s) (steps : List Step) :
    (Cursor.of s).resolve? env text steps =
      Checked.ofExcept ((s.resolve? env steps).map (Option.map .of)) := by
  induction steps generalizing s with
  | nil => rfl
  | cons step steps ih =>
      rw [Cursor.resolve?, Cursor.child?_eq h, Site.resolve?]
      cases hstep : s.child? env step with
      | error e => rfl
      | ok found =>
          cases found with
          | none => rfl
          | some t => exact ih (h.child? hstep)

/-- All that is asked of a value by its offsets is answered as its tree answers it. -/
structure Cursor.Represents (text : List Char) (c : Cursor) (s : Site) : Prop where
  /-- The value has its text. -/
  written : c.written text = pure s.text
  /-- It has its kind. -/
  kind : c.kind text = pure s.node.kind
  /-- It is decoded, or cannot be. -/
  decode : ∀ env, c.decode env text = Checked.ofExcept (s.decode env)
  /-- Its elements stand at their places. -/
  elements : c.elements text = pure (s.elements.map fun t => .ok (.of t))
  /-- Its members stand at their places. -/
  members : c.members text = pure (s.members.map fun m => .ok (.of m.keySite, .of m.value))
  /-- Steps lead to the place of the value that they lead to. -/
  resolve : ∀ env steps, c.resolve? env text steps =
    Checked.ofExcept ((s.resolve? env steps).map (Option.map .of))

/-- **A value of a document is represented by its offsets.** -/
theorem Located.represents (h : Located text s) : (Cursor.of s).Represents text s where
  written := Cursor.written_eq h
  kind := Cursor.kind_eq h
  decode _ := Cursor.decode_eq h
  elements := Cursor.elements_eq h
  members := Cursor.members_eq h
  resolve _ := Cursor.resolve?_eq h

end Located

end Indexed

end JsonPath
