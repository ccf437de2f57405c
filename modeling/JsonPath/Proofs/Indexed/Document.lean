import JsonPath.Proofs.Document.Rescanning
import JsonPath.Proofs.Indexed.Token

/-!
# Documents Read from Bytes

A program that checks a document as its bytes goes from the offset at which a value begins to the
one behind it, and counts the containers around the value. In a string it looks for a quote, a
backslash and a control character, with one byte more behind a backslash and five more for the
digits of a character that is given by its number; it passes over all other bytes, also over those
inside a character.

The reader of documents leaves the rest of the text where the program gives an offset, and keeps the
room that is left below a value where the program counts the containers above it. A program and a
reader go along with each other (`Follows`) if they do so on every rest of the text; with the
children of a container they do, so does the container, and the induction is on the room.

## Main definitions

* `scanString`, `plainNumberEnd?`, `wordEnd?`: the offset behind a string, a number and a word.
* `scanValue`: the offset behind a value, with those behind objects, members, arrays and elements.
* `Follows`: a reader that the program goes along with.

## Main results

* `scanString_offsetIn`, `childEnd_offsetIn`: strings, and what follows a child.
* `Follows.array`, `Follows.object`: containers, if their children are read along.
* `follows_readValue`: **a value ends where the reader ends it**, or is refused for the same reason.
-/

namespace JsonPath.Indexed

open Text Document

variable {text s t : List Char}

/-- The document is no JSON from an offset on. -/
def malformed {α : Type} (i : Nat) (cause : Malformed) : Checked α :=
  throw (.document i cause.message)

/-- Where a reader of documents ends, as a program on offsets has it: the offset of the rest, or the
report of the flaw. -/
def stopOf {α : Type} (text : List Char) : Outcome α s → Checked Nat
  | .ok (_, rest) => pure (offsetIn text rest.1)
  | .error flaw => throw (flaw.report text)

/-! ### Strings -/

/-- Whether so many hexadecimal digits stand at an offset. -/
def hexDigitsAt (text : List Char) : (n i : Nat) → Bool
  | 0, _ => true
  | n + 1, i => (byteAt? text i).any isHex && hexDigitsAt text n (i + 1)

/-- The offset behind the string that has its opening quote at `opening`, from an offset inside
on. -/
def scanString (text : List Char) (opening i : Nat) : Checked Nat :=
  match byteAt? text i with
  | none => malformed opening .unterminated
  | some b =>
    if b = '"' then
      pure (i + 1)
    else if b = '\\' then
      if (byteAt? text (i + 1)).any isEscapable then
        onward text i (i + 2) fun _ => scanString text opening (i + 2)
      else if byteAt? text (i + 1) = some 'u' then
        if hexDigitsAt text 4 (i + 2) then
          onward text i (i + 6) fun _ => scanString text opening (i + 6)
        else malformed i .unicodeEscape
      else
        malformed i .escape
    else if b < ' ' then
      malformed i .control
    else
      onward text i (i + 1) fun _ => scanString text opening (i + 1)
termination_by byteSize text - i

/-- Hexadecimal digits are ASCII characters. -/
theorem toNat_lt_of_isHex {c : Char} (hc : isHex c = true) : c.toNat < 128 := by
  simp only [isHex, Bool.or_eq_true, Bool.and_eq_true, decide_eq_true_eq, Char.le_def,
    UInt32.le_iff_toNat_le] at hc
  rcases hc with (hc | hc) | hc
  · exact toNat_lt_of_isDigit hc
  · exact Nat.lt_of_le_of_lt hc.2 (by decide)
  · exact Nat.lt_of_le_of_lt hc.2 (by decide)

/-- Hexadecimal digits are told by any of their bytes. -/
theorem bytewise_isHex : Bytewise isHex :=
  bytewise_of_ascii fun _ => toNat_lt_of_isHex

/-- The characters of short escapes are ASCII characters. -/
theorem toNat_lt_of_isEscapable {c : Char} (hc : isEscapable c = true) : c.toNat < 128 := by
  simp only [isEscapable, List.contains_iff_mem, List.mem_cons, List.not_mem_nil, or_false] at hc
  rcases hc with rfl | rfl | rfl | rfl | rfl | rfl | rfl | rfl <;> decide

/-- The characters of short escapes are told by any of their bytes. -/
theorem bytewise_isEscapable : Bytewise isEscapable :=
  bytewise_of_ascii fun _ => toNat_lt_of_isEscapable

/-- A control character is one byte, and no other character has such a byte. -/
theorem lt_blank_iff_of_mem_bytesOf {b c : Char} (hb : b ∈ bytesOf c) : b < ' ' ↔ c < ' ' := by
  have hcontrol : Bytewise fun c => decide (c < ' ') :=
    bytewise_of_ascii fun c hc => by
      have := (lt_blank_iff c).1 (by simpa using hc)
      omega
  simpa using hcontrol c b hb

/-- Hexadecimal digits at an offset are the first characters of the rest. -/
theorem hexDigitsAt_offsetIn (n : Nat) (h : s <:+ text) :
    hexDigitsAt text n (offsetIn text s) = (decide (n ≤ s.length) && (s.take n).all isHex) := by
  induction n generalizing s with
  | zero => simp [hexDigitsAt]
  | succ n ih =>
      rw [hexDigitsAt, any_byteAt? bytewise_isHex h]
      rcases s with - | ⟨c, s⟩
      · rfl
      · by_cases hc : isHex c = true
        · rw [offsetIn_succ h (toNat_lt_of_isHex hc), ih ((List.suffix_cons _ _).trans h)]
          simp [hc]
        · simp [hc]

/-- One byte inside a string. -/
theorem scanString_cons {c : Char} (h : c :: s <:+ text) (opening : Nat)
    (hpass : c ≠ '"') (hescape : c ≠ '\\') :
    scanString text opening (offsetIn text (c :: s)) =
      if c < ' ' then malformed (offsetIn text (c :: s)) .control
      else scanString text opening (offsetIn text s) := by
  split
  · next hcontrol =>
      have hlead : lead c < ' ' := (lt_blank_iff_of_mem_bytesOf (lead_mem_bytesOf c)).2 hcontrol
      rw [scanString, byteAt?_cons h]
      simp (disch := decide) only [lead_eq_iff, if_neg hpass, if_neg hescape, if_pos hlead]
  · next hcontrol =>
      refine eq_of_passes h fun b hb i hi => ?_
      rw [scanString, hi]
      simp only [eq_iff_of_mem_bytesOf hb (show '"'.toNat < 128 by decide), if_neg hpass,
        eq_iff_of_mem_bytesOf hb (show '\\'.toNat < 128 by decide), if_neg hescape,
        lt_blank_iff_of_mem_bytesOf hb, if_neg hcontrol, onward_succ (lt_of_byteAt? hi)]

/-- A backslash inside a string, in front of the mark of a code. -/
theorem scanString_unicode (h : '\\' :: 'u' :: s <:+ text) (opening : Nat) :
    scanString text opening (offsetIn text ('\\' :: 'u' :: s)) =
      if 4 ≤ s.length ∧ (s.take 4).all isHex then
        onward text (offsetIn text ('\\' :: 'u' :: s))
            (offsetIn text ('\\' :: 'u' :: s) + 6) fun _ =>
          scanString text opening (offsetIn text ('\\' :: 'u' :: s) + 6)
      else malformed (offsetIn text ('\\' :: 'u' :: s)) .unicodeEscape := by
  have hu := (List.suffix_cons _ _).trans h
  have hdigits : hexDigitsAt text 4 (offsetIn text ('\\' :: 'u' :: s) + 2) =
      (decide (4 ≤ s.length) && (s.take 4).all isHex) := by
    rw [← hexDigitsAt_offsetIn 4 ((List.suffix_cons _ _).trans hu), ← offsetIn_succ hu (by decide),
      ← offsetIn_succ h (by decide)]
  rw [scanString, byteAt?_cons h, lead_of_ascii (by decide), byteAt?_succ h (by decide), hdigits]
  simp [lead_of_ascii, isEscapable]

/-- A code of four hexadecimal digits is passed. -/
theorem scanString_code {a b c d : Char} (h : '\\' :: 'u' :: a :: b :: c :: d :: s <:+ text)
    (hhex : isHex a = true ∧ isHex b = true ∧ isHex c = true ∧ isHex d = true) (opening : Nat) :
    scanString text opening (offsetIn text ('\\' :: 'u' :: a :: b :: c :: d :: s)) =
      scanString text opening (offsetIn text s) := by
  obtain ⟨ha, hb, hc, hd⟩ := hhex
  have hescape : ∀ e ∈ ['\\', 'u', a, b, c, d], e.toNat < 128 := by
    simp [toNat_lt_of_isHex, ha, hb, hc, hd]
  have hskip : offsetIn text ('\\' :: 'u' :: a :: b :: c :: d :: s) + 6 = offsetIn text s :=
    offsetIn_add_length hescape h
  have hrest := (List.suffix_append ['\\', 'u', a, b, c, d] s).trans h
  rw [scanString_unicode h, hskip, if_pos (by simp [ha, hb, hc, hd])]
  exact onward_offsetIn h hrest (by simp only [List.length_cons]; omega) _

/-- Fewer than four characters are left if there are not four. -/
theorem length_lt_four {α : Type} {s : List α} (h : ∀ a b c d rest, s ≠ a :: b :: c :: d :: rest) :
    s.length < 4 := by
  rcases s with - | ⟨a, - | ⟨b, - | ⟨c, - | ⟨d, rest⟩⟩⟩⟩
  case cons.cons.cons.cons => exact absurd rfl (h a b c d rest)
  all_goals simp

/-- A backslash inside a string, in front of anything else. -/
theorem scanString_escape (h : '\\' :: s <:+ text) (hu : s.head? ≠ some 'u') (opening : Nat) :
    scanString text opening (offsetIn text ('\\' :: s)) =
      if s.head?.any isEscapable then
        onward text (offsetIn text ('\\' :: s)) (offsetIn text ('\\' :: s) + 2) fun _ =>
          scanString text opening (offsetIn text ('\\' :: s) + 2)
      else malformed (offsetIn text ('\\' :: s)) .escape := by
  have hs := (List.suffix_cons _ _).trans h
  rw [scanString, byteAt?_cons h, lead_of_ascii (by decide)]
  simp (disch := decide) only [offsetIn_succ h, any_byteAt? bytewise_isEscapable hs,
    byteAt?_eq_some_iff hs, if_neg hu, Char.reduceEq, if_false, if_true]

/-- A short escape is passed. -/
theorem scanString_short {c : Char} (h : '\\' :: c :: s <:+ text) (hc : isEscapable c = true)
    (opening : Nat) :
    scanString text opening (offsetIn text ('\\' :: c :: s)) =
      scanString text opening (offsetIn text s) := by
  have hescape : ∀ e ∈ ['\\', c], e.toNat < 128 := by simp [toNat_lt_of_isEscapable hc]
  have hskip : offsetIn text ('\\' :: c :: s) + 2 = offsetIn text s :=
    offsetIn_add_length hescape h
  have hu : (c :: s).head? ≠ some 'u' := by
    intro hhead
    obtain rfl := Option.some.inj hhead
    cases hc
  rw [scanString_escape h hu, hskip, if_pos (by simpa using hc)]
  exact onward_offsetIn h ((List.suffix_append ['\\', c] s).trans h) (by simp) _

/-- **A string** ends where the reader ends it. -/
theorem scanString_offsetIn {opening : List Char} (h : s <:+ text) :
    scanString text (offsetIn text opening) (offsetIn text s) =
      match Document.readBody opening s with
      | .ok (_, rest) => pure (offsetIn text rest)
      | .error flaw => throw (flaw.report text) := by
  have plain {c : Char} {rest : List Char} (hend : c = '\\' → rest = [] → False)
      (hnext : ∀ d tail, c = '\\' → rest = d :: tail → False) : c ≠ '\\' := by
    intro hc
    cases rest with
    | nil => exact hend hc rfl
    | cons d tail => exact hnext d tail hc rfl
  fun_induction Document.readBody opening s with
  | case1 =>
      rw [scanString, byteAt?_nil h]
      rfl
  | case2 rest =>
      rw [scanString, byteAt?_cons h, lead_of_ascii (by decide)]
      exact congrArg pure (offsetIn_succ h (by decide))
  | case3 a b c d rest hhex ih =>
      have hrest := (List.suffix_append ['\\', 'u', a, b, c, d] rest).trans h
      rw [scanString_code h (by simpa [and_assoc] using hhex), ih hrest]
      cases Document.readBody opening rest <;> rfl
  | case4 a b c d rest hhex =>
      rw [scanString_unicode h, if_neg (by simpa [and_assoc] using hhex)]
      rfl
  | case5 rest hshort =>
      have hlength : rest.length < 4 := length_lt_four hshort
      rw [scanString_unicode h, if_neg fun hhex => Nat.not_le_of_lt hlength hhex.1]
      rfl
  | case6 c rest _ _ hescapable ih =>
      rw [scanString_short h hescapable, ih ((List.suffix_append ['\\', c] rest).trans h)]
      cases Document.readBody opening rest <;> rfl
  | case7 c rest _ hu hescapable =>
      have hu' : (c :: rest).head? ≠ some 'u' := fun hhead => hu (Option.some.inj hhead)
      rw [scanString_escape h hu', if_neg (by simpa using hescapable)]
      rfl
  | case8 =>
      rw [scanString_escape h (by simp)]
      rfl
  | case9 c rest hclosing _ _ hnext hend hcontrol =>
      rw [scanString_cons h _ hclosing (plain hend hnext), if_pos hcontrol]
      rfl
  | case10 c rest hclosing _ _ hnext hend hcontrol ih =>
      rw [scanString_cons h _ hclosing (plain hend hnext), if_neg hcontrol,
        ih ((List.suffix_cons _ _).trans h)]
      cases Document.readBody opening rest <;> rfl

/-! ### Numbers and words -/

/-- The offset behind a minus sign, if one stands there. -/
def skipMinus (text : List Char) (i : Nat) : Nat :=
  if byteAt? text i = some '-' then i + 1 else i

/-- The offset behind a single zero, or else behind all digits. -/
def skipInteger (text : List Char) (i : Nat) : Nat :=
  if byteAt? text i = some '0' then i + 1 else skipWhile Char.isDigit text i

/-- The offset behind a point and digits, if a point stands there. -/
def skipFraction (text : List Char) (i : Nat) : Nat :=
  if byteAt? text i = some '.' then skipWhile Char.isDigit text (i + 1) else i

/-- The offset behind the number of a document that begins at an offset: digits without padding, a
fraction only with digits, an exponent. -/
def plainNumberEnd? (text : List Char) (start : Nat) : Option Nat :=
  let signed := skipMinus text start
  let whole := skipInteger text signed
  if whole = signed then none
  else if byteAt? text whole = some '.' ∧ !(byteAt? text (whole + 1)).any Char.isDigit then none
  else skipExponent? text (skipFraction text whole)

/-- The offset behind a word that begins at an offset. -/
def wordEnd? (text : List Char) : (word : List Char) → (i : Nat) → Option Nat
  | [], i => some i
  | w :: word, i => if byteAt? text i = some w then wordEnd? text word (i + 1) else none

/-- Behind a minus there is an end of the text. -/
theorem splitMinus_suffix (s : List Char) : (splitMinus s).2 <:+ s :=
  ⟨_, append_splitMinus s⟩

/-- Behind an integer there is an end of the text. -/
theorem splitInteger_suffix (s : List Char) : (splitInteger s).2 <:+ s :=
  ⟨_, append_splitInteger s⟩

/-- Skipping a minus leads to where it is split off. -/
theorem skipMinus_offsetIn (h : s <:+ text) :
    skipMinus text (offsetIn text s) = offsetIn text (splitMinus s).2 := by
  simp (disch := decide) only [skipMinus, byteAt?_eq_some_iff h]
  split
  · next hs =>
      obtain ⟨rest, rfl⟩ := List.head?_eq_some_iff.1 hs
      exact offsetIn_succ h (by decide)
  · next hs =>
      rw [splitMinus]
      rintro rest rfl
      exact hs rfl

/-- Skipping an integer leads to where it is split off. -/
theorem skipInteger_offsetIn (h : s <:+ text) :
    skipInteger text (offsetIn text s) = offsetIn text (splitInteger s).2 := by
  simp (disch := decide) only [skipInteger, byteAt?_eq_some_iff h]
  split
  · next hs =>
      obtain ⟨rest, rfl⟩ := List.head?_eq_some_iff.1 hs
      exact offsetIn_succ h (by decide)
  · next hs =>
      rw [splitInteger]
      · exact skipWhile_offsetIn bytewise_isDigit h
      · rintro rest rfl
        exact hs rfl

/-- Skipping a fraction leads to where it is split off. -/
theorem skipFraction_offsetIn (h : s <:+ text) :
    skipFraction text (offsetIn text s) = offsetIn text (splitFraction s).2 := by
  simp (disch := decide) only [skipFraction, byteAt?_eq_some_iff h]
  split
  · next hs =>
      obtain ⟨rest, rfl⟩ := List.head?_eq_some_iff.1 hs
      rw [offsetIn_succ h (by decide)]
      exact skipWhile_offsetIn bytewise_isDigit ((List.suffix_cons _ _).trans h)
  · next hs =>
      rw [splitFraction]
      rintro rest rfl
      exact hs rfl

/-- A point without digits is told by the byte behind it. -/
theorem splitFraction_eq_some_nil_iff (h : s <:+ text) :
    (splitFraction s).1 = some [] ↔
      byteAt? text (offsetIn text s) = some '.' ∧
        (!(byteAt? text (offsetIn text s + 1)).any Char.isDigit) = true := by
  rw [byteAt?_eq_some_iff h (by decide)]
  by_cases hs : s.head? = some '.'
  · obtain ⟨rest, rfl⟩ := List.head?_eq_some_iff.1 hs
    rw [offsetIn_succ h (by decide), any_byteAt? bytewise_isDigit ((List.suffix_cons _ _).trans h),
      splitFraction]
    rcases rest with - | ⟨c, rest⟩
    · simp [splitDigits]
    · by_cases hc : c.isDigit = true <;> simp [splitDigits, hc]
  · rw [splitFraction]
    · simp [hs]
    · rintro rest rfl
      exact hs rfl

/-- A number ends at the offset of what its scanner leaves. -/
theorem plainNumberEnd?_offsetIn (h : s <:+ text) :
    plainNumberEnd? text (offsetIn text s) =
      (Document.scanNumber s).map fun p => offsetIn text p.2 := by
  have hsigned := (splitMinus_suffix s).trans h
  have hwhole := (splitInteger_suffix _).trans hsigned
  have hstop := (splitFraction_suffix _).trans hwhole
  have hinteger : offsetIn text (splitInteger (splitMinus s).2).2 = offsetIn text (splitMinus s).2 ↔
      (splitInteger (splitMinus s).2).1 = [] := by
    rw [offsetIn_inj hwhole hsigned]
    conv_lhs => rhs; rw [← append_splitInteger (splitMinus s).2]
    exact List.self_eq_append_left
  rw [plainNumberEnd?, skipMinus_offsetIn h, skipInteger_offsetIn hsigned, Document.scanNumber]
  simp only [hinteger, ← splitFraction_eq_some_nil_iff hwhole, Bool.or_eq_true, List.isEmpty_iff,
    beq_iff_eq, skipFraction_offsetIn hwhole, skipExponent?_offsetIn hstop]
  by_cases hempty : (splitInteger (splitMinus s).2).1 = []
  · rw [if_pos hempty, if_pos (.inl hempty)]
    rfl
  by_cases hpoint : (splitFraction (splitInteger (splitMinus s).2).2).1 = some []
  · rw [if_neg hempty, if_pos hpoint, if_pos (.inr hpoint)]
    rfl
  · rw [if_neg hempty, if_neg hpoint, if_neg (by simp [hempty, hpoint]), Option.map_map]
    rfl

/-- A word ends at the offset of what is left behind it. -/
theorem wordEnd?_offsetIn {word : List Char} (hword : ∀ w ∈ word, w.toNat < 128) (h : s <:+ text) :
    wordEnd? text word (offsetIn text s) = (afterWord? word s).map (offsetIn text) := by
  induction word generalizing s with
  | nil => rfl
  | cons w word ih =>
      have hw : w.toNat < 128 := hword w List.mem_cons_self
      rw [wordEnd?]
      simp only [byteAt?_eq_some_iff h hw]
      rcases s with - | ⟨c, s⟩
      · rfl
      · rw [afterWord?]
        by_cases hc : w = c
        · subst hc
          rw [if_pos rfl, List.head?_cons, if_pos rfl, offsetIn_succ h hw]
          exact ih (fun v hv => hword v (List.mem_cons_of_mem _ hv))
            ((List.suffix_cons _ _).trans h)
        · rw [if_neg hc, if_neg (by simpa using Ne.symm hc)]
          rfl

/-! ### Values -/

/-- The offset behind the number that begins at an offset. -/
def scanNumber (text : List Char) (i : Nat) : Checked Nat :=
  match plainNumberEnd? text i with
  | none => malformed i .number
  | some stop => pure stop

/-- The offset behind a word that begins at an offset. -/
def scanWord (text word : List Char) (i : Nat) : Checked Nat :=
  match wordEnd? text word i with
  | none => malformed i .word
  | some stop => pure stop

/-- The offset behind the key that begins at an offset. -/
def scanKey (text : List Char) (i : Nat) : Checked Nat :=
  if byteAt? text i = some '"' then scanString text i (i + 1) else malformed i .keyExpected

/-- The offset of the value behind the colon that follows a key. -/
def colonEnd (text : List Char) (i : Nat) : Checked Nat :=
  let colon := skipWhile isBlank text i
  if byteAt? text colon = some ':' then pure (skipWhile isBlank text (colon + 1))
  else malformed colon .colonExpected

/-- What follows a child that ends at an offset: whether that is a further child, and where it
begins, or else where the container ends. -/
def childEnd (text : List Char) (closing : Char) (ended missing : Malformed) (i : Nat) :
    Checked (Bool × Nat) :=
  let mark := skipWhile isBlank text i
  match byteAt? text mark with
  | none => malformed mark ended
  | some b =>
    if b = ',' then pure (true, skipWhile isBlank text (mark + 1))
    else if b = closing then pure (false, mark + 1)
    else malformed mark missing

mutual

/-- The offset behind the value that begins at an offset, below so many containers. -/
def scanValue (text : List Char) (i depth : Nat) : Checked Nat :=
  match byteAt? text i with
  | none => malformed i .endOfValue
  | some b =>
    if b = '\x7b' then scanObject text i (depth + 1)
    else if b = '[' then scanArray text i (depth + 1)
    else if b = '"' then scanString text i (i + 1)
    else if b = '-' ∨ b.isDigit then scanNumber text i
    else if b = 't' then scanWord text "true".toList i
    else if b = 'f' then scanWord text "false".toList i
    else if b = 'n' then scanWord text "null".toList i
    else malformed i .noValue
termination_by (byteSize text - i, 1)

/-- The offset behind the object that begins at an offset. -/
def scanObject (text : List Char) (i depth : Nat) : Checked Nat :=
  if maxDepth < depth then
    malformed i .tooDeep
  else
    let inside := skipWhile isBlank text (i + 1)
    if byteAt? text inside = some '\x7d' then pure (inside + 1)
    else onward text i inside fun _ => scanMembers text depth inside
termination_by (byteSize text - i, 0)

/-- The offset behind the member that begins at an offset. -/
def scanMember (text : List Char) (depth i : Nat) : Checked Nat := do
  let behind ← scanKey text i
  let value ← colonEnd text behind
  onward text i value fun _ => scanValue text value depth
termination_by (byteSize text - i, 2)

/-- The offset behind the object one of whose members begins at an offset. -/
def scanMembers (text : List Char) (depth i : Nat) : Checked Nat := do
  let stop ← scanMember text depth i
  let (more, next) ← childEnd text '\x7d' .endOfObject .memberEnd stop
  if more then onward text i next fun _ => scanMembers text depth next else pure next
termination_by (byteSize text - i, 3)

/-- The offset behind the array that begins at an offset. -/
def scanArray (text : List Char) (i depth : Nat) : Checked Nat :=
  if maxDepth < depth then
    malformed i .tooDeep
  else
    let inside := skipWhile isBlank text (i + 1)
    if byteAt? text inside = some ']' then pure (inside + 1)
    else onward text i inside fun _ => scanElements text depth inside
termination_by (byteSize text - i, 0)

/-- The offset behind the array one of whose elements begins at an offset. -/
def scanElements (text : List Char) (depth i : Nat) : Checked Nat := do
  let stop ← scanValue text i depth
  let (more, next) ← childEnd text ']' .endOfArray .elementEnd stop
  if more then onward text i next fun _ => scanElements text depth next else pure next
termination_by (byteSize text - i, 2)

end

/-- Skipping blanks leads to the text without them. -/
theorem skipBlanks_offsetIn (h : s <:+ text) :
    skipWhile isBlank text (offsetIn text s) = offsetIn text (skipBlanks s) :=
  skipWhile_offsetIn bytewise_isBlank h

/-- What stands behind a character that follows blanks. -/
theorem suffix_behind {c : Char} {after : List Char} (h : s <:+ text)
    (hskip : skipBlanks s = c :: after) : skipBlanks after <:+ text :=
  (suffix_skipBlanks after).trans ((List.suffix_cons c after).trans
    (hskip ▸ (suffix_skipBlanks s).trans h))

/-- Behind a character that follows blanks, and the blanks behind it. -/
theorem offsetIn_behind {c : Char} {after : List Char} (hc : c.toNat < 128) (h : s <:+ text)
    (hskip : skipBlanks s = c :: after) :
    skipWhile isBlank text (offsetIn text (skipBlanks s) + 1) =
      offsetIn text (skipBlanks after) := by
  have hmark := (suffix_skipBlanks s).trans h
  rw [hskip] at hmark ⊢
  rw [offsetIn_succ hmark hc, skipBlanks_offsetIn ((List.suffix_cons c after).trans hmark)]

/-- Behind a character that follows blanks, and the blanks behind it, less is left. -/
theorem length_behind_lt {c : Char} {after : List Char} (hskip : skipBlanks s = c :: after) :
    (skipBlanks after).length < s.length := by
  have hle := length_skipBlanks_le s
  rw [hskip, List.length_cons] at hle
  exact Nat.lt_of_le_of_lt (length_skipBlanks_le after) hle

/-- **A colon** is found where the reader finds it. -/
theorem colonEnd_offsetIn (h : s <:+ text) :
    colonEnd text (offsetIn text s) =
      match skipBlanks s with
      | ':' :: after => pure (offsetIn text (skipBlanks after))
      | rest => malformed (offsetIn text rest) .colonExpected := by
  have hcolon := (suffix_skipBlanks s).trans h
  rw [colonEnd, skipBlanks_offsetIn h]
  simp (disch := decide) only [byteAt?_eq_some_iff hcolon]
  split
  · next hhead =>
      obtain ⟨after, hafter⟩ := List.head?_eq_some_iff.1 hhead
      have hvalue := offsetIn_behind (by decide) h hafter
      rw [hafter] at hvalue ⊢
      exact congrArg pure hvalue
  · next hhead =>
      split
      · next after hafter => exact (hhead (hafter ▸ rfl)).elim
      · rfl

/-- A number at an offset is scanned as it is read. -/
theorem scanNumber_offsetIn (h : s <:+ text) :
    scanNumber text (offsetIn text s) = stopOf text (Document.readNumber s) := by
  rw [scanNumber, plainNumberEnd?_offsetIn h, Document.readNumber]
  split
  · next hnone =>
      split
      · rfl
      · next n rest hsome =>
          rw [hsome] at hnone
          cases hnone
  · next stop hsome =>
      split
      · next hnone =>
          rw [hnone] at hsome
          cases hsome
      · next n rest hread =>
          rw [hread] at hsome
          exact congrArg pure (Option.some.inj hsome).symm

/-- A string behind its opening quote. -/
theorem scanString_opening (h : '"' :: s <:+ text) (missing : Malformed) :
    scanString text (offsetIn text ('"' :: s)) (offsetIn text s) =
      stopOf text (readString ('"' :: s) missing) := by
  rw [scanString_offsetIn ((List.suffix_cons _ _).trans h), readString]
  split
  · next body rest hbody =>
      split
      · next hread =>
          rw [hread] at hbody
          cases hbody
      · next hread =>
          rw [hread] at hbody
          obtain ⟨-, rfl⟩ := Prod.mk.inj (Except.ok.inj hbody)
          rfl
  · next flaw hbody =>
      split
      · next hread =>
          rw [hread] at hbody
          exact congrArg (fun flaw : Flaw => throw (flaw.report text)) (Except.error.inj hbody).symm
      · next hread =>
          rw [hread] at hbody
          cases hbody

/-- A key at an offset is scanned as it is read. -/
theorem scanKey_offsetIn (h : s <:+ text) :
    scanKey text (offsetIn text s) = stopOf text (readString s .keyExpected) := by
  rw [scanKey]
  simp (disch := decide) only [byteAt?_eq_some_iff h]
  by_cases hquote : s.head? = some '"'
  · obtain ⟨s, rfl⟩ := List.head?_eq_some_iff.1 hquote
    rw [if_pos hquote, offsetIn_succ h (by decide)]
    exact scanString_opening h _
  · rw [if_neg hquote, readString]
    · rfl
    · rintro tail rfl
      exact hquote rfl

/-- A string leaves an end of the text. -/
theorem suffix_of_readString {missing : Malformed} {body rest : List Char}
    {hlt : rest.length < s.length} (h : readString s missing = .ok (body, ⟨rest, hlt⟩)) :
    rest <:+ s := by
  have hread := readString_found?_iff.1 (congrArg Outcome.found? h)
  exact hread.2 ▸ List.suffix_append (quoted body) rest

/-- A reader of values that a scanner goes along with. -/
structure Follows (text : List Char) (depth : Nat) (element : (s : List Char) → Outcome Node s) :
    Prop where
  /-- The scanner ends where the reader does. -/
  scan : ∀ {s}, s <:+ text → scanValue text (offsetIn text s) depth = stopOf text (element s)
  /-- The reader leaves an end of its text. -/
  suffix : ∀ {s value rest hlt}, element s = .ok (value, ⟨rest, hlt⟩) → rest <:+ s

section Containers

variable {depth : Nat} {element : (s : List Char) → Outcome Node s}

/-- **What follows a child** tells how a loop over the children goes on. -/
theorem childEnd_offsetIn {closing : Char} (hclosing : closing.toNat < 128) (h : s <:+ text)
    (loop : Nat → Checked Nat) (ended missing : Malformed) :
    (do
      let (more, next) ← childEnd text closing ended missing (offsetIn text s)
      if more then loop next else pure next) =
      match skipBlanks s with
      | [] => malformed (offsetIn text []) ended
      | c :: after =>
        if c = ',' then loop (offsetIn text (skipBlanks after))
        else if c = closing then pure (offsetIn text after)
        else malformed (offsetIn text (c :: after)) missing := by
  have hmark := (suffix_skipBlanks s).trans h
  rw [childEnd, skipBlanks_offsetIn h]
  cases hskip : skipBlanks s with
  | nil =>
      rw [hskip] at hmark
      dsimp only
      rw [byteAt?_nil hmark]
      rfl
  | cons c after =>
      rw [hskip] at hmark
      simp (disch := first | decide | assumption) only [byteAt?_cons hmark, lead_eq_iff]
      split_ifs with hcomma hclose
      · subst hcomma
        rw [offsetIn_succ hmark (by decide),
          skipBlanks_offsetIn ((List.suffix_cons _ _).trans hmark)]
        rfl
      · subst hclose
        rw [offsetIn_succ hmark hclosing]
        rfl
      · rfl

/-- **Elements** end where the reader ends them. -/
theorem Follows.elements (he : Follows text depth element) (gap : List Char) (h : s <:+ text) :
    scanElements text depth (offsetIn text s) = stopOf text (readElements element gap s) := by
  have hstep {s rest : List Char} {value : Node} {hlt : rest.length < s.length} (h : s <:+ text)
      (hread : element s = .ok (value, ⟨rest, hlt⟩)) :
      scanElements text depth (offsetIn text s) =
        match skipBlanks rest with
        | [] => malformed (offsetIn text []) .endOfArray
        | c :: after =>
          if c = ',' then
            onward text (offsetIn text s) (offsetIn text (skipBlanks after)) fun _ =>
              scanElements text depth (offsetIn text (skipBlanks after))
          else if c = ']' then pure (offsetIn text after)
          else malformed (offsetIn text (c :: after)) .elementEnd := by
    rw [scanElements, he.scan h, hread]
    exact childEnd_offsetIn (by decide) ((he.suffix hread).trans h)
      (fun next => onward text (offsetIn text s) next fun _ => scanElements text depth next) _ _
  fun_induction readElements element gap s with
  | case1 gap s flaw hread =>
      rw [scanElements, he.scan h, hread]
      rfl
  | case2 gap s value rest hlt hread blanks after hskip hafter flaw hmore ih =>
      have hnext := suffix_behind ((he.suffix hread).trans h) hskip
      rw [hmore] at ih
      rw [hstep h hread, hskip]
      exact (onward_offsetIn h hnext ((length_behind_lt hskip).trans hlt) _).trans (ih hnext)
  | case3 gap s value rest hlt hread blanks after hskip hafter items rest' hlt' hmore ih =>
      have hnext := suffix_behind ((he.suffix hread).trans h) hskip
      rw [hmore] at ih
      rw [hstep h hread, hskip]
      exact (onward_offsetIn h hnext ((length_behind_lt hskip).trans hlt) _).trans (ih hnext)
  | case4 gap s value rest hlt hread blanks after hskip =>
      rw [hstep h hread, hskip]
      rfl
  | case5 gap s value rest hlt hread hskip =>
      rw [hstep h hread, hskip]
      rfl
  | case6 gap s value rest hlt hread c after hcomma hclose hskip =>
      rw [hstep h hread, hskip]
      dsimp only
      rw [if_neg hcomma, if_neg hclose]
      rfl

/-- The inside of brackets ends where the reader ends it. -/
theorem Follows.array (he : Follows text depth element) (h : '[' :: s <:+ text)
    (hdepth : depth ≤ maxDepth) :
    scanArray text (offsetIn text ('[' :: s)) depth = stopOf text (readItems element s) := by
  have hs := (List.suffix_cons _ _).trans h
  have hinside := (suffix_skipBlanks s).trans hs
  rw [scanArray, if_neg (not_lt.2 hdepth), offsetIn_succ h (by decide), skipBlanks_offsetIn hs]
  simp (disch := decide) only [byteAt?_eq_some_iff hinside]
  rw [readItems]
  split
  · next hclosing =>
      obtain ⟨after, hafter⟩ := List.head?_eq_some_iff.1 hclosing
      split
      · next after' hafter' =>
          dsimp only [stopOf]
          rw [hafter'] at hinside ⊢
          rw [offsetIn_succ hinside (by decide)]
      · next hne => exact (hne after hafter).elim
  · next hclosing =>
      split
      · next after hafter => exact (hclosing (hafter ▸ rfl)).elim
      · rw [onward_offsetIn h hinside (Nat.lt_succ_of_le (length_skipBlanks_le s)),
          he.elements (s.takeWhile isBlank) hinside]
        cases readElements element (s.takeWhile isBlank) (skipBlanks s) <;> rfl

/-- **A member** ends where the reader ends it. -/
theorem Follows.member (he : Follows text depth element) (h : s <:+ text) :
    scanMember text depth (offsetIn text s) = stopOf text (readMember element s) := by
  rw [scanMember, scanKey_offsetIn h, readMember]
  cases hkey : readString s .keyExpected with
  | error flaw => rfl
  | ok p =>
      obtain ⟨key, behind, hlt⟩ := p
      have hrest := (suffix_of_readString hkey).trans h
      have hbehind : stopOf text (.ok (key, ⟨behind, hlt⟩) : Outcome (List Char) s) =
          pure (offsetIn text behind) := rfl
      rw [hbehind, pure_bind, colonEnd_offsetIn hrest]
      dsimp only
      split
      · next after hafter =>
          have hvalue := suffix_behind hrest hafter
          rw [pure_bind, onward_offsetIn h hvalue ((length_behind_lt hafter).trans hlt),
            he.scan hvalue]
          split
          · next after' hafter' =>
              obtain rfl : after = after' := List.tail_eq_of_cons_eq (hafter.symm.trans hafter')
              cases element (skipBlanks after) <;> rfl
          · next hne => exact (hne after hafter).elim
      · next hne =>
          split
          · next after hafter => exact (hne after hafter).elim
          · rfl

/-- The reader of a member leaves an end of its text. -/
theorem Follows.suffix_member (he : Follows text depth element)
    {found : List Char × List Char × Node} {rest : List Char} {hlt : rest.length < s.length}
    (h : readMember element s = .ok (found, ⟨rest, hlt⟩)) : rest <:+ s := by
  rw [readMember] at h
  cases hkey : readString s .keyExpected with
  | error flaw =>
      rw [hkey] at h
      cases h
  | ok p =>
      obtain ⟨key, behind, hbehind⟩ := p
      rw [hkey] at h
      dsimp only at h
      split at h
      · next after hafter =>
          cases hvalue : element (skipBlanks after) with
          | error flaw =>
              rw [hvalue] at h
              cases h
          | ok q =>
              obtain ⟨value, tail, htail⟩ := q
              rw [hvalue] at h
              obtain ⟨-, rfl⟩ : _ ∧ tail = rest := by simpa using h
              exact (he.suffix hvalue).trans (suffix_behind (suffix_of_readString hkey) hafter)
      · cases h

/-- **Members** end where the reader ends them. -/
theorem Follows.members (he : Follows text depth element) (gap : List Char) (h : s <:+ text) :
    scanMembers text depth (offsetIn text s) = stopOf text (readMemberList element gap s) := by
  have hstep {s rest : List Char} {found : List Char × List Char × Node}
      {hlt : rest.length < s.length} (h : s <:+ text)
      (hread : readMember element s = .ok (found, ⟨rest, hlt⟩)) :
      scanMembers text depth (offsetIn text s) =
        match skipBlanks rest with
        | [] => malformed (offsetIn text []) .endOfObject
        | c :: after =>
          if c = ',' then
            onward text (offsetIn text s) (offsetIn text (skipBlanks after)) fun _ =>
              scanMembers text depth (offsetIn text (skipBlanks after))
          else if c = '\x7d' then pure (offsetIn text after)
          else malformed (offsetIn text (c :: after)) .memberEnd := by
    rw [scanMembers, he.member h, hread]
    exact childEnd_offsetIn (by decide) ((he.suffix_member hread).trans h)
      (fun next => onward text (offsetIn text s) next fun _ => scanMembers text depth next) _ _
  fun_induction readMemberList element gap s with
  | case1 gap s flaw hread =>
      rw [scanMembers, he.member h, hread]
      rfl
  | case2 gap s key colon value rest hlt hread blanks after hskip hafter flaw hmore ih =>
      have hnext := suffix_behind ((he.suffix_member hread).trans h) hskip
      rw [hmore] at ih
      rw [hstep h hread, hskip]
      exact (onward_offsetIn h hnext ((length_behind_lt hskip).trans hlt) _).trans (ih hnext)
  | case3 gap s key colon value rest hlt hread blanks after hskip hafter members rest' hlt' hmore
      ih =>
      have hnext := suffix_behind ((he.suffix_member hread).trans h) hskip
      rw [hmore] at ih
      rw [hstep h hread, hskip]
      exact (onward_offsetIn h hnext ((length_behind_lt hskip).trans hlt) _).trans (ih hnext)
  | case4 gap s key colon value rest hlt hread blanks after hskip =>
      rw [hstep h hread, hskip]
      rfl
  | case5 gap s key colon value rest hlt hread hskip =>
      rw [hstep h hread, hskip]
      rfl
  | case6 gap s key colon value rest hlt hread c after hcomma hclose hskip =>
      rw [hstep h hread, hskip]
      dsimp only
      rw [if_neg hcomma, if_neg hclose]
      rfl

/-- The inside of braces ends where the reader ends it. -/
theorem Follows.object (he : Follows text depth element) (h : '\x7b' :: s <:+ text)
    (hdepth : depth ≤ maxDepth) :
    scanObject text (offsetIn text ('\x7b' :: s)) depth = stopOf text (readMembers element s) := by
  have hs := (List.suffix_cons _ _).trans h
  have hinside := (suffix_skipBlanks s).trans hs
  rw [scanObject, if_neg (not_lt.2 hdepth), offsetIn_succ h (by decide), skipBlanks_offsetIn hs]
  simp (disch := decide) only [byteAt?_eq_some_iff hinside]
  rw [Document.readMembers]
  split
  · next hclosing =>
      obtain ⟨after, hafter⟩ := List.head?_eq_some_iff.1 hclosing
      split
      · next after' hafter' =>
          dsimp only [stopOf]
          rw [hafter'] at hinside ⊢
          rw [offsetIn_succ hinside (by decide)]
      · next hne => exact (hne after hafter).elim
  · next hclosing =>
      split
      · next after hafter => exact (hclosing (hafter ▸ rfl)).elim
      · rw [onward_offsetIn h hinside (Nat.lt_succ_of_le (length_skipBlanks_le s)),
          he.members (s.takeWhile isBlank) hinside]
        cases readMemberList element (s.takeWhile isBlank) (skipBlanks s) <;> rfl

end Containers

/-! ### Whole values -/

/-- A word at an offset is scanned as it is read. -/
theorem scanWord_offsetIn {word : String} (hne : word.toList ≠ [])
    (hword : ∀ w ∈ word.toList, w.toNat < 128) (value : Node) (h : s <:+ text) :
    scanWord text word.toList (offsetIn text s) = stopOf text (readWord word value s) := by
  rw [scanWord, wordEnd?_offsetIn hword h, readWord, dif_neg hne]
  split
  · next hnone =>
      split
      · rfl
      · next rest hsome =>
          rw [hsome] at hnone
          cases hnone
  · next stop hsome =>
      split
      · next hnone =>
          rw [hnone] at hsome
          cases hsome
      · next rest hread =>
          rw [hread] at hsome
          exact congrArg pure (Option.some.inj hsome).symm

/-- A string in place of a value. -/
theorem scanValue_quote (h : '"' :: s <:+ text) (depth : Nat) (missing : Malformed) :
    scanValue text (offsetIn text ('"' :: s)) depth =
      stopOf text (readString ('"' :: s) missing) := by
  rw [← scanString_opening h missing, ← offsetIn_succ h (by decide), scanValue, byteAt?_cons h,
    lead_of_ascii (by decide)]
  rfl

/-- A value that contains no others ends where the reader ends it, whatever room there is. -/
theorem scanValue_scalar {c : Char} (h : c :: s <:+ text) (hobject : c ≠ '\x7b') (harray : c ≠ '[')
    (depth room : Nat) :
    scanValue text (offsetIn text (c :: s)) depth = stopOf text (readValue room (c :: s)) := by
  by_cases hquote : c = '"'
  · subst hquote
    rw [scanValue_quote h depth .noValue, readValue]
    cases readString ('"' :: s) .noValue <;> rfl
  have hread : readValue room (c :: s) =
      if c = '-' ∨ c.isDigit then Document.readNumber (c :: s)
      else if c = 't' then readWord "true" (.bool true) (c :: s)
      else if c = 'f' then readWord "false" (.bool false) (c :: s)
      else if c = 'n' then readWord "null" .null (c :: s)
      else .error ⟨c :: s, .noValue⟩ := by
    cases room <;> rw [readValue] <;> simp_all
  rw [scanValue, byteAt?_cons h, hread]
  simp (disch := decide) only [lead_eq_iff, bytewise_isDigit.lead, if_neg hobject, if_neg harray,
    if_neg hquote]
  split_ifs
  · exact scanNumber_offsetIn h
  · exact scanWord_offsetIn (by decide) (by simp) _ h
  · exact scanWord_offsetIn (by decide) (by simp) _ h
  · exact scanWord_offsetIn (by decide) (by simp) _ h
  · rfl

/-- The reader of values leaves an end of its text. -/
theorem suffix_of_readValue {room : Nat} {value : Node} {rest : List Char}
    {hlt : rest.length < s.length} (h : readValue room s = .ok (value, ⟨rest, hlt⟩)) :
    rest <:+ s := by
  obtain ⟨-, -, hs⟩ := readValue_sound (fun d _ => readsValues_readValue d)
    (congrArg Outcome.found? h)
  exact hs ▸ List.suffix_append value.text rest

/-- A value ends where the reader ends it, if that is so with less room. -/
theorem scanValue_of_less_room {room depth : Nat} (hroom : depth + room = maxDepth)
    (he : ∀ less, room = less + 1 → Follows text (depth + 1) (readValue less)) (h : s <:+ text) :
    scanValue text (offsetIn text s) depth = stopOf text (readValue room s) := by
  rcases s with - | ⟨c, s⟩
  · rw [scanValue, byteAt?_nil h, readValue]
    rfl
  by_cases hobject : c = '\x7b'
  · subst hobject
    have hscan : scanValue text (offsetIn text ('\x7b' :: s)) depth =
        scanObject text (offsetIn text ('\x7b' :: s)) (depth + 1) := by
      rw [scanValue, byteAt?_cons h, lead_of_ascii (by decide)]
      rfl
    cases room with
    | zero =>
        rw [hscan, scanObject, if_pos (by omega), readValue]
        rfl
    | succ room =>
        rw [hscan, (he room rfl).object h (by omega), readValue]
        cases Document.readMembers (readValue room) s <;> rfl
  by_cases harray : c = '['
  · subst harray
    have hscan : scanValue text (offsetIn text ('[' :: s)) depth =
        scanArray text (offsetIn text ('[' :: s)) (depth + 1) := by
      rw [scanValue, byteAt?_cons h, lead_of_ascii (by decide)]
      rfl
    cases room with
    | zero =>
        rw [hscan, scanArray, if_pos (by omega), readValue]
        rfl
    | succ room =>
        rw [hscan, (he room rfl).array h (by omega), readValue]
        cases readItems (readValue room) s <;> rfl
  exact scanValue_scalar h hobject harray depth room

/-- **A value ends where the reader ends it**, if the containers around it and the room that is left
make up the depth that documents may have. -/
theorem follows_readValue {room depth : Nat} (hroom : depth + room = maxDepth) :
    Follows text depth (readValue room) := by
  induction room generalizing depth with
  | zero => exact ⟨scanValue_of_less_room hroom (fun less h => by cases h), suffix_of_readValue⟩
  | succ room ih =>
      refine ⟨scanValue_of_less_room hroom fun less hless => ?_, suffix_of_readValue⟩
      obtain rfl := Nat.succ.inj hless
      exact ih (by omega)

end JsonPath.Indexed
