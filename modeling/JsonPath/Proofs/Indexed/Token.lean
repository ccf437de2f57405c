import JsonPath.Proofs.Filter.Tiling
import JsonPath.Proofs.Indexed.Text

/-!
# Tokens Read from Bytes

The lexer of filters, as a program on offsets has it. Blanks, words and digits end at the first byte
that is none of theirs. The end of a quoted text is the offset behind its closing quote, so that the
inside is taken up to one less: there is an opening quote in front of it, and nothing is taken away
from nought. A quoted name of a reference is looked for in the part of the text behind its opening
quote, which exists even at the end of the text. A number is one sign, digits, a fraction and an
exponent, of which each ends where the next begins.

Each of these loops comes to the offset of the rest that the reader leaves, at any rest of the text:
the loops stop in front of a character, and the characters that they pass with one step are ASCII.

## Main definitions

* `stands`, `countSides`: a byte of a class at an offset, and the digits of a number, counted.
* `quotedEnd`, `numberEnd`, `readSteps`: where a quoted text, a number and a reference end.
* `operatorOf?`: the operator that is told by two bytes.
* `readToken`, `nextToken`: the token at an offset, and the first from an offset on.

## Main results

* `quotedEnd_offsetIn`, `numberEnd_offsetIn`, `readSteps_offsetIn`: the parts of tokens.
* `nextToken_offsetIn`: **the first token from an offset on is the one that the reader finds**.
-/

namespace JsonPath.Indexed

open Text

/-! ### Quoted texts -/

/-- The offset behind the quoted text whose inside goes on at `i`, if it ends. -/
def quotedEnd (text : List Char) (quote : Char) (i : Nat) : Checked (Option Nat) :=
  match byteAt? text i with
  | none => pure none
  | some b =>
    if b = quote then
      pure (some (i + 1))
    else if b = '\\' then
      let next := byteAt? text (i + 1)
      if next = some quote ∨ next = some '\\' then
        onward text i (i + 2) fun _ => quotedEnd text quote (i + 2)
      else pure none
    else
      onward text i (i + 1) fun _ => quotedEnd text quote (i + 1)
termination_by byteSize text - i

variable {text s : List Char}

/-- A quoted text ends at the offset of what is left behind its quote. -/
theorem quotedEnd_offsetIn {quote : Char} (hquote : quote.toNat < 128) (h : s <:+ text) :
    quotedEnd text quote (offsetIn text s) =
      match Quoted.split '\\' quote (fun _ => false) s with
      | .ok (_, rest) => pure (some (offsetIn text rest))
      | .error _ => pure none := by
  have hescape : '\\'.toNat < 128 := by decide
  fun_induction Quoted.split '\\' quote (fun _ => false) s with
  | case1 => rw [quotedEnd, byteAt?_nil h]
  | case2 rest =>
      rw [quotedEnd, byteAt?_cons h, lead_of_ascii hquote, offsetIn_succ h hquote]
      simp
  | case3 hne =>
      rw [quotedEnd, byteAt?_cons h, byteAt?_succ h hescape, lead_of_ascii hescape]
      simp [hne]
  | case4 d tail hd hne ih =>
      have htail : d :: tail <:+ text := (List.suffix_cons _ _).trans h
      have hd' : d.toNat < 128 := by rcases hd with rfl | rfl <;> assumption
      rw [quotedEnd, byteAt?_cons h, byteAt?_succ h hescape, lead_of_ascii hescape]
      have hskip : offsetIn text ('\\' :: d :: tail) + 2 = offsetIn text tail := by
        rw [← offsetIn_succ htail hd', ← offsetIn_succ h hescape]
      have hrest := (List.suffix_cons _ _).trans htail
      simp only [if_neg hne, if_true, List.head?_cons, Option.map_some, Option.some.injEq,
        lead_of_ascii hd', if_pos hd]
      rw [hskip, onward_offsetIn h hrest (by simp), ih hrest]
      cases Quoted.split '\\' quote (fun _ => false) tail <;> rfl
  | case5 d tail hd hne =>
      rw [quotedEnd, byteAt?_cons h, byteAt?_succ h hescape, lead_of_ascii hescape]
      simp [hne, lead_eq_iff hquote, lead_eq_iff hescape, hd]
  | case6 c rest hne _ hfalse => cases hfalse
  | case7 c rest hquote' hescape' hfalse ih =>
      have hpass : quotedEnd text quote (offsetIn text (c :: rest)) =
          quotedEnd text quote (offsetIn text rest) := by
        refine eq_of_passes h fun b hb i hi => ?_
        rw [quotedEnd, hi]
        simp [eq_iff_of_mem_bytesOf hb hquote, eq_iff_of_mem_bytesOf hb hescape, hquote', hescape',
          onward_succ (lt_of_byteAt? hi)]
      rw [hpass, ih ((List.suffix_cons _ _).trans h)]
      cases Quoted.split '\\' quote (fun _ => false) rest <;> rfl

/-! ### Numbers -/

/-- The offset behind a sign, if one stands there. -/
def skipSign (text : List Char) (i : Nat) : Nat :=
  if byteAt? text i = some '-' ∨ byteAt? text i = some '+' then i + 1 else i

/-- Whether a byte of a class stands at an offset. The byte is taken only in front of the end of the
text. -/
def stands (text : List Char) (p : Char → Bool) (i : Nat) : Checked Bool := do
  if i < byteSize text then
    let b ← Checked.ofOption (byteAt? text i)
    pure (p b)
  else
    pure false

/-- The offset behind the digits that begin at an offset, and their number with those before. -/
def countDigits (text : List Char) (i digits : Nat) : Checked (Nat × Nat) := do
  if ← stands text Char.isDigit i then
    let more ← tally text (digits + 1)
    onward text i (i + 1) fun _ => countDigits text (i + 1) more
  else
    pure (i, digits)
termination_by byteSize text - i

/-- The offset behind a point and digits, if a point stands there, and the number of digits with
those before. -/
def countFraction (text : List Char) (i digits : Nat) : Checked (Nat × Nat) := do
  if ← stands text (· == '.') i then countDigits text (i + 1) digits else pure (i, digits)

/-- The offset behind digits and a fraction that begin at an offset, and the number of digits on
both sides of the point. -/
def countSides (text : List Char) (i : Nat) : Checked (Nat × Nat) := do
  let (whole, digits) ← countDigits text i 0
  countFraction text whole digits

/-- The offset behind an exponent, if a mark stands there. Digits must follow. -/
def skipExponent? (text : List Char) (i : Nat) : Option Nat :=
  if byteAt? text i = some 'e' ∨ byteAt? text i = some 'E' then
    let signed := skipSign text (i + 1)
    let stop := skipWhile Char.isDigit text signed
    if stop = signed then none else some stop
  else
    some i

/-- The offset behind the number that begins at an offset. One digit at least stands before or
behind its point. -/
def numberEnd (text : List Char) (start : Nat) : Checked (Option Nat) := do
  let (stop, digits) ← countSides text (skipSign text start)
  pure (if digits = 0 then none else skipExponent? text stop)

/-- Behind a sign there is an end of the text. -/
theorem splitSign_suffix (s : List Char) : (splitSign s).2 <:+ s :=
  ⟨_, append_splitSign s⟩

/-- Behind a fraction there is an end of the text. -/
theorem splitFraction_suffix (s : List Char) : (splitFraction s).2 <:+ s :=
  ⟨_, append_splitFraction s⟩

/-- Skipping a sign leads to where it is split off. -/
theorem skipSign_offsetIn (h : s <:+ text) :
    skipSign text (offsetIn text s) = offsetIn text (splitSign s).2 := by
  simp (disch := decide) only [skipSign, byteAt?_eq_some_iff h]
  split
  · next hs =>
      rcases hs with hs | hs <;> obtain ⟨rest, rfl⟩ := List.head?_eq_some_iff.1 hs <;>
        exact offsetIn_succ h (by decide)
  · next hs =>
      rw [splitSign]
      · rintro rest rfl
        exact hs (.inl rfl)
      · rintro rest rfl
        exact hs (.inr rfl)

/-- A byte of a class stands at an offset exactly if the rest begins with such a character. -/
theorem stands_offsetIn {p : Char → Bool} (hp : Bytewise p) (h : s <:+ text) :
    stands text p (offsetIn text s) = pure (s.head?.any p) := by
  rw [stands]
  simp only [offsetIn_lt_byteSize_iff h, byteAt?_offsetIn h]
  cases s with
  | nil => rfl
  | cons c s => simp [hp.lead c]

/-- **Digits are counted** up to where they end. They are no more than the bytes up to there. -/
theorem countDigits_offsetIn {digits : Nat} (h : s <:+ text) (hdigits : digits ≤ offsetIn text s) :
    countDigits text (offsetIn text s) digits =
      pure (offsetIn text (s.dropWhile Char.isDigit), digits + (JsonPath.countDigits s).1) := by
  induction s generalizing digits with
  | nil =>
      rw [countDigits, stands_offsetIn bytewise_isDigit h]
      rfl
  | cons c s ih =>
      rw [countDigits, stands_offsetIn bytewise_isDigit h]
      by_cases hc : c.isDigit = true
      · have hs := (List.suffix_cons _ _).trans h
        have hnext := offsetIn_succ h (toNat_lt_of_isDigit hc)
        have hmore : digits + 1 ≤ offsetIn text s := hnext ▸ Nat.succ_le_succ hdigits
        have hheld : tally text (digits + 1) = pure (digits + 1) :=
          tally_of_le (hmore.trans (offsetIn_le_byteSize s))
        simp only [List.head?_cons, Option.any_some, hc, pure_bind, if_true, JsonPath.countDigits,
          List.takeWhile_cons_of_pos, List.dropWhile_cons_of_pos, List.length_cons]
        rw [hheld, pure_bind, hnext, onward_offsetIn h hs (Nat.lt_succ_self _), ih hs hmore]
        simp only [JsonPath.countDigits]
        congr 2
        omega
      · simp [JsonPath.countDigits, hc]

/-- No more digits are counted than there are bytes up to where they end. -/
theorem countDigits_le_offsetIn {digits : Nat} (h : s <:+ text)
    (hdigits : digits ≤ offsetIn text s) :
    digits + (JsonPath.countDigits s).1 ≤ offsetIn text (s.dropWhile Char.isDigit) := by
  have hascii : ∀ c ∈ s.takeWhile Char.isDigit, c.toNat < 128 := fun c hc =>
    toNat_lt_of_isDigit (List.mem_takeWhile_imp hc)
  have hsplit : s.takeWhile Char.isDigit ++ s.dropWhile Char.isDigit <:+ text := by
    rwa [List.takeWhile_append_dropWhile]
  rw [← offsetIn_add_length hascii hsplit, List.takeWhile_append_dropWhile]
  exact Nat.add_le_add_right hdigits _

/-- Behind the digits of a fraction there is an end of the text. -/
theorem suffix_countFraction (s : List Char) : (JsonPath.countFraction s).2 <:+ s := by
  rw [countFraction_eq]
  exact splitFraction_suffix s

/-- The digits of a fraction are counted onto those in front of the point, and the counter does not
break off. -/
theorem countFraction_offsetIn {digits : Nat} (h : s <:+ text)
    (hdigits : digits ≤ offsetIn text s) :
    countFraction text (offsetIn text s) digits =
      pure (offsetIn text (JsonPath.countFraction s).2, digits + (JsonPath.countFraction s).1) := by
  rw [countFraction, stands_offsetIn (bytewise_eq (by decide)) h, pure_bind]
  by_cases hpoint : s.head? = some '.'
  · obtain ⟨s, rfl⟩ := List.head?_eq_some_iff.1 hpoint
    have hnext := offsetIn_succ h (by decide)
    have hcount := countDigits_offsetIn ((List.suffix_cons _ _).trans h)
      (hdigits.trans (hnext ▸ Nat.le_succ _))
    rwa [← hnext] at hcount
  · rw [JsonPath.countFraction]
    · cases s <;> simp_all
    · rintro rest rfl
      exact hpoint rfl

/-- **The digits on both sides of a point** are those that are counted in the characters. -/
theorem countSides_offsetIn (h : s <:+ text) :
    countSides text (offsetIn text s) =
      pure (offsetIn text (JsonPath.countFraction (s.dropWhile Char.isDigit)).2,
        (JsonPath.countDigits s).1 + (JsonPath.countFraction (s.dropWhile Char.isDigit)).1) := by
  have hwhole := (List.dropWhile_suffix Char.isDigit).trans h
  have hdigits := countDigits_le_offsetIn h (Nat.zero_le _)
  rw [countSides, countDigits_offsetIn h (Nat.zero_le _), pure_bind]
  dsimp only
  rw [countFraction_offsetIn hwhole hdigits, Nat.zero_add]

/-- Skipping an exponent leads to where it is split off. -/
theorem skipExponent?_offsetIn (h : s <:+ text) :
    skipExponent? text (offsetIn text s) =
      (splitExponent? s).map fun p => offsetIn text p.2 := by
  simp (disch := decide) only [skipExponent?, byteAt?_eq_some_iff h]
  cases s with
  | nil => rfl
  | cons c s =>
      rw [splitExponent?]
      by_cases hc : c = 'e' ∨ c = 'E'
      · have hascii : c.toNat < 128 := by rcases hc with rfl | rfl <;> decide
        have hs := (List.suffix_cons c s).trans h
        have hsigned := (splitSign_suffix s).trans hs
        simp only [List.head?_cons, Option.some.injEq, if_pos hc]
        rw [offsetIn_succ h hascii, skipSign_offsetIn hs,
          skipWhile_offsetIn bytewise_isDigit hsigned]
        simp only [offsetIn_dropWhile_eq_iff hsigned, splitDigits, List.isEmpty_iff]
        split <;> rfl
      · simp only [List.head?_cons, Option.some.injEq, if_neg hc]
        rfl

/-- **A number ends** where the reader finds its end. -/
theorem numberEnd_offsetIn (h : s <:+ text) :
    numberEnd text (offsetIn text s) = pure ((Numeral.scan s).map fun p => offsetIn text p.2) := by
  have hsigned := (splitSign_suffix s).trans h
  have hwhole := (List.dropWhile_suffix Char.isDigit).trans hsigned
  have hstop := (suffix_countFraction _).trans hwhole
  rw [numberEnd, skipSign_offsetIn h, countSides_offsetIn hsigned, pure_bind]
  dsimp only
  rw [countDigits_eq, skipExponent?_offsetIn hstop, countFraction_eq, Numeral.scan]
  dsimp only
  rw [← List.length_append]
  simp only [splitDigits, List.length_eq_zero_iff, List.isEmpty_iff]
  split
  · rfl
  · cases splitExponent? _ <;> rfl

/-! ### References -/

/-- The end of a bracketed step that begins at `start`: blanks and `]`. -/
def closeStep (text : List Char) (start : Nat) (step : Step) (i : Nat) : Checked (Step × Nat) :=
  let close := skipWhile isBlank text i
  if byteAt? text close = some ']' then pure (step, close + 1) else unparsable text start

/-- The offset of the next quote of a kind. It is looked for in the part of the text from `i` on,
and the program breaks off if there is no such part. -/
def nextQuote (text : List Char) (quote : Char) (i : Nat) : Checked (Option Nat) :=
  if i ≤ byteSize text then
    let close := skipWhile (· != quote) text i
    pure (if close < byteSize text then some close else none)
  else
    Checked.broken

/-- A quoted name of the step that begins at `start`, from behind its opening quote on. -/
def readQuotedStep (text : List Char) (start : Nat) (quote : Char) (i : Nat) :
    Checked (Step × Nat) := do
  match ← nextQuote text quote i with
  | none => unparsable text start
  | some close =>
    let name ← slice text i close
    closeStep text start (.name (String.ofList name)) (close + 1)

/-- A position of the step that begins at `start`, from its digits on. -/
def readPositionStep (text : List Char) (start i : Nat) : Checked (Step × Nat) := do
  let stop := skipWhile Char.isDigit text i
  let digits ← slice text i stop
  if digitsValue digits < UInt64.size then
    closeStep text start (.index (digitsValue digits)) stop
  else
    unparsable text start

/-- The step that begins at `start`, from its bracket at `i` on. -/
def readBracketedStep (text : List Char) (start i : Nat) : Checked (Step × Nat) :=
  let inside := skipWhile isBlank text (i + 1)
  match byteAt? text inside with
  | none => unparsable text start
  | some b =>
    if b = '\'' ∨ b = '"' then readQuotedStep text start b (inside + 1)
    else if b.isDigit then readPositionStep text start inside
    else unparsable text start

/-- The steps of a reference from an offset on, and the offset behind them. -/
def readSteps (text : List Char) (steps : List Step) (i : Nat) : Checked (List Step × Nat) := do
  if byteAt? text i = some '.' then
    if byteAt? text (i + 1) = none then
      unparsable text i
    else if byteAt? text (i + 1) = some '[' then
      let (step, stop) ← readBracketedStep text i (i + 1)
      onward text i stop fun _ => readSteps text (steps ++ [step]) stop
    else
      let stop := skipWhile isWord text (i + 1)
      if stop = i + 1 then
        unparsable text i
      else
        let name ← slice text (i + 1) stop
        onward text i stop fun _ => readSteps text (steps ++ [.name (String.ofList name)]) stop
  else if byteAt? text i = some '[' then
    let (step, stop) ← readBracketedStep text i i
    onward text i stop fun _ => readSteps text (steps ++ [step]) stop
  else
    pure (steps, i)
termination_by byteSize text - i

variable {start : List Char}

/-- The bracket that closes a step is read by offsets as it is read from the rest. -/
theorem closeStep_offsetIn (hstart : start <:+ text) (step : Step) (h : s <:+ text) :
    closeStep text (offsetIn text start) step (offsetIn text s) =
      settle? text start (Step.close? step s) := by
  have hskip := (suffix_skipBlanks s).trans h
  rw [closeStep, skipWhile_offsetIn bytewise_isBlank h, Step.close?]
  rw [skipBlanks] at hskip ⊢
  simp (disch := decide) only [byteAt?_eq_some_iff hskip]
  split
  · next hclose =>
      obtain ⟨rest, hrest⟩ := List.head?_eq_some_iff.1 hclose
      rw [hrest] at hskip ⊢
      rw [offsetIn_succ hskip (by decide)]
      rfl
  · next hclose =>
      rw [unparsable_offsetIn hstart]
      split
      · next hrest => exact absurd (by rw [hrest]; rfl) hclose
      · rfl

/-- The next quote stands at the offset of the rest that begins with it. -/
theorem nextQuote_offsetIn {quote : Char} (hquote : quote.toNat < 128) (h : s <:+ text) :
    nextQuote text quote (offsetIn text s) =
      pure (if s.dropWhile (· != quote) = [] then none
        else some (offsetIn text (s.dropWhile (· != quote)))) := by
  have hrest := (List.dropWhile_suffix (· != quote)).trans h
  rw [nextQuote, if_pos (offsetIn_le_byteSize s), skipWhile_offsetIn (bytewise_ne hquote) h]
  simp only [offsetIn_lt_byteSize_iff hrest, ite_not]

/-- A step by name in brackets is read by offsets as it is read from the rest. -/
theorem readQuotedStep_offsetIn {quote : Char} (hquote : quote.toNat < 128)
    (hstart : start <:+ text) (h : s <:+ text) :
    readQuotedStep text (offsetIn text start) quote (offsetIn text s) =
      settle? text start (Step.quoted? quote s) := by
  have hsplit := List.takeWhile_append_dropWhile (p := (· != quote)) (l := s)
  rw [readQuotedStep, nextQuote_offsetIn hquote h, pure_bind, Step.quoted?]
  cases hrest : s.dropWhile (· != quote) with
  | nil => exact unparsable_offsetIn hstart
  | cons c rest =>
      rw [hrest] at hsplit
      have hc : c = quote := by
        have hhead := head_dropWhile_eq_false (p := (· != quote)) (s := s) c (by rw [hrest]; rfl)
        simpa using hhead
      subst hc
      have hname := hsplit.symm ▸ h
      have hclose := (List.suffix_append _ _).trans hname
      simp only [List.cons_ne_nil, if_false]
      conv_lhs => rw [← hsplit]
      rw [slice_offsetIn hname, pure_bind, offsetIn_succ hclose hquote]
      exact closeStep_offsetIn hstart _ ((List.suffix_cons _ _).trans hclose)

/-- A step by position is read by offsets as it is read from the rest. -/
theorem readPositionStep_offsetIn (hstart : start <:+ text) (h : s <:+ text) :
    readPositionStep text (offsetIn text start) (offsetIn text s) =
      settle? text start (Step.position? s) := by
  rw [readPositionStep, skipWhile_offsetIn bytewise_isDigit h, slice_takeWhile _ h, pure_bind,
    Step.position?]
  split
  · exact closeStep_offsetIn hstart _ ((List.dropWhile_suffix _).trans h)
  · exact unparsable_offsetIn hstart

/-- A step in brackets is read by offsets as it is read from the rest. -/
theorem readBracketedStep_offsetIn (hstart : start <:+ text) (h : '[' :: s <:+ text) :
    readBracketedStep text (offsetIn text start) (offsetIn text ('[' :: s)) =
      settle? text start (Step.bracketed? s) := by
  have hs := (List.suffix_cons _ _).trans h
  have hskip := (suffix_skipBlanks s).trans hs
  rw [readBracketedStep, offsetIn_succ h (by decide), skipWhile_offsetIn bytewise_isBlank hs,
    Step.bracketed?, ← skipBlanks]
  cases hinside : skipBlanks s with
  | nil =>
      rw [hinside] at hskip
      rw [byteAt?_nil hskip]
      exact unparsable_offsetIn hstart
  | cons c rest =>
      rw [hinside] at hskip
      rw [byteAt?_cons hskip]
      simp (disch := decide) only [lead_eq_iff, bytewise_isDigit.lead]
      split
      · next hc =>
          have hascii : c.toNat < 128 := by rcases hc with rfl | rfl <;> decide
          rw [lead_of_ascii hascii, offsetIn_succ hskip hascii]
          exact readQuotedStep_offsetIn hascii hstart ((List.suffix_cons _ _).trans hskip)
      · split
        · exact readPositionStep_offsetIn hstart hskip
        · exact unparsable_offsetIn hstart

/-- Where no step begins, no further step is read. -/
theorem readSteps_of_not_begins (steps : List Step) (h : s <:+ text)
    (hs : Step.begins s = false) :
    readSteps text steps (offsetIn text s) = pure (steps, offsetIn text s) := by
  have hpoint : s.head? ≠ some '.' := by
    intro hhead
    obtain ⟨rest, rfl⟩ := List.head?_eq_some_iff.1 hhead
    cases hs
  have hbracket : s.head? ≠ some '[' := by
    intro hhead
    obtain ⟨rest, rfl⟩ := List.head?_eq_some_iff.1 hhead
    cases hs
  rw [readSteps]
  simp (disch := decide) only [byteAt?_eq_some_iff h, if_neg hpoint, if_neg hbracket]

/-- One step is read, or is at fault as a whole, and the reading goes on behind it. -/
theorem readSteps_of_begins (steps : List Step) (h : s <:+ text) (hs : Step.begins s = true) :
    readSteps text steps (offsetIn text s) =
      settle? text s (Step.read? s) >>= fun p =>
        onward text (offsetIn text s) p.2 fun _ => readSteps text (steps ++ [p.1]) p.2 := by
  rcases s with - | ⟨c, s⟩
  · cases hs
  have hc : c = '.' ∨ c = '[' := by
    unfold Step.begins at hs
    split at hs
    · next heq => exact .inl (List.cons.inj heq).1
    · next heq => exact .inr (List.cons.inj heq).1
    · cases hs
  have hrest := (List.suffix_cons c s).trans h
  rw [readSteps]
  rcases hc with rfl | rfl
  · simp (disch := decide) only [byteAt?_eq_some_iff h, List.head?_cons, if_true,
      offsetIn_succ h, byteAt?_eq_some_iff hrest]
    rcases s with - | ⟨d, s⟩
    · rw [byteAt?_nil hrest, if_pos rfl, unparsable_offsetIn h]
      rfl
    · rw [byteAt?_cons hrest, if_neg (by simp)]
      by_cases hd : d = '['
      · subst hd
        simp only [List.head?_cons, if_true, readBracketedStep_offsetIn h hrest]
        rfl
      · have hread : Step.read? ('.' :: d :: s) = Step.named? (d :: s) := by
          rw [Step.read?]
          rintro rest ⟨⟩
          exact hd rfl
        rw [if_neg (by simpa using hd), offsetIn_succ h (by decide),
          skipWhile_offsetIn bytewise_isWord hrest, slice_takeWhile isWord hrest, hread,
          Step.named?]
        simp only [List.isEmpty_iff, offsetIn_dropWhile_eq_iff hrest]
        split
        · rw [unparsable_offsetIn h]
          rfl
        · rfl
  · simp (disch := decide) only [byteAt?_eq_some_iff h, List.head?_cons, if_true,
      readBracketedStep_offsetIn h h]
    rw [if_neg (by simp)]
    rfl

/-- **The steps of a reference** are those that the reader finds. -/
theorem readSteps_offsetIn (steps : List Step) (h : s <:+ text) :
    readSteps text steps (offsetIn text s) =
      settle text (((Step.readAll s).mapError .unparsable).map fun p => (steps ++ p.1, p.2)) := by
  fun_induction Step.readAll s generalizing steps with
  | case1 s hbegins hread =>
      rw [readSteps_of_begins steps h hbegins, hread]
      rfl
  | case2 s hbegins step rest hread hlt ih =>
      obtain ⟨u, -, rfl, -⟩ := Step.read?_of_stopsAt hread
      have hrest := (List.suffix_append u rest).trans h
      rw [readSteps_of_begins steps h hbegins, hread]
      refine ((onward_offsetIn h hrest hlt _).trans (ih _ hrest)).trans ?_
      cases Step.readAll rest with
      | error fault => rfl
      | ok p => simp [Except.mapError, Except.map]
  | case3 s hbegins =>
      rw [readSteps_of_not_begins steps h (by simpa using hbegins)]
      simp [Except.mapError, Except.map]

/-! ### Tokens -/

/-- The operator that begins with a byte, by the byte behind it, and how many bytes it takes. -/
def operatorOf? (previous : Role) (b : Char) (next : Option Char) : Option (Operator × Nat) :=
  if b = '+' then some (.add, 1)
  else if b = '-' ∧ previous = .operand then some (.subtract, 1)
  else if b = '/' then some (.divide, 1)
  else if b = '*' then some (.multiply, 1)
  else if b = '!' then if next = some '=' then some (.notEqual, 2) else some (.not, 1)
  else if b = '=' then
    if next = some '=' then some (.equal, 2)
    else if next = some '~' then some (.search, 2)
    else none
  else if b = '<' then if next = some '=' then some (.lessEqual, 2) else some (.less, 1)
  else if b = '>' then if next = some '=' then some (.greaterEqual, 2) else some (.greater, 1)
  else if b = '|' ∧ next = some '|' then some (.or, 2)
  else if b = '&' ∧ next = some '&' then some (.and, 2)
  else none

/-- The reference that begins with its sign at an offset. -/
def readReference (text : List Char) (start : Nat) : Checked (Reference × Nat) := do
  let (steps, stop) ← readSteps text [] (start + 1)
  let written ← slice text start stop
  pure (⟨String.ofList written, steps⟩, stop)

/-- The text in quotes that begins with its quote at an offset. -/
def readText (text : List Char) (start : Nat) (quote : Char) : Checked (Token × Nat) := do
  match ← quotedEnd text quote (start + 1) with
  | none => unparsable text start
  | some stop =>
    let last ← minus stop 1
    let body ← slice text (start + 1) last
    pure (.text (String.ofList (Quoted.unquote body)), stop)

/-- The number that begins at an offset. -/
def readNumber (text : List Char) (start : Nat) : Checked (Token × Nat) := do
  match ← numberEnd text start with
  | none => unparsable text start
  | some stop =>
    let written ← slice text start stop
    match NumberLiteral.ofText? written with
    | none => unparsable text start
    | some literal => pure (.number literal, stop)

/-- The token that begins at an offset, and the offset behind it. -/
def readToken (text : List Char) (previous : Role) (start : Nat) : Checked (Token × Nat) :=
  match byteAt? text start with
  | none => unparsable text start
  | some b =>
    match operatorOf? previous b (byteAt? text (start + 1)) with
    | some (op, size) => pure (.operator op, start + size)
    | none =>
      if b = '(' then pure (.opening, start + 1)
      else if b = ')' then pure (.closing, start + 1)
      else if b = '@' then do
        let (reference, stop) ← readReference text start
        pure (.candidate reference, stop)
      else if b = '$' then do
        let (reference, stop) ← readReference text start
        pure (.root reference, stop)
      else if b = '\'' ∨ b = '"' then readText text start b
      else if b = '-' ∨ b.isDigit then readNumber text start
      else unparsable text start

/-- The first token from an offset on, the offset at which it begins, and the offset behind it. -/
def nextToken (text : List Char) (previous : Role) (i : Nat) : Checked (Token × Nat × Nat) := do
  let start := skipWhile isBlank text i
  let (t, stop) ← readToken text previous start
  pure (t, start, stop)

/-- The operator is the one that the reader finds. -/
theorem map_operatorOf? (previous : Role) (c : Char) (s : List Char) :
    (operatorOf? previous c s.head?).map Prod.fst =
      (Token.readOperator? previous (c :: s)).map Prod.fst := by
  have hhead {d : Char} {s : List Char} (hs : ∀ rest, s = d :: rest → False) :
      s.head? ≠ some d := by
    intro h
    obtain ⟨rest, hrest⟩ := List.head?_eq_some_iff.1 h
    exact hs rest hrest
  unfold Token.readOperator?
  split
  case h_15 =>
    rcases s with - | ⟨d, s⟩
    · simp_all [operatorOf?]
    · simp_all [operatorOf?]
      grind
  case h_6 | h_10 | h_12 =>
    next hs heq =>
      obtain ⟨rfl, rfl⟩ := List.cons.inj heq
      simp [operatorOf?, hhead hs]
  all_goals
    next heq =>
      obtain ⟨rfl, rfl⟩ := List.cons.inj heq
      simp [operatorOf?]

/-- An operator takes as many bytes as its symbol. -/
theorem size_of_operatorOf? {previous : Role} {b : Char} {next : Option Char} {op : Operator}
    {size : Nat} (h : operatorOf? previous b next = some (op, size)) :
    size = byteSize op.symbol.toList := by
  unfold operatorOf? at h
  split_ifs at h <;> (obtain ⟨rfl, rfl⟩ := Prod.mk.inj (Option.some.inj h); rfl)

/-- The operator is told by bytes as by characters. -/
theorem operatorOf?_lead (previous : Role) (c : Char) (next : Option Char) :
    operatorOf? previous (lead c) (next.map lead) = operatorOf? previous c next := by
  have hnext {d : Char} (hd : d.toNat < 128) : next.map lead = some d ↔ next = some d := by
    cases next with
    | none => simp
    | some e => simp [lead_eq_iff hd]
  simp (disch := decide) only [operatorOf?, lead_eq_iff, hnext]

/-- No operator begins with a byte that is not ASCII. -/
theorem operatorOf?_eq_none {b : Char} (hb : 128 ≤ b.toNat) (previous : Role)
    (next : Option Char) : operatorOf? previous b next = none := by
  have hne {d : Char} (hd : d.toNat < 128) : b ≠ d := by
    rintro rfl
    omega
  simp (disch := decide) only [operatorOf?, hne, false_and, if_false]

/-- **The operator at an offset** is the one that the reader finds there. -/
theorem operatorOf?_offsetIn {c : Char} (previous : Role) (h : c :: s <:+ text) :
    (operatorOf? previous (lead c) (byteAt? text (offsetIn text (c :: s) + 1))).map
        (fun p => (p.1, offsetIn text (c :: s) + p.2)) =
      (Token.readOperator? previous (c :: s)).map fun p => (p.1, offsetIn text p.2) := by
  have hreader := map_operatorOf? previous c s
  by_cases hc : c.toNat < 128
  · rw [byteAt?_succ h hc, operatorOf?_lead]
    cases hop : operatorOf? previous c s.head? with
    | none =>
        rw [hop] at hreader
        rw [Option.map_eq_none_iff.1 hreader.symm]
        rfl
    | some p =>
        obtain ⟨op, size⟩ := p
        rw [hop] at hreader
        obtain ⟨⟨op', rest⟩, hread, rfl⟩ := Option.map_eq_some_iff.1 hreader.symm
        have hsymbol := Token.symbol_append_of_readOperator? hread
        have hoffset := offsetIn_add_byteSize (hsymbol.symm ▸ h)
        rw [hsymbol, ← size_of_operatorOf? hop] at hoffset
        rw [hread, Option.map_some, Option.map_some, hoffset]
  · have hlead := le_of_mem_bytesOf (lead_mem_bytesOf c) (not_lt.1 hc)
    rw [operatorOf?_eq_none (not_lt.1 hc)] at hreader
    rw [operatorOf?_eq_none hlead, Option.map_eq_none_iff.1 hreader.symm]
    rfl

/-- A reference is read by offsets as it is read from the rest. -/
theorem readReference_offsetIn {sign : Char} (hsign : sign.toNat < 128) (h : sign :: s <:+ text) :
    readReference text (offsetIn text (sign :: s)) =
      settle text ((Token.readReference sign s).mapError .unparsable) := by
  have hs := (List.suffix_cons _ _).trans h
  rw [readReference, offsetIn_succ h hsign, readSteps_offsetIn [] hs, Token.readReference]
  cases hread : Step.readAll s with
  | error rest => rfl
  | ok p =>
      obtain ⟨steps, rest⟩ := p
      obtain ⟨u, rfl, -⟩ := Step.readAll_of_stopsAt hread
      have hslice : slice text (offsetIn text (sign :: (u ++ rest))) (offsetIn text rest) =
          pure (sign :: u) := slice_offsetIn (u := sign :: u) h
      simp [Except.mapError, Except.map, hslice]

/-- A text in quotes is read by offsets as it is read from the rest. -/
theorem readText_offsetIn {quote : Char} (hquote : quote.toNat < 128) (h : quote :: s <:+ text) :
    readText text (offsetIn text (quote :: s)) quote =
      settle? text (quote :: s) (Token.readText? quote s) := by
  have hs := (List.suffix_cons _ _).trans h
  rw [readText, offsetIn_succ h hquote, quotedEnd_offsetIn hquote hs, Token.readText?]
  cases hread : Quoted.split '\\' quote (fun _ => false) s with
  | error rest => exact unparsable_offsetIn h
  | ok p =>
      obtain ⟨body, rest⟩ := p
      obtain rfl := Quoted.append_of_split hread
      have hlast := offsetIn_succ ((List.suffix_append _ _).trans hs) hquote
      have hminus : minus (offsetIn text rest) 1 = pure (offsetIn text (quote :: rest)) := by
        rw [← hlast, minus_of_le (Nat.le_add_left 1 _), Nat.add_sub_cancel]
      simp [hminus, slice_offsetIn hs, settle?]

/-- A number is read by offsets as it is read from the rest. -/
theorem readNumber_offsetIn (h : s <:+ text) :
    readNumber text (offsetIn text s) = settle? text s (Token.readNumber? s) := by
  rw [readNumber, numberEnd_offsetIn h, pure_bind, Token.readNumber?]
  cases hscan : Numeral.scan s with
  | none => exact unparsable_offsetIn h
  | some p =>
      obtain ⟨n, rest⟩ := p
      obtain rfl := Numeral.text_append_of_scan hscan
      simp only [Option.map_some, slice_offsetIn h, pure_bind, Option.bind_some]
      cases NumberLiteral.ofText? n.text with
      | none => exact unparsable_offsetIn h
      | some literal => rfl

/-- **A token at an offset** is the one that the reader finds there. -/
theorem readToken_offsetIn (previous : Role) (h : s <:+ text) :
    readToken text previous (offsetIn text s) =
      settle text ((Token.read previous s).mapError .unparsable) := by
  rcases s with - | ⟨c, s⟩
  · rw [readToken, byteAt?_nil h]
    exact unparsable_offsetIn h
  have hs := (List.suffix_cons c s).trans h
  have hop := operatorOf?_offsetIn previous h
  rw [readToken, byteAt?_cons h, Token.read]
  dsimp only
  cases hread : Token.readOperator? previous (c :: s) with
  | some p =>
      rw [hread] at hop
      obtain ⟨⟨op, size⟩, hop', hp⟩ := Option.map_eq_some_iff.1 hop
      obtain ⟨rfl, hsize⟩ := Prod.mk.inj hp
      rw [hop']
      dsimp only
      rw [hsize]
      rfl
  | none =>
      rw [hread] at hop
      rw [Option.map_eq_none_iff.1 hop]
      simp (disch := decide) only [lead_eq_iff, bytewise_isDigit.lead]
      split_ifs with hopening hclosing hcandidate hroot hquote hnumber
      · subst hopening
        rw [offsetIn_succ h (by decide)]
        rfl
      · subst hclosing
        rw [offsetIn_succ h (by decide)]
        rfl
      · subst hcandidate
        rw [readReference_offsetIn (by decide) h]
        cases Token.readReference '@' s <;> rfl
      · subst hroot
        rw [readReference_offsetIn (by decide) h]
        cases Token.readReference '$' s <;> rfl
      · have hascii : c.toNat < 128 := by rcases hquote with rfl | rfl <;> decide
        rw [lead_of_ascii hascii, readText_offsetIn hascii h, settle?]
        cases Token.readText? c s <;> rfl
      · rw [readNumber_offsetIn h, settle?]
        cases Token.readNumber? (c :: s) <;> rfl
      · exact unparsable_offsetIn h

/-- **The first token from an offset on** is the one that the reader finds. -/
theorem nextToken_offsetIn (previous : Role) (h : s <:+ text) :
    nextToken text previous (offsetIn text s) =
      match Token.next previous s with
      | .ok (t, rest) => pure (t, offsetIn text (skipBlanks s), offsetIn text rest)
      | .error rest => throw ((Fault.unparsable rest).report text) := by
  have hskip := (suffix_skipBlanks s).trans h
  rw [nextToken, skipWhile_offsetIn bytewise_isBlank h, ← skipBlanks,
    readToken_offsetIn previous hskip, Token.next]
  cases Token.read previous (skipBlanks s) <;> rfl

end JsonPath.Indexed
