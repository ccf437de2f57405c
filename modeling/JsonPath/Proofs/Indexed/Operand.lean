import JsonPath.Filter.Predicate
import JsonPath.Proofs.Indexed.Token
import JsonPath.Proofs.Operand.Padding

/-!
# Operands Read from Bytes

Operands of a filter are texts of the document or of the path, and no text is excluded. A numeral is
recognised byte by byte. Its number is read from beginnings of the text, the longest first, of every
size in bytes up to that of the characters that numerals are made of; these are ASCII, so all of
these beginnings end between two characters.

Padding is counted: the digits without their zeros are so many bytes shorter, and one zero is kept
by an offset that is one less than the difference if that is not nought. What is left from there on
is a zero and the rest of the digits.

## Main definitions

* `endsWithScale`, `isNumeral`: a numeral, by its bytes.
* `readPrefix?`, `leadingNumber`: the number that a text begins with.
* `unpadDigits`, `unpad`: a text without padding.
* `toDouble?`, `compare`, `applyBinary`: what operands convert to, their order, and operators.

## Main results

* `isNumeral_eq`, `leadingNumber_eq`: **a numeral is recognised and read** on every text.
* `unpad_eq`: **padding is dropped** from every text.
* `applyBinary_eq`: an operator comes to what it comes to on the same operands.
-/

namespace JsonPath.Indexed

open Text

variable {text s : List Char}

/-! ### Recognising numerals -/

/-- The offset behind a sign, if one stands there. -/
def passSign (text : List Char) (i : Nat) : Checked Nat := do
  if ← stands text (fun b => b == '-' || b == '+') i then pure (i + 1) else pure i

/-- Whether a text ends at an offset, or ends with the exponent that begins there. -/
def endsWithScale (text : List Char) (i : Nat) : Checked Bool := do
  if ← stands text (fun b => b == 'e' || b == 'E') i then
    let signed ← passSign text (i + 1)
    let (stop, _) ← countDigits text signed 0
    if stop = signed then pure false else pure (stop == byteSize text)
  else
    pure (i == byteSize text)

/-- Whether a text is a numeral, spaces around it aside. -/
def isNumeral (text : List Char) : Checked Bool := do
  let s := trimSpaces text
  let (stop, digits) ← countSides s (skipSign s 0)
  if digits = 0 then pure false else endsWithScale s stop

/-- Passing a sign leads to where it is split off. -/
theorem passSign_offsetIn (h : s <:+ text) :
    passSign text (offsetIn text s) = pure (offsetIn text (splitSign s).2) := by
  have hsign : Bytewise fun b => b == '-' || b == '+' :=
    bytewise_of_ascii fun c hc => by
      simp only [Bool.or_eq_true, beq_iff_eq] at hc
      rcases hc with rfl | rfl <;> decide
  rw [passSign, stands_offsetIn hsign h, pure_bind, ← skipSign_offsetIn h, skipSign]
  simp (disch := decide) only [byteAt?_eq_some_iff h]
  cases s with
  | nil => rfl
  | cons c s =>
      simp only [List.head?_cons, Option.any_some, Bool.or_eq_true, beq_iff_eq, Option.some.injEq]
      split <;> rfl

/-- An offset is the size of the text exactly if nothing is left there. -/
theorem beq_byteSize (h : s <:+ text) : (offsetIn text s == byteSize text) = s.isEmpty := by
  rw [Bool.eq_iff_iff, beq_iff_eq, offsetIn_eq_byteSize_iff h, List.isEmpty_iff]

/-- The text ends with a scale at an offset exactly if the rest is one. -/
theorem endsWithScale_offsetIn (h : s <:+ text) :
    endsWithScale text (offsetIn text s) = pure (isScale s) := by
  have hmark : Bytewise fun b => b == 'e' || b == 'E' :=
    bytewise_of_ascii fun c hc => by
      simp only [Bool.or_eq_true, beq_iff_eq] at hc
      rcases hc with rfl | rfl <;> decide
  rw [endsWithScale, stands_offsetIn hmark h, pure_bind]
  rcases s with - | ⟨c, s⟩
  · simp [beq_byteSize h, isScale]
  by_cases hc : (c == 'e' || c == 'E') = true
  · have hascii : c.toNat < 128 := by
      rw [Bool.or_eq_true, beq_iff_eq, beq_iff_eq] at hc
      rcases hc with rfl | rfl <;> decide
    have hs := (List.suffix_cons c s).trans h
    have hsigned := (splitSign_suffix s).trans hs
    have hstop : (splitSign s).2.dropWhile Char.isDigit <:+ text :=
      (List.dropWhile_suffix _).trans hsigned
    simp only [List.head?_cons, Option.any_some, hc, if_true, offsetIn_succ h hascii]
    rw [passSign_offsetIn hs, pure_bind, countDigits_offsetIn hsigned (Nat.zero_le _), pure_bind]
    simp only [offsetIn_dropWhile_eq_iff hsigned, beq_byteSize hstop, isScale, hc, Bool.true_and,
      JsonPath.countDigits]
    cases (splitSign s).2.takeWhile Char.isDigit <;> rfl
  · simp [isScale, hc, beq_byteSize h]

/-- **A numeral is recognised** from its bytes as it is from its characters. -/
theorem isNumeral_eq (text : List Char) : isNumeral text = pure (JsonPath.isNumeral text) := by
  have hwhole : trimSpaces text <:+ trimSpaces text := List.suffix_refl _
  have hsigned := (splitSign_suffix (trimSpaces text)).trans hwhole
  have hdigits := (List.dropWhile_suffix Char.isDigit).trans hsigned
  have hstop := (suffix_countFraction _).trans hdigits
  have hsign := skipSign_offsetIn hwhole
  rw [offsetIn, Nat.sub_self] at hsign
  rw [isNumeral, hsign, countSides_offsetIn hsigned, pure_bind]
  dsimp only
  rw [JsonPath.countDigits, endsWithScale_offsetIn hstop, JsonPath.isNumeral, JsonPath.countDigits]
  split
  · next hnone => simp [hnone]
  · next hsome => simp [bne_iff_ne.2 hsome]

/-! ### Reading numerals -/

/-- The double that the longest beginning of a text denotes, among those of at most `n` bytes. -/
def readPrefix? (text : List Char) : (n : Nat) → Checked (Option Binary64)
  | 0 => pure none
  | n + 1 => do
    let front ← slice text 0 (n + 1)
    match Binary64.read? front with
    | some x => pure (some x)
    | none => readPrefix? text n

/-- The number that a text begins with, spaces in front aside, and zero if it begins with none. -/
def leadingNumber (text : List Char) : Checked Binary64 := do
  let s := trimSpaces text
  let found ← readPrefix? s (byteSize (s.takeWhile isNumeralChar))
  pure (found.getD (.zero false))

/-- The characters of numerals are ASCII characters. -/
theorem toNat_lt_of_isNumeralChar {c : Char} (hc : isNumeralChar c = true) : c.toNat < 128 := by
  simp only [isNumeralChar, Bool.or_eq_true, beq_iff_eq] at hc
  rcases hc with ((((hc | rfl) | rfl) | rfl) | rfl) | rfl
  · exact toNat_lt_of_isDigit hc
  all_goals decide

/-- A beginning of ASCII characters is a part of the text. -/
theorem slice_take {n : Nat} (hn : n ≤ text.length) (htext : ∀ c ∈ text.take n, c.toNat < 128) :
    slice text 0 n = pure (text.take n) := by
  have hsplit : text.take n ++ text.drop n = text := List.take_append_drop n text
  have hwhole : text.take n ++ text.drop n <:+ text := by rw [hsplit]
  have hstop := offsetIn_add_length htext hwhole
  have hslice := slice_offsetIn hwhole
  rw [← hstop, hsplit, offsetIn, Nat.sub_self, Nat.zero_add, List.length_take_of_le hn] at hslice
  exact hslice

/-- A slice of ASCII characters is read as the characters are. -/
theorem readPrefix?_eq {n : Nat} (hn : n ≤ text.length) (htext : ∀ c ∈ text.take n, c.toNat < 128) :
    readPrefix? text n = pure (JsonPath.readPrefix? text n) := by
  induction n with
  | zero => rfl
  | succ n ih =>
      have hless : ∀ c ∈ text.take n, c.toNat < 128 := fun c hc =>
        htext c ((List.take_prefix_take_left (Nat.le_succ n)).subset hc)
      rw [readPrefix?, JsonPath.readPrefix?, slice_take hn htext, pure_bind]
      cases Binary64.read? (text.take (n + 1)) with
      | some x => rfl
      | none => exact ih (Nat.le_of_succ_le hn) hless

/-- **A number is read** from beginnings that exist: they end between characters that numerals are
made of. -/
theorem leadingNumber_eq (text : List Char) :
    leadingNumber text = pure (JsonPath.leadingNumber text) := by
  have hnumeral : ∀ c ∈ (trimSpaces text).takeWhile isNumeralChar, c.toNat < 128 := fun c hc =>
    toNat_lt_of_isNumeralChar (List.mem_takeWhile_imp hc)
  have hprefix := List.takeWhile_prefix isNumeralChar (l := trimSpaces text)
  have htake := List.prefix_iff_eq_take.1 hprefix
  rw [leadingNumber, byteSize_of_ascii hnumeral,
    readPrefix?_eq hprefix.length_le (by rwa [← htake]), pure_bind]
  rfl

/-- The number that a text denotes if it is a numeral. -/
def numberOf? (text : List Char) : Checked (Option Binary64) := do
  if ← isNumeral text then
    let x ← leadingNumber text
    pure (some x)
  else
    pure none

/-- **The number of a text** is found by offsets as it is found in the text. -/
theorem numberOf?_eq (text : List Char) : numberOf? text = pure (JsonPath.numberOf? text) := by
  rw [numberOf?, isNumeral_eq, pure_bind, JsonPath.numberOf?, leadingNumber_eq, pure_bind]
  split <;> rfl

/-! ### Padding -/

/-- A run of digits without the zeros in front, but with one of them if no digit would be left
before a point, an exponent or the end. -/
def unpadDigits (digits : List Char) : Checked (List Char) := do
  let rest := digits.dropWhile (· == '0')
  if rest.isEmpty ∨ rest.head?.any (fun c => c == '.' || c == 'e' || c == 'E') then
    let start ← minus (byteSize digits) (byteSize rest)
    let start ← minus start (if byteSize rest < byteSize digits then 1 else 0)
    slice digits start (byteSize digits)
  else
    pure rest

/-- A text without padding after its sign. -/
def unpadSigned (dropPlus : Bool) : List Char → Checked (List Char)
  | '+' :: rest => if dropPlus then unpadDigits rest else unpadDigits ('+' :: rest)
  | '-' :: rest => do
    let digits ← unpadDigits rest
    pure ('-' :: digits)
  | digits => unpadDigits digits

/-- A text without the spaces and double quotes around it and without padding after a sign. -/
def unpad (dropPlus : Bool) (text : List Char) : Checked (List Char) :=
  unpadSigned dropPlus (unquoted text)

/-- What a run of digits ends with is a part of it. -/
theorem slice_suffix (front rest : List Char) :
    slice (front ++ rest) (byteSize front) (byteSize (front ++ rest)) = pure rest := by
  have hrest : rest ++ [] <:+ front ++ rest := by
    rw [List.append_nil]
    exact List.suffix_append front rest
  have hslice := slice_offsetIn hrest
  rwa [List.append_nil, offsetIn_append, offsetIn, byteSize_nil, Nat.sub_zero] at hslice

/-- Zeros are one byte each. -/
theorem byteSize_zeros (k : Nat) : byteSize (List.replicate k '0') = k := by
  have hzeros : ∀ c ∈ List.replicate k '0', c.toNat < 128 := fun c hc => by
    rw [List.eq_of_mem_replicate hc]
    decide
  rw [byteSize_of_ascii hzeros, List.length_replicate]

/-- **Padding is dropped** with a part of the digits that exists: one zero is left of those that
were found. -/
theorem unpadDigits_eq (digits : List Char) :
    unpadDigits digits = pure (JsonPath.unpadDigits digits) := by
  obtain ⟨k, rest, rfl, hrest⟩ := exists_eq_replicate_append digits
  have hdrop : (List.replicate k '0' ++ rest).dropWhile (· == '0') = rest :=
    dropWhile_append_eq (by simp) (by simpa using hrest)
  have hsize : byteSize (List.replicate k '0' ++ rest) = k + byteSize rest := by
    rw [byteSize_append, byteSize_zeros]
  rw [unpadDigits]
  simp only [hdrop]
  by_cases hbare : ∀ c ∈ rest.head?, c ∈ ['.', 'e', 'E']
  · have hmark : rest.isEmpty = true ∨
        rest.head?.any (fun c => c == '.' || c == 'e' || c == 'E') = true := by
      rcases rest with - | ⟨c, rest⟩
      · exact .inl rfl
      · exact .inr (by simpa [or_assoc] using hbare c rfl)
    rw [if_pos hmark, hsize, minus_of_le (Nat.le_add_left _ _), Nat.add_sub_cancel, pure_bind]
    cases k with
    | zero =>
        have hwhole := slice_suffix [] rest
        rw [if_neg (by omega), minus_of_le (Nat.zero_le _), pure_bind]
        rw [byteSize_nil, List.nil_append] at hwhole
        rw [Nat.zero_add, List.replicate_zero, List.nil_append, hwhole, unpadDigits_eq_self hrest]
    | succ k =>
        have hlast : List.replicate (k + 1) '0' ++ rest = List.replicate k '0' ++ '0' :: rest := by
          rw [List.replicate_succ', List.append_assoc, List.singleton_append]
        have hzero := slice_suffix (List.replicate k '0') ('0' :: rest)
        rw [byteSize_zeros, ← hlast, hsize] at hzero
        rw [if_pos (by omega), minus_of_le (Nat.le_add_left 1 k), pure_bind, Nat.add_sub_cancel,
          hzero, unpadDigits_replicate_append_of_bare (Nat.succ_ne_zero k) hbare]
  · obtain ⟨c, hc, hne⟩ : ∃ c ∈ rest.head?, c ∉ ['.', 'e', 'E'] := by
      simpa only [not_forall, exists_prop] using hbare
    obtain ⟨tail, rfl⟩ := List.head?_eq_some_iff.1 hc
    rw [if_neg (by simpa [or_assoc] using hne), unpadDigits_replicate_append_of_head k hc
      (List.not_mem_cons_of_ne_of_not_mem (hrest c hc) hne)]

/-- **Padding is dropped** by offsets as it is dropped from the text. -/
theorem unpad_eq (dropPlus : Bool) (text : List Char) :
    unpad dropPlus text = pure (JsonPath.unpad dropPlus text) := by
  have hplus (rest : List Char) : JsonPath.unpadDigits ('+' :: rest) = '+' :: rest :=
    unpadDigits_eq_self (by simp)
  rw [unpad, JsonPath.unpad.eq_def]
  generalize unquoted text = digits
  split
  · rw [unpadSigned, unpadDigits_eq, unpadDigits_eq, hplus]
    split <;> rfl
  · rw [unpadSigned, unpadDigits_eq, pure_bind]
  · next hsigned hnegative => rw [unpadSigned.eq_3 _ _ hsigned hnegative, unpadDigits_eq]

/-! ### Converting and comparing -/

/-- The double an operand converts to. -/
def toDouble? : Operand → Checked (Option Binary64)
  | .double x => pure (some x)
  | .unsigned n => pure (some (.ofNat n.toNat))
  | .text s => do
    let cleaned ← unpad false (dropLineEnds s.toList)
    numberOf? cleaned
  | _ => pure none

/-- The double an operand is compared as, if it is a number or a numeral. -/
def number? : Operand → Checked (Option Binary64)
  | .unsigned n => pure (some (.ofNat n.toNat))
  | .double x => pure (some x)
  | .text s => numberOf? s.toList
  | _ => pure none

/-- The order of two operands as doubles, or else as texts. -/
def compareScalars (v w : Operand) : Checked Ordering := do
  match ← number? v, ← number? w with
  | some x, some y => pure (compareDoubles x y)
  | _, _ => pure (compareTexts v.display w.display)

/-- The order of operands. -/
def compare : Operand → Operand → Checked Ordering
  | .absent, .absent => pure .eq
  | .absent, _ => pure .lt
  | _, .absent => pure .gt
  | .bytes s, .bytes t => pure (compareBytes s t)
  | .bytes _, _ => pure .gt
  | _, .bytes _ => pure .lt
  | .unsigned m, .unsigned n => pure (Ord.compare m.toNat n.toNat)
  | v, w => compareScalars v w

/-- The conversion to a double does not break off. -/
theorem toDouble?_eq (v : Operand) : toDouble? v = pure v.toDouble? := by
  cases v with
  | text s =>
      rw [toDouble?, unpad_eq, pure_bind, numberOf?_eq]
      rfl
  | _ => rfl

/-- Taking the number of an operand does not break off. -/
theorem number?_eq (v : Operand) : number? v = pure v.number? := by
  cases v with
  | text s => exact numberOf?_eq s.toList
  | _ => rfl

/-- **Operands are compared** as they are. -/
theorem compare_eq (v w : Operand) : compare v w = pure (v.compare w) := by
  have hscalars : compareScalars v w = pure (match v.number?, w.number? with
      | some x, some y => compareDoubles x y
      | _, _ => compareTexts v.display w.display) := by
    rw [compareScalars, number?_eq, pure_bind, number?_eq, pure_bind]
    cases v.number? <;> cases w.number? <;> rfl
  cases v <;> cases w <;> first | rfl | exact hscalars

/-! ### Operators -/

/-- Arithmetic on the doubles that two operands convert to. -/
def arithmetic (f : Binary64 → Binary64 → Binary64) (left right : Operand) : Checked Operand := do
  match ← toDouble? left, ← toDouble? right with
  | some x, some y => pure (.double (f x y))
  | _, _ => pure .absent

/-- Whether the order of two operands is of a kind. -/
def ordered (holds : Ordering → Bool) (left right : Operand) : Checked Operand := do
  let order ← compare left right
  pure (truth (holds order))

/-- An operator between two operands of a filter. `!` does not stand between operands. -/
def applyBinary (env : Environment) (tokens : List Token) (op : Operator) (left right : Operand) :
    Checked Operand :=
  match op with
  | .add => arithmetic .add left right
  | .subtract => arithmetic .sub left right
  | .multiply => arithmetic .mul left right
  | .divide => arithmetic .div left right
  | .equal => ordered (· == .eq) left right
  | .notEqual => ordered (· != .eq) left right
  | .greater => ordered (· == .gt) left right
  | .greaterEqual => ordered (· != .lt) left right
  | .less => ordered (· == .lt) left right
  | .lessEqual => ordered (· != .gt) left right
  | .and => pure (truth (left.isTruthy && right.isTruthy))
  | .or => pure (truth (left.isTruthy || right.isTruthy))
  | .search => Checked.ofExcept (searchText env left right)
  | .not => throw (.unevaluable (Token.displayAll tokens))

/-- Arithmetic on operands does not break off. -/
theorem arithmetic_eq (f : Binary64 → Binary64 → Binary64) (left right : Operand) :
    arithmetic f left right = pure (JsonPath.arithmetic f left right) := by
  rw [arithmetic, toDouble?_eq, pure_bind, toDouble?_eq, pure_bind, JsonPath.arithmetic]
  cases left.toDouble? <;> cases right.toDouble? <;> rfl

/-- **An operator** comes to what it comes to on the same operands. -/
theorem applyBinary_eq (env : Environment) (tokens : List Token) (op : Operator)
    (left right : Operand) :
    applyBinary env tokens op left right =
      match JsonPath.applyBinary env op left right with
      | some outcome => Checked.ofExcept outcome
      | none => throw (.unevaluable (Token.displayAll tokens)) := by
  have hordered (holds : Ordering → Bool) :
      ordered holds left right = pure (truth (holds (left.compare right))) := by
    rw [ordered, compare_eq, pure_bind]
  cases op <;> first | rfl | exact arithmetic_eq _ _ _ | exact hordered _

end JsonPath.Indexed
