/-!
# Text as characters that are still to be read

Paths, filters and documents are read from lists of characters. A reader never holds an index: it
holds the characters that are left, so that a place in a text is the *rest* that starts there. The
byte offset of that place is the size of the whole text less the size of the rest (`offsetIn`), and
only reports of errors and the public offsets of values ask for it.

## Main definitions

* `byteSize`: how many bytes a text takes in UTF-8.
* `offsetIn`: where a rest stands in its text.
* `dropBytes?`: the rest at a byte offset, if a character starts there.
* `isBlank`, `isPad`, `isWord`: the character classes of paths and documents.

## Main results

* `byteSize_append`: sizes add up.
* `utf8ByteSize_ofList`: the size of a text is that of its string.
* `offsetIn_append`: the offset of a rest is the size of what was read before it.
* `length_skipBlanks_le`: skipping never lengthens a text.
-/

namespace JsonPath

/-- What a reader makes of a result is a result, and nothing else is. -/
theorem map_eq_ok_iff {ε α β : Type} {outcome : Except ε α} {f : α → β} {b : β} :
    outcome.map f = .ok b ↔ ∃ a, outcome = .ok a ∧ f a = b := by
  cases outcome <;> simp [Except.map]

/-- What is made of a result fails as the result does. -/
theorem map_eq_error_iff {ε α β : Type} {outcome : Except ε α} {f : α → β} {e : ε} :
    outcome.map f = .error e ↔ outcome = .error e := by
  cases outcome <;> simp [Except.map]

namespace Text

/-- The number of bytes a text takes in UTF-8. -/
def byteSize : List Char → Nat
  | [] => 0
  | c :: rest => c.utf8Size + byteSize rest

/-- The empty text takes no bytes. -/
@[simp]
theorem byteSize_nil : byteSize [] = 0 := rfl

/-- The size of a text is that of its first character and of what follows it. -/
@[simp]
theorem byteSize_cons (c : Char) (s : List Char) : byteSize (c :: s) = c.utf8Size + byteSize s :=
  rfl

/-- Sizes add up where texts are joined. -/
@[simp]
theorem byteSize_append (s t : List Char) : byteSize (s ++ t) = byteSize s + byteSize t := by
  induction s with
  | nil => simp
  | cons c s ih => simp [ih, Nat.add_assoc]

/-- A text with a character takes a byte at least. -/
theorem byteSize_pos {s : List Char} (h : s ≠ []) : 0 < byteSize s := by
  obtain ⟨c, s, rfl⟩ := List.exists_cons_of_ne_nil h
  exact Nat.add_pos_left c.utf8Size_pos _

/-- The size of a text is that of its string. -/
theorem utf8ByteSize_ofList (s : List Char) : (String.ofList s).utf8ByteSize = byteSize s := by
  induction s with
  | nil => rfl
  | cons c s ih =>
    rw [← List.singleton_append, String.ofList_append, String.utf8ByteSize_append, ih]
    simp

/-- The byte offset at which `rest`, a final part of `text`, begins. -/
def offsetIn (text rest : List Char) : Nat :=
  byteSize text - byteSize rest

/-- The rest of a text begins behind what stands in front of it. -/
theorem offsetIn_append (s rest : List Char) : offsetIn (s ++ rest) rest = byteSize s := by
  simp [offsetIn]

/-- What is left of a text from byte `n` on: `none` inside a character and past the end. -/
def dropBytes? : Nat → List Char → Option (List Char)
  | 0, s => some s
  | _ + 1, [] => none
  | n + 1, c :: s => if c.utf8Size ≤ n + 1 then dropBytes? (n + 1 - c.utf8Size) s else none

/-- At offset zero the whole text is left. -/
@[simp]
theorem dropBytes?_zero (s : List Char) : dropBytes? 0 s = some s := by
  cases s <;> rfl

/-- The end of a text and the beginning of every character in it can be dropped to. -/
theorem dropBytes?_byteSize (s rest : List Char) :
    dropBytes? (byteSize s) (s ++ rest) = some rest := by
  induction s with
  | nil => simp
  | cons c s ih =>
    have hc := c.utf8Size_pos
    obtain ⟨n, hn⟩ : ∃ n, byteSize (c :: s) = n + 1 := ⟨byteSize (c :: s) - 1, by simp; omega⟩
    rw [hn, List.cons_append, dropBytes?, if_pos (by simp at hn; omega), ← hn, byteSize_cons,
      Nat.add_sub_cancel_left, ih]

/-- The characters that may stand between the parts of a path, a filter or a document. -/
def isBlank (c : Char) : Bool :=
  c == ' ' || c == '\t' || c == '\r' || c == '\n'

/-- The characters that may stand around the items of a bracketed list. -/
def isPad (c : Char) : Bool :=
  c == ' ' || c == '\t'

/-- The characters of a name that needs no quotes: ASCII letters, ASCII digits and `_`. -/
def isWord (c : Char) : Bool :=
  c.isAlphanum || c == '_'

/-- What is left of a text once its leading blanks are dropped. -/
def skipBlanks (s : List Char) : List Char :=
  s.dropWhile isBlank

/-- Characters that are dropped make a text no longer. -/
theorem length_dropWhile_le (p : Char → Bool) (s : List Char) :
    (s.dropWhile p).length ≤ s.length :=
  (List.dropWhile_suffix p).length_le

/-- Skipped blanks make a text no longer. -/
theorem length_skipBlanks_le (s : List Char) : (skipBlanks s).length ≤ s.length :=
  length_dropWhile_le isBlank s

/-- A text without the characters of a class at its end. -/
def dropTrailing (p : Char → Bool) (s : List Char) : List Char :=
  (s.reverse.dropWhile p).reverse

/-- A text without the characters of a class at either end. -/
def trim (p : Char → Bool) (s : List Char) : List Char :=
  dropTrailing p (s.dropWhile p)

/-- Which of the bytes of a text, in UTF-8, may stand in a name that needs no quotes. -/
def wordBytes (s : List Char) : List Bool :=
  s.flatMap fun c => List.replicate c.utf8Size (isWord c)

/-- The value of a run of decimal digits. -/
def digitsValue (s : List Char) : Nat :=
  s.foldl (fun n c => 10 * n + (c.toNat - '0'.toNat)) 0

end Text

end JsonPath
