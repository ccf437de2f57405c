import JsonPath.Proofs.Operand.Numerals
import JsonPath.Proofs.Path.Faults

/-!
# Texts as Bytes

The readers of paths and documents hold the characters that are left, so that a part of a text is
taken without a question. A program that holds a text as its bytes and places as offsets takes parts
by two offsets, and such a part exists only if the first is not behind the second and neither lies
inside a character or behind the end. The modules beside this one write the readers down as such a
program does, byte by byte, and prove that it takes no part that does not exist: from the beginning
of a text on, it does what the readers do.

The outcome of such a program is a `Checked` value. There is none where it breaks off: where a part
of a text, an element of a list or a difference of numbers does not exist. Nor is there one where a
loop does not come to a later offset of the text (`onward`) and so might never end, or where a
counter gets past the size of the text (`tally`) and so might not be held.

What carries all proofs is that a program that stands in front of a character, at the offset of the
rest of the text, sees that character if it is an ASCII one, and a byte that is none otherwise
(`byteAt?_cons`); and that all bytes of a character that is not ASCII are such bytes, so that a loop
that passes over one of them passes over the character (`eq_of_passes`).

## Main definitions

* `Checked`: the outcome of a program that can break off.
* `byteAt?`, `slice`, `minus`: a byte, a part of a text, a difference, all of which may not exist.
* `tally`: a counter, which must not get past the size of the text.
* `skipWhile`: the first offset at which no byte of a class stands.
* `onward`: the rest of a loop, from a later offset on.

## Main results

* `byteAt?_cons`, `byteAt?_succ`: what a program sees in front of a character.
* `slice_offsetIn`, `slice_eq_pure_iff`: **a part between the offsets of two rests exists**, and no
  other.
* `skipWhile_offsetIn`: a run of characters ends where the run of their bytes does.
* `onward_offsetIn`: a loop goes on from a rest to a shorter one.
* `eq_of_passes`: a loop over bytes passes over a character.
-/

namespace JsonPath

open Text

/-- What a program that can break off comes to: a result, an error that it reports, or nothing, if
it breaks off or might never end. -/
abbrev Checked (α : Type) :=
  ExceptT Error Option α

namespace Checked

variable {α β : Type}

/-- The program breaks off. -/
def broken : Checked α :=
  ExceptT.mk none

/-- What exists, or else the program breaks off. -/
def ofOption : Option α → Checked α
  | some a => pure a
  | none => broken

/-- The program ends with an outcome. -/
def ofExcept (outcome : Except Error α) : Checked α :=
  ExceptT.mk (some outcome)

/-- A value that was found is the value of the program. -/
@[simp]
theorem ofExcept_ok (a : α) : ofExcept (.ok a) = pure a :=
  rfl

/-- An error that was found is the error of the program. -/
@[simp]
theorem ofExcept_error (e : Error) : (ofExcept (.error e) : Checked α) = throw e :=
  rfl

/-- A value that is there does not break off the program. -/
@[simp]
theorem ofOption_some (a : α) : ofOption (some a) = pure a :=
  rfl

/-- A program that comes to an outcome has not broken off on the way there. -/
theorem exists_of_bind_eq {x : Checked α} {f : α → Checked β} {outcome : Except Error β}
    (h : x >>= f = ofExcept outcome) : ∃ first, x = ofExcept first := by
  rcases x with - | first
  · cases h
  · exact ⟨first, rfl⟩

end Checked

namespace Indexed

/-! ### Bytes -/

/-- The bytes of a character in UTF-8. A byte is written as the character of its number, so that the
byte of an ASCII character is the character itself. -/
def bytesOf (c : Char) : List Char :=
  (String.utf8EncodeChar c).map Char.ofUInt8

/-- The bytes of a text. -/
def bytes (text : List Char) : List Char :=
  text.flatMap bytesOf

/-- The byte at an offset, if the text goes on to there. -/
def byteAt? (text : List Char) (i : Nat) : Option Char :=
  (bytes text)[i]?

/-- A byte seen as a character has its own code. -/
theorem toNat_ofUInt8 (b : UInt8) : (Char.ofUInt8 b).toNat = b.toNat :=
  rfl

/-- An ASCII character is its own byte. -/
theorem bytesOf_of_ascii {c : Char} (hc : c.toNat < 128) : bytesOf c = [c] := by
  have hval : c.val.toNat < 128 := hc
  have hsize : c.utf8Size = 1 :=
    Char.utf8Size_eq_one_iff.2 (UInt32.le_iff_toNat_le.2 (Nat.le_of_lt_succ hval))
  rw [bytesOf, String.utf8EncodeChar_eq_singleton hsize, List.map_singleton]
  refine congrArg (fun d => [d]) (Char.toNat_inj.1 ?_)
  rw [toNat_ofUInt8, UInt32.toNat_toUInt8, Nat.mod_eq_of_lt (by omega)]
  rfl

/-- The bytes of a character that is not ASCII are not ASCII. -/
theorem le_of_mem_bytesOf {b c : Char} (hb : b ∈ bytesOf c) (hc : 128 ≤ c.toNat) :
    128 ≤ b.toNat := by
  obtain ⟨n, hn, rfl⟩ := List.mem_map.1 hb
  have hval : ¬ c.val.toNat ≤ 127 := not_le.2 hc
  rw [toNat_ofUInt8]
  simp only [String.utf8EncodeChar, hval, if_false] at hn
  split_ifs at hn <;> simp only [List.mem_cons, List.not_mem_nil, or_false] at hn
  · rcases hn with rfl | rfl <;> rw [UInt8.toNat_ofNat'] <;> omega
  · rcases hn with rfl | rfl | rfl <;> rw [UInt8.toNat_ofNat'] <;> omega
  · rcases hn with rfl | rfl | rfl | rfl <;> rw [UInt8.toNat_ofNat'] <;> omega

/-- A character has as many bytes as its size says. -/
theorem length_bytesOf (c : Char) : (bytesOf c).length = c.utf8Size := by
  rw [bytesOf, List.length_map, String.length_utf8EncodeChar]

/-- An ASCII character takes one byte. -/
theorem utf8Size_of_ascii {c : Char} (hc : c.toNat < 128) : c.utf8Size = 1 := by
  rw [← length_bytesOf, bytesOf_of_ascii hc, List.length_singleton]

/-- A text of ASCII characters has as many bytes as characters. -/
theorem byteSize_of_ascii {s : List Char} (hs : ∀ c ∈ s, c.toNat < 128) :
    byteSize s = s.length := by
  induction s with
  | nil => rfl
  | cons c s ih =>
      obtain ⟨hc, hs⟩ := List.forall_mem_cons.1 hs
      rw [byteSize_cons, utf8Size_of_ascii hc, ih hs, List.length_cons, Nat.add_comm]

/-- The bytes of joined texts are joined. -/
theorem bytes_append (s t : List Char) : bytes (s ++ t) = bytes s ++ bytes t :=
  List.flatMap_append

/-- A text has as many bytes as its size says. -/
theorem length_bytes (s : List Char) : (bytes s).length = byteSize s := by
  induction s with
  | nil => rfl
  | cons c s ih =>
      rw [bytes, List.flatMap_cons, List.length_append, length_bytesOf, ← bytes, ih, byteSize_cons]

/-! ### What is seen in front of a character -/

/-- The first byte of a character. -/
def lead (c : Char) : Char :=
  (bytesOf c).headD c

/-- A class holds of a character exactly if it holds of each of its bytes. -/
def Bytewise (p : Char → Bool) : Prop :=
  ∀ c, ∀ b ∈ bytesOf c, p b = p c

/-- A class of ASCII characters can be told by bytes. -/
theorem bytewise_of_ascii {p : Char → Bool} (hp : ∀ c, p c = true → c.toNat < 128) :
    Bytewise p := by
  have hnot {d : Char} (hd : 128 ≤ d.toNat) : p d = false := by
    by_contra h
    have hlt := hp d (by simpa using h)
    omega
  intro c b hb
  by_cases hc : c.toNat < 128
  · rw [bytesOf_of_ascii hc, List.mem_singleton] at hb
    rw [hb]
  · rw [hnot (le_of_mem_bytesOf hb (not_lt.1 hc)), hnot (not_lt.1 hc)]

/-- One ASCII character can be told by bytes. -/
theorem bytewise_eq {d : Char} (hd : d.toNat < 128) : Bytewise (· == d) :=
  bytewise_of_ascii fun c hc => by
    obtain rfl : c = d := by simpa using hc
    exact hd

/-- All characters but one that is ASCII can be told by bytes. -/
theorem bytewise_ne {d : Char} (hd : d.toNat < 128) : Bytewise (· != d) :=
  fun c b hb => congrArg (!·) (bytewise_eq hd c b hb)

/-- Blanks are told by any of their bytes. -/
theorem bytewise_isBlank : Bytewise isBlank :=
  bytewise_of_ascii fun c hc => by
    simp only [isBlank, Bool.or_eq_true, beq_iff_eq] at hc
    rcases hc with ((rfl | rfl) | rfl) | rfl <;> decide

/-- Pads are ASCII characters. -/
theorem toNat_lt_of_isPad {c : Char} (hc : isPad c = true) : c.toNat < 128 := by
  simp only [isPad, Bool.or_eq_true, beq_iff_eq] at hc
  rcases hc with rfl | rfl <;> decide

/-- Pads are told by any of their bytes. -/
theorem bytewise_isPad : Bytewise isPad :=
  bytewise_of_ascii fun _ => toNat_lt_of_isPad

/-- Digits are ASCII characters. -/
theorem toNat_lt_of_isDigit {c : Char} (hc : c.isDigit = true) : c.toNat < 128 := by
  simp only [Char.isDigit, Bool.and_eq_true, decide_eq_true_eq, UInt32.le_iff_toNat_le] at hc
  exact Nat.lt_of_le_of_lt hc.2 (by decide)

/-- Digits are told by any of their bytes. -/
theorem bytewise_isDigit : Bytewise Char.isDigit :=
  bytewise_of_ascii fun _ => toNat_lt_of_isDigit

/-- Characters of plain names are told by any of their bytes. -/
theorem bytewise_isWord : Bytewise isWord :=
  bytewise_of_ascii fun c hc => by
    simp only [isWord, Char.isAlphanum, Char.isAlpha, Char.isUpper, Char.isLower, Char.isDigit,
      Bool.or_eq_true, Bool.and_eq_true, decide_eq_true_eq, UInt32.le_iff_toNat_le,
      beq_iff_eq] at hc
    rcases hc with ((hc | hc) | hc) | rfl
    · exact Nat.lt_of_le_of_lt hc.2 (by decide)
    · exact Nat.lt_of_le_of_lt hc.2 (by decide)
    · exact Nat.lt_of_le_of_lt hc.2 (by decide)
    · decide

/-- A byte is an ASCII character exactly if it belongs to that character. -/
theorem eq_iff_of_mem_bytesOf {b c d : Char} (hb : b ∈ bytesOf c) (hd : d.toNat < 128) :
    b = d ↔ c = d := by
  simpa using bytewise_eq hd c b hb

/-- The bytes of a character begin with its lead. -/
theorem exists_bytesOf_eq_cons (c : Char) : ∃ rest, bytesOf c = lead c :: rest := by
  obtain ⟨b, rest, hb⟩ := List.exists_cons_of_length_pos (length_bytesOf c ▸ c.utf8Size_pos)
  exact ⟨rest, by rw [lead, hb]; rfl⟩

/-- The lead of a character is one of its bytes. -/
theorem lead_mem_bytesOf (c : Char) : lead c ∈ bytesOf c := by
  obtain ⟨rest, hrest⟩ := exists_bytesOf_eq_cons c
  rw [hrest]
  exact List.mem_cons_self

/-- An ASCII character is its own lead. -/
theorem lead_of_ascii {c : Char} (hc : c.toNat < 128) : lead c = c := by
  rw [lead, bytesOf_of_ascii hc]
  rfl

/-- An ASCII byte is seen in front of that character and of no other. -/
theorem lead_eq_iff {c d : Char} (hd : d.toNat < 128) : lead c = d ↔ c = d :=
  eq_iff_of_mem_bytesOf (lead_mem_bytesOf c) hd

/-- A class that is told by any byte is told by the lead. -/
theorem Bytewise.lead {p : Char → Bool} (hp : Bytewise p) (c : Char) : p (lead c) = p c :=
  hp c _ (lead_mem_bytesOf c)

section Offsets

variable {text s t u : List Char} {c d : Char}

/-- The offset of a rest is the size of what stands in front of it. -/
theorem offsetIn_add_byteSize (h : u ++ s <:+ text) :
    offsetIn text (u ++ s) + byteSize u = offsetIn text s := by
  obtain ⟨front, rfl⟩ := h
  rw [offsetIn_append, ← List.append_assoc, offsetIn_append, byteSize_append]

/-- Behind an ASCII character the offset is greater by one. -/
theorem offsetIn_succ (h : c :: s <:+ text) (hc : c.toNat < 128) :
    offsetIn text (c :: s) + 1 = offsetIn text s := by
  rw [← offsetIn_add_byteSize (u := [c]) h, byteSize_cons, utf8Size_of_ascii hc, byteSize_nil,
    List.singleton_append]

/-- Behind ASCII characters the offset is greater by their number. -/
theorem offsetIn_add_length (hu : ∀ c ∈ u, c.toNat < 128) (h : u ++ s <:+ text) :
    offsetIn text (u ++ s) + u.length = offsetIn text s := by
  rw [← offsetIn_add_byteSize h, byteSize_of_ascii hu]

/-- Rests are in the order of their offsets. -/
theorem offsetIn_le_iff (hs : s <:+ text) (ht : t <:+ text) :
    offsetIn text s ≤ offsetIn text t ↔ t.length ≤ s.length := by
  have hle {s t : List Char} (hs : s <:+ text) (h : t <:+ s) :
      offsetIn text s ≤ offsetIn text t := by
    obtain ⟨u, rfl⟩ := h
    have := offsetIn_add_byteSize hs
    omega
  have hlt {s t : List Char} (hs : s <:+ text) (h : t <:+ s) (hne : t.length < s.length) :
      offsetIn text s < offsetIn text t := by
    obtain ⟨u, rfl⟩ := h
    have hsum := offsetIn_add_byteSize hs
    have hpos : 0 < byteSize u := byteSize_pos (by rintro rfl; exact hne.ne rfl)
    omega
  constructor
  · intro h
    by_contra hlength
    have hlt := hlt ht (List.suffix_of_suffix_length_le hs ht (by omega)) (by omega)
    omega
  · intro h
    exact hle hs (List.suffix_of_suffix_length_le ht hs h)

/-- Rests at the same offset are the same. -/
theorem offsetIn_inj (hs : s <:+ text) (ht : t <:+ text) :
    offsetIn text s = offsetIn text t ↔ s = t := by
  constructor
  · intro h
    have hst := (offsetIn_le_iff hs ht).1 h.le
    have hts := (offsetIn_le_iff ht hs).1 h.ge
    exact (List.suffix_of_suffix_length_le hs ht hts).eq_of_length (by omega)
  · rintro rfl
    rfl

/-- The offset of a rest is inside the text exactly if something is left. -/
theorem offsetIn_lt_byteSize_iff (h : s <:+ text) : offsetIn text s < byteSize text ↔ s ≠ [] := by
  have hend : offsetIn text [] = byteSize text := by
    rw [offsetIn, byteSize_nil, Nat.sub_zero]
  rw [← hend, ← not_le, offsetIn_le_iff (List.nil_suffix) h]
  simp

/-- No offset is greater than the size of the text. -/
theorem offsetIn_le_byteSize (s : List Char) : offsetIn text s ≤ byteSize text :=
  Nat.sub_le _ _

/-- The offset of a rest is the size of the text exactly if nothing is left. -/
theorem offsetIn_eq_byteSize_iff (h : s <:+ text) :
    offsetIn text s = byteSize text ↔ s = [] := by
  have hlt := offsetIn_lt_byteSize_iff h
  have hle : offsetIn text s ≤ byteSize text := offsetIn_le_byteSize s
  constructor
  · intro heq
    by_contra hne
    have := hlt.2 hne
    omega
  · intro hnil
    have := hlt.not.2 (not_not.2 hnil)
    omega

/-- A run is empty exactly if it ends where it begins. -/
theorem offsetIn_dropWhile_le_iff {p : Char → Bool} (h : s <:+ text) :
    offsetIn text (s.dropWhile p) ≤ offsetIn text s ↔ s.takeWhile p = [] := by
  have hlength : s.length = (s.takeWhile p).length + (s.dropWhile p).length := by
    rw [← List.length_append, List.takeWhile_append_dropWhile]
  rw [offsetIn_le_iff ((List.dropWhile_suffix p).trans h) h, ← List.length_eq_zero_iff]
  omega

/-- Dropping a run of characters leaves the offset exactly if the run is empty. -/
theorem offsetIn_dropWhile_eq_iff {p : Char → Bool} (h : s <:+ text) :
    offsetIn text (s.dropWhile p) = offsetIn text s ↔ s.takeWhile p = [] := by
  have hle := (offsetIn_le_iff h ((List.dropWhile_suffix p).trans h)).2 (length_dropWhile_le p s)
  rw [← offsetIn_dropWhile_le_iff h]
  exact ⟨fun heq => heq.le, fun hge => le_antisymm hge hle⟩

/-- The bytes from an offset on are the bytes of the rest. -/
theorem byteAt?_add (h : s <:+ text) (k : Nat) :
    byteAt? text (offsetIn text s + k) = (bytes s)[k]? := by
  obtain ⟨front, rfl⟩ := h
  rw [byteAt?, offsetIn_append, bytes_append,
    List.getElem?_append_right (by rw [length_bytes]; omega), length_bytes, Nat.add_sub_cancel_left]

/-- The byte at the offset of a rest is the first byte of its first character. -/
theorem byteAt?_offsetIn (h : s <:+ text) :
    byteAt? text (offsetIn text s) = s.head?.map lead := by
  have hbyte := byteAt?_add h 0
  rw [Nat.add_zero] at hbyte
  rw [hbyte]
  cases s with
  | nil => rfl
  | cons c s =>
      obtain ⟨rest, hrest⟩ := exists_bytesOf_eq_cons c
      simp [bytes, hrest]

/-- A byte that is there stands inside the text. -/
theorem lt_of_byteAt? {i : Nat} {b : Char} (h : byteAt? text i = some b) : i < byteSize text := by
  rw [← length_bytes]
  exact (List.getElem?_eq_some_iff.1 h).1

/-- At the end there is no byte. -/
theorem byteAt?_nil (h : [] <:+ text) : byteAt? text (offsetIn text []) = none :=
  byteAt?_offsetIn h

/-- At the offset of a rest there is the lead of its first character. -/
theorem byteAt?_cons (h : c :: s <:+ text) :
    byteAt? text (offsetIn text (c :: s)) = some (lead c) :=
  byteAt?_offsetIn h

/-- An ASCII character is seen at the offset of a rest exactly if the rest begins with it. -/
theorem byteAt?_eq_some_iff (h : s <:+ text) (hd : d.toNat < 128) :
    byteAt? text (offsetIn text s) = some d ↔ s.head? = some d := by
  rw [byteAt?_offsetIn h]
  cases s with
  | nil => simp
  | cons c s => simp [lead_eq_iff hd]

/-- A class of bytes is seen at the offset of a rest exactly if it holds of its first character. -/
theorem any_byteAt? {p : Char → Bool} (hp : Bytewise p) (h : s <:+ text) :
    (byteAt? text (offsetIn text s)).any p = s.head?.any p := by
  rw [byteAt?_offsetIn h]
  cases s with
  | nil => rfl
  | cons c s => exact hp.lead c

/-- The byte behind an ASCII character is seen in front of the next character. -/
theorem byteAt?_succ (h : c :: s <:+ text) (hc : c.toNat < 128) :
    byteAt? text (offsetIn text (c :: s) + 1) = s.head?.map lead := by
  rw [offsetIn_succ h hc]
  exact byteAt?_offsetIn ((List.suffix_cons c s).trans h)

/-- **A loop over bytes passes over a character** if it passes over each of its bytes. -/
theorem eq_of_passes {α : Type} {loop : Nat → α} (h : c :: s <:+ text)
    (hloop : ∀ b ∈ bytesOf c, ∀ i, byteAt? text i = some b → loop i = loop (i + 1)) :
    loop (offsetIn text (c :: s)) = loop (offsetIn text s) := by
  have hbytes (k : Nat) (hk : k < (bytesOf c).length) :
      byteAt? text (offsetIn text (c :: s) + k) = some (bytesOf c)[k] := by
    rw [byteAt?_add h, bytes, List.flatMap_cons, List.getElem?_append_left hk,
      List.getElem?_eq_getElem hk]
  have hpassed (k : Nat) (hk : k ≤ (bytesOf c).length) :
      loop (offsetIn text (c :: s)) = loop (offsetIn text (c :: s) + k) := by
    induction k with
    | zero => rfl
    | succ k ih =>
        rw [ih (Nat.le_of_succ_le hk), ← Nat.add_assoc]
        exact hloop _ (List.getElem_mem hk) _ (hbytes k hk)
  rw [hpassed _ (Nat.le_refl _), length_bytesOf, ← offsetIn_add_byteSize (u := [c]) h]
  rfl

end Offsets

/-! ### Parts of a text -/

/-- The part of a text between two offsets. The program breaks off if the first is behind the
second, or if one of them lies inside a character or behind the end of the text. -/
def slice (text : List Char) (i j : Nat) : Checked (List Char) :=
  match dropBytes? i text, dropBytes? j text with
  | some s, some rest => if i ≤ j then pure (s.take (s.length - rest.length)) else Checked.broken
  | _, _ => Checked.broken

/-- The difference of two numbers. The program breaks off if the second is greater. -/
def minus (m n : Nat) : Checked Nat :=
  if n ≤ m then pure (m - n) else Checked.broken

/-- What a counter holds. The program breaks off if that is more than the size of the text, so that
whatever is wide enough for the size of the text is wide enough for a counter: 32 bits with a sign
are for every text of less than `2 ^ 31` bytes. -/
def tally (text : List Char) (n : Nat) : Checked Nat :=
  if n ≤ byteSize text then pure n else Checked.broken

/-- The rest of a loop from a later offset on, up to the end of the text. A loop that would go on
elsewhere has no outcome: it might never end. -/
def onward {α : Type} (text : List Char) (i next : Nat)
    (loop : i < next ∧ next ≤ byteSize text → Checked α) : Checked α :=
  if h : i < next ∧ next ≤ byteSize text then loop h else Checked.broken

/-- The path cannot be read from an offset on. -/
def unparsable {α : Type} (text : List Char) (i : Nat) : Checked α :=
  throw (Error.unparsableAt (String.ofList text) i)

/-- The first offset from `i` on at which no byte of a class stands. -/
def skipWhile (p : Char → Bool) (text : List Char) (i : Nat) : Nat :=
  i + (((bytes text).drop i).takeWhile p).length

/-- A difference that is not negative does not break off. -/
theorem minus_of_le {m n : Nat} (h : n ≤ m) : minus m n = pure (m - n) :=
  if_pos h

/-- A counter that stays within the size of the text does not break off. -/
theorem tally_of_le {text : List Char} {n : Nat} (h : n ≤ byteSize text) :
    tally text n = pure n :=
  if_pos h

/-- A loop goes on where the next offset is further on and inside the text. -/
theorem onward_eq {α : Type} {text : List Char} {i next : Nat} (h : i < next ∧ next ≤ byteSize text)
    (loop : i < next ∧ next ≤ byteSize text → Checked α) : onward text i next loop = loop h :=
  dif_pos h

/-- A loop goes on behind a byte. -/
theorem onward_succ {α : Type} {text : List Char} {i : Nat} (h : i < byteSize text)
    (loop : i < i + 1 ∧ i + 1 ≤ byteSize text → Checked α) :
    onward text i (i + 1) loop = loop ⟨Nat.lt_succ_self i, h⟩ :=
  onward_eq _ loop

/-- What a program on offsets makes of what a reader gives: the rest by its offset, or the report of
the fault. -/
def settle {α : Type} (text : List Char) : Except Fault (α × List Char) → Checked (α × Nat)
  | .ok (a, rest) => pure (a, offsetIn text rest)
  | .error fault => throw (fault.report text)

/-- What a reader finds is settled to its offset. -/
@[simp]
theorem settle_ok {α : Type} (text : List Char) (a : α) (rest : List Char) :
    settle text (.ok (a, rest)) = pure (a, offsetIn text rest) :=
  rfl

/-- A fault is settled to its report. -/
@[simp]
theorem settle_error {α : Type} (text : List Char) (fault : Fault) :
    (settle text (.error fault) : Checked (α × Nat)) = throw (fault.report text) :=
  rfl

/-- What a program on offsets makes of what a reader finds; if that is nothing, the text cannot be
read from `start` on. -/
def settle? {α : Type} (text start : List Char) (found : Option (α × List Char)) :
    Checked (α × Nat) :=
  settle text (found.elim (.error (.unparsable start)) .ok)

section Parts

variable {text s u : List Char}

/-- From the offset of a rest on, the text is that rest. -/
theorem dropBytes?_offsetIn (h : s <:+ text) : dropBytes? (offsetIn text s) text = some s := by
  obtain ⟨front, rfl⟩ := h
  rw [offsetIn_append, dropBytes?_byteSize]

/-- **A part between the offsets of two rests exists**: it is what stands between them. -/
theorem slice_offsetIn (h : u ++ s <:+ text) :
    slice text (offsetIn text (u ++ s)) (offsetIn text s) = pure u := by
  have hs := (List.suffix_append u s).trans h
  have hle : offsetIn text (u ++ s) ≤ offsetIn text s := by
    have := offsetIn_add_byteSize h
    omega
  rw [slice, dropBytes?_offsetIn h, dropBytes?_offsetIn hs]
  simp [hle]

/-- **Which parts exist**: those between two offsets in order of which neither lies inside a
character or behind the end of the text. -/
theorem slice_eq_pure_iff {part : List Char} {i j : Nat} :
    slice text i j = pure part ↔
      ∃ front after, text = front ++ part ++ after ∧ byteSize front = i ∧
        byteSize (front ++ part) = j := by
  constructor
  · intro h
    rw [slice] at h
    split at h
    · next s rest hs hrest =>
      split at h
      · next hle =>
        obtain ⟨front, rfl, rfl⟩ := exists_append_of_dropBytes? hs
        obtain ⟨behind, hbehind, rfl⟩ := exists_append_of_dropBytes? hrest
        have hsuffix := List.suffix_append front s
        have hrest : rest <:+ front ++ s := ⟨behind, hbehind.symm⟩
        have hlength : rest.length ≤ s.length := by
          rwa [← offsetIn_le_iff hsuffix hrest, offsetIn_append, hbehind, offsetIn_append]
        obtain ⟨u, rfl⟩ := List.suffix_of_suffix_length_le hrest hsuffix hlength
        obtain rfl : u = part := by
          cases h
          simp
        refine ⟨front, rest, (List.append_assoc _ _ _).symm, rfl, ?_⟩
        rw [← List.append_assoc] at hbehind
        rw [List.append_cancel_right hbehind]
      · cases h
    · cases h
  · rintro ⟨front, after, rfl, rfl, rfl⟩
    have hpart : part ++ after <:+ front ++ part ++ after := ⟨front, (List.append_assoc _ _ _).symm⟩
    have hslice := slice_offsetIn hpart
    rwa [offsetIn_append, List.append_assoc, offsetIn_append, ← List.append_assoc] at hslice

/-- **A loop goes on** from a rest to a shorter one. -/
theorem onward_offsetIn {α : Type} {rest : List Char} (h : s <:+ text) (hrest : rest <:+ text)
    (hlt : rest.length < s.length)
    (loop : offsetIn text s < offsetIn text rest ∧ offsetIn text rest ≤ byteSize text → Checked α) :
    onward text (offsetIn text s) (offsetIn text rest) loop =
      loop ⟨not_le.1 fun hle => Nat.not_le_of_lt hlt ((offsetIn_le_iff hrest h).1 hle),
        offsetIn_le_byteSize rest⟩ :=
  onward_eq _ loop

/-- The report of an offset is that of the rest it belongs to. -/
theorem unparsable_offsetIn {α : Type} (h : s <:+ text) :
    (unparsable text (offsetIn text s) : Checked α) = throw ((Fault.unparsable s).report text) := by
  rw [unparsable, Error.unparsableAt, String.toList_ofList, dropBytes?_offsetIn h]
  rfl

/-- A run of characters is a part of the text. -/
theorem slice_takeWhile (p : Char → Bool) (h : s <:+ text) :
    slice text (offsetIn text s) (offsetIn text (s.dropWhile p)) = pure (s.takeWhile p) := by
  have hsplit := List.takeWhile_append_dropWhile (p := p) (l := s)
  have hslice := slice_offsetIn (hsplit.symm ▸ h)
  rwa [hsplit] at hslice

/-- The bytes of a run of characters are a run of bytes. -/
theorem takeWhile_bytes {p : Char → Bool} (hp : Bytewise p) (s : List Char) :
    (bytes s).takeWhile p = bytes (s.takeWhile p) := by
  induction s with
  | nil => rfl
  | cons c s ih =>
      rw [bytes, List.flatMap_cons, ← bytes]
      by_cases hc : p c = true
      · have hbytes : ∀ b ∈ bytesOf c, p b = true := fun b hb => (hp c b hb).trans hc
        rw [List.takeWhile_append_of_pos hbytes, ih, List.takeWhile_cons_of_pos hc]
        rfl
      · obtain ⟨rest, hrest⟩ := exists_bytesOf_eq_cons c
        have hlead : ¬ p (lead c) = true := by rwa [hp.lead c]
        rw [hrest, List.cons_append, List.takeWhile_cons_of_neg hlead,
          List.takeWhile_cons_of_neg hc]
        rfl

/-- **A run of characters ends where the run of their bytes does.** -/
theorem skipWhile_offsetIn {p : Char → Bool} (hp : Bytewise p) (h : s <:+ text) :
    skipWhile p text (offsetIn text s) = offsetIn text (s.dropWhile p) := by
  have hdrop : (bytes text).drop (offsetIn text s) = bytes s := by
    obtain ⟨front, rfl⟩ := h
    rw [bytes_append, offsetIn_append, ← length_bytes, List.drop_left]
  have hsplit : s.takeWhile p ++ s.dropWhile p <:+ text := by
    rwa [List.takeWhile_append_dropWhile]
  rw [skipWhile, hdrop, takeWhile_bytes hp, length_bytes, ← offsetIn_add_byteSize hsplit,
    List.takeWhile_append_dropWhile]

end Parts

end Indexed

end JsonPath
