import JsonPath.Environment
import JsonPath.Text

/-!
# Escapes in strings

A string stands for its characters: an escape stands for one character, and a pair of `\u` escapes,
the first from the leading and the second from the trailing surrogates, for one beyond the first
65536. A surrogate without a partner stands for nothing, so a string with one stands for no text.

The report of a surrogate without a partner counts the bytes of the string, with its opening quote,
up to where that became certain.

## Main definitions

* `decode`: the characters a string stands for.
* `decoder`: the same as a way to decode strings.

## Main results

* `decode_of_plain`: a string without escapes stands for itself.
-/

namespace JsonPath.Document

/-- A surrogate without a partner, and the number of bytes up to where that is certain. -/
inductive LoneSurrogate where
  /-- A leading surrogate is not followed by a second escape. -/
  | unfinished (column : Nat)
  /-- A trailing surrogate comes first, or the second escape is no trailing surrogate. -/
  | unpaired (column : Nat)
  deriving DecidableEq, Repr

/-- The wording of a surrogate without a partner. -/
def LoneSurrogate.message : LoneSurrogate → String
  | .unfinished column => "unexpected end of hex escape at line 1 column " ++ column.repr
  | .unpaired column => "lone leading surrogate in hex escape at line 1 column " ++ column.repr

/-- The value of a hexadecimal digit. -/
def hexValue (c : Char) : Nat :=
  if c.isDigit then c.toNat - '0'.toNat
  else if 'a' ≤ c then c.toNat - 'a'.toNat + 10
  else c.toNat - 'A'.toNat + 10

/-- The number that four hexadecimal digits stand for. -/
def hexNumber (a b c d : Char) : Nat :=
  ((hexValue a * 16 + hexValue b) * 16 + hexValue c) * 16 + hexValue d

/-- Whether a number is one of the leading surrogates. -/
def isLeading (n : Nat) : Bool :=
  0xD800 ≤ n && n < 0xDC00

/-- Whether a number is one of the trailing surrogates. -/
def isTrailing (n : Nat) : Bool :=
  0xDC00 ≤ n && n < 0xE000

/-- The character that two surrogates stand for. -/
def pairedChar (lead trail : Nat) : Char :=
  .ofNat (0x10000 + (lead - 0xD800) * 0x400 + (trail - 0xDC00))

/-- The character that a backslash and a letter stand for. -/
def escapedChar (c : Char) : Char :=
  match c with
  | 'b' => '\x08'
  | 'f' => '\x0c'
  | 'n' => '\n'
  | 'r' => '\r'
  | 't' => '\t'
  | c => c

/-- The characters that the body of a string stands for; `before` bytes of the string come
before. -/
def decodeFrom (before : Nat) : List Char → Except LoneSurrogate (List Char)
  | [] => .ok []
  | '\\' :: 'u' :: a :: b :: c :: d :: rest =>
    let n := hexNumber a b c d
    if isTrailing n then
      .error (.unpaired (before + 6))
    else if isLeading n then
      match rest with
      | '\\' :: 'u' :: a' :: b' :: c' :: d' :: rest =>
        let m := hexNumber a' b' c' d'
        if isTrailing m then (decodeFrom (before + 12) rest).map (pairedChar n m :: ·)
        else .error (.unpaired (before + 12))
      | '\\' :: _ => .error (.unfinished (before + 8))
      | _ => .error (.unfinished (before + 7))
    else
      (decodeFrom (before + 6) rest).map (Char.ofNat n :: ·)
  | '\\' :: c :: rest => (decodeFrom (before + 2) rest).map (escapedChar c :: ·)
  | c :: rest => (decodeFrom (before + c.utf8Size) rest).map (c :: ·)

/-- The characters that the body of a string stands for. -/
def decode (body : List Char) : Except LoneSurrogate (List Char) :=
  decodeFrom 1 body

/-- A string without escapes stands for itself. -/
theorem decodeFrom_of_plain {body : List Char} (h : '\\' ∉ body) (before : Nat) :
    decodeFrom before body = .ok body := by
  induction body generalizing before with
  | nil => rfl
  | cons c body ih =>
    rw [List.mem_cons, not_or] at h
    rw [decodeFrom, ih h.2]
    · rfl
    · rintro _ _ _ _ _ rfl
      exact absurd rfl h.1
    · rintro _ _ rfl
      exact absurd rfl h.1

/-- A body without backslashes is its own decoding. -/
theorem decode_of_plain {body : List Char} (h : '\\' ∉ body) : decode body = .ok body :=
  decodeFrom_of_plain h 1

/-- The way to decode strings by which a surrogate without a partner is all that can be wrong. -/
def decoder : Decoder := fun body =>
  (decode body).mapError LoneSurrogate.message

end JsonPath.Document
