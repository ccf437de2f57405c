import JsonPath.Pattern.Flags

/-!
# Escapes in regular expressions

A backslash gives a character by its code, makes a character stand for itself, or names a class or
an anchor. Inside a class in brackets and outside of one the same escapes are read; which of them
make sense is decided there. There are no escapes for the properties that Unicode lists.

## Main definitions

* `Named`: the classes that have a letter.
* `Primitive`: what a character or an escape can stand for.
* `readEscape`: what stands after a backslash.
-/

namespace JsonPath

open Text

namespace Pattern

/-! ### Characters by their code -/

/-- Whether a character is a hexadecimal digit. -/
def isHexDigit (c : Char) : Bool :=
  c.isDigit || ('a' ≤ c && c ≤ 'f') || ('A' ≤ c && c ≤ 'F')

/-- The value of hexadecimal digits. -/
def hexValue (s : List Char) : Nat :=
  s.foldl (fun n c =>
    16 * n + (if c.isDigit then c.toNat - '0'.toNat
      else if 'a' ≤ c then c.toNat - 'a'.toNat + 10 else c.toNat - 'A'.toNat + 10)) 0

/-- The character with a code, if there is one. -/
def charOf? (n : Nat) : Option Char :=
  if n.isValidChar then some (Char.ofNat n) else none

/-- Exactly so many hexadecimal digits, and the rest. -/
def readHexDigits (f : Flags) : (count : Nat) → List Char → Except Refusal (List Char × List Char)
  | 0, s => .ok ([], s)
  | _ + 1, [] => .error .escape
  | count + 1, c :: rest =>
    if isHexDigit c then
      (readHexDigits f count (f.skip rest)).map fun p => (c :: p.1, p.2)
    else
      .error .escape

/-- Hexadecimal digits up to a closing brace, and the rest. -/
def readHexBraces (f : Flags) : (bound : Nat) → List Char → Except Refusal (List Char × List Char)
  | 0, _ => .error .escape
  | bound + 1, s =>
    match s with
    | [] => .error .escape
    | c :: rest =>
      if c = '\x7d' then .ok ([], f.skip rest)
      else if isHexDigit c then
        (readHexBraces f bound (f.skip rest)).map fun p => (c :: p.1, p.2)
      else
        .error .escape

/-- A character by its code: so many digits, or any number of them in braces. -/
def readCode (f : Flags) (count : Nat) (s : List Char) : Except Refusal (Char × List Char) := do
  let (digits, rest) ← match f.skip s with
    | '\x7b' :: rest => readHexBraces f (rest.length + 1) (f.skip rest)
    | rest => readHexDigits f count rest
  match if digits.isEmpty then none else charOf? (hexValue digits) with
  | some c => .ok (c, rest)
  | none => .error .escape

/-- A character by its code in two digits, or in braces. Outside Unicode two digits are a byte,
which has to be a whole character. -/
def readByte (f : Flags) (s : List Char) : Except Refusal (Char × List Char) :=
  match readCode f 2 s with
  | .error e => .error e
  | .ok (c, rest) =>
    if !f.unicode && 128 ≤ c.toNat && (f.skip s).head? != some '\x7b' then .error .partOfCharacter
    else .ok (c, rest)

/-! ### Classes by a letter -/

/-- The classes that have a letter. -/
inductive Named where
  /-- Digits. -/
  | digit
  /-- Blanks. -/
  | space
  /-- Characters of words. -/
  | word

/-- A named class, of all scripts or of ASCII alone. -/
def Named.toClass (unicode : Bool) : Named → CharClass
  | .digit => .table (if unicode then digits else [(0x30, 0x39)])
  | .space => .table (if unicode then blanks else [(0x09, 0x0D), (0x20, 0x20)])
  | .word =>
    .table (if unicode then words else [(0x30, 0x39), (0x41, 0x5A), (0x5F, 0x5F), (0x61, 0x7A)])

/-! ### Escapes -/

/-- What one character or one escape can stand for. -/
inductive Primitive where
  /-- A character. -/
  | char (c : Char)
  /-- A named class, or all the characters that are not in it. -/
  | named (n : Named) (negated : Bool)
  /-- An anchor. -/
  | anchor (a : Anchor)

/-- The characters that mean something in a regular expression. -/
def isMeta (c : Char) : Bool :=
  "\\.+*?()|[]\x7b\x7d^$#&-~".toList.contains c

/-- Whether a backslash before a character makes it stand for itself. -/
def isEscapable (c : Char) : Bool :=
  isMeta c || (c.toNat < 128 && !c.isAlphanum && c != '<' && c != '>')

/-- The word boundaries that have a name. -/
def namedBoundary? (word : CharClass) (name : List Char) : Option Anchor :=
  match String.ofList name with
  | "start" => some (.wordStart word)
  | "end" => some (.wordStop word)
  | "start-half" => some (.noWordBefore word)
  | "end-half" => some (.noWordAfter word)
  | _ => none

/-- Whether a character may stand in the name of a word boundary. -/
def isBoundaryName (c : Char) : Bool :=
  c.isAlpha || c == '-'

/-- The name of a word boundary, and the rest; under the flags there may be blanks in it. -/
def readBoundaryName (f : Flags) : (bound : Nat) → List Char → List Char × List Char
  | 0, s => ([], s)
  | bound + 1, s =>
    match s with
    | [] => ([], [])
    | c :: rest =>
      if isBoundaryName c then
        let more := readBoundaryName f bound (f.skip rest)
        (c :: more.1, more.2)
      else
        ([], c :: rest)

/-- A word boundary, which may be given a name in braces. Braces that hold no name are left as they
are. -/
def readBoundary (f : Flags) (s : List Char) : Except Refusal (Anchor × List Char) :=
  let word := Named.word.toClass f.unicode
  match s with
  | '\x7b' :: rest =>
    match f.skip rest with
    | [] => .error .escape
    | c :: after =>
      if isBoundaryName c then
        let name := readBoundaryName f (after.length + 1) (c :: after)
        match name.2, namedBoundary? word name.1 with
        | '\x7d' :: after, some a => .ok (a, after)
        | _, _ => .error .escape
      else
        .ok (.boundary word, s)
  | s => .ok (.boundary word, s)

/-- What stands after a backslash. Classes by a Unicode property, such as `\pL`, `\PN` and
`\p{Greek}`, are not known: `\p` and `\P` are refused as letters that mean nothing after a
backslash. -/
def readEscape (f : Flags) : List Char → Except Refusal (Primitive × List Char)
  | [] => .error .escape
  | c :: rest =>
    let word := Named.word.toClass f.unicode
    if c.isDigit then .error .unsupported
    else if isEscapable c then .ok (.char c, rest)
    else
      match c with
      | 'x' => (readByte f rest).map fun p => (.char p.1, p.2)
      | 'u' => (readCode f 4 rest).map fun p => (.char p.1, p.2)
      | 'U' => (readCode f 8 rest).map fun p => (.char p.1, p.2)
      | 'd' => .ok (.named .digit false, rest)
      | 'D' => .ok (.named .digit true, rest)
      | 's' => .ok (.named .space false, rest)
      | 'S' => .ok (.named .space true, rest)
      | 'w' => .ok (.named .word false, rest)
      | 'W' => .ok (.named .word true, rest)
      | 'a' => .ok (.char '\x07', rest)
      | 'f' => .ok (.char '\x0c', rest)
      | 't' => .ok (.char '\t', rest)
      | 'n' => .ok (.char '\n', rest)
      | 'r' => .ok (.char '\r', rest)
      | 'v' => .ok (.char '\x0b', rest)
      | 'A' => .ok (.anchor .start, rest)
      | 'z' => .ok (.anchor .stop, rest)
      | 'B' => .ok (.anchor (.noBoundary word), rest)
      | '<' => .ok (.anchor (.wordStart word), rest)
      | '>' => .ok (.anchor (.wordStop word), rest)
      | 'b' => (readBoundary f rest).map fun p => (.anchor p.1, p.2)
      | _ => .error .escape

end Pattern

end JsonPath
