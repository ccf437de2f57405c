import JsonPath.Document.Node
import JsonPath.Error

/-!
# Reading documents

A document is one JSON value with blanks around it; containers may be nested 512 deep. The reader
takes the text that is left and gives a value with the rest, or the first place at which the text is
not JSON. Every reader of a value takes at least one character, and its type says so: that is why
reading ends.

How deep a value may still go is a number, the *room*, which each container lowers by one.

## Main definitions

* `Malformed`: what is wrong with a document, with its wording.
* `readString`, `readNumber`, `readItems`, `readMembers`, `readValue`: the parts of a document.
* `Document.ofString`: a whole document.
-/

namespace JsonPath

open Text

namespace Document

/-- What is wrong with a document. -/
inductive Malformed where
  /-- There is nothing but blanks. -/
  | empty
  /-- Something follows the value. -/
  | trailing
  /-- Containers are nested too deeply. -/
  | tooDeep
  /-- No value begins like this. -/
  | noValue
  /-- The document ends where a value should be. -/
  | endOfValue
  /-- A member does not begin with a key. -/
  | keyExpected
  /-- No colon follows the key. -/
  | colonExpected
  /-- Neither a comma nor the end of the object follows a member. -/
  | memberEnd
  /-- The document ends inside an object. -/
  | endOfObject
  /-- Neither a comma nor the end of the array follows an element. -/
  | elementEnd
  /-- The document ends inside an array. -/
  | endOfArray
  /-- Four hexadecimal digits do not follow. -/
  | unicodeEscape
  /-- There is no such escape. -/
  | escape
  /-- Control characters must be escaped. -/
  | control
  /-- The document ends inside a string. -/
  | unterminated
  /-- This is not a number. -/
  | number
  /-- This is not one of the three words. -/
  | word
  deriving DecidableEq, Repr

/-- The wording of what is wrong. -/
def Malformed.message : Malformed → String
  | .empty => "cannot parse as a valid JSON object: empty input"
  | .trailing => "unexpected data after JSON value"
  | .tooDeep => "JSON nesting too deep"
  | .noValue => "invalid JSON value"
  | .endOfValue => "unexpected end of JSON data"
  | .keyExpected => "expected string key in object"
  | .colonExpected => "expected ':' after object key"
  | .memberEnd => "expected ',' or '\x7d' in object"
  | .endOfObject => "unexpected end of object"
  | .elementEnd => "expected ',' or ']' in array"
  | .endOfArray => "unexpected end of array"
  | .unicodeEscape => "invalid unicode escape"
  | .escape => "invalid escape sequence"
  | .control => "control character in string"
  | .unterminated => "unterminated string"
  | .number => "invalid number"
  | .word => "invalid JSON literal"

/-- Something wrong, and the rest of the document from there. -/
structure Flaw where
  /-- The rest of the document from the place that is wrong. -/
  rest : List Char
  /-- What is wrong there. -/
  cause : Malformed
  deriving DecidableEq, Repr

/-- What a reader gives for a text: a value and a shorter rest, or what is wrong. -/
abbrev Outcome (α : Type) (s : List Char) :=
  Except Flaw (α × { rest : List Char // rest.length < s.length })

/-- The greatest depth of a document. -/
def maxDepth : Nat :=
  512

/-! ### Numbers and words -/

/-- An optional minus sign, and the rest. -/
def splitMinus : List Char → List Char × List Char
  | '-' :: rest => (['-'], rest)
  | s => ([], s)

/-- The digits of a whole number without padding: a single zero, or digits that begin with another
one. -/
def splitInteger : List Char → List Char × List Char
  | '0' :: rest => (['0'], rest)
  | s => splitDigits s

/-- The number a text begins with: digits without padding, a fraction only with digits, an
exponent. -/
def scanNumber (s : List Char) : Option (Numeral × List Char) :=
  let signed := splitMinus s
  let integer := splitInteger signed.2
  let fraction := splitFraction integer.2
  if integer.1.isEmpty || fraction.1 == some [] then
    none
  else
    (splitExponent? fraction.2).map fun (exponent, rest) =>
      (⟨signed.1, integer.1, fraction.1, exponent⟩, rest)

/-- The rest of a text that begins with a word. -/
def afterWord? : (word s : List Char) → Option (List Char)
  | [], s => some s
  | _ :: _, [] => none
  | w :: word, c :: s => if w = c then afterWord? word s else none

/-- A word that is skipped and what is left make up the text. -/
theorem append_of_afterWord? {word s rest : List Char} (h : afterWord? word s = some rest) :
    word ++ rest = s := by
  fun_induction afterWord? word s with
  | case1 => simpa using h.symm
  | case2 => simp at h
  | case3 w word s ih => simp [ih h]
  | case4 => simp at h

/-- The minus, if there is one, and what is left make up the text. -/
theorem append_splitMinus (s : List Char) : (splitMinus s).1 ++ (splitMinus s).2 = s := by
  unfold splitMinus
  split <;> simp

/-- The digits in front of the point and what is left make up the text. -/
theorem append_splitInteger (s : List Char) : (splitInteger s).1 ++ (splitInteger s).2 = s := by
  unfold splitInteger
  split
  · simp
  · exact append_splitDigits s

/-- A number and the rest after it make up the text they were read from. -/
theorem text_append_of_scanNumber {s rest : List Char} {n : Numeral}
    (h : scanNumber s = some (n, rest)) : n.text ++ rest = s ∧ n.text ≠ [] := by
  simp only [scanNumber] at h
  split at h
  · simp at h
  · rename_i hne
    obtain ⟨⟨e, r⟩, he, hn⟩ := Option.map_eq_some_iff.1 h
    simp only [Prod.mk.injEq] at hn
    obtain ⟨rfl, rfl⟩ := hn
    have h₁ := append_splitExponent? he
    have h₂ := append_splitFraction (splitInteger (splitMinus s).2).2
    have h₃ := append_splitInteger (splitMinus s).2
    have h₄ := append_splitMinus s
    simp only [Numeral.text, List.append_assoc]
    refine ⟨by rw [h₁, h₂, h₃, h₄], ?_⟩
    simp only [Bool.or_eq_true, List.isEmpty_iff, not_or] at hne
    simp [hne.1]

/-! ### Strings -/

/-- Whether a character is a hexadecimal digit. -/
def isHex (c : Char) : Bool :=
  c.isDigit || ('a' ≤ c && c ≤ 'f') || ('A' ≤ c && c ≤ 'F')

/-- The characters that may follow a backslash, apart from `u`. -/
def isEscapable (c : Char) : Bool :=
  ['"', '\\', '/', 'b', 'f', 'n', 'r', 't'].contains c

/-- The body of a string, with its escapes, and the rest after the closing quote. `opening` is the
text from the opening quote on. -/
def readBody (opening : List Char) : List Char → Except Flaw (List Char × List Char)
  | [] => .error ⟨opening, .unterminated⟩
  | '"' :: rest => .ok ([], rest)
  | '\\' :: 'u' :: a :: b :: c :: d :: rest =>
    if isHex a && isHex b && isHex c && isHex d then
      (readBody opening rest).map fun p => ('\\' :: 'u' :: a :: b :: c :: d :: p.1, p.2)
    else
      .error ⟨'\\' :: 'u' :: a :: b :: c :: d :: rest, .unicodeEscape⟩
  | '\\' :: 'u' :: rest => .error ⟨'\\' :: 'u' :: rest, .unicodeEscape⟩
  | '\\' :: c :: rest =>
    if isEscapable c then
      (readBody opening rest).map fun p => ('\\' :: c :: p.1, p.2)
    else
      .error ⟨'\\' :: c :: rest, .escape⟩
  | ['\\'] => .error ⟨['\\'], .escape⟩
  | c :: rest =>
    if c < ' ' then .error ⟨c :: rest, .control⟩
    else (readBody opening rest).map fun p => (c :: p.1, p.2)

/-- A string's body, its closing quote and what is left make up the text. -/
theorem append_of_readBody {opening s body rest : List Char}
    (h : readBody opening s = .ok (body, rest)) : body ++ '"' :: rest = s := by
  have step {f : List Char → List Char} {s' body rest : List Char}
      (ih : ∀ {body rest : List Char}, readBody opening s' = .ok (body, rest) →
        body ++ '"' :: rest = s')
      (h : (readBody opening s').map (fun p => (f p.1, p.2)) = .ok (body, rest)) :
      ∃ b, body = f b ∧ b ++ '"' :: rest = s' := by
    obtain ⟨p, hs, hp⟩ := map_eq_ok_iff.1 h
    obtain ⟨rfl, rfl⟩ := Prod.mk.inj hp
    exact ⟨p.1, rfl, ih hs⟩
  fun_induction readBody opening s generalizing body rest <;> try (simp at h; done)
  · obtain ⟨rfl, rfl⟩ := by simpa using h
    rfl
  · rename_i ih
    obtain ⟨b, rfl, hb⟩ := step (f := fun t => '\\' :: 'u' :: _ :: _ :: _ :: _ :: t) ih h
    simp [hb]
  · rename_i ih
    obtain ⟨b, rfl, hb⟩ := step (f := fun t => '\\' :: _ :: t) ih h
    simp [hb]
  · rename_i ih
    obtain ⟨b, rfl, hb⟩ := step (f := fun t => _ :: t) ih h
    simp [hb]

/-- The body of the string a text begins with. -/
def readString (s : List Char) (missing : Malformed) : Outcome (List Char) s :=
  match s with
  | '"' :: tail =>
    match h : readBody ('"' :: tail) tail with
    | .error flaw => .error flaw
    | .ok (body, rest) =>
      .ok (body, ⟨rest, by simp [← append_of_readBody h]; omega⟩)
  | s => .error ⟨s, missing⟩

/-! ### Values -/

/-- A word of the document in place of a value. -/
def readWord (word : String) (value : Node) (s : List Char) : Outcome Node s :=
  if hw : word.toList = [] then
    .error ⟨s, .word⟩
  else
    match h : afterWord? word.toList s with
    | none => .error ⟨s, .word⟩
    | some rest =>
      .ok (value, ⟨rest, by
        have := List.length_pos_iff.2 hw
        rw [← append_of_afterWord? h, List.length_append]
        omega⟩)

/-- A number in place of a value. -/
def readNumber (s : List Char) : Outcome Node s :=
  match h : scanNumber s with
  | none => .error ⟨s, .number⟩
  | some (n, rest) =>
    .ok (.number n, ⟨rest, by
      obtain ⟨ht, hne⟩ := text_append_of_scanNumber h
      have := List.length_pos_iff.2 hne
      rw [← ht, List.length_append]
      omega⟩)

/-- The same outcome for a longer text. -/
def Outcome.widen {α : Type} {s t : List Char} (h : s.length ≤ t.length) :
    Outcome α s → Outcome α t
  | .error flaw => .error flaw
  | .ok (value, rest) => .ok (value, ⟨rest.1, Nat.lt_of_lt_of_le rest.2 h⟩)

/-- Elements, separated by commas, and the closing bracket. -/
def readElements (element : (s : List Char) → Outcome Node s) (gap : List Char) (s : List Char) :
    Outcome Items s :=
  match element s with
  | .error flaw => .error flaw
  | .ok (value, ⟨rest, hrest⟩) =>
    let blanks := rest.takeWhile isBlank
    match h : skipBlanks rest with
    | ',' :: after =>
      have hafter : (skipBlanks after).length < s.length := by
        have h₁ := length_skipBlanks_le rest
        have h₂ := length_skipBlanks_le after
        rw [h, List.length_cons] at h₁
        omega
      match readElements element (blanks ++ ',' :: after.takeWhile isBlank) (skipBlanks after) with
      | .error flaw => .error flaw
      | .ok (items, ⟨rest, hrest⟩) =>
        .ok (.item gap value items, ⟨rest, Nat.lt_trans hrest hafter⟩)
    | ']' :: after =>
      .ok (.item gap value (.close blanks), ⟨after, by
        have h₁ := length_skipBlanks_le rest
        rw [h, List.length_cons] at h₁
        omega⟩)
    | [] => .error ⟨[], .endOfArray⟩
    | c :: after => .error ⟨c :: after, .elementEnd⟩
termination_by s.length

/-- What stands in brackets, after the opening one, with the closing one. -/
def readItems (element : (s : List Char) → Outcome Node s) (s : List Char) : Outcome Items s :=
  match h : skipBlanks s with
  | ']' :: after =>
    .ok (.close (s.takeWhile isBlank), ⟨after, by
      have := length_skipBlanks_le s
      rw [h, List.length_cons] at this
      omega⟩)
  | _ =>
    (readElements element (s.takeWhile isBlank) (skipBlanks s)).widen (length_skipBlanks_le s)

/-- A key, a colon with blanks around it, and a value. -/
def readMember (element : (s : List Char) → Outcome Node s) (s : List Char) :
    Outcome (List Char × List Char × Node) s :=
  match readString s .keyExpected with
  | .error flaw => .error flaw
  | .ok (key, ⟨rest, hrest⟩) =>
    match h : skipBlanks rest with
    | ':' :: after =>
      match element (skipBlanks after) with
      | .error flaw => .error flaw
      | .ok (value, ⟨rest', hrest'⟩) =>
        .ok ((key, rest.takeWhile isBlank ++ ':' :: after.takeWhile isBlank, value),
          ⟨rest', by
            have h₁ := length_skipBlanks_le rest
            have h₂ := length_skipBlanks_le after
            rw [h, List.length_cons] at h₁
            omega⟩)
    | rest => .error ⟨rest, .colonExpected⟩

/-- Members, separated by commas, and the closing brace. -/
def readMemberList (element : (s : List Char) → Outcome Node s) (gap : List Char)
    (s : List Char) : Outcome Members s :=
  match readMember element s with
  | .error flaw => .error flaw
  | .ok ((key, colon, value), ⟨rest, hrest⟩) =>
    let blanks := rest.takeWhile isBlank
    match h : skipBlanks rest with
    | ',' :: after =>
      have hafter : (skipBlanks after).length < s.length := by
        have h₁ := length_skipBlanks_le rest
        have h₂ := length_skipBlanks_le after
        rw [h, List.length_cons] at h₁
        omega
      match readMemberList element (blanks ++ ',' :: after.takeWhile isBlank)
        (skipBlanks after) with
      | .error flaw => .error flaw
      | .ok (members, ⟨rest, hrest⟩) =>
        .ok (.member gap key colon value members, ⟨rest, Nat.lt_trans hrest hafter⟩)
    | '\x7d' :: after =>
      .ok (.member gap key colon value (.close blanks), ⟨after, by
        have h₁ := length_skipBlanks_le rest
        rw [h, List.length_cons] at h₁
        omega⟩)
    | [] => .error ⟨[], .endOfObject⟩
    | c :: after => .error ⟨c :: after, .memberEnd⟩
termination_by s.length

/-- What stands in braces, after the opening one, with the closing one. -/
def readMembers (element : (s : List Char) → Outcome Node s) (s : List Char) : Outcome Members s :=
  match h : skipBlanks s with
  | '\x7d' :: after =>
    .ok (.close (s.takeWhile isBlank), ⟨after, by
      have := length_skipBlanks_le s
      rw [h, List.length_cons] at this
      omega⟩)
  | _ =>
    (readMemberList element (s.takeWhile isBlank) (skipBlanks s)).widen (length_skipBlanks_le s)

/-- The value a text begins with, if there is room for its depth. -/
def readValue (room : Nat) (s : List Char) : Outcome Node s :=
  match s with
  | [] => .error ⟨[], .endOfValue⟩
  | '\x7b' :: rest =>
    match room with
    | 0 => .error ⟨'\x7b' :: rest, .tooDeep⟩
    | room + 1 =>
      match readMembers (readValue room) rest with
      | .error flaw => .error flaw
      | .ok (members, ⟨after, h⟩) => .ok (.object members, ⟨after, Nat.lt_succ_of_lt h⟩)
  | '[' :: rest =>
    match room with
    | 0 => .error ⟨'[' :: rest, .tooDeep⟩
    | room + 1 =>
      match readItems (readValue room) rest with
      | .error flaw => .error flaw
      | .ok (items, ⟨after, h⟩) => .ok (.array items, ⟨after, Nat.lt_succ_of_lt h⟩)
  | '"' :: rest =>
    match readString ('"' :: rest) .noValue with
    | .error flaw => .error flaw
    | .ok (body, after) => .ok (.string body, after)
  | c :: rest =>
    if c = '-' ∨ c.isDigit then readNumber (c :: rest)
    else if c = 't' then readWord "true" (.bool true) (c :: rest)
    else if c = 'f' then readWord "false" (.bool false) (c :: rest)
    else if c = 'n' then readWord "null" .null (c :: rest)
    else .error ⟨c :: rest, .noValue⟩

/-- The value of a document, and the text in front of it. -/
def read (s : List Char) : Except Flaw (List Char × Node) :=
  if (skipBlanks s).isEmpty then
    .error ⟨[], .empty⟩
  else
    match readValue maxDepth (skipBlanks s) with
    | .error flaw => .error flaw
    | .ok (value, ⟨rest, _⟩) =>
      if (skipBlanks rest).isEmpty then .ok (s.takeWhile isBlank, value)
      else .error ⟨skipBlanks rest, .trailing⟩

/-- The error that a flaw of a document is reported as. -/
def Flaw.report (document : List Char) (flaw : Flaw) : Error :=
  .document (offsetIn document flaw.rest) flaw.cause.message

/-- The value of a document, at its place. -/
def ofString (document : String) : Except Error Site :=
  match read document.toList with
  | .error flaw => .error (flaw.report document.toList)
  | .ok (front, value) => .ok ⟨byteSize front, value⟩

end Document

end JsonPath
