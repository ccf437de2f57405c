import JsonPath.Binary64.Decimal
import JsonPath.Error
import JsonPath.Filter.Operator
import JsonPath.Filter.Reference
import JsonPath.Text.Quoted

/-!
# The tokens of a filter

A filter is written with references, text and number literals, operators and parentheses, with
blanks between them where one likes. `Token.next` reads the token a text begins with. Only `-`
depends on what stands before it: after an operand it subtracts, elsewhere it is the sign of a
number.

A failure is reported as the rest of the text at the place at fault, which is the beginning of the
token or, inside a reference, the beginning of a step.

## Main definitions

* `Token`: the tokens, and `Token.display`, how a compiled filter shows them.
* `Token.read`, `Token.next`: the token at the beginning of a text, after blanks for the latter.
* `Token.lex`: the same as a reading that keeps the text that is left as its state.

## Main results

* `Token.length_lt_of_next`: a token takes at least one character.
* `Token.lex_eq`: where such a reading ends, with or without a token.
-/

namespace JsonPath

/-- A number in a filter, with the text it was written as. -/
structure NumberLiteral where
  /-- The number as it is written. -/
  text : String
  /-- The double it denotes. -/
  value : Binary64
  deriving DecidableEq

/-- The literal that a text denotes as a whole. -/
def NumberLiteral.ofText? (s : List Char) : Option NumberLiteral :=
  (Binary64.read? s).map fun x => ⟨String.ofList s, x⟩

/-- A token of a filter. -/
inductive Token where
  /-- A reference from the root of the document, `$`. -/
  | root (reference : Reference)
  /-- A reference from the value that is tested, `@`. -/
  | candidate (reference : Reference)
  /-- A text in quotes, without its escapes. -/
  | text (value : String)
  /-- A number. -/
  | number (literal : NumberLiteral)
  /-- The parenthesis `(`. -/
  | opening
  /-- The parenthesis `)`. -/
  | closing
  /-- An operator. -/
  | operator (op : Operator)
  deriving DecidableEq

namespace Token

open Text

/-- What a token is for the tokens beside it. -/
def role : Token → Role
  | .opening | .closing => .none
  | .operator op => op.role
  | _ => .operand

/-- How loosely an operator binds; zero for every other token. -/
def precedence : Token → Nat
  | .operator op => op.precedence
  | _ => 0

/-- How a token is shown: as it is written, except that a text shows without quotes and escapes. -/
def display : Token → String
  | .root reference | .candidate reference => reference.text
  | .text value => value
  | .number literal => literal.text
  | .opening => "("
  | .closing => ")"
  | .operator op => op.symbol

/-- The operator a text begins with, and the rest. Of two symbols that fit the longer one is
read. -/
def readOperator? (previous : Role) : List Char → Option (Operator × List Char)
  | '+' :: rest => some (.add, rest)
  | '-' :: rest => if previous = .operand then some (.subtract, rest) else none
  | '*' :: rest => some (.multiply, rest)
  | '/' :: rest => some (.divide, rest)
  | '!' :: '=' :: rest => some (.notEqual, rest)
  | '!' :: rest => some (.not, rest)
  | '=' :: '=' :: rest => some (.equal, rest)
  | '=' :: '~' :: rest => some (.search, rest)
  | '<' :: '=' :: rest => some (.lessEqual, rest)
  | '<' :: rest => some (.less, rest)
  | '>' :: '=' :: rest => some (.greaterEqual, rest)
  | '>' :: rest => some (.greater, rest)
  | '|' :: '|' :: rest => some (.or, rest)
  | '&' :: '&' :: rest => some (.and, rest)
  | _ => none

/-- A reference, `sign` and steps. -/
def readReference (sign : Char) (rest : List Char) :
    Except (List Char) (Reference × List Char) :=
  (Step.readAll rest).map fun p =>
    (⟨String.ofList (sign :: rest.take (rest.length - p.2.length)), p.1⟩, p.2)

/-- A text in quotes. -/
def readText? (quote : Char) (rest : List Char) : Option (Token × List Char) :=
  match Quoted.split '\\' quote (fun _ => false) rest with
  | .ok (body, rest) => some (.text (String.ofList (Quoted.unquote body)), rest)
  | .error _ => none

/-- A number, as long as it goes. -/
def readNumber? (s : List Char) : Option (Token × List Char) :=
  (Numeral.scan s).bind fun p =>
    (NumberLiteral.ofText? p.1.text).map fun literal => (.number literal, p.2)

/-- The token a text begins with, and the rest; `previous` is the role of the token before it. -/
def read (previous : Role) : List Char → Except (List Char) (Token × List Char)
  | [] => .error []
  | c :: rest =>
    match readOperator? previous (c :: rest) with
    | some (op, rest) => .ok (.operator op, rest)
    | none =>
      if c = '(' then .ok (.opening, rest)
      else if c = ')' then .ok (.closing, rest)
      else if c = '@' then (readReference c rest).map fun p => (.candidate p.1, p.2)
      else if c = '$' then (readReference c rest).map fun p => (.root p.1, p.2)
      else if c = '\'' ∨ c = '"' then (readText? c rest).elim (.error (c :: rest)) .ok
      else if c = '-' ∨ c.isDigit then (readNumber? (c :: rest)).elim (.error (c :: rest)) .ok
      else .error (c :: rest)

/-- The first token of a text, after blanks, and the rest. -/
def next (previous : Role) (s : List Char) : Except (List Char) (Token × List Char) :=
  read previous (skipBlanks s)

/-- An operator that is read leaves a shorter text. -/
theorem length_lt_of_readOperator? {previous : Role} {op : Operator} {s rest : List Char}
    (h : readOperator? previous s = some (op, rest)) : rest.length < s.length := by
  unfold readOperator? at h
  split at h <;> grind

/-- The steps of a reference leave no longer text; there need not be any. -/
theorem length_le_of_readReference {sign : Char} {s rest : List Char} {reference : Reference}
    (h : readReference sign s = .ok (reference, rest)) : rest.length ≤ s.length := by
  unfold readReference at h
  obtain ⟨p, hs, hp⟩ := map_eq_ok_iff.1 h
  obtain ⟨-, rfl⟩ := Prod.mk.inj hp
  exact Step.length_le_of_readAll hs

/-- A text in quotes that is read leaves a shorter text. -/
theorem length_lt_of_readText? {quote : Char} {s rest : List Char} {t : Token}
    (h : readText? quote s = some (t, rest)) : rest.length < s.length := by
  unfold readText? at h
  split at h
  · rename_i hs
    obtain ⟨_, rfl⟩ := by simpa using h
    exact Quoted.length_lt_of_split hs
  · simp at h

/-- A number that is read leaves a shorter text. -/
theorem length_lt_of_readNumber? {s rest : List Char} {t : Token}
    (h : readNumber? s = some (t, rest)) : rest.length < s.length := by
  obtain ⟨⟨n, r⟩, hs, hp⟩ := Option.bind_eq_some_iff.1 h
  obtain ⟨_, _, hr⟩ := Option.map_eq_some_iff.1 hp
  obtain ⟨_, rfl⟩ := by simpa using hr
  exact Numeral.length_lt_of_scan hs

/-- A token takes at least one character. -/
theorem length_lt_of_read {previous : Role} {s rest : List Char} {t : Token}
    (h : read previous s = .ok (t, rest)) : rest.length < s.length := by
  unfold read at h
  split at h
  · simp at h
  · rename_i c tail
    split at h
    · rename_i hop
      obtain ⟨_, rfl⟩ := by simpa using h
      exact length_lt_of_readOperator? hop
    · have reference {f : Reference → Token}
          (h : (readReference c tail).map (fun p => (f p.1, p.2)) = .ok (t, rest)) :
          rest.length < (c :: tail).length := by
        obtain ⟨p, hs, hp⟩ := map_eq_ok_iff.1 h
        obtain ⟨-, rfl⟩ := Prod.mk.inj hp
        exact Nat.lt_succ_of_le (length_le_of_readReference hs)
      split at h
      · obtain ⟨_, rfl⟩ := by simpa using h
        simp
      split at h
      · obtain ⟨_, rfl⟩ := by simpa using h
        simp
      split at h
      · exact reference h
      split at h
      · exact reference h
      split at h
      · cases hs : readText? c tail with
        | none => simp [hs] at h
        | some p =>
          obtain rfl : p = (t, rest) := by simpa [hs] using h
          exact Nat.lt_succ_of_lt (length_lt_of_readText? hs)
      split at h
      · cases hs : readNumber? (c :: tail) with
        | none => simp [hs] at h
        | some p =>
          obtain rfl : p = (t, rest) := by simpa [hs] using h
          exact length_lt_of_readNumber? hs
      · simp at h

/-- A token takes at least one character. -/
theorem length_lt_of_next {previous : Role} {s rest : List Char} {t : Token}
    (h : next previous s = .ok (t, rest)) : rest.length < s.length :=
  Nat.lt_of_lt_of_le (length_lt_of_read h) (length_skipBlanks_le s)

/-! ### Readings that keep their place -/

/-- Readings whose state is the text that is left. One that fails says what is at fault, and its
state is the text that was left by then. -/
abbrev Reading := ExceptT (List Char) (StateM (List Char))

/-- The token that a text begins with, which is the text that is left. The reading goes on behind a
token only when all of it was read. -/
def lexHere (previous : Role) : List Char → Reading Token
  | [] => throw []
  | c :: rest =>
    match readOperator? previous (c :: rest) with
    | some (op, after) => do
      set after
      pure (.operator op)
    | none =>
      if c = '(' then do
        set rest
        pure .opening
      else if c = ')' then do
        set rest
        pure .closing
      else if c = '@' then do
        let (reference, after) ← MonadExcept.ofExcept (readReference c rest)
        set after
        pure (.candidate reference)
      else if c = '$' then do
        let (reference, after) ← MonadExcept.ofExcept (readReference c rest)
        set after
        pure (.root reference)
      else if c = '\'' ∨ c = '"' then do
        let (t, after) ← (readText? c rest).elim (throw (c :: rest)) pure
        set after
        pure t
      else if c = '-' ∨ c.isDigit then do
        let (t, after) ← (readNumber? (c :: rest)).elim (throw (c :: rest)) pure
        set after
        pure t
      else
        throw (c :: rest)

/-- The first token behind blanks, with the text from its first character on. -/
def lex (previous : Role) : Reading (Token × List Char) := do
  modify skipBlanks
  let start ← get
  let t ← lexHere previous start
  pure (t, start)

/-- A reading finds the token that the text begins with, and stays where it is if there is none. -/
theorem lexHere_eq (previous : Role) (s : List Char) :
    (lexHere previous s).run.run s =
      match read previous s with
      | .ok (t, rest) => (.ok t, rest)
      | .error fault => (.error fault, s) := by
  cases s with
  | nil => rfl
  | cons c rest =>
    rw [read, lexHere]
    cases readOperator? previous (c :: rest) with
    | some p => rfl
    | none =>
      dsimp only
      split
      · rfl
      split
      · rfl
      split
      · cases readReference c rest <;> rfl
      split
      · cases readReference c rest <;> rfl
      split
      · cases readText? c rest <;> rfl
      split
      · cases readNumber? (c :: rest) <;> rfl
      · rfl

/-- A reading finds the first token and ends behind it, or behind the blanks if there is none. -/
theorem lex_eq (previous : Role) (s : List Char) :
    (lex previous).run.run s =
      match next previous s with
      | .ok (t, rest) => (.ok (t, skipBlanks s), rest)
      | .error fault => (.error fault, skipBlanks s) := by
  have hhere : (lex previous).run.run s =
      (lexHere previous (skipBlanks s) >>= fun t =>
        pure (t, skipBlanks s)).run.run (skipBlanks s) :=
    rfl
  rw [hhere, ExceptT.run_bind, StateT.run_bind, lexHere_eq, next]
  cases read previous (skipBlanks s) <;> rfl

end Token

/-- The tokens of a compiled filter in their order, with commas between them. -/
def Token.displayAll (tokens : List Token) : String :=
  ",".intercalate (tokens.map Token.display)

end JsonPath
