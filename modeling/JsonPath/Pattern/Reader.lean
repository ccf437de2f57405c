import JsonPath.Pattern.Bracket
import JsonPath.Text

/-!
# Reading regular expressions

A regular expression is read into a pattern in one pass. Flags hold from where they are set to the
end of their group, across alternatives. There is no looking around and there are no references to
groups.

Greedy and reluctant repetitions differ in what they take but not in whether they match, so both are
read as the same pattern. An expression is refused if it is nested too deeply, or if the pattern
would be too large with its repetitions written out.

The readers of what stands in a group call themselves for nested groups and for what follows. An
argument bounds how often they do; `ofText` derives it from the length of the expression, so that it
is never the reason for a refusal.

## Main definitions

* `readOpening`: what a parenthesis opens.
* `readCounts`: the counts of a repetition.
* `readPieces`, `readChoices`: what stands in a group.
* `Pattern.ofText`: a whole expression.
-/

namespace JsonPath

open Text

namespace Pattern

/-! ### Groups -/

/-- Whether a character may stand in the name of a group: letters of all scripts, and digits except
in front. Other characters that Unicode takes for letters, such as raised digits, are not known. -/
def isGroupName (first : Bool) (c : Char) : Bool :=
  if first then c == '_' || (words.contains c && !digits.contains c)
  else c == '.' || c == '[' || c == ']' || words.contains c

/-- The name of a group up to and with `>`, and the rest. -/
def readGroupName (taken : List (List Char)) (s : List Char) :
    Except Refusal (List Char × List Char) :=
  let name := s.takeWhile (· != '>')
  match s.dropWhile (· != '>') with
  | _ :: rest =>
    if !name.isEmpty && isGroupName true (name.headD '>') && name.tail.all (isGroupName false) &&
        !taken.contains name then
      .ok (name, rest)
    else
      .error .groupName
  | [] => .error .groupName

/-- What a parenthesis opens. -/
inductive Opening where
  /-- Nothing: it only sets flags. -/
  | flags (f : Flags)
  /-- A group, with the flags inside it. -/
  | group (f : Flags) (name : Option (List Char))

/-- What stands right after an opening parenthesis, and the rest. -/
def readOpening (f : Flags) (taken : List (List Char)) (s : List Char) :
    Except Refusal (Opening × List Char) :=
  match f.skip s with
  | '?' :: '=' :: _ => .error .unsupported
  | '?' :: '!' :: _ => .error .unsupported
  | '?' :: '<' :: '=' :: _ => .error .unsupported
  | '?' :: '<' :: '!' :: _ => .error .unsupported
  | '?' :: 'P' :: '<' :: rest =>
    (readGroupName taken rest).map fun p => (.group f (some p.1), p.2)
  | '?' :: '<' :: rest => (readGroupName taken rest).map fun p => (.group f (some p.1), p.2)
  | '?' :: rest =>
    match readFlags f [] rest with
    | .error e => .error e
    | .ok (g, ')' :: after) =>
      if rest.head? = some ')' then .error .nothingToRepeat else .ok (.flags g, after)
    | .ok (g, after) => .ok (.group g none, after.tail)
  | rest => .ok (.group f none, rest)

/-! ### Repetitions -/

/-- The digits a text begins with, and the rest; under the flags there may be blanks after each. -/
def readDigits (f : Flags) : (bound : Nat) → List Char → List Char × List Char
  | 0, s => ([], s)
  | bound + 1, s =>
    match s with
    | [] => ([], [])
    | c :: rest =>
      if c.isDigit then
        let more := readDigits f bound (f.skip rest)
        (c :: more.1, more.2)
      else
        ([], c :: rest)

/-- A count of a repetition, with blanks around it, below `2 ^ 32`. -/
def readCount (f : Flags) (s : List Char) : Except Refusal (Nat × List Char) :=
  let digits := readDigits f s.length (s.dropWhile isSpace)
  if digits.1.isEmpty || UInt32.size ≤ digitsValue digits.1 then .error .count
  else .ok (digitsValue digits.1, f.skip (digits.2.dropWhile isSpace))

/-- A question mark after a repetition makes it reluctant; the rest after it. -/
def skipReluctance : List Char → List Char
  | '?' :: rest => rest
  | s => s

/-- The counts of a repetition after the opening brace, and the rest. -/
def readCounts (f : Flags) (s : List Char) : Except Refusal (Nat × Option Nat × List Char) :=
  match f.skip s with
  | [] => .error .count
  | s =>
    match readCount f s with
    | .error e => .error e
    | .ok (least, '\x7d' :: rest) => .ok (least, some least, skipReluctance (f.skip rest))
    | .ok (least, ',' :: rest) =>
      match f.skip rest with
      | '\x7d' :: rest => .ok (least, none, skipReluctance (f.skip rest))
      | rest =>
        match readCount f rest with
        | .ok (most, '\x7d' :: rest) =>
          if least ≤ most then .ok (least, some most, skipReluctance (f.skip rest))
          else .error .count
        | _ => .error .count
    | .ok _ => .error .count

/-! ### Parts of an expression -/

/-- A part of an expression, and how deeply it is nested. -/
structure Piece where
  /-- What it describes. -/
  pattern : Pattern
  /-- How deeply it is nested. -/
  depth : Nat
  /-- Whether it can be repeated; what only sets flags cannot. -/
  repeatable : Bool

/-- The pattern of one class, which must not take a part of a character. -/
def oneOf (f : Flags) (k : CharClass) : Except Refusal Pattern :=
  if f.unicode || k.isAscii then .ok (.one k) else .error .partOfCharacter

/-- The pattern of one character, regardless of case if the flags say so. -/
def oneChar (f : Flags) (c : Char) : Pattern :=
  .one (f.finish false (.single c))

/-- What `.` stands for. -/
def anyChar (f : Flags) : Except Refusal Pattern :=
  if !f.unicode then .error .partOfCharacter
  else if f.dotAll then .ok (.one CharClass.empty.complement)
  else if f.crlf then
    .ok (.one (CharClass.table [('\n'.toNat, '\n'.toNat), ('\r'.toNat, '\r'.toNat)]).complement)
  else .ok (.one (CharClass.single '\n').complement)

/-- What an escape stands for outside a class. -/
def Primitive.toPattern (f : Flags) : Primitive → Except Refusal Pattern
  | .char c => .ok (oneChar f c)
  | .named n negated =>
    let k := n.toClass f.unicode
    oneOf f (if negated then k.complement else k)
  | .anchor a => .ok (.anchor a)

/-- A character, an escape, a point or an anchor outside a class. -/
def readPrimitive (f : Flags) (c : Char) (rest : List Char) :
    Except Refusal (Pattern × List Char) :=
  match c with
  | '\\' =>
    match readEscape f rest with
    | .error e => .error e
    | .ok (p, rest) => (p.toPattern f).map fun q => (q, rest)
  | '.' => (anyChar f).map fun q => (q, rest)
  | '^' => .ok (.anchor (if f.multiLine then .lineStart f.crlf else .start), rest)
  | '$' => .ok (.anchor (if f.multiLine then .lineStop f.crlf else .stop), rest)
  | c => .ok (oneChar f c, rest)

/-- Repeats the last of some pieces, which come in reverse order. -/
def repeatLast (least : Nat) (most : Option Nat) : List Piece → Except Refusal (List Piece)
  | p :: before =>
    if p.repeatable then .ok (⟨.times least most p.pattern, p.depth + 1, true⟩ :: before)
    else .error .nothingToRepeat
  | [] => .error .nothingToRepeat

/-- Pieces in reverse order as one piece. -/
def sequenceOf (pieces : List Piece) : Piece :=
  match pieces with
  | [] => ⟨.empty, 0, false⟩
  | [p] => p
  | p :: before =>
    ⟨before.foldl (fun q r => .sequence r.pattern q) p.pattern,
      1 + pieces.foldl (fun d r => max d r.depth) 0, true⟩

/-- Alternatives as one piece. -/
def choiceOf (choices : List Piece) : Piece :=
  match choices with
  | [] => ⟨.empty, 0, false⟩
  | [p] => p
  | p :: rest =>
    ⟨rest.foldl (fun q r => .choice q r.pattern) p.pattern,
      1 + choices.foldl (fun d r => max d r.depth) 0, true⟩

/-- How far an expression was read. -/
structure Progress where
  /-- The flags that hold from here. -/
  flags : Flags
  /-- The names of groups that are taken. -/
  taken : List (List Char)
  /-- What is left. -/
  rest : List Char

mutual

/-- Pieces up to the end of an alternative, a group or the text; `done` are those before, in reverse
order. -/
def readPieces : (bound : Nat) → (done : List Piece) → Progress →
    Except Refusal (List Piece × Progress)
  | 0, _, _ => .error .tooDeep
  | bound + 1, done, here =>
    match here.flags.skip here.rest with
    | [] => .ok (done, { here with rest := [] })
    | c :: rest =>
      match c with
      | '|' => .ok (done, { here with rest := c :: rest })
      | ')' => .ok (done, { here with rest := c :: rest })
      | '(' =>
        match readOpening here.flags here.taken rest with
        | .error e => .error e
        | .ok (.flags f, rest) =>
          readPieces bound (⟨.empty, 0, false⟩ :: done) { here with flags := f, rest := rest }
        | .ok (.group f name, rest) =>
          match readChoices bound [] ⟨f, name.toList ++ here.taken, rest⟩ with
          | .error e => .error e
          | .ok (p, inside) =>
            match inside.rest with
            | ')' :: rest =>
              readPieces bound (⟨p.pattern, p.depth + 1, true⟩ :: done)
                ⟨here.flags, inside.taken, rest⟩
            | _ => .error .group
      | '[' =>
        match readClass here.flags (rest.length + 1) rest with
        | .error e => .error e
        | .ok (k, rest) =>
          match oneOf here.flags k.toClass with
          | .error e => .error e
          | .ok p => readPieces bound (⟨p, k.depth, true⟩ :: done) { here with rest := rest }
      | '?' =>
        match repeatLast 0 (some 1) done with
        | .error e => .error e
        | .ok done => readPieces bound done { here with rest := skipReluctance rest }
      | '*' =>
        match repeatLast 0 none done with
        | .error e => .error e
        | .ok done => readPieces bound done { here with rest := skipReluctance rest }
      | '+' =>
        match repeatLast 1 none done with
        | .error e => .error e
        | .ok done => readPieces bound done { here with rest := skipReluctance rest }
      | '\x7b' =>
        match readCounts here.flags rest with
        | .error e => .error e
        | .ok (least, most, rest) =>
          match repeatLast least most done with
          | .error e => .error e
          | .ok done => readPieces bound done { here with rest := rest }
      | c =>
        match readPrimitive here.flags c rest with
        | .error e => .error e
        | .ok (p, rest) => readPieces bound (⟨p, 0, true⟩ :: done) { here with rest := rest }

/-- Alternatives up to the end of a group or the text; `done` are those before, in reverse order. -/
def readChoices : (bound : Nat) → (done : List Piece) → Progress →
    Except Refusal (Piece × Progress)
  | 0, _, _ => .error .tooDeep
  | bound + 1, done, here =>
    match readPieces bound [] here with
    | .error e => .error e
    | .ok (pieces, after) =>
      let done := sequenceOf pieces :: done
      match after.rest with
      | '|' :: rest => readChoices bound done { after with rest := rest }
      | _ => .ok (choiceOf done.reverse, after)

end

/-- How deeply expressions may be nested. -/
def maxDepth : Nat :=
  250

/-- How large a pattern may be with its repetitions written out. -/
def maxParts : Nat :=
  300000

/-- The pattern that a regular expression describes. -/
def ofText (s : List Char) : Except Refusal Pattern :=
  match readChoices (2 * s.length + 4) [] ⟨{}, [], s⟩ with
  | .error e => .error e
  | .ok (p, after) =>
    if !after.rest.isEmpty then .error .group
    else if maxDepth < p.depth then .error .tooDeep
    else if maxParts < p.pattern.parts then .error .tooLarge
    else .ok p.pattern

end Pattern

end JsonPath
