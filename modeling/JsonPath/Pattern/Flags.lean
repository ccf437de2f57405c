import JsonPath.Pattern.Basic

/-!
# Flags of regular expressions

Flags change how the rest of a group is read. In verbose mode blanks and comments may stand between
the parts, also between the digits of a number, so all that reads more than one character asks the
flags what counts for nothing.

## Main definitions

* `Refusal`: why an expression is refused, with its wording.
* `Flags`: the flags, with `Flags.skip`.
* `Flags.finish`: a class as the flags and a `^` change it.
* `readFlags`: flags as they are written.
-/

namespace JsonPath

open Text

namespace Pattern

/-- Why a regular expression is refused. -/
inductive Refusal where
  /-- A group is opened and not closed, or closed and not opened. -/
  | group
  /-- A class is not closed. -/
  | unclosedClass
  /-- Something in a class cannot stand there, or a range is empty. -/
  | classItem
  /-- A repetition has nothing to repeat. -/
  | nothingToRepeat
  /-- The counts of a repetition are malformed. -/
  | count
  /-- There is no such escape. -/
  | escape
  /-- A flag is unknown or repeated. -/
  | flag
  /-- The name of a group is malformed or taken. -/
  | groupName
  /-- Looking around and references to groups are not supported. -/
  | unsupported
  /-- The expression could match a part of a character. -/
  | partOfCharacter
  /-- The expression is nested too deeply. -/
  | tooDeep
  /-- The expression is too large with its repetitions written out. -/
  | tooLarge
  deriving DecidableEq, Repr

/-- The wording of a refusal. -/
def Refusal.message : Refusal → String
  | .group => "unbalanced group"
  | .unclosedClass => "unclosed character class"
  | .classItem => "invalid character class"
  | .nothingToRepeat => "repetition operator missing expression"
  | .count => "invalid repetition count"
  | .escape => "unrecognized escape sequence"
  | .flag => "invalid flag"
  | .groupName => "invalid capture group name"
  | .unsupported => "look-around and backreferences are not supported"
  | .partOfCharacter => "pattern can match invalid UTF-8"
  | .tooDeep => "expression is nested too deeply"
  | .tooLarge => "compiled expression exceeds the size limit"

/-- The flags of a regular expression. -/
structure Flags where
  /-- Letters are taken regardless of case, `i`. -/
  ignoreCase : Bool := false
  /-- `^` and `$` hold at every line, `m`. -/
  multiLine : Bool := false
  /-- `.` takes the ends of lines too, `s`. -/
  dotAll : Bool := false
  /-- `\r` ends a line too, `R`. -/
  crlf : Bool := false
  /-- Classes are those of Unicode, `u`. -/
  unicode : Bool := true
  /-- Blanks and comments count for nothing, `x`. -/
  verbose : Bool := false

/-! ### What counts for nothing -/

/-- Whether a character is a blank. -/
def isSpace (c : Char) : Bool :=
  blanks.contains c

/-- What is left after blanks and comments; a comment goes from `#` to the end of the line. -/
def skipComments (inComment : Bool) : List Char → List Char
  | [] => []
  | c :: rest =>
    if inComment then skipComments (c != '\n') rest
    else if isSpace c then skipComments false rest
    else if c = '#' then skipComments true rest
    else c :: rest

/-- What is left after what counts for nothing under the flags. -/
def Flags.skip (f : Flags) (s : List Char) : List Char :=
  if f.verbose then skipComments false s else s

/-- Closes a class under case and complements it, as asked. -/
def Flags.finish (f : Flags) (negated : Bool) (k : CharClass) : CharClass :=
  let folded := if f.ignoreCase then k.folded f.unicode else k
  if negated then folded.complement else folded

/-! ### Flags as they are written -/

/-- Sets or clears the flag with a letter. -/
def Flags.set? (f : Flags) (value : Bool) : Char → Option Flags
  | 'i' => some { f with ignoreCase := value }
  | 'm' => some { f with multiLine := value }
  | 's' => some { f with dotAll := value }
  | 'R' => some { f with crlf := value }
  | 'u' => some { f with unicode := value }
  | 'x' => some { f with verbose := value }
  | 'U' => some f
  | _ => none

/-- Flags up to `:` or `)`, and the rest from there. `seen` holds the characters that were read;
each letter and the minus sign may come once, and a letter has to follow the minus sign. -/
def readFlags (f : Flags) (seen : List Char) : List Char → Except Refusal (Flags × List Char)
  | [] => .error .flag
  | c :: rest =>
    if c = ':' ∨ c = ')' then
      if seen.head? = some '-' then .error .flag else .ok (f, c :: rest)
    else if seen.contains c then
      .error .flag
    else if c = '-' then
      readFlags f (c :: seen) rest
    else
      match f.set? (!seen.contains '-') c with
      | some f => readFlags f (c :: seen) rest
      | none => .error .flag

end Pattern

end JsonPath
