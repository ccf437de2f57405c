import JsonPath.Pattern.Properties

/-!
# Patterns

A pattern describes a set of places in a text. It is built from classes of characters and from
anchors, which take no character, by sequence, choice and repetition. How the letters of a regular
expression spell a pattern is left to the reader; here flags are already resolved.

## Main definitions

* `CharClass`: the classes, with `CharClass.contains`.
* `Anchor`: the anchors, with `Anchor.holds`.
* `Pattern`: the patterns.
* `Pattern.parts`: how large a pattern is with its repetitions written out.
-/

namespace JsonPath

open Text

/-- A class of characters. -/
inductive CharClass where
  /-- The characters of a table. -/
  | table (ranges : CharRanges)
  /-- All characters that are not in the class. -/
  | complement (of : CharClass)
  /-- The characters in either class. -/
  | union (left right : CharClass)
  /-- The characters in both classes. -/
  | intersection (left right : CharClass)
  /-- The characters in the first class that are not in the second. -/
  | difference (left right : CharClass)
  /-- The characters in exactly one of the classes. -/
  | symmetric (left right : CharClass)
  /-- The characters that are the same as one in the class regardless of case; `unicode` says in
  which alphabets. -/
  | folded (unicode : Bool) (of : CharClass)

namespace CharClass

/-- The class of one character. -/
def single (c : Char) : CharClass :=
  .table [(c.toNat, c.toNat)]

/-- The class without characters. -/
def empty : CharClass :=
  .table []

/-- Whether a class contains a character. -/
def contains : CharClass → Char → Bool
  | .table ranges, c => ranges.contains c
  | .complement k, c => !k.contains c
  | .union k l, c => k.contains c || l.contains c
  | .intersection k l, c => k.contains c && l.contains c
  | .difference k l, c => k.contains c && !l.contains c
  | .symmetric k l, c => k.contains c ^^ l.contains c
  | .folded unicode k, c =>
    (if unicode then Pattern.caseVariants c else Pattern.asciiVariants c).any k.contains

/-- Whether a class has no characters among the 128 codes after ASCII. -/
def isAscii (k : CharClass) : Bool :=
  (List.range 128).all fun n => !k.contains (Char.ofNat (128 + n))

/-- How many ranges a class is made of. -/
def parts : CharClass → Nat
  | .table ranges => ranges.length
  | .complement k => k.parts + 1
  | .union k l | .intersection k l | .difference k l | .symmetric k l => k.parts + l.parts
  | .folded _ k => 2 * k.parts

end CharClass

/-- A condition on the characters around a place. -/
inductive Anchor where
  /-- At the beginning of the text. -/
  | start
  /-- At the end of the text. -/
  | stop
  /-- At the beginning of a line; `crlf` says whether `\r` ends a line too. -/
  | lineStart (crlf : Bool)
  /-- At the end of a line. -/
  | lineStop (crlf : Bool)
  /-- Between a word character of a class and another character. -/
  | boundary (word : CharClass)
  /-- Not between a word character and another character. -/
  | noBoundary (word : CharClass)
  /-- Before the first character of a word. -/
  | wordStart (word : CharClass)
  /-- After the last character of a word. -/
  | wordStop (word : CharClass)
  /-- Not after a word character. -/
  | noWordBefore (word : CharClass)
  /-- Not before a word character. -/
  | noWordAfter (word : CharClass)

/-- Whether an anchor holds between two characters; there is none at the ends of the text. -/
def Anchor.holds (before after : Option Char) : Anchor → Bool
  | .start => before.isNone
  | .stop => after.isNone
  | .lineStart false => before.isNone || before == some '\n'
  | .lineStart true =>
    before.isNone || before == some '\n' || (before == some '\r' && after != some '\n')
  | .lineStop false => after.isNone || after == some '\n'
  | .lineStop true =>
    after.isNone || after == some '\r' || (after == some '\n' && before != some '\r')
  | .boundary word => before.any word.contains != after.any word.contains
  | .noBoundary word => before.any word.contains == after.any word.contains
  | .wordStart word => !before.any word.contains && after.any word.contains
  | .wordStop word => before.any word.contains && !after.any word.contains
  | .noWordBefore word => !before.any word.contains
  | .noWordAfter word => !after.any word.contains

/-- A pattern of a text. -/
inductive Pattern where
  /-- No character at all. -/
  | empty
  /-- One character of a class. -/
  | one (of : CharClass)
  /-- A place where an anchor holds. -/
  | anchor (a : Anchor)
  /-- One pattern after another. -/
  | sequence (first second : Pattern)
  /-- Either of two patterns. -/
  | choice (first second : Pattern)
  /-- A pattern several times over, at least and at most so often. -/
  | times (least : Nat) (most : Option Nat) (of : Pattern)

namespace Pattern

/-- Whether a pattern can only take no characters at all. -/
def takesNothing : Pattern → Bool
  | .empty => true
  | .one _ => false
  | .anchor _ => true
  | .sequence p q => p.takesNothing && q.takesNothing
  | .choice p q => p.takesNothing && q.takesNothing
  | .times _ most p => most == some 0 || p.takesNothing

/-- How large a pattern is once its repetitions are written out. What takes nothing is written once
at most, however often it is repeated. -/
def parts : Pattern → Nat
  | .empty => 1
  | .one k => k.parts + 1
  | .anchor _ => 1
  | .sequence p q => p.parts + q.parts
  | .choice p q => p.parts + q.parts + 1
  | .times least most p =>
    if most = some 0 then 1
    else if p.takesNothing then p.parts + 1
    else max 1 (max least (most.getD 1)) * p.parts + 1

end Pattern

end JsonPath
