import JsonPath.Document.Escapes
import JsonPath.Document.Node
import JsonPath.Document.Reader
import JsonPath.Document.Rescaled

/-!
# Documents with indentation

A container can be written anew: every child on a line of its own, two spaces further in than the
brackets, an empty container in two characters. Of members with the same key the last one counts,
and keys come in the order of their characters. Strings have only the escapes they need.

Not every document can be written anew: containers must be nested less than 128 deep, strings must
have no surrogates without a partner, and numbers must not be beyond the doubles.

## Main definitions

* `encode`: the body of a string that stands for given characters.
* `Node.indented?`: the new text of a value.
* `Document.indent`: the new text of a container, any other text as it is.
-/

namespace JsonPath

open Text

namespace Document

/-- An escape by code, for a control character. -/
def controlEscape (c : Char) : List Char :=
  let ds := Nat.toDigits 16 c.toNat
  ['\\', 'u'] ++ List.replicate (4 - ds.length) '0' ++ ds

/-- How a character is written in a string. -/
def encodeChar (c : Char) : List Char :=
  match c with
  | '"' => ['\\', '"']
  | '\\' => ['\\', '\\']
  | '\x08' => ['\\', 'b']
  | '\x0c' => ['\\', 'f']
  | '\n' => ['\\', 'n']
  | '\r' => ['\\', 'r']
  | '\t' => ['\\', 't']
  | c => if c < ' ' then controlEscape c else [c]

/-- The body of a string that stands for given characters, with only the escapes it needs. -/
def encode (s : List Char) : List Char :=
  s.flatMap encodeChar

/-- A new line, and the spaces that a level of nesting begins with. -/
def newLine (level : Nat) : List Char :=
  '\n' :: List.replicate (2 * level) ' '

/-- The parts of a container between its brackets, each on a line of its own. -/
def enclose (opening closing : Char) (level : Nat) (parts : List (List Char)) : List Char :=
  if parts.isEmpty then
    [opening, closing]
  else
    opening :: ([','].intercalate (parts.map (newLine (level + 1) ++ ·)) ++
      newLine level ++ [closing])

/-- Whether one text comes before another, by the code points of the first characters that
differ. -/
def precedes : List Char → List Char → Bool
  | _, [] => false
  | [], _ :: _ => true
  | c :: s, d :: t => c < d || (c == d && precedes s t)

/-- Puts a member among members in the order of their keys, in place of one with the same key. -/
def insertMember (key text : List Char) :
    List (List Char × List Char) → List (List Char × List Char)
  | [] => [(key, text)]
  | (k, t) :: rest =>
    if k = key then (key, text) :: rest
    else if precedes key k then (key, text) :: (k, t) :: rest
    else (k, t) :: insertMember key text rest

/-- The members in the order of their keys, the last one of those with the same key. -/
def sortMembers (members : List (List Char × List Char)) : List (List Char × List Char) :=
  members.foldl (fun sorted m => insertMember m.1 m.2 sorted) []

/-- The text of a member. -/
def memberText (m : List Char × List Char) : List Char :=
  quoted (encode m.1) ++ ':' :: ' ' :: m.2

end Document

open Document

mutual

/-- The new text of a value at a level of nesting, if it can be written anew. -/
def Node.indented? (level : Nat) : Node → Option (List Char)
  | .null => some "null".toList
  | .bool value => some (Node.bool value).text
  | .number numeral => (Rewritten.ofNumeral? numeral).map Rewritten.text
  | .string body => (decode body).toOption.map fun s => quoted (encode s)
  | .array items => (items.indented? (level + 1)).map (enclose '[' ']' level)
  | .object members =>
    (members.indented? (level + 1)).map fun ms =>
      enclose '\x7b' '\x7d' level ((sortMembers ms).map memberText)

/-- The new texts of the elements. -/
def Items.indented? (level : Nat) : Items → Option (List (List Char))
  | .close _ => some []
  | .item _ value rest => do
    let text ← value.indented? level
    let texts ← rest.indented? level
    some (text :: texts)

/-- The keys and the new texts of the members. -/
def Members.indented? (level : Nat) : Members → Option (List (List Char × List Char))
  | .close _ => some []
  | .member _ key _ value rest => do
    let name ← (decode key).toOption
    let text ← value.indented? level
    let members ← rest.indented? level
    some ((name, text) :: members)

end

namespace Document

/-- The depth from which on a document is not written anew. -/
def indentDepth : Nat :=
  128

/-- The text of a container written anew, if it can be; any other text as it is. -/
def indent (text : String) : String :=
  match read text.toList with
  | .error _ => text
  | .ok (_, value) =>
    if value.isContainer && value.depth < indentDepth then
      (value.indented? 0).elim text String.ofList
    else
      text

end Document

end JsonPath
