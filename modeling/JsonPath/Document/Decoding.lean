import JsonPath.Document.Node
import JsonPath.Environment
import JsonPath.Error
import JsonPath.Filter.Reference

/-!
# The text of a value

A string stands for the characters between its quotes if there is no escape among them, and
otherwise for what the environment decodes it to. The empty text is the text of `null`; every other
value is its own text.

## Main definitions

* `Site.decode`: the text of a value.
* `Site.child?`, `Site.resolve?`: the value a step or a reference leads to.

## Main results

* `Document.decodeAt_of_plain`: a string without escapes stands for itself.
-/

namespace JsonPath

open Text

namespace Document

/-- The characters of a string that begins at a byte offset. -/
def decodeAt (env : Environment) (start : Nat) (body : List Char) : Except Error (List Char) :=
  if '\\' ∈ body then (env.decode body).mapError (.document start) else .ok body

/-- A string without escapes stands for itself. -/
theorem decodeAt_of_plain (env : Environment) (start : Nat) {body : List Char} (h : '\\' ∉ body) :
    decodeAt env start body = .ok body :=
  if_neg h

end Document

namespace Site

/-- The text of a value: what a string stands for, nothing for `null`, and every other value as it
is written. -/
def decode (env : Environment) (s : Site) : Except Error (List Char) :=
  match s.node with
  | .string body => Document.decodeAt env s.start body
  | .null => .ok []
  | _ => .ok s.text

end Site

/-- The name of a member. -/
def MemberSite.name (env : Environment) (m : MemberSite) : Except Error (List Char) :=
  Document.decodeAt env m.keyStart m.key

/-- The first member with a name; the members before it must have names that can be decoded. -/
def findMember (env : Environment) (name : List Char) : List MemberSite → Except Error (Option Site)
  | [] => .ok none
  | m :: rest =>
    match m.name env with
    | .error e => .error e
    | .ok found => if found = name then .ok (some m.value) else findMember env name rest

namespace Site

/-- The value one step below, if there is one. -/
def child? (env : Environment) (s : Site) : Step → Except Error (Option Site)
  | .name name => findMember env name.toList s.members
  | .index position => .ok s.elements[position]?

/-- The value that steps lead to, if they lead to one. -/
def resolve? (env : Environment) (s : Site) : List Step → Except Error (Option Site)
  | [] => .ok (some s)
  | step :: steps =>
    match s.child? env step with
    | .error e => .error e
    | .ok none => .ok none
    | .ok (some next) => next.resolve? env steps

end Site

end JsonPath
