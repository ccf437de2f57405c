/-!
# What a query leaves to others

Two things are not decided here: what a regular expression describes, and what a JSON string with
escapes stands for. A query is given both with its environment, as functions of which nothing is
assumed. A theorem that needs something of one of them says so in a hypothesis.

## Main definitions

* `Search`: a way to search texts for regular expressions.
* `Decoder`: a way to decode strings.
* `Environment`: one of each.
-/

namespace JsonPath

/-- A way to search texts: whether some part of a text, which comes second, is what a regular
expression describes, or the reason why that is no regular expression. -/
abbrev Search := List Char → List Char → Except String Bool

/-- A way to decode strings: the characters that a string with escapes stands for, given what is
written between its quotes, or the reason why it stands for none. -/
abbrev Decoder := List Char → Except String (List Char)

/-- What a query leaves to others. -/
structure Environment where
  /-- How texts are searched for regular expressions. -/
  search : Search
  /-- How strings with escapes are decoded. -/
  decode : Decoder

end JsonPath
