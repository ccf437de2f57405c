import JsonPath.Pattern.Matching
import JsonPath.Pattern.Reader

/-!
# Searching texts

A regular expression is searched for anywhere in a text. The search fails if the expression cannot
be read, and then for every text. This is the search of the program; queries take any other as well.

## Main definitions

* `Pattern.search?`: the search.
-/

namespace JsonPath.Pattern

/-- Whether a text contains what a regular expression describes. -/
def search? (expression text : List Char) : Except Refusal Bool :=
  (ofText expression).map fun p => p.occursIn text

end JsonPath.Pattern
