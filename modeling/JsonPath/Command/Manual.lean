/-!
# The manual

The pages that the command line shows: an overview, and a page each for paths, filters, functions
and values. A page goes by several names, in any case.

## Main definitions

* `Manual.overview`: the overview.
* `Manual.Page`: the other pages, with `Page.ofName?` and `Page.text`.
-/

namespace JsonPath.Manual

/-- The pages of the manual besides the overview. -/
inductive Page where
  /-- Selecting values. -/
  | paths
  /-- Selecting children by a predicate. -/
  | filters
  /-- Functions at the end of a path. -/
  | functions
  /-- How operands compare and convert. -/
  | values
  deriving DecidableEq, Repr

/-- The page with a name, in any case. -/
def Page.ofName? (name : String) : Option Page :=
  let lower := String.ofList (name.toList.map Char.toLower)
  if ["paths", "path", "syntax"].contains lower then some .paths
  else if ["filters", "filter", "operators"].contains lower then some .filters
  else if ["functions", "function", "aggregates"].contains lower then some .functions
  else if ["values", "types", "coercion"].contains lower then some .values
  else none

/-- What there is to read, and paths at a glance. -/
def overview : String :=
  "PATHWISE DOCUMENTATION

pathwise compiles JSONPath expressions and runs them against JSON text.
Paths start with $ (the root document) and chain segments that select
members, elements, slices, filtered children or aggregates.

DOCUMENTATION CATEGORIES

  paths             Dot and bracket notation, wildcards, slices, recursive descent
  filters           [?( ... )] predicates: references, literals and operators
  functions         Trailing aggregates: min, max, avg, sum, length, first
  values            How filter operands are compared and converted

QUICK REFERENCE

  $.a.b             Member access
  $['a'][\"b\"]       Bracket notation
  $[0]  $[-1]       Element index (negative counts from the end)
  $[1:3]  $[-2:]    Slice
  $.*  $[*]         Wildcard
  $..name           Recursive descent
  $[?(@.x > 1)]     Filter
  $[*].x.sum()      Aggregate

Run 'pathwise doc <category>' for detailed documentation.
Run 'pathwise explain <PATH>' to see how a path compiles.
"

/-- The page on paths. -/
def paths : String :=
  "PATHS - Selecting Values

ROOT
  $
    Every path starts with $. A bare $ is rejected: at least one segment
    must follow.

MEMBER ACCESS
  $.name            letters, digits and underscores only
  $['name']         any name; \\' and \\\\ are the only escapes
  $[\"a\", 'b']       several names at once

    Example:
      Input:  \x7b\"user\": \x7b\"name\": \"Alice\"\x7d\x7d
      Path:   $.user.name
      Output: Alice

ELEMENT ACCESS
  $[0]              first element
  $[-1]             last element
  $[0, 2]           several indices

SLICES
  $[start:end]
    Half-open range. Either bound may be omitted; negative bounds count
    from the end.

    Example:
      Input:  [10, 20, 30, 40]
      Path:   $[-2:]
      Output: [30,40]

WILDCARD
  $.*   $[*]        every member or element

RECURSIVE DESCENT
  $..name   $..[0]   $..*
    Applies the next segment at every depth below the current node.
    Results follow document order.

RESULT SHAPE
  A path is definite when every segment picks at most one child. Definite
  paths return the value itself (strings without quotes). All other paths
  return a JSON array of the matches. No match is an empty result, not an
  error.
"

/-- The page on filters. -/
def filters : String :=
  "FILTERS - Selecting Children by Predicate

SYNTAX
  [?( expression )]
    Keeps each child for which the expression is true.

OPERANDS
  @.field   @['a'][0]   @     the child being tested
  $.limit                      a value from the document root
  'text'   \"text\"              string literal
  42   -1.5   2e3              number literal

  References take names and non-negative indices only. A missing
  reference is an empty operand that compares below everything else.

OPERATORS (tightest first)
  !                  not
  *  /               multiply, divide
  +  -               add, subtract
  <  <=  >  >=       relational
  ==  !=  =~         equality and regular expression match
  &&                 and
  ||                 or

    Example:
      Input:  [\x7b\"x\": 1\x7d, \x7b\"x\": 2\x7d, \x7b\"x\": 3\x7d]
      Path:   $[?(@.x > 1)]
      Output: [\x7b\"x\": 2\x7d,\x7b\"x\": 3\x7d]

REGULAR EXPRESSIONS
  @.name =~ '^A.*'
    Unanchored search. The pattern is the right-hand operand.
"

/-- The page on functions. -/
def functions : String :=
  "FUNCTIONS - Aggregates

  .length()    number of values
  .first()     first value
  .min()  .max()  .sum()  .avg()
               numeric aggregates; every value must be a number

    Example:
      Input:  \x7b\"prices\": [1, 2, 4]\x7d
      Path:   $.prices.avg()
      Output: 2.333333

INPUT
  On a definite path the function applies to the elements of the one array
  the path selects. Otherwise it applies to the list of matches.

CHAINING
  $.a.first().length()
    Each function feeds its single result to the next. Only functions may
    follow a function.

ERRORS
  - min/max/sum/avg of nothing
  - a value that is not a number
  - a definite path that does not select an array
"

/-- The page on values. -/
def values : String :=
  "VALUES - Comparison and Conversion

Filter operands are scalar values: none, unsigned integer, double, string
or binary.

ORDERING
  none < everything else
  binary > everything else
  numbers and numeric strings compare as doubles, equal within 0.000001
  anything else compares as text

CONVERSION
  text to number     trailing newlines, leading zeros and one '+' are
                     dropped before parsing
  double to integer  fails for negative values
  double to text     six decimals, trailing zeros removed

TRUTH
  non-zero numbers and non-empty strings are true; none is false
"

/-- The text of a page. -/
def Page.text : Page → String
  | .paths => Manual.paths
  | .filters => Manual.filters
  | .functions => Manual.functions
  | .values => Manual.values

end JsonPath.Manual
