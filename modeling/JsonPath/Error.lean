import JsonPath.Text

/-!
# What can go wrong

Reading a path, reading a document and evaluating a query fail with a value of one type, `Error`.
Each constructor is a cause; its wording is `Error.message` and nothing else. An error about a place
in a text carries the byte offset of that place.

Readers of paths hold only the rest of the path; what they find is a `Fault`, and `Fault.report`
turns it into an error by counting the bytes that were read.

## Main definitions

* `Error`: the causes, with `Error.message` and `Error.position?`.
* `Fault`: what a reader of a path finds, with `Fault.report`.
-/

namespace JsonPath

/-- Why a path could not be read or a query could not be evaluated. -/
inductive Error where
  /-- The path does not begin with `$`, or nothing follows. -/
  | missingRoot
  /-- The path cannot be read from `position` on; `fragment` is what stands there. -/
  | unparsable (position : Nat) (fragment : String)
  /-- The parentheses of a filter do not pair up. -/
  | unbalanced (position : Nat) (expression : String)
  /-- The path calls a function that does not exist. -/
  | unsupported (position : Nat) (construct : String)
  /-- A filter has an operator without an operand or operands without an operator. -/
  | unevaluable (expression : String)
  /-- A function cannot be applied to what the path selects. -/
  | functionInput (reason : String)
  /-- The right-hand side of a match is no regular expression. -/
  | pattern (reason : String)
  /-- The document is not JSON at `position`. -/
  | document (position : Nat) (reason : String)
  deriving DecidableEq, Repr

namespace Error

/-- The path cannot be read from a byte offset on. Nothing stands at an offset that is past the end
of the text or inside a character of it. -/
def unparsableAt (text : String) (position : Nat) : Error :=
  .unparsable position (String.ofList ((Text.dropBytes? position text.toList).getD []))

/-- The wording of an error. -/
def message : Error → String
  | .missingRoot => "JSONPath query must start with the root object/element $."
  | .unparsable _ fragment =>
    if fragment.isEmpty then
      "jsonpath was unexpectedly terminated"
    else
      "unsupported construct in jsonpath starting with: \"" ++ fragment ++ "\""
  | .unbalanced _ expression => "mismatched () brackets in expression: " ++ expression
  | .unsupported _ construct => "unsupported construct in jsonpath: \"" ++ construct ++ "\""
  | .unevaluable expression => "invalid compiled expression: " ++ expression
  | .functionInput reason => reason
  | .pattern reason => "invalid regular expression in JSON path: " ++ reason
  | .document position reason =>
    "invalid JSON at position " ++ position.repr ++ ": " ++ reason

/-- The byte offset an error is about: in the path, or in the document if that is at fault. -/
def position? : Error → Option Nat
  | .missingRoot => some 0
  | .unparsable position _ => some position
  | .unbalanced position _ => some position
  | .unsupported position _ => some position
  | .document position _ => some position
  | _ => none

/-- Whether the text of the path is malformed. A call of an unknown function is well formed. -/
def isMalformedPath : Error → Bool
  | .missingRoot => true
  | .unparsable .. => true
  | .unbalanced .. => true
  | _ => false

end Error

/-- What a reader of a path finds at fault. The place is given as the rest of the path from
there. -/
inductive Fault where
  /-- There is no root, or nothing after it. -/
  | missingRoot
  /-- Nothing that may stand here does. -/
  | unparsable (rest : List Char)
  /-- The parentheses of the filter that begins here do not pair up. -/
  | unbalanced (rest expression : List Char)
  /-- The function called here does not exist. -/
  | unsupported (rest construct : List Char)
  deriving DecidableEq, Repr

/-- The error that a fault in a path is reported as. -/
def Fault.report (path : List Char) : Fault → Error
  | .missingRoot => .missingRoot
  | .unparsable rest => .unparsable (Text.offsetIn path rest) (String.ofList rest)
  | .unbalanced rest expression =>
    .unbalanced (Text.offsetIn path rest) (String.ofList expression)
  | .unsupported rest construct =>
    .unsupported (Text.offsetIn path rest) (String.ofList construct)

end JsonPath
