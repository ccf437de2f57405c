import JsonPath.Document.Decoding
import JsonPath.Filter.Token
import JsonPath.Operand.Conversion
import JsonPath.Operand.Order

/-!
# Evaluating filters

A filter in postfix order is run on a stack of operands: a literal or a reference puts one on it, an
operator takes its operands off and puts the result on. A filter holds for a candidate if exactly
one operand is left and counts as true. Whatever else happens on the way makes it an error, with one
exception: a filter that refers to the candidate holds for no candidate that is not a container, and
the first such reference decides that.

Both sides of `&&` and `||` are always evaluated. A number that cannot be had makes the outcome of
arithmetic no value; a text that cannot be had is found by no search.

How a text is searched for a regular expression is up to the environment, which also decodes the
strings that references lead to.

## Main definitions

* `applyBinary`: an operator on two operands.
* `Filter.step`: one token on the stack.
* `Filter.holds`: whether a filter holds for a candidate.
-/

namespace JsonPath

/-- A truth value as an operand: one or zero. -/
def truth (b : Bool) : Operand :=
  .double (if b then .ofNat 1 else .zero false)

/-- Arithmetic on the doubles that two operands convert to. -/
def arithmetic (f : Binary64 → Binary64 → Binary64) (left right : Operand) : Operand :=
  match left.toDouble?, right.toDouble? with
  | some x, some y => .double (f x y)
  | _, _ => .absent

/-- Whether the text of one operand contains what the other, a regular expression, describes. -/
def searchText (env : Environment) (left right : Operand) : Except Error Operand :=
  match left.toText?, right.toText? with
  | some text, some pattern =>
    match env.search pattern.toList text.toList with
    | .ok found => .ok (truth found)
    | .error reason => .error (.pattern reason)
  | _, _ => .ok (truth false)

/-- An operator between two operands. `!` does not stand between operands, so there is no result. -/
def applyBinary (env : Environment) (op : Operator) (left right : Operand) :
    Option (Except Error Operand) :=
  match op with
  | .add => some (.ok (arithmetic .add left right))
  | .subtract => some (.ok (arithmetic .sub left right))
  | .multiply => some (.ok (arithmetic .mul left right))
  | .divide => some (.ok (arithmetic .div left right))
  | .equal => some (.ok (truth (left.compare right == .eq)))
  | .notEqual => some (.ok (truth (left.compare right != .eq)))
  | .greater => some (.ok (truth (left.compare right == .gt)))
  | .greaterEqual => some (.ok (truth (left.compare right != .lt)))
  | .less => some (.ok (truth (left.compare right == .lt)))
  | .lessEqual => some (.ok (truth (left.compare right != .gt)))
  | .and => some (.ok (truth (left.isTruthy && right.isTruthy)))
  | .or => some (.ok (truth (left.isTruthy || right.isTruthy)))
  | .search => some (searchText env left right)
  | .not => none

/-- The text of the value that a reference leads to; no value if it leads to none. -/
def Reference.value (env : Environment) (reference : Reference) (base : Site) :
    Except Error Operand :=
  match base.resolve? env reference.steps with
  | .error e => .error e
  | .ok none => .ok .absent
  | .ok (some found) => (found.decode env).map fun s => .text (String.ofList s)

namespace Filter

/-- How the evaluation of a filter comes to an end before its last token. -/
inductive Halt where
  /-- The filter refers to a candidate that is no container. -/
  | rejected
  /-- An operator lacks an operand. -/
  | unevaluable
  /-- Something went wrong. -/
  | failed (e : Error)

/-- An outcome put on the stack. -/
def push (stack : List Operand) : Except Error Operand → Except Halt (List Operand)
  | .ok v => .ok (v :: stack)
  | .error e => .error (.failed e)

/-- An operator takes its operands off the stack and puts its result on. -/
def stepOperator (env : Environment) (op : Operator) (stack : List Operand) :
    Except Halt (List Operand) :=
  match op.role, stack with
  | .unary, v :: stack => .ok (truth (!v.isTruthy) :: stack)
  | .binary, right :: left :: stack =>
    match applyBinary env op left right with
    | some result => push stack result
    | none => .error .unevaluable
  | _, _ => .error .unevaluable

/-- One token of a filter on the stack; the top of the stack comes first. -/
def step (env : Environment) (root candidate : Site) (stack : List Operand) (token : Token) :
    Except Halt (List Operand) :=
  match token with
  | .operator op => stepOperator env op stack
  | .root reference => push stack (reference.value env root)
  | .candidate reference =>
    if candidate.node.isContainer then push stack (reference.value env candidate)
    else .error .rejected
  | .text s => .ok (.text s :: stack)
  | .number literal => .ok (.double literal.value :: stack)
  | .opening | .closing => .ok stack

/-- The stack after all tokens. -/
def run (env : Environment) (root candidate : Site) (stack : List Operand) (tokens : List Token) :
    Except Halt (List Operand) :=
  match tokens with
  | [] => .ok stack
  | t :: tokens =>
    match step env root candidate stack t with
    | .error halt => .error halt
    | .ok stack => run env root candidate stack tokens

/-- Whether a filter in postfix order holds for a candidate, with `$` standing for the root. -/
def holds (env : Environment) (tokens : List Token) (root candidate : Site) : Except Error Bool :=
  match run env root candidate [] tokens with
  | .ok [result] => .ok result.isTruthy
  | .ok _ => .error (.unevaluable (Token.displayAll tokens))
  | .error .rejected => .ok false
  | .error .unevaluable => .error (.unevaluable (Token.displayAll tokens))
  | .error (.failed e) => .error e

end Filter

end JsonPath
