/-!
# The operators of a filter

Operators bind by precedence, a small number more tightly than a large one. `!` stands before its
one operand; every other operator stands between two. The `Role` of a part of a filter is what it is
for its neighbours: it decides which parts may follow, and whether a `-` is an operator or a sign.

## Main results

* `Operator.ofSymbol?_symbol`: an operator is known by its symbol.
-/

namespace JsonPath

/-- What a part of a filter is for the parts beside it. -/
inductive Role where
  /-- A parenthesis, or the beginning of the filter. -/
  | none
  /-- Something with a value. -/
  | operand
  /-- An operator before its operand. -/
  | unary
  /-- An operator between its operands. -/
  | binary
  deriving DecidableEq, Repr

/-- The operators of a filter. -/
inductive Operator where
  /-- Addition, `+`. -/
  | add
  /-- Subtraction, `-`. -/
  | subtract
  /-- Multiplication, `*`. -/
  | multiply
  /-- Division, `/`. -/
  | divide
  /-- Equality, `==`. -/
  | equal
  /-- Inequality, `!=`. -/
  | notEqual
  /-- Above, `>`. -/
  | greater
  /-- Above or equal, `>=`. -/
  | greaterEqual
  /-- Below, `<`. -/
  | less
  /-- Below or equal, `<=`. -/
  | lessEqual
  /-- Negation, `!`. -/
  | not
  /-- Conjunction, `&&`. -/
  | and
  /-- Disjunction, `||`. -/
  | or
  /-- Search by a regular expression, `=~`. -/
  | search
  deriving DecidableEq, Repr

namespace Operator

/-- All operators. -/
def all : List Operator :=
  [.add, .subtract, .multiply, .divide, .equal, .notEqual, .greater, .greaterEqual, .less,
    .lessEqual, .not, .and, .or, .search]

/-- How loosely an operator binds: a smaller number binds more tightly. -/
def precedence : Operator → Nat
  | .not => 2
  | .multiply | .divide => 3
  | .add | .subtract => 4
  | .greater | .greaterEqual | .less | .lessEqual => 6
  | .equal | .notEqual | .search => 7
  | .and => 11
  | .or => 12

/-- Whether an operator stands before one operand or between two. -/
def role : Operator → Role
  | .not => .unary
  | _ => .binary

/-- The symbol an operator is written with. -/
def symbol : Operator → String
  | .add => "+"
  | .subtract => "-"
  | .multiply => "*"
  | .divide => "/"
  | .equal => "=="
  | .notEqual => "!="
  | .greater => ">"
  | .greaterEqual => ">="
  | .less => "<"
  | .lessEqual => "<="
  | .not => "!"
  | .and => "&&"
  | .or => "||"
  | .search => "=~"

/-- The operator with a symbol. -/
def ofSymbol? (s : String) : Option Operator :=
  all.find? fun op => op.symbol == s

/-- Every operator is read back from its symbol. -/
theorem ofSymbol?_symbol (op : Operator) : ofSymbol? op.symbol = some op := by
  cases op <;> decide

end Operator

end JsonPath
