import JsonPath.Text

/-!
# The Grammar of JSON

The texts that are JSON, rule by rule and without reference to the reader. A rule is an
inductive predicate on texts; the values, the elements of an array and the members of an
object, which contain each other, are one predicate (`Grammar.Derives`) with the symbol that
is derived as an index.

A second index says how deeply containers may be nested. An array or an object lowers it by
one for what stands inside.

## Main definitions

* `Grammar.Number`, `Grammar.Characters`: the numbers, and what stands between the quotes of
  a string.
* `Grammar.Derives`: **the values**, with the lists that stand in brackets and braces.
-/

namespace JsonPath.Grammar

/-- Any number of blanks: spaces, tabs, carriage returns and line feeds. -/
def Blanks (s : List Char) : Prop :=
  ∀ c ∈ s, c = ' ' ∨ c = '\t' ∨ c = '\r' ∨ c = '\n'

/-- At least one decimal digit. -/
def Digits (s : List Char) : Prop :=
  s ≠ [] ∧ ∀ c ∈ s, c.isDigit

/-- A whole number without leading zeros. -/
inductive Whole : List Char → Prop
  | zero : Whole ['0']
  | digits {c : Char} {s : List Char} : c ≠ '0' → Digits (c :: s) → Whole (c :: s)

/-- Nothing, or a point and digits. -/
inductive Fraction : List Char → Prop
  | none : Fraction []
  | digits {s : List Char} : Digits s → Fraction ('.' :: s)

/-- Nothing, or `e` or `E`, an optional sign and digits. -/
inductive Scale : List Char → Prop
  | none : Scale []
  | digits {mark : Char} {sign s : List Char} : mark = 'e' ∨ mark = 'E' →
      sign = [] ∨ sign = ['-'] ∨ sign = ['+'] → Digits s → Scale (mark :: (sign ++ s))

/-- A number: an optional minus sign, a whole number, a fraction and an exponent. -/
inductive Number : List Char → Prop
  | mk {minus whole fraction scale : List Char} : minus = [] ∨ minus = ['-'] →
      Whole whole → Fraction fraction → Scale scale →
      Number (minus ++ whole ++ fraction ++ scale)

/-- A hexadecimal digit, in either case. -/
def HexDigit (c : Char) : Prop :=
  ('0' ≤ c ∧ c ≤ '9') ∨ ('a' ≤ c ∧ c ≤ 'f') ∨ ('A' ≤ c ∧ c ≤ 'F')

/-- What stands between the quotes of a string. Four hexadecimal digits may be a surrogate,
with or without a partner. -/
inductive Characters : List Char → Prop
  | nil : Characters []
  | plain {c : Char} {s : List Char} :
      0x20 ≤ c.toNat → c ≠ '"' → c ≠ '\\' → Characters s → Characters (c :: s)
  | escaped {c : Char} {s : List Char} :
      c ∈ ['"', '\\', '/', 'b', 'f', 'n', 'r', 't'] → Characters s → Characters ('\\' :: c :: s)
  | unicode {a b c d : Char} {s : List Char} : HexDigit a → HexDigit b → HexDigit c →
      HexDigit d → Characters s → Characters ('\\' :: 'u' :: a :: b :: c :: d :: s)

/-- The symbols that contain each other. -/
inductive Symbol where
  /-- A value. -/
  | value
  /-- The elements of an array that has any, with the commas between them. -/
  | elements
  /-- The members of an object that has any, with the commas between them. -/
  | members

/-- The texts that a symbol derives with containers nested at most so deep. -/
inductive Derives : Symbol → Nat → List Char → Prop
  | nullWord {depth : Nat} : Derives .value depth ['n', 'u', 'l', 'l']
  | trueWord {depth : Nat} : Derives .value depth ['t', 'r', 'u', 'e']
  | falseWord {depth : Nat} : Derives .value depth ['f', 'a', 'l', 's', 'e']
  | number {depth : Nat} {s : List Char} : Number s → Derives .value depth s
  | string {depth : Nat} {s : List Char} :
      Characters s → Derives .value depth ('"' :: (s ++ ['"']))
  | emptyArray {depth : Nat} {blanks : List Char} :
      Blanks blanks → Derives .value (depth + 1) ('[' :: (blanks ++ [']']))
  | array {depth : Nat} {s : List Char} :
      Derives .elements depth s → Derives .value (depth + 1) ('[' :: (s ++ [']']))
  | emptyObject {depth : Nat} {blanks : List Char} :
      Blanks blanks → Derives .value (depth + 1) ('\x7b' :: (blanks ++ ['\x7d']))
  | object {depth : Nat} {s : List Char} :
      Derives .members depth s → Derives .value (depth + 1) ('\x7b' :: (s ++ ['\x7d']))
  | element {depth : Nat} {before value after : List Char} : Blanks before →
      Derives .value depth value → Blanks after →
      Derives .elements depth (before ++ (value ++ after))
  | elements {depth : Nat} {before value after more : List Char} : Blanks before →
      Derives .value depth value → Blanks after → Derives .elements depth more →
      Derives .elements depth (before ++ (value ++ (after ++ ',' :: more)))
  | member {depth : Nat} {before key left right value after : List Char} : Blanks before →
      Characters key → Blanks left → Blanks right → Derives .value depth value → Blanks after →
      Derives .members depth
        (before ++ ('"' :: (key ++ '"' :: (left ++ ':' :: (right ++ (value ++ after))))))
  | members {depth : Nat} {before key left right value after more : List Char} :
      Blanks before → Characters key → Blanks left → Blanks right →
      Derives .value depth value → Blanks after → Derives .members depth more →
      Derives .members depth
        (before ++ ('"' :: (key ++ '"' ::
          (left ++ ':' :: (right ++ (value ++ (after ++ ',' :: more)))))))

/-- The empty text consists of blanks. -/
theorem blanks_nil : Blanks [] :=
  fun _ h => by cases h

/-- The blanks of the grammar are those that the reader skips. -/
theorem blanks_iff {s : List Char} : Blanks s ↔ ∀ c ∈ s, Text.isBlank c := by
  simp [Blanks, Text.isBlank, or_assoc]

end JsonPath.Grammar
