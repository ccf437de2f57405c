import JsonPath.Document.Decoding
import JsonPath.Document.Reader
import JsonPath.Operand
import JsonPath.Path.Segment

/-!
# Functions

A function turns values into one text. On a definite path the values are the elements of the one
array that the path leads to, otherwise the values the path leads to. A further function works on
the text of the one before, which has to be an array again.

The numeric functions read each value as a double, in order, and stop at the first that is none; the
smallest and the largest number are the first of their size.

## Main definitions

* `Unfit`: why a function cannot be applied, with its wording.
* `Aggregate.onItems`: a function on values.
* `Aggregate.apply`, `applyAll`: a function on what a path leads to, and a chain of them.

## Main results

* `length_functionsOf`: every segment that is a function is applied.
-/

namespace JsonPath

/-- Why a function cannot be applied. -/
inductive Unfit where
  /-- The one value is not an array. -/
  | notArray
  /-- There is no value to compute with. -/
  | noValues
  /-- A value is not a number. -/
  | notNumber (text : List Char)
  /-- The result is not a finite number. -/
  | notFinite (text : List Char)
  deriving DecidableEq, Repr

/-- The wording of why a function cannot be applied. -/
def Unfit.message : Unfit → String
  | .notArray => "cannot apply function to non-array JSON element"
  | .noValues => "cannot apply aggregation function to empty array"
  | .notNumber text => "array value is not a number starting with: " ++ String.ofList text
  | .notFinite text => "invalid function result: " ++ String.ofList text

/-- The error that an unfit input is reported as. -/
def Unfit.error (u : Unfit) : Error :=
  .functionInput u.message

/-- The text of a finite result. -/
def resultText (x : Binary64) : Except Error (List Char) :=
  if x.isFinite then .ok (doubleText x)
  else .error (Unfit.notFinite (x.toFixed 0)).error

/-- The number that a value stands for. -/
def Site.number (env : Environment) (s : Site) : Except Error Binary64 :=
  if s.node.isContainer then
    .error (Unfit.notNumber s.text).error
  else
    match s.decode env with
    | .error e => .error e
    | .ok text =>
      match numberOf? text with
      | some x => .ok x
      | none => .error (Unfit.notNumber s.text).error

namespace Aggregate

/-- What a numeric function has so far and one more number. -/
def combine (function : Aggregate) (result x : Binary64) : Binary64 :=
  match function with
  | .min => if x.lt result then x else result
  | .max => if result.lt x then x else result
  | .sum | .avg => result.add x
  | .length | .first => result

/-- A numeric function on the numbers of values, from a first number on. -/
def foldNumbers (env : Environment) (function : Aggregate) (result : Binary64) :
    List Site → Except Error Binary64
  | [] => .ok result
  | s :: rest =>
    match s.number env with
    | .error e => .error e
    | .ok x => foldNumbers env function (function.combine result x) rest

/-- A numeric function on values. -/
def onNumbers (env : Environment) (function : Aggregate) : List Site → Except Error (List Char)
  | [] => .error Unfit.noValues.error
  | s :: rest =>
    match s.number env with
    | .error e => .error e
    | .ok x =>
      match foldNumbers env function x rest with
      | .error e => .error e
      | .ok result =>
        resultText (if function = .avg then result.div (.ofNat (rest.length + 1)) else result)

/-- A function on values: its text, or nothing for the first of no values. -/
def onItems (env : Environment) (function : Aggregate) (items : List Site) :
    Except Error (Option (List Char)) :=
  match function with
  | .length => .ok (some (Binary64.digits items.length))
  | .first =>
    match items with
    | [] => .ok none
    | s :: _ => (s.decode env).map some
  | _ => (onNumbers env function items).map some

/-- A function on what a path leads to. -/
def apply (env : Environment) (function : Aggregate) (definite : Bool) (found : List Site) :
    Except Error (Option (List Char)) :=
  if definite then
    match found with
    | s :: _ =>
      if s.node.isArray then function.onItems env s.elements else .error Unfit.notArray.error
    | [] => .error Unfit.notArray.error
  else
    function.onItems env found

end Aggregate

/-- The functions of a path from its first function on. -/
def functionsOf (segments : List Segment) : List Aggregate :=
  segments.filterMap fun s => match s.selector with
    | .apply function => some function
    | _ => none

/-- The functions of a path are as many as its segments that are functions. -/
theorem length_functionsOf (segments : List Segment) :
    (functionsOf segments).length = segments.countP Segment.isFunction := by
  induction segments with
  | nil => rfl
  | cons segment later ih =>
    obtain ⟨selector, detached⟩ := segment
    cases selector with
    | apply function =>
      rw [List.countP_cons_of_pos rfl]
      exact congrArg Nat.succ ih
    | _ =>
      rw [List.countP_cons_of_neg (by simp [Segment.isFunction, Selector.isFunction])]
      exact ih

/-- The text of a function as the one value of the next function. -/
def reread (text : List Char) : Except Error Site :=
  if text.head? = some '[' then Document.ofString (String.ofList text)
  else .error Unfit.notArray.error

/-- Further functions on the text of a function. -/
def applyChain (env : Environment) (text : List Char) :
    List Aggregate → Except Error (Option (List Char))
  | [] => .ok (some text)
  | function :: rest =>
    match reread text with
    | .error e => .error e
    | .ok site =>
      match function.apply env true [site] with
      | .error e => .error e
      | .ok none => .ok none
      | .ok (some next) => applyChain env next rest

/-- A chain of functions on what a path leads to; no function gives no text. -/
def applyAll (env : Environment) (definite : Bool) (found : List Site) : List Aggregate →
    Except Error (Option (List Char))
  | [] => .ok none
  | function :: rest =>
    match function.apply env definite found with
    | .error e => .error e
    | .ok none => .ok none
    | .ok (some text) => applyChain env text rest

end JsonPath
