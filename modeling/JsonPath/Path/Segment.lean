import JsonPath.Filter.Token

/-!
# The segments of a path

A path is a chain of segments. A segment selects among the children of a value, or applies a
function to what was selected before it. A segment after `..` is *detached*: it selects among all
the values below, at any depth.

A position counts from the beginning of an array, a negative one from its end; a slice takes the
positions from its start up to, but not including, its stop. Both are plain integer arithmetic on
the count of the elements (`fromEnd`), so bounds out of range select nothing.

## Main definitions

* `Aggregate`: the functions.
* `Selector`: what a segment does.
* `Selector.picksName`, `Selector.picksPosition`: which children a list or a slice selects.
* `Segment`, `Path`: a segment, and the whole path.
* `Path.isDefinite`: whether a path leads to at most one value.

## Main results

* `Selector.picksPosition_indices`, `Selector.picksPosition_slice`: the arithmetic of positions.
-/

namespace JsonPath

/-- The functions at the end of a path. -/
inductive Aggregate where
  /-- The smallest number. -/
  | min
  /-- The largest number. -/
  | max
  /-- The mean. -/
  | avg
  /-- The sum. -/
  | sum
  /-- How many values there are. -/
  | length
  /-- The first value. -/
  | first
  deriving DecidableEq, Repr

namespace Aggregate

/-- All functions. -/
def all : List Aggregate :=
  [.min, .max, .avg, .sum, .length, .first]

/-- The name a function is called by. -/
def name : Aggregate → String
  | .min => "min"
  | .max => "max"
  | .avg => "avg"
  | .sum => "sum"
  | .length => "length"
  | .first => "first"

/-- The function with a name. -/
def ofName? (s : String) : Option Aggregate :=
  all.find? fun f => f.name == s

/-- Every function is found by its own name. -/
theorem ofName?_name (f : Aggregate) : ofName? f.name = some f := by
  cases f <;> decide

end Aggregate

/-- What a segment does. -/
inductive Selector where
  /-- Selects every child. -/
  | all
  /-- Selects the members with one of these names. -/
  | names (names : List String)
  /-- Selects the elements at one of these positions. -/
  | indices (positions : List Int)
  /-- Selects the elements from a start up to a stop; without one, from the first or up to the
  last. -/
  | slice (start stop : Option Int)
  /-- Selects the children for which a predicate, in postfix order, is true. -/
  | filter (tokens : List Token)
  /-- Applies a function to the values that were selected. -/
  | apply (function : Aggregate)
  deriving DecidableEq

/-- The position a number stands for in an array of `count` elements: negative numbers count back
from the end. -/
def fromEnd (count : Nat) (k : Int) : Int :=
  if k < 0 then k + count else k

namespace Selector

/-- Whether a member is selected because of its name. -/
def picksName : Selector → String → Bool
  | .all, _ => true
  | .names listed, name => listed.contains name
  | _, _ => false

/-- Whether the element at `index` of `count` elements is selected because of its position. -/
def picksPosition : Selector → (index count : Nat) → Bool
  | .all, _, _ => true
  | .indices positions, index, count => positions.any fun k => fromEnd count k == index
  | .slice start stop, index, count =>
    start.elim 0 (fromEnd count) ≤ index && (index : Int) < stop.elim (count : Int) (fromEnd count)
  | _, _, _ => false

/-- Whether the selector is a function. -/
def isFunction : Selector → Bool
  | .apply _ => true
  | _ => false

/-- A list of positions picks an element exactly if one of them, counted from its end, is where it
stands. -/
theorem picksPosition_indices (positions : List Int) (index count : Nat) :
    (indices positions).picksPosition index count = true ↔
      ∃ k ∈ positions, fromEnd count k = index := by
  simp [picksPosition]

/-- A slice picks an element exactly if it stands at or behind the first bound and in front of the
second. -/
theorem picksPosition_slice (start stop : Option Int) (index count : Nat) :
    (slice start stop).picksPosition index count = true ↔
      start.elim 0 (fromEnd count) ≤ index ∧ (index : Int) <
        stop.elim (count : Int) (fromEnd count) := by
  simp [picksPosition]

end Selector

/-- One segment of a path. -/
structure Segment where
  /-- What the segment does. -/
  selector : Selector
  /-- Whether it does so at any depth. -/
  detached : Bool
  deriving DecidableEq

namespace Segment

/-- Whether the segment applies a function. -/
def isFunction (s : Segment) : Bool :=
  s.selector.isFunction

/-- Whether the segment leads from one value to at most one: a single name, a single position or a
function, not detached. -/
def isDefinite (s : Segment) : Bool :=
  !s.detached && match s.selector with
    | .names listed => listed.length == 1
    | .indices positions => positions.length == 1
    | .apply _ => true
    | _ => false

end Segment

/-- A path: its segments from the root on. -/
structure Path where
  /-- The segments in order. -/
  segments : List Segment
  deriving DecidableEq

/-- Whether a path leads to at most one value. Such a path gives the value itself, every other path
the list of its values. -/
def Path.isDefinite (p : Path) : Bool :=
  p.segments.all Segment.isDefinite

end JsonPath
