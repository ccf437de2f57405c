import JsonPath.Path.Segment
import JsonPath.Text.Shown

/-!
# Paths in writing

A path is printed in one form whatever it was written as: brackets for every selector, names in
double quotes, filters in postfix order. `Path.describe` says segment by segment what a path does.

## Main definitions

* `Selector.print`, `Segment.print`, `Path.print`: the printed form.
* `Selector.describe`, `Path.describe`: the description.
-/

namespace JsonPath

/-- A bound of a slice; `missing` stands for one that was left out. -/
def printBound (missing : String) : Option Int → String
  | none => missing
  | some k => toString k

namespace Selector

/-- A selector in brackets, a function after a point. -/
def print : Selector → String
  | .all => "[*]"
  | .names listed => "[" ++ ",".intercalate (listed.map Text.shown) ++ "]"
  | .indices positions => "[" ++ ",".intercalate (positions.map toString) ++ "]"
  | .slice start stop => "[" ++ printBound "" start ++ ":" ++ printBound "" stop ++ "]"
  | .filter tokens => "[?(" ++ Token.displayAll tokens ++ ")]"
  | .apply function => "." ++ function.name ++ "()"

/-- What a selector does, in words. -/
def describe : Selector → String
  | .all => "wildcard"
  | .names listed => "names [" ++ ", ".intercalate (listed.map Text.shown) ++ "]"
  | .indices positions => "indices [" ++ ", ".intercalate (positions.map toString) ++ "]"
  | .slice start stop => "range start=" ++ printBound "-" start ++ " end=" ++ printBound "-" stop
  | .filter tokens => "filter (postfix) " ++ Token.displayAll tokens
  | .apply function => "function " ++ function.name ++ "()"

end Selector

/-- A segment: its selector, after two points if it is detached. -/
def Segment.print (s : Segment) : String :=
  (if s.detached then ".." else "") ++ s.selector.print

/-- What a segment does, in words. -/
def Segment.describe (s : Segment) : String :=
  s.selector.describe ++ if s.detached then "  [recursive]" else ""

namespace Path

/-- The printed form of a path. -/
def print (p : Path) : String :=
  "$" ++ String.join (p.segments.map Segment.print)

/-- One numbered line for each segment, and a last line that says whether the path is definite. -/
def describe (p : Path) : String :=
  let line (entry : Segment × Nat) : String := entry.2.repr ++ ": " ++ entry.1.describe ++ "\n"
  String.join (p.segments.zipIdx.map line) ++
    "definite: " ++ (if p.isDefinite then "true" else "false") ++ "\n"

end Path

end JsonPath
