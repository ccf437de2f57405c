import JsonPath.Path.Reader
import JsonPath.Query.Aggregate
import JsonPath.Query.Walk

/-!
# Queries

A query walks a document along a path and gives the outcome as text: nothing if the path leads
nowhere; on a definite path the text of the value; otherwise a JSON array of all the values as they
are written. With functions at its end a path gives the text of the last of them.

## Main definitions

* `matchesText`: the text of what a path without functions leads to.
* `Path.evaluate`, `Path.query`: a path on a value, and on a document.
* `query`: a path and a document as texts.

## Main results

* `query_eq_evaluate`: a path and a document that can be read.
-/

namespace JsonPath

/-- The values as they are written, as a JSON array. -/
def arrayText (found : List Site) : List Char :=
  '[' :: ([','].intercalate (found.map Site.text) ++ [']'])

/-- The text of the values a path leads to: none if there are none, the text of the first if the
path is definite, and otherwise an array of all. -/
def matchesText (env : Environment) (definite : Bool) (found : List Site) :
    Except Error (Option (List Char)) :=
  match found with
  | [] => .ok none
  | s :: _ => if definite then (s.decode env).map some else .ok (some (arrayText found))

namespace Path

/-- The path on a value, which `$` in filters stands for as well. -/
def evaluate (env : Environment) (p : Path) (root : Site) : Except Error (Option String) :=
  match walk env root p.segments root with
  | .error e => .error e
  | .ok found =>
    (if p.segments.any Segment.isFunction then
      applyAll env p.isDefinite found (functionsOf p.segments)
    else
      matchesText env p.isDefinite found).map fun text => text.map String.ofList

/-- The path on a document. -/
def query (env : Environment) (p : Path) (document : String) : Except Error (Option String) :=
  match Document.ofString document with
  | .error e => .error e
  | .ok root => p.evaluate env root

end Path

/-- A path on a document, both as texts. -/
def query (env : Environment) (document path : String) : Except Error (Option String) :=
  match Path.ofString path with
  | .error e => .error e
  | .ok p => p.query env document

/-- A path and a document that can be read come to what the one comes to on the other. -/
theorem query_eq_evaluate {env : Environment} {document path : String} {p : Path} {root : Site}
    (hpath : Path.ofString path = .ok p) (hdocument : Document.ofString document = .ok root) :
    query env document path = p.evaluate env root := by
  rw [query, hpath]
  show p.query env document = _
  rw [Path.query, hdocument]

end JsonPath
