import JsonPath.Path.Printer
import JsonPath.Proofs.Path.Joining

/-!
# Function Calls in Paths

A path may end with calls of functions, each written as a point, a name and two parentheses. Calls
may stand behind calls, so a chain of them is read as it was written, whatever functions it calls
(`Path.ofString_print_calls`). Behind a text that selects, or behind the root alone, the segments
of any further text follow those of the first (`Path.ReadsAs.ofString_append`).

## Main definitions

* `Segment.call`: a call of a function.
* `Path.ReadsAs`: the segments that a text behind the root stands for, none if there is no text.

## Main results

* `Path.ofString_append_of_admits`: the segments of a path that may stand behind another.
* `Path.ofString_print_calls`: **calls are read as they are printed**.
-/

namespace JsonPath

/-- A call of a function, behind one point. -/
def Segment.call (function : Aggregate) : Segment :=
  ⟨.apply function, false⟩

/-- Calls are functions. -/
theorem Segment.isFunction_of_mem_calls {functions : List Aggregate} {segment : Segment}
    (h : segment ∈ functions.map Segment.call) : segment.isFunction = true := by
  obtain ⟨function, -, rfl⟩ := List.mem_map.1 h
  rfl

namespace Path

/-- The segments that a text behind the root stands for. The root alone has none. -/
def ReadsAs (text : String) (segments : List Segment) : Prop :=
  text = "" ∧ segments = [] ∨ ofString ("$" ++ text) = .ok ⟨segments⟩

variable {p q : String}

/-- The segments of a path that may stand behind another. -/
theorem ofString_append_of_admits {P Q : Path} (hp : ofString ("$" ++ p) = .ok P)
    (hq : ofString ("$" ++ q) = .ok Q) (h : P.Admits Q) :
    ofString ("$" ++ p ++ q) = .ok ⟨P.segments ++ Q.segments⟩ := by
  obtain ⟨hpne, hp⟩ := ofString_root_eq_ok_iff.1 hp
  obtain ⟨hqne, hq⟩ := ofString_root_eq_ok_iff.1 hq
  obtain ⟨first, body, rest, later, hQ, hread, hlater⟩ := read_of_readSegments hqne hq
  rw [String.append_assoc, ofString_root_eq_ok_iff, String.toList_append,
    readSegments_append hp (continues_of_readSegments hq), readSegments_of_admits h hQ hread hlater]
  exact ⟨List.append_ne_nil_of_left_ne_nil hpne _, rfl⟩

/-- Calls may stand behind any path. -/
theorem admits_calls (P : Path) (functions : List Aggregate) :
    P.Admits ⟨functions.map Segment.call⟩ := by
  intro last _ first hfirst _
  exact Segment.isFunction_of_mem_calls (List.mem_of_mem_head? hfirst)

/-- **What stands behind a text that selects**, or behind the root alone, is read as it is without
that text. -/
theorem ReadsAs.ofString_append {segments next : List Segment} (h : ReadsAs p segments)
    (hselecting : ∀ segment ∈ segments, segment.isFunction = false)
    (hq : ofString ("$" ++ q) = .ok ⟨next⟩) :
    ofString ("$" ++ p ++ q) = .ok ⟨segments ++ next⟩ := by
  rcases h with ⟨rfl, rfl⟩ | hp
  · rwa [String.append_empty]
  · exact Path.ofString_append hp hq (by simpa using hselecting)

/-- What two texts are read as is joined where they are, if nothing in front is a function. -/
theorem ReadsAs.append {segments next : List Segment} (h : ReadsAs p segments)
    (hselecting : ∀ segment ∈ segments, segment.isFunction = false)
    (hq : ofString ("$" ++ q) = .ok ⟨next⟩) : ReadsAs (p ++ q) (segments ++ next) :=
  .inr (by rw [← String.append_assoc]; exact h.ofString_append hselecting hq)

/-! ### Chains of calls -/

/-- A chain of calls is not empty. -/
theorem ne_nil_of_ofString_calls {functions : List Aggregate}
    (h : ofString ("$" ++ q) = .ok ⟨functions.map Segment.call⟩) : functions ≠ [] := by
  obtain ⟨hne, hread⟩ := ofString_root_eq_ok_iff.1 h
  obtain ⟨first, _, _, later, hcons, -⟩ := read_of_readSegments hne hread
  rintro rfl
  cases hcons

/-- One more call in front of a chain of calls. -/
theorem ofString_call_append {function : Aggregate} {functions : List Aggregate}
    (hp : ofString ("$" ++ p) = .ok ⟨[.call function]⟩)
    (hq : ofString ("$" ++ q) = .ok ⟨functions.map Segment.call⟩) :
    ofString ("$" ++ (p ++ q)) = .ok ⟨(function :: functions).map Segment.call⟩ := by
  rw [← String.append_assoc]
  exact ofString_append_of_admits hp hq (admits_calls _ functions)

/-- A call is read back from its text. -/
theorem ofString_print_call (function : Aggregate) :
    ofString ("$" ++ (Segment.call function).print) = .ok ⟨[.call function]⟩ := by
  cases function <;> cbv

/-- **Calls are read as they are printed.** -/
theorem ofString_print_calls {functions : List Aggregate} (h : functions ≠ []) :
    ofString (print ⟨functions.map Segment.call⟩) = .ok ⟨functions.map Segment.call⟩ := by
  induction functions with
  | nil => exact absurd rfl h
  | cons function rest ih =>
      rw [print, List.map_cons, List.map_cons, String.join_cons]
      cases rest with
      | nil =>
          rw [List.map_nil, List.map_nil, String.join_nil, String.append_empty]
          exact ofString_print_call function
      | cons next rest =>
          exact ofString_call_append (ofString_print_call function) (ih (List.cons_ne_nil _ _))

end Path

end JsonPath
