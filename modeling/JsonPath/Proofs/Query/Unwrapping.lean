import JsonPath.Proofs.Path.Calls
import JsonPath.Proofs.Query.Results
import JsonPath.Proofs.Query.Staging

/-!
# Functions on One Array

A function on a definite path works on the elements of the one array that the path leads to, a
function on any other path on all the values that the path finds. So a definite path to an array
can be written with `[*]` behind it or without: the functions at its end get the same values,
collected by the walk in the one case and taken from the array in the other
(`query_calls_eq_query_elements`).

What calls come to behind any part of a path depends only on the values that this part finds and on
whether it is definite (`query_append_calls`).

## Main definitions

* `Path.LeadsTo`: a definite path, or the root alone, leads to one value of a document.

## Main results

* `query_append_calls`: calls behind a path without functions.
* `query_calls_eq_query_elements`: **a function on an array** is the function on its elements.
-/

namespace JsonPath

variable {env : Environment}

/-! ### Calls behind a path -/

/-- The functions of a path of calls are the ones that were called. -/
theorem functionsOf_calls (functions : List Aggregate) :
    functionsOf (functions.map Segment.call) = functions := by
  rw [functionsOf, List.filterMap_map]
  exact List.filterMap_some

/-- Calls do not walk. -/
theorem walk_append_calls {root s : Site} {selecting : List Segment} {found : List Site}
    (hselecting : ∀ segment ∈ selecting, segment.isFunction = false)
    (h : walk env root selecting s = .ok found) (functions : List Aggregate) :
    walk env root (selecting ++ functions.map Segment.call) s = .ok found := by
  rw [walk_append_of_eq_ok _ hselecting h]
  have hcalls (t : Site) : walk env root (functions.map Segment.call) t = .ok [t] :=
    walk_of_functions (fun _ => Segment.isFunction_of_mem_calls) t
  refine gather_eq_ok_iff.2 ⟨found.map fun t => [t], ?_, ?_⟩
  · rw [List.forall₂_map_right_iff]
    exact List.forall₂_same.2 fun t _ => hcalls t
  · rw [← List.flatMap_def, List.flatMap_singleton']

/-- Calls are definite. -/
theorem isDefinite_append_calls (selecting : List Segment) (functions : List Aggregate) :
    Path.isDefinite ⟨selecting ++ functions.map Segment.call⟩ =
      selecting.all Segment.isDefinite := by
  have hcalls : (functions.map Segment.call).all Segment.isDefinite = true := by
    rw [List.all_map]
    exact List.all_eq_true.2 fun _ _ => rfl
  rw [Path.isDefinite, List.all_append, hcalls, Bool.and_true]

/-- **Calls behind a path without functions** come to the functions on what the path finds. -/
theorem query_append_calls {document p F : String} {selecting : List Segment} {top : Site}
    {functions : List Aggregate} {found : List Site} (hp : Path.ReadsAs p selecting)
    (hselecting : ∀ segment ∈ selecting, segment.isFunction = false)
    (hF : Path.ofString ("$" ++ F) = .ok ⟨functions.map Segment.call⟩)
    (hdocument : Document.ofString document = .ok top)
    (hwalk : walk env top selecting top = .ok found) :
    query env document ("$" ++ p ++ F) =
      (applyAll env (selecting.all Segment.isDefinite) found functions).map
        fun text => text.map String.ofList := by
  have hany : (selecting ++ functions.map Segment.call).any Segment.isFunction = true := by
    obtain ⟨function, rest, rfl⟩ := List.exists_cons_of_ne_nil (Path.ne_nil_of_ofString_calls hF)
    rw [List.any_append, List.map_cons, List.any_cons]
    exact Bool.or_true _
  rw [query_eq_evaluate (hp.ofString_append hselecting hF) hdocument, Path.evaluate,
    walk_append_calls hselecting hwalk]
  dsimp only
  rw [if_pos hany, isDefinite_append_calls, functionsOf_append hselecting, functionsOf_calls]

/-! ### One array -/

/-- A definite path without functions, or the root alone, leads to exactly one value of a
document. -/
structure Path.LeadsTo (env : Environment) (document p : String) (segments : List Segment)
    (top target : Site) : Prop where
  /-- The text stands for the segments. -/
  reads : ReadsAs p segments
  /-- Every segment leads to at most one value. -/
  definite : segments.all Segment.isDefinite = true
  /-- No segment is a function. -/
  selecting : ∀ segment ∈ segments, segment.isFunction = false
  /-- The document can be read. -/
  document : Document.ofString document = .ok top
  /-- The walk finds the one value. -/
  walk : JsonPath.walk env top segments top = .ok [target]

namespace Path.LeadsTo

variable {document p q F : String} {segments : List Segment} {top target : Site}
  {functions : List Aggregate} {found : List Site}

/-- The root leads to the value of the document. -/
theorem root (h : Document.ofString document = .ok top) : LeadsTo env document "" [] top top where
  reads := .inl ⟨rfl, rfl⟩
  definite := rfl
  selecting := by simp
  document := h
  walk := by rw [JsonPath.walk]

/-- Calls behind the path. -/
theorem query_calls (h : LeadsTo env document p segments top target)
    (hF : ofString ("$" ++ F) = .ok ⟨functions.map Segment.call⟩) :
    JsonPath.query env document ("$" ++ p ++ F) =
      (applyAll env true [target] functions).map fun text => text.map String.ofList := by
  rw [query_append_calls h.reads h.selecting hF h.document h.walk, h.definite]

/-- Calls behind the path and one more segment. -/
theorem query_segment_calls (h : LeadsTo env document p segments top target) {segment : Segment}
    (hfunction : segment.isFunction = false) (hq : ofString ("$" ++ q) = .ok ⟨[segment]⟩)
    (hF : ofString ("$" ++ F) = .ok ⟨functions.map Segment.call⟩)
    (hwalk : JsonPath.walk env top [segment] target = .ok found) :
    JsonPath.query env document ("$" ++ p ++ q ++ F) =
      (applyAll env segment.isDefinite found functions).map fun text => text.map String.ofList := by
  have hselecting : ∀ g ∈ segments ++ [segment], g.isFunction = false :=
    List.forall_mem_append.2 ⟨h.selecting, by simpa using hfunction⟩
  have hboth : JsonPath.walk env top (segments ++ [segment]) top = .ok found := by
    rw [walk_append_of_eq_ok _ h.selecting h.walk, gather_singleton, hwalk]
  have hquery := query_append_calls (h.reads.append h.selecting hq) hselecting hF h.document hboth
  rw [List.all_append, h.definite, List.all_cons, List.all_nil, Bool.true_and,
    Bool.and_true] at hquery
  have htext : "$" ++ p ++ q ++ F = "$" ++ (p ++ q) ++ F := congrArg (· ++ F) String.append_assoc
  rw [htext, hquery]

end Path.LeadsTo

/-- **A function on an array** is the function on its elements: calls behind a definite path, or
behind the root alone, that leads to one array come to the same with `[*]` in front of them,
errors included, and both come to the functions on the elements. -/
theorem query_calls_eq_query_elements {document p F : String} {segments : List Segment}
    {top array : Site} {functions : List Aggregate}
    (h : Path.LeadsTo env document p segments top array) (harray : array.node.isArray = true)
    (hF : Path.ofString ("$" ++ F) = .ok ⟨functions.map Segment.call⟩) :
    query env document ("$" ++ p ++ F) = query env document ("$" ++ p ++ "[*]" ++ F) ∧
      query env document ("$" ++ p ++ F) =
        (applyAll env false array.elements functions).map fun text => text.map String.ofList := by
  have hall : Path.ofString ("$" ++ "[*]") = .ok ⟨[⟨.all, false⟩]⟩ := by cbv
  have hwalk : walk env top [⟨.all, false⟩] array = .ok array.elements := by
    rw [walk_all, Site.map_site_children harray]
  have happly :
      applyAll env true [array] functions = applyAll env false array.elements functions := by
    cases functions with
    | nil => rfl
    | cons function rest =>
        have hfirst : function.apply env true [array] = function.apply env false array.elements :=
          if_pos harray
        rw [applyAll, applyAll, hfirst]
  rw [h.query_calls hF, h.query_segment_calls rfl hall hF hwalk, happly]
  exact ⟨rfl, rfl⟩

/-- The array in `keyedPair`. -/
def pairAndNumber : Site :=
  ⟨6, .array (.item [] (.array (.item [] (.number ⟨[], ['1'], none, none⟩)
      (.item [','] (.number ⟨[], ['2'], none, none⟩) (.close []))))
    (.item [','] (.number ⟨[], ['3'], none, none⟩) (.close [])))⟩

/-- An object with the key `xs` and an array of the array of 1 and 2, and of 3. -/
def keyedPair : Site :=
  ⟨0, .object (.member [] ['x', 's'] [':'] pairAndNumber.node (.close []))⟩

/-- `$.xs.first().sum()` and `$.xs[*].first().sum()` are the same. -/
theorem query_calls_eq_query_elements_keyedPair :
    Path.LeadsTo .standard "\x7b\"xs\":[[1,2],3]\x7d" ".xs" [⟨.names ["xs"], false⟩]
        keyedPair pairAndNumber ∧
      pairAndNumber.node.isArray = true ∧
      Path.ofString ("$" ++ ".first().sum()") = .ok ⟨[.first, .sum].map Segment.call⟩ ∧
      query .standard "\x7b\"xs\":[[1,2],3]\x7d" ("$" ++ ".xs" ++ ".first().sum()") =
        query .standard "\x7b\"xs\":[[1,2],3]\x7d" ("$" ++ ".xs" ++ "[*]" ++ ".first().sum()") := by
  have hleads : Path.LeadsTo .standard "\x7b\"xs\":[[1,2],3]\x7d" ".xs"
      [⟨.names ["xs"], false⟩] keyedPair pairAndNumber :=
    { reads := .inr (by cbv)
      definite := rfl
      selecting := by simp [Segment.isFunction, Selector.isFunction]
      document := by cbv
      walk := by cbv }
  have hprint : Path.print ⟨[.first, .sum].map Segment.call⟩ = "$" ++ ".first().sum()" := by cbv
  have hcalls : Path.ofString ("$" ++ ".first().sum()") = .ok ⟨[.first, .sum].map Segment.call⟩ :=
    hprint ▸ Path.ofString_print_calls (List.cons_ne_nil _ _)
  exact ⟨hleads, rfl, hcalls, (query_calls_eq_query_elements hleads rfl hcalls).1⟩

end JsonPath
