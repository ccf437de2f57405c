import Mathlib
import JsonPath.Environment.Standard
import JsonPath.Proofs.Query.Containment
import JsonPath.Query

/-!
# Results as Documents

A path that is not definite gives all the values that it finds as one text: an array of them
without blanks, each as it is written in the document (`arrayText`). This text is a document
again. Its value is the array of the trees of these values (`Items.listed`), so no text of a
value runs into the next one or into the brackets, and the values that a walk over the array
finds have the texts that were put there.

The array adds one level of containers. There is room for it even if the document is as deep
as a document may be, since every value that is found stands inside at least one container of
the document.

## Main results

* `ofString_arrayText`: **an array of values is read as their array**.
* `Path.reread_result`: **a result is an array of what was found**, and `$[*]` gives it again.
-/

namespace JsonPath

open Text Grammar

variable {env : Environment}

/-! ### An array without blanks -/

/-- Values in brackets, with commas and no blanks between them. -/
def Items.listed (first : Bool) : List Node → Items
  | [] => .close []
  | node :: rest => .item (if first then [] else [',']) node (Items.listed false rest)

namespace Items

/-- Values that are listed are written between commas, up to the closing bracket. -/
theorem text_listed_cons (first : Bool) (node : Node) (nodes : List Node) :
    (listed first (node :: nodes)).text = (if first then [] else [',']) ++
      ([','].intercalate ((node :: nodes).map Node.text) ++ [']']) := by
  induction nodes generalizing first node with
  | nil => simp [listed, Items.text]
  | cons next nodes ih =>
      rw [listed, Items.text, ih, List.map_cons (l := next :: nodes), List.map_cons,
        List.intercalate_cons_cons]
      simp

/-- The text of an array of values is the array of their texts. -/
theorem text_listed (nodes : List Node) :
    (listed true nodes).text = [','].intercalate (nodes.map Node.text) ++ [']'] := by
  cases nodes with
  | nil => rfl
  | cons node nodes => rw [text_listed_cons, if_pos rfl, List.nil_append]

/-- Well-formed values are listed to well-formed elements. -/
theorem wellFormed_listed (first : Bool) {nodes : List Node} (h : ∀ node ∈ nodes, node.WellFormed) :
    (listed first nodes).WellFormed first := by
  induction nodes generalizing first with
  | nil => exact blanks_nil
  | cons node nodes ih =>
      refine ⟨?_, h node List.mem_cons_self, ih false fun n hn => h n (List.mem_cons_of_mem _ hn)⟩
      cases first with
      | true => exact blanks_nil
      | false => exact ⟨[], [], rfl, blanks_nil, blanks_nil⟩

/-- Values that are listed are no deeper than the deepest of them. -/
theorem depth_listed_le (first : Bool) {nodes : List Node} {depth : Nat}
    (h : ∀ node ∈ nodes, node.depth ≤ depth) : (listed first nodes).depth ≤ depth := by
  induction nodes generalizing first with
  | nil => exact Nat.zero_le depth
  | cons node nodes ih =>
      exact Nat.max_le.2 ⟨h node List.mem_cons_self,
        ih false fun n hn => h n (List.mem_cons_of_mem _ hn)⟩

/-- The elements of an array of values are these values. -/
theorem map_node_sites_listed (first : Bool) (nodes : List Node) (start : Nat) :
    ((listed first nodes).sites start).map Site.node = nodes := by
  induction nodes generalizing first start with
  | nil => rfl
  | cons node nodes ih => rw [listed, sites, List.map_cons, ih]

end Items

/-- The array of values that were found, as a document of its own. -/
def resultArray (found : List Site) : Site :=
  ⟨0, .array (.listed true (found.map Site.node))⟩

/-- The array of the results is written as the result text. -/
theorem text_resultArray (found : List Site) : (resultArray found).text = arrayText found := by
  rw [Site.text, resultArray, Node.text, Items.text_listed, List.map_map]
  rfl

/-- The elements of the result array have the texts of what was found. -/
theorem map_text_elements_resultArray (found : List Site) :
    (resultArray found).elements.map Site.text = found.map Site.text := by
  have hnodes := Items.map_node_sites_listed true (found.map Site.node) 1
  have htext : Site.text = Node.text ∘ Site.node := rfl
  rw [htext, ← List.map_map, ← List.map_map, ← hnodes]
  rfl

/-- **An array of values is read as their array**, if there is room for one container more. -/
theorem ofString_arrayText {found : List Site} (hw : ∀ s ∈ found, s.WellFormed)
    (hdepth : ∀ s ∈ found, s.node.depth + 1 ≤ Document.maxDepth) :
    Document.ofString (String.ofList (arrayText found)) = .ok (resultArray found) := by
  refine Document.ofString_eq_ok_iff.2 ⟨[], [], ?_, ?_, ?_, ?_, ?_, rfl⟩
  · simp [text_resultArray]
  · exact blanks_nil
  · exact blanks_nil
  · refine Items.wellFormed_listed true fun node hnode => ?_
    obtain ⟨s, hs, rfl⟩ := List.mem_map.1 hnode
    exact hw s hs
  · have hle : (Items.listed true (found.map Site.node)).depth ≤ 511 := by
      refine Items.depth_listed_le true fun node hnode => ?_
      obtain ⟨s, hs, rfl⟩ := List.mem_map.1 hnode
      exact Nat.le_of_succ_le_succ (hdepth s hs)
    exact Nat.succ_le_succ hle

/-! ### Queries -/

/-- `[*]` finds the children of a value. -/
theorem walk_all (env : Environment) (root s : Site) :
    walk env root [⟨.all, false⟩] s = .ok (s.children.map Child.site) := by
  rw [walk_eq root _ [] s rfl]
  induction s.children with
  | nil => rfl
  | cons c rest ih =>
      rw [gather, ih, visit_eq, Selector.selects_all, walk]
      rfl

/-- A site is an array exactly if its value is written so. -/
theorem Site.isArray_iff {s : Site} :
    s.node.isArray = true ↔ ∃ start items, s = ⟨start, .array items⟩ := by
  constructor
  · intro h
    obtain ⟨start, node⟩ := s
    cases node with
    | array items => exact ⟨start, items, rfl⟩
    | _ => cases h
  · rintro ⟨start, items, rfl⟩
    rfl

/-- Only arrays have elements. -/
theorem Site.isArray_of_mem_elements {s t : Site} (h : t ∈ s.elements) : s.node.isArray = true := by
  obtain ⟨start, node⟩ := s
  cases node with
  | array items => rfl
  | _ => cases h

/-- The elements of an array are its children. -/
theorem Site.map_site_children {s : Site} (h : s.node.isArray = true) :
    s.children.map Child.site = s.elements := by
  obtain ⟨start, items, rfl⟩ := Site.isArray_iff.1 h
  refine List.map_map.trans ?_
  exact List.zipIdx_map_fst 0 (items.sites (start + 1))

/-- `$[*]` on an array of values gives it again. -/
theorem query_all_of_ofString {text : String} {found : List Site} (hfound : found ≠ [])
    (h : Document.ofString text = .ok (resultArray found)) :
    query env text "$[*]" = .ok (some (String.ofList (arrayText found))) := by
  have hpath : Path.ofString "$[*]" = .ok ⟨[⟨.all, false⟩]⟩ := by cbv
  have hwalk := walk_all env (resultArray found) (resultArray found)
  rw [Site.map_site_children rfl] at hwalk
  have htexts := map_text_elements_resultArray found
  have harray : arrayText (resultArray found).elements = arrayText found := by
    rw [arrayText, htexts, arrayText]
  have hmatches :
      matchesText env false (resultArray found).elements = .ok (some (arrayText found)) := by
    rw [← harray]
    cases helements : (resultArray found).elements with
    | nil =>
        rw [helements] at htexts
        exact absurd (List.map_eq_nil_iff.1 htexts.symm) hfound
    | cons s rest => rfl
  rw [query_eq_evaluate hpath h, Path.evaluate, hwalk]
  exact congrArg (Except.map fun text : Option (List Char) => text.map String.ofList) hmatches

/-- What a path without functions gives that is not definite. -/
theorem Path.evaluate_eq_ok_iff {p : Path} (hindefinite : p.isDefinite = false)
    (hfunction : p.segments.any Segment.isFunction = false) {top : Site} {result : Option String} :
    p.evaluate env top = .ok result ↔ ∃ found, walk env top p.segments top = .ok found ∧
      result = if found = [] then none else some (String.ofList (arrayText found)) := by
  rw [evaluate]
  cases walk env top p.segments top with
  | error e => simp
  | ok found => cases found <;> simp [hfunction, hindefinite, matchesText, Except.map, eq_comm]

/-- The text of the span of a value is the text of the value. -/
theorem Site.Placed.text_spanIn {document after : List Char} {level : Nat} {s : Site}
    (h : s.Placed document level after) : (s.spanIn document).text = s.text := by
  rw [Site.spanIn_eq h.stands, Document.Span.text]
  simp

/-- What a walk along a path finds that is not definite stands in the document, inside at least
one container. -/
theorem Path.placed_of_walk {document : String} {top : Site}
    (h : Document.ofString document = .ok top) {p : Path} (hindefinite : p.isDefinite = false)
    (hfunction : p.segments.any Segment.isFunction = false) {found : List Site}
    (hwalk : walk env top p.segments top = .ok found) {s : Site} (hs : s ∈ found) :
    ∃ level after, 0 < level ∧ s.Placed document.toList level after := by
  obtain ⟨level, hle, hcontains⟩ := Site.Contains.of_walk .top hwalk hs
  obtain ⟨after, hplaced⟩ := hcontains.placed_of_ofString h
  refine ⟨level, after, ?_, hplaced⟩
  obtain ⟨_ | ⟨segment, later⟩⟩ := p
  · cases hindefinite
  · obtain ⟨hsegment, -⟩ : segment.isFunction = false ∧ _ := by simpa using hfunction
    have hpositive : 0 < ((segment :: later).takeWhile fun g => !g.isFunction).length := by
      simp [hsegment]
    rw [Nat.zero_add] at hle
    exact hpositive.trans_le hle

/-- **A result is an array of what was found**: if a path that is not definite finds nothing,
it gives nothing; otherwise it gives a document, an array whose elements have the texts of the
values that were found, in the same order. -/
theorem Path.reread_result {document : String} {top : Site} {p : Path} {result : Option String}
    (h : Document.ofString document = .ok top) (hindefinite : p.isDefinite = false)
    (hfunction : p.segments.any Segment.isFunction = false)
    (hresult : p.query env document = .ok result) :
    ∃ found, walk env top p.segments top = .ok found ∧ (result = none ↔ found = []) ∧
      ∀ text, result = some text → ∃ array, Document.ofString text = .ok array ∧
        (array.spanIn text.toList).kind = .array ∧
        (array.spanIn text.toList).elements.map (Except.map Document.Span.text) =
          found.map (fun s => .ok (s.spanIn document.toList).text) ∧
        JsonPath.query env text "$[*]" = .ok (some text) := by
  have hevaluate : p.evaluate env top = .ok result := by rwa [query, h] at hresult
  obtain ⟨found, hwalk, rfl⟩ := (evaluate_eq_ok_iff hindefinite hfunction).1 hevaluate
  refine ⟨found, hwalk, by simp, fun text htext => ?_⟩
  obtain ⟨hnonempty, rfl⟩ : found ≠ [] ∧ String.ofList (arrayText found) = text := by
    simpa using htext
  have hplaced {s : Site} (hs : s ∈ found) := placed_of_walk h hindefinite hfunction hwalk hs
  have hread : Document.ofString (String.ofList (arrayText found)) = .ok (resultArray found) := by
    refine ofString_arrayText (fun s hs => ?_) fun s hs => ?_
    · obtain ⟨_, _, -, hs⟩ := hplaced hs
      exact hs.wellFormed
    · obtain ⟨level, _, hpositive, hs⟩ := hplaced hs
      have := hs.depth
      omega
  have hagrees := Document.Span.agrees_of_contains hread .top
  refine ⟨resultArray found, hread, hagrees.kind, ?_, query_all_of_ofString hnonempty hread⟩
  obtain ⟨behind, htop⟩ := Document.placed_of_ofString hread
  have helements : ∀ t ∈ (resultArray found).elements,
      Except.map Document.Span.text (.ok (t.spanIn (String.ofList (arrayText found)).toList)) =
        (.ok t.text : Except Document.Flaw (List Char)) := by
    intro t ht
    obtain ⟨after, ht⟩ := htop.element ht
    exact congrArg Except.ok ht.text_spanIn
  have hfound : ∀ s ∈ found,
      (.ok s.text : Except Document.Flaw _) = .ok (s.spanIn document.toList).text := by
    intro s hs
    obtain ⟨_, _, -, hs⟩ := hplaced hs
    exact congrArg Except.ok hs.text_spanIn.symm
  rw [hagrees.elements, List.map_map]
  refine (List.map_congr_left helements).trans (Eq.trans ?_ (List.map_congr_left hfound))
  have hmap := congrArg (List.map fun text => (.ok text : Except Document.Flaw (List Char)))
    (map_text_elements_resultArray found)
  rwa [List.map_map, List.map_map] at hmap

/-! ### The deepest document -/

/-- Arrays inside each other. -/
def nestedArrays : Nat → Node
  | 0 => .array (.close [])
  | n + 1 => .array (.listed true [nestedArrays n])

/-- Arrays nested in one another are well-formed. -/
theorem wellFormed_nestedArrays (n : Nat) : (nestedArrays n).WellFormed := by
  induction n with
  | zero => exact blanks_nil
  | succ n ih => exact Items.wellFormed_listed true (by simpa using ih)

/-- Arrays nested in one another are as deep as they are many. -/
theorem depth_nestedArrays (n : Nat) : (nestedArrays n).depth = n + 1 := by
  induction n with
  | zero => rfl
  | succ n ih => simp [nestedArrays, Items.listed, Node.depth, Items.depth, ih]

/-- As many arrays inside each other as a document may have. -/
def deepest : String :=
  String.ofList (nestedArrays 511).text

/-- The deepest text that is taken is read as the nested arrays. -/
theorem ofString_deepest : Document.ofString deepest = .ok ⟨0, nestedArrays 511⟩ :=
  Document.ofString_eq_ok_iff.2 ⟨[], [], by simp [deepest, Site.text], blanks_nil, blanks_nil,
    wellFormed_nestedArrays 511, (depth_nestedArrays 511).le, rfl⟩

/-- A step to all elements of nested arrays finds the array inside. -/
theorem walk_all_nestedArrays (env : Environment) (n : Nat) :
    walk env ⟨0, nestedArrays (n + 1)⟩ [⟨.all, false⟩] ⟨0, nestedArrays (n + 1)⟩ =
      .ok [⟨1, nestedArrays n⟩] :=
  walk_all env _ _

/-- `[*]` on the deepest document finds the array inside it, and gives a document of the same
depth. -/
theorem Path.reread_result_deepest :
    Document.ofString deepest = .ok ⟨0, nestedArrays 511⟩ ∧
      isDefinite ⟨[⟨.all, false⟩]⟩ = false ∧ [⟨.all, false⟩].any Segment.isFunction = false ∧
      query .standard ⟨[⟨.all, false⟩]⟩ deepest = .ok (some deepest) ∧
      ∃ array, Document.ofString deepest = .ok array ∧
        (array.spanIn deepest.toList).kind = .array ∧
        (array.spanIn deepest.toList).elements.map (Except.map Document.Span.text) =
          [.ok (Site.spanIn deepest.toList ⟨1, nestedArrays 510⟩).text] ∧
        JsonPath.query .standard deepest "$[*]" = .ok (some deepest) := by
  have hwalk := walk_all_nestedArrays .standard 510
  have htext : arrayText [⟨1, nestedArrays 510⟩] = (nestedArrays 511).text :=
    (text_resultArray [⟨1, nestedArrays 510⟩]).symm
  have hquery : query .standard ⟨[⟨.all, false⟩]⟩ deepest = .ok (some deepest) := by
    rw [query, ofString_deepest]
    refine (evaluate_eq_ok_iff rfl rfl).2 ⟨_, hwalk, ?_⟩
    rw [htext]
    rfl
  obtain ⟨found, hfound, -, hreread⟩ := reread_result ofString_deepest rfl rfl hquery
  obtain rfl := Except.ok.inj (hwalk.symm.trans hfound)
  exact ⟨ofString_deepest, rfl, rfl, hquery, hreread deepest rfl⟩

end JsonPath
