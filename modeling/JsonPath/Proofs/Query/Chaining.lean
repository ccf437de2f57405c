import JsonPath.Environment.Standard
import JsonPath.Proofs.Query.Definite
import JsonPath.Proofs.Query.Unwrapping

/-!
# Functions behind the First Element

A function hands its result on as a text. `first` hands on the text of the first element of an
array, and the function behind it has to find an array again in this text. If that element is an
array, its text is read as the same array, so the functions that follow come to the same as behind
`[0]`; only the places that errors report are counted in another text. Numbers, objects, truth
values and `null` have no text that begins as an array does, so the functions that follow are
refused behind `first` as they are behind `[0]`.

A string is different, since its text is what it stands for, without the quotes. A string without a
text makes `first` itself fail, and one that stands for the text of an array is handed on as an
array (`not_firstActsAsPosition`).

## Main results

* `applyChain_of_reread`: functions on a text that is read as an array.
* `query_first_calls`: **functions behind `first`** and behind `[0]`.
* `not_firstActsAsPosition`: elements for which they differ.
-/

namespace JsonPath

variable {env : Environment}

variable {array element : Site} {functions : List Aggregate} {text : List Char}

/-! ### The first element -/

/-- `first` hands on the text of the first element. -/
theorem applyAll_first (h : array.elements.head? = some element) (functions : List Aggregate) :
    applyAll env true [array] (.first :: functions) =
      match element.decode env with
      | .error e => .error e
      | .ok text => applyChain env text functions := by
  have harray := Site.isArray_of_mem_elements (List.mem_of_mem_head? h)
  obtain ⟨rest, hrest⟩ := List.head?_eq_some_iff.1 h
  have happly : Aggregate.first.apply env true [array] = (element.decode env).map some := by
    have hitems :
        Aggregate.first.apply env true [array] = Aggregate.first.onItems env array.elements :=
      if_pos harray
    rw [hitems, hrest]
    rfl
  rw [applyAll, happly]
  cases element.decode env <;> rfl

/-- The step to the first element is read as such. -/
theorem ofString_first_position :
    Path.ofString ("$" ++ "[0]") = .ok ⟨[⟨.indices [0], false⟩]⟩ := by
  have hread : Segment.read "[0]".toList = .ok (⟨.indices [0], false⟩, "[0]".toList, []) := by cbv
  rw [Path.ofString_root_eq_ok_iff, Path.readSegments_of_read hread]
  exact ⟨by decide, by cbv⟩

/-- `[0]` finds the first element. -/
theorem walk_first_position (root : Site) (h : array.elements.head? = some element) :
    walk env root [⟨.indices [0], false⟩] array = .ok [element] := by
  have hmembers : array.members = [] := by
    obtain ⟨start, items, rfl⟩ :=
      Site.isArray_iff.1 (Site.isArray_of_mem_elements (List.mem_of_mem_head? h))
    rfl
  have hkeys : array.DistinctKeys env := ⟨by simp [hmembers], by simp [hmembers]⟩
  have hchild : array.child? env (.index 0) = .ok (some element) := by
    rw [Site.child?, ← List.head?_eq_getElem?, h]
  rw [Step.child?_eq_find? hkeys] at hchild
  obtain ⟨c, hc, rfl⟩ := Option.map_eq_some_iff.1 (Except.ok.inj hchild)
  have hwalk := walk_step_cons root hkeys (.index 0) []
  rw [hc] at hwalk
  exact hwalk.trans (by rw [Option.elim_some, walk])

/-! ### Texts that are handed on -/

/-- Functions on a text that is read as an array. -/
theorem applyChain_of_reread (hne : functions ≠ []) {s : Site} (h : reread text = .ok s) :
    applyChain env text functions = applyAll env true [s] functions := by
  obtain ⟨function, rest, rfl⟩ := List.exists_cons_of_ne_nil hne
  rw [applyChain, h]
  rfl

/-- Functions are refused on a text that does not begin as an array does. -/
theorem applyChain_of_head_ne (hne : functions ≠ []) (h : text.head? ≠ some '[') :
    applyChain env text functions = .error Unfit.notArray.error := by
  obtain ⟨function, rest, rfl⟩ := List.exists_cons_of_ne_nil hne
  rw [applyChain, reread, if_neg h]

/-- Functions are refused on a value that is no array. -/
theorem applyAll_of_not_array (hne : functions ≠ []) (h : element.node.isArray = false) :
    applyAll env true [element] functions = .error Unfit.notArray.error := by
  obtain ⟨function, rest, rfl⟩ := List.exists_cons_of_ne_nil hne
  have happly : function.apply env true [element] = .error Unfit.notArray.error :=
    if_neg (Bool.eq_false_iff.1 h)
  rw [applyAll, happly]

/-- The text of an array is read as that array. -/
theorem Site.Placed.reread_text {document after : List Char} {level : Nat}
    (h : element.Placed document level after) (harray : element.node.isArray = true) :
    reread element.text = .ok ⟨0, element.node⟩ := by
  have hhead : element.text.head? = some '[' := by
    obtain ⟨start, items, rfl⟩ := Site.isArray_iff.1 harray
    rfl
  rw [reread, if_pos hhead, h.ofString_text]

/-- Only an array, or a string, has a text that begins as an array does. -/
theorem Site.WellFormed.head_decode_ne (hw : element.WellFormed)
    (harray : element.node.isArray = false) (h : element.decode env = .ok text)
    (hstring : element.node.kind = .string → text.head? ≠ some '[') : text.head? ≠ some '[' := by
  have hkind := Document.Span.kind_eq hw []
  obtain ⟨start, node⟩ := element
  have hother (hnode : node.text = text) : text.head? ≠ some '[' := by
    intro hhead
    obtain ⟨rest, hrest⟩ := List.head?_eq_some_iff.1 hhead
    rw [hnode, hrest] at hkind
    cases node with
    | array items => cases harray
    | _ => cases hkind
  cases node with
  | string body => exact hstring rfl
  | null =>
      obtain rfl : [] = text := Except.ok.inj h
      simp
  | _ => exact hother (Except.ok.inj h)

/-- **An array that `first` hands on** is read again as it is, at another place. -/
theorem applyAll_first_of_isArray {document after : List Char} {level : Nat}
    (h : array.elements.head? = some element) (hplaced : element.Placed document level after)
    (harray : element.node.isArray = true) (hne : functions ≠ []) :
    Alike (applyAll env true [array] (.first :: functions))
      (applyAll env true [element] functions) := by
  have hdecode : element.decode env = .ok element.text := by
    obtain ⟨start, items, rfl⟩ := Site.isArray_iff.1 harray
    exact Site.decode_of_isContainer rfl
  have hmoved : element = Site.moved element.start ⟨0, element.node⟩ := by
    rw [Site.moved, Nat.zero_add]
  have halike : Alike (applyAll env true [element] functions)
      (applyAll env true [⟨0, element.node⟩] functions) := by
    conv => arg 1; rw [hmoved]
    exact applyAll_moved true [⟨0, element.node⟩] functions
  rw [applyAll_first h, hdecode]
  dsimp only
  rw [applyChain_of_reread hne (hplaced.reread_text harray)]
  exact halike.symm

/-- **What `first` hands on of other values** is refused, unless a string stands for a text that
begins as an array does. -/
theorem applyAll_first_of_not_array (h : array.elements.head? = some element)
    (hw : element.WellFormed) (harray : element.node.isArray = false)
    (hdecode : element.decode env = .ok text)
    (hstring : element.node.kind = .string → text.head? ≠ some '[') (hne : functions ≠ []) :
    applyAll env true [array] (.first :: functions) = .error Unfit.notArray.error := by
  rw [applyAll_first h, hdecode]
  exact applyChain_of_head_ne hne (hw.head_decode_ne harray hdecode hstring)

/-! ### Queries -/

section LeadsTo

variable {document p F : String} {segments : List Segment} {top : Site}
  (h : Path.LeadsTo env document p segments top array)
  (hF : Path.ofString ("$" ++ F) = .ok ⟨functions.map Segment.call⟩)

include h hF

/-- Where a path leads to one array, `first` and the functions behind it are what is applied to that
array. -/
theorem Path.LeadsTo.query_first : JsonPath.query env document ("$" ++ p ++ ".first()" ++ F) =
    (applyAll env true [array] (.first :: functions)).map fun text => text.map String.ofList := by
  have hfirst : Path.ofString ("$" ++ ".first()") = .ok ⟨[.call .first]⟩ := by cbv
  rw [String.append_assoc]
  exact h.query_calls (ofString_call_append hfirst hF)

/-- Where a path leads to one array with elements, the step to the first and the functions behind it
are applied to that element. -/
theorem Path.LeadsTo.query_first_position (helement : array.elements.head? = some element) :
    JsonPath.query env document ("$" ++ p ++ "[0]" ++ F) =
      (applyAll env true [element] functions).map fun text => text.map String.ofList :=
  h.query_segment_calls rfl ofString_first_position hF (walk_first_position top helement)

/-- **Functions behind `first`** come to the same as behind `[0]`, except for the places in a
document that errors report, if the first element is no string or its text does not begin as an
array does; where it is no array both are refused for that. If the first element cannot be decoded
`first` fails, and `[0]` leads to a value that is no array. -/
theorem query_first_calls (helement : array.elements.head? = some element) :
    (∀ text, element.decode env = .ok text →
      (element.node.kind = .string → text.head? ≠ some '[') →
      Alike (query env document ("$" ++ p ++ ".first()" ++ F))
          (query env document ("$" ++ p ++ "[0]" ++ F)) ∧
        (element.node.isArray = false →
          query env document ("$" ++ p ++ ".first()" ++ F) = .error Unfit.notArray.error ∧
          query env document ("$" ++ p ++ "[0]" ++ F) = .error Unfit.notArray.error)) ∧
    ∀ e, element.decode env = .error e → (∃ position reason, e = .document position reason) ∧
      query env document ("$" ++ p ++ ".first()" ++ F) = .error e ∧
      query env document ("$" ++ p ++ "[0]" ++ F) = .error Unfit.notArray.error := by
  have hne := Path.ne_nil_of_ofString_calls hF
  obtain ⟨level, -, hcontains⟩ := Site.Contains.of_walk .top h.walk (List.mem_singleton.2 rfl)
  have hinside := hcontains.element (List.mem_of_mem_head? helement)
  obtain ⟨after, hplaced⟩ := hinside.placed_of_ofString h.document
  rw [h.query_first hF, h.query_first_position hF helement]
  constructor
  · intro text hdecode hstring
    cases harray : element.node.isArray with
    | true =>
        exact ⟨(applyAll_first_of_isArray helement hplaced harray hne).map _,
          fun hnot => by cases hnot⟩
    | false =>
        have hrefused :=
          applyAll_first_of_not_array helement hplaced.wellFormed harray hdecode hstring hne
        rw [hrefused, applyAll_of_not_array hne harray]
        exact ⟨rfl, fun _ => ⟨rfl, rfl⟩⟩
  · intro e he
    have harray : element.node.isArray = false := by
      refine Bool.eq_false_iff.2 fun harray => ?_
      obtain ⟨start, items, rfl⟩ := Site.isArray_iff.1 harray
      cases he
    rw [applyAll_first helement, he, applyAll_of_not_array hne harray]
    exact ⟨Site.error_of_decode he, rfl, rfl⟩

end LeadsTo

/-- The array in `[[[4]]]`. -/
def arrayOfFour : Site :=
  ⟨1, .array (.item [] (.array (.item [] (.number ⟨[], ['4'], none, none⟩) (.close [])))
    (.close []))⟩

/-- The value of `[[[4]]]`. -/
def nestedFour : Site :=
  ⟨0, .array (.item [] arrayOfFour.node (.close []))⟩

/-- A leading surrogate without a partner, at a byte offset. -/
def unpairedSurrogate (start : Nat) : Site :=
  ⟨start, .string ['\\', 'u', 'd', '8', '0', '0']⟩

/-- The value of `["\ud800"]`, at a byte offset. -/
def unpairedElement (start : Nat) : Site :=
  ⟨start, .array (.item [] (unpairedSurrogate 0).node (.close []))⟩

/-- The string with half a pair cannot be decoded. -/
theorem decode_unpairedSurrogate (start : Nat) : (unpairedSurrogate start).decode .standard =
    .error (.document start (Document.LoneSurrogate.unfinished 8).message) :=
  rfl

/-- The empty path leads to the nested array. -/
theorem leadsTo_nestedFour : Path.LeadsTo .standard "[[[4]]]" "" [] nestedFour nestedFour :=
  .root (by cbv)

/-- The empty path leads to the array with half a pair in it. -/
theorem leadsTo_unpairedElement :
    Path.LeadsTo .standard "[\"\\ud800\"]" "" [] (unpairedElement 0) (unpairedElement 0) :=
  .root (by cbv)

/-- `$.first().length()` and `$[0].length()` are the same for `[[[4]]]`; for a string without a text
the one fails for the document and the other for the function. -/
theorem query_first_calls_nestedFour :
    Path.LeadsTo .standard "[[[4]]]" "" [] nestedFour nestedFour ∧
      nestedFour.elements.head? = some arrayOfFour ∧
      Path.ofString ("$" ++ ".length()") = .ok ⟨[.length].map Segment.call⟩ ∧
      Alike (query .standard "[[[4]]]" ("$" ++ "" ++ ".first()" ++ ".length()"))
        (query .standard "[[[4]]]" ("$" ++ "" ++ "[0]" ++ ".length()")) ∧
      Path.LeadsTo .standard "[\"\\ud800\"]" "" [] (unpairedElement 0) (unpairedElement 0) ∧
      query .standard "[\"\\ud800\"]" ("$" ++ "" ++ ".first()" ++ ".length()") =
        .error (.document 1 (Document.LoneSurrogate.unfinished 8).message) ∧
      query .standard "[\"\\ud800\"]" ("$" ++ "" ++ "[0]" ++ ".length()") =
        .error Unfit.notArray.error := by
  have hcalls : Path.ofString ("$" ++ ".length()") = .ok ⟨[.length].map Segment.call⟩ := by cbv
  have hfour : nestedFour.elements.head? = some arrayOfFour := rfl
  have hunpaired : (unpairedElement 0).elements.head? = some (unpairedSurrogate 1) := rfl
  have halike := (query_first_calls leadsTo_nestedFour hcalls hfour).1
  have hfailed := (query_first_calls leadsTo_unpairedElement hcalls hunpaired).2 _
    (decode_unpairedSurrogate 1)
  have hdecode : arrayOfFour.decode .standard = .ok arrayOfFour.text := rfl
  exact ⟨leadsTo_nestedFour, hfour, hcalls, (halike _ hdecode fun hstring => by cases hstring).1,
    leadsTo_unpairedElement, hfailed.2⟩

/-! ### Where the outcomes differ -/

/-- The outcomes of functions behind `first` and behind `[0]` are related, for every array whose
first element has a property. -/
def FirstActsAsPosition (env : Environment)
    (Related : Except Error (Option String) → Except Error (Option String) → Prop)
    (Of : Site → Prop) : Prop :=
  ∀ (document p F : String) (segments : List Segment) (functions : List Aggregate)
    (top array element : Site), Path.LeadsTo env document p segments top array →
    array.elements.head? = some element →
    Path.ofString ("$" ++ F) = .ok ⟨functions.map Segment.call⟩ → Of element →
    Related (query env document ("$" ++ p ++ ".first()" ++ F))
      (query env document ("$" ++ p ++ "[0]" ++ F))

/-- The array of the string `[1,2]`. -/
def bracketedText : Site :=
  ⟨0, .array (.item [] (.string "[1,2]".toList) (.close []))⟩

/-- The array of `unpairedElement`. -/
def nestedUnpaired : Site :=
  ⟨0, .array (.item [] (unpairedElement 0).node (.close []))⟩

/-- The empty path leads to the array whose string looks like an array. -/
theorem leadsTo_bracketedText :
    Path.LeadsTo .standard "[\"[1,2]\"]" "" [] bracketedText bracketedText :=
  .root (by cbv)

/-- The empty path leads to the nested array with half a pair in it. -/
theorem leadsTo_nestedUnpaired :
    Path.LeadsTo .standard "[[\"\\ud800\"]]" "" [] nestedUnpaired nestedUnpaired :=
  .root (by cbv)

/-- **Functions behind `first` are not always as behind `[0]`.** Behind the array in `[["\ud800"]]`
the errors report different places. For the string in `["\ud800"]` only `first` fails for the
document. The string in `["[1,2]"]` has a text, and `first` hands it on as an array of two
elements. -/
theorem not_firstActsAsPosition :
    ¬ FirstActsAsPosition .standard Eq (fun element => element.node.isArray = true) ∧
      ¬ FirstActsAsPosition .standard Alike
        (fun element => ∃ e, element.decode .standard = .error e) ∧
      ¬ FirstActsAsPosition .standard Alike
        (fun element => ∃ text, element.decode .standard = .ok text) := by
  have hlength : Path.ofString ("$" ++ ".length()") = .ok ⟨[.length].map Segment.call⟩ := by cbv
  have hfirst : Path.ofString ("$" ++ ".first()") = .ok ⟨[.first].map Segment.call⟩ := by cbv
  refine ⟨fun hall => ?_, fun hall => ?_, fun hall => ?_⟩
  · have hhead : nestedUnpaired.elements.head? = some (unpairedElement 1) := rfl
    have heq := hall _ _ _ _ _ _ _ _ leadsTo_nestedUnpaired hhead hfirst rfl
    have hreread : reread (unpairedElement 1).text = .ok (unpairedElement 0) := by cbv
    have hbehind (start : Nat) : applyAll .standard true [unpairedElement start] [.first] =
        .error (.document (start + 1) (Document.LoneSurrogate.unfinished 8).message) := by
      have hinner : (unpairedElement start).elements.head? = some (unpairedSurrogate (start + 1)) :=
        rfl
      rw [applyAll_first hinner, decode_unpairedSurrogate]
    have hdecode : (unpairedElement 1).decode .standard = .ok (unpairedElement 1).text := rfl
    rw [leadsTo_nestedUnpaired.query_first hfirst,
      leadsTo_nestedUnpaired.query_first_position hfirst hhead, applyAll_first hhead,
      hdecode] at heq
    dsimp only at heq
    rw [applyChain_of_reread (List.cons_ne_nil _ _) hreread, hbehind, hbehind] at heq
    cases heq
  · have hhead : (unpairedElement 0).elements.head? = some (unpairedSurrogate 1) := rfl
    have halike := hall _ _ _ _ _ _ _ _ leadsTo_unpairedElement hhead hlength
      ⟨_, decode_unpairedSurrogate 1⟩
    rw [leadsTo_unpairedElement.query_first hlength,
      leadsTo_unpairedElement.query_first_position hlength hhead, applyAll_first hhead,
      decode_unpairedSurrogate] at halike
    cases halike
  · have hhead : bracketedText.elements.head? = some ⟨1, .string "[1,2]".toList⟩ := rfl
    have halike := hall _ _ _ _ _ _ _ _ leadsTo_bracketedText hhead hlength
      ⟨"[1,2]".toList, by cbv⟩
    have hchained : applyAll .standard true [bracketedText] [.first, .length] =
        .ok (some ['2']) := by
      cbv
    rw [leadsTo_bracketedText.query_first hlength,
      leadsTo_bracketedText.query_first_position hlength hhead, hchained] at halike
    cases halike

end JsonPath
