import JsonPath.Environment.Standard
import JsonPath.Proofs.Path.WellFormed
import JsonPath.Proofs.Query.Staging

/-!
# Evaluation by Positions

`walk` goes down a document with the segments that are left. Here the walk holds all segments of the
path and the position of one of them, as a program does that keeps the path in an array. Such a walk
can go wrong in ways that the other one cannot: there may be no segment at a position, or one that
selects nothing. The functions come after the walk, in a loop over the segments from the first
function on, which can only pass over a segment that is no function.

The evaluation by positions (`Path.evaluateByPosition`) stops in each of these cases, with a reason
of its own (`Stop`). On a well-formed path none of them occurs, whatever the document is: it comes
to what the path comes to, and stops only for the errors of the evaluation itself. The invariant of
the walk is that a segment that selects stands at its position; it is taken to the next position
only where there is another one.

## Main definitions

* `Stop`: why an evaluation by positions stops.
* `walkAt`, `applySegments`, `Path.evaluateByPosition`: the walk, the loop and the whole.

## Main results

* `walkAt_eq`: the walk from a segment that selects.
* `applySegments_eq`: the loop over segments that are functions.
* `Path.evaluateByPosition_of_ofString`: **a path is read as the evaluation needs it**.
-/

namespace JsonPath

variable {env : Environment}

/-- Why an evaluation by positions stops. -/
inductive Stop where
  /-- There is no segment at the position. -/
  | outOfRange
  /-- The segment that should select is a function. -/
  | functionSelects
  /-- The segment that should be applied is no function. -/
  | selectorApplied
  /-- The evaluation itself fails. -/
  | failed (error : Error)

/-! ### The walk -/

/-- What is found at a child that the segment at a position selects: the child, if the path ends
there or goes on with a function, and otherwise what a descent finds. -/
def nextAt (segments : List Segment) (position : Nat) (child : Site)
    (descent : Except Stop (List Site)) : Except Stop (List Site) :=
  match segments[position + 1]? with
  | none => if position + 1 = segments.length then .ok [child] else .error .outOfRange
  | some next => if next.isFunction then .ok [child] else descent

/-- What a walk does at one child, as `visit` says. -/
def visitAt (env : Environment) (root : Site) (segment : Segment) (child : Child)
    (later same : Except Stop (List Site)) : Except Stop (List Site) := do
  let selected ← (segment.selector.selects env root child).mapError .failed
  let found ← if selected then later else .ok []
  if segment.detached then same.map (found ++ ·) else .ok found

/-- The values below a value that the segments from a position on lead to. -/
def walkAt (env : Environment) (root : Site) (segments : List Segment) (position : Nat)
    (site : Site) :
    Except Stop (List Site) :=
  -- the position is looked up at every value, also at those without children
  match segments[position]? with
  | none => .error .outOfRange
  | some segment =>
    if segment.isFunction then
      .error .functionSelects
    else
      (site.children.attach.mapM fun child =>
        have := Site.size_lt_of_mem_children child.2
        visitAt env root segment child.1
          (nextAt segments position child.1.site
            (walkAt env root segments (position + 1) child.1.site))
          (walkAt env root segments position child.1.site)).map List.flatten
termination_by site.node.size

/-- The walk as one pass over the children. -/
theorem walkAt_of_getElem? {root site : Site} {segments : List Segment} {position : Nat}
    {segment : Segment} (h : segments[position]? = some segment)
    (hsegment : segment.isFunction = false) :
    walkAt env root segments position site =
      (site.children.mapM fun child =>
        visitAt env root segment child
          (nextAt segments position child.site (walkAt env root segments (position + 1) child.site))
          (walkAt env root segments position child.site)).map List.flatten := by
  rw [walkAt, h]
  dsimp only
  rw [if_neg (by simp [hsegment])]
  conv_rhs => rw [← List.attach_map_subtype_val site.children, List.mapM_map]
  rfl

/-- Traversing a list and joining the answers is to gather, if the answers agree one by one. -/
theorem mapM_flatten_eq_gather {α β : Type} {f : α → Except Stop (List β)}
    {g : α → Except Error (List β)} {l : List α} (h : ∀ a ∈ l, f a = (g a).mapError .failed) :
    (l.mapM f).map List.flatten = (gather g l).mapError .failed := by
  induction l with
  | nil => rfl
  | cons a l ih =>
      have hlater := ih fun b hb => h b (List.mem_cons_of_mem a hb)
      rw [List.mapM_cons, h a List.mem_cons_self, gather]
      cases g a with
      | error e => rfl
      | ok found =>
          dsimp only
          rw [show ((gather g l).map (found ++ ·)).mapError Stop.failed =
            ((gather g l).mapError Stop.failed).map (found ++ ·) by cases gather g l <;> rfl,
            ← hlater]
          cases l.mapM f <;> rfl

/-- A visit by position is the visit by name on the same child. -/
theorem visitAt_eq (root : Site) (segment : Segment) (child : Child)
    (later same : Except Error (List Site)) :
    visitAt env root segment child (later.mapError .failed) (same.mapError .failed) =
      (visit env root segment child later same).mapError .failed := by
  rw [visitAt, visit_eq]
  cases segment.selector.selects env root child with
  | error e => rfl
  | ok selected =>
      cases selected <;> cases segment.detached <;> cases later <;> cases same <;>
        simp [Except.mapError, joined, Except.map, bind, Except.bind]

/-- What is found at a child with the segments that are left. -/
theorem nextAt_eq {root child : Site} {segments later : List Segment} {position : Nat}
    {segment : Segment} {descent : Except Stop (List Site)}
    (h : segments.drop position = segment :: later)
    (hdescent : ∀ next rest, later = next :: rest → next.isFunction = false →
      descent = (walk env root later child).mapError .failed) :
    nextAt segments position child descent = (walk env root later child).mapError .failed := by
  have hlater : segments.drop (position + 1) = later := by
    rw [← List.tail_drop, h, List.tail_cons]
  have hnext : segments[position + 1]? = later.head? := by
    rw [← hlater, List.head?_drop]
  rw [nextAt, hnext]
  cases later with
  | nil =>
      have hlength : position + 1 = segments.length := by
        have hcount := congrArg List.length h
        rw [List.length_drop, List.length_cons, List.length_nil] at hcount
        omega
      rw [walk]
      exact if_pos hlength
  | cons next rest =>
      cases hfunction : next.isFunction with
      | true => simp [hfunction, walk, Except.mapError]
      | false => simpa [hfunction] using hdescent next rest rfl hfunction

/-- **The walk by positions is the walk**, from a segment that selects. The induction is on the
size of the value. -/
theorem walkAt_eq {root site : Site} {segments later : List Segment} {position : Nat}
    {segment : Segment} (h : segments.drop position = segment :: later)
    (hsegment : segment.isFunction = false) :
    walkAt env root segments position site =
      (walk env root (segment :: later) site).mapError .failed := by
  induction hn : site.node.size using Nat.strongRecOn generalizing site segment later position with
  | _ n ih =>
  have hposition : segments[position]? = some segment := by
    rw [← List.head?_drop, h]
    rfl
  rw [walkAt_of_getElem? hposition hsegment, walk_eq root segment later site hsegment]
  refine mapM_flatten_eq_gather fun child hchild => ?_
  have hlt : child.site.node.size < n := hn ▸ Site.size_lt_of_mem_children hchild
  rw [← visitAt_eq, ih _ hlt h hsegment rfl, nextAt_eq h]
  rintro next rest rfl hnext
  refine ih _ hlt ?_ hnext rfl
  rw [← List.tail_drop, h, List.tail_cons]

/-- The array `[[]]`. -/
def nestedArray : Site :=
  ⟨0, .array (.item [] (.array (.close [])) (.close []))⟩

/-- The array in `[[]]`. -/
def nestedElement : Site :=
  ⟨1, .array (.close [])⟩

/-- A walk that begins at no segment that selects stops. -/
example : walkAt .standard nestedArray [⟨.all, true⟩] 1 nestedArray = .error .outOfRange ∧
    walkAt .standard nestedArray [⟨.apply .length, false⟩] 0 nestedArray =
      .error .functionSelects := by
  constructor <;> cbv

/-! ### The functions -/

/-- One function of a chain: the first works on what the path leads to, a later one on the text of
the one before. -/
def Aggregate.applyAfter (env : Environment) (function : Aggregate) (definite : Bool)
    (input : List Site)
    (chained : Option (List Char)) : Except Error (Option (List Char)) :=
  match chained with
  | none => function.apply env definite input
  | some previous =>
    match reread previous with
    | .error e => .error e
    | .ok site => function.apply env true [site]

/-- The functions of a path, applied in a loop over its segments from the first function on.
`chained` is the text of the function before, if there was one. -/
def applySegments (env : Environment) (definite : Bool) (input : List Site)
    (chained : Option (List Char)) :
    List Segment → Except Stop (Option (List Char))
  | [] => .ok chained
  | segment :: later =>
    match segment.selector with
    | .apply function =>
      match function.applyAfter env definite input chained with
      | .error e => .error (.failed e)
      | .ok none => .ok none
      | .ok (some text) => applySegments env definite input (some text) later
    | _ => .error .selectorApplied

/-- A segment that is a function has the function as its selector. -/
theorem exists_function {segment : Segment} (h : segment.isFunction = true) :
    ∃ function, segment.selector = .apply function := by
  obtain ⟨selector, detached⟩ := segment
  cases selector with
  | apply function => exact ⟨function, rfl⟩
  | _ => cases h

/-- The functions of a path of calls begin with that of its first call. -/
theorem functionsOf_cons {segment : Segment} {function : Aggregate}
    (h : segment.selector = .apply function) (later : List Segment) :
    functionsOf (segment :: later) = function :: functionsOf later :=
  List.filterMap_cons_some (by rw [h])

/-- Behind a first result the remaining calls are the chain of their functions. -/
theorem applySegments_some {definite : Bool} {input : List Site} {segments : List Segment}
    (h : ∀ segment ∈ segments, segment.isFunction = true) (previous : List Char) :
    applySegments env definite input (some previous) segments =
      (applyChain env previous (functionsOf segments)).mapError .failed := by
  induction segments generalizing previous with
  | nil => rfl
  | cons segment later ih =>
      obtain ⟨hsegment, hlater⟩ := List.forall_mem_cons.1 h
      obtain ⟨function, hfunction⟩ := exists_function hsegment
      rw [applySegments, functionsOf_cons hfunction, applyChain, hfunction]
      dsimp only [Aggregate.applyAfter]
      cases reread previous with
      | error e => rfl
      | ok site =>
          dsimp only
          cases function.apply env true [site] with
          | error e => rfl
          | ok outcome =>
              cases outcome with
              | none => rfl
              | some text => exact ih hlater text

/-- **The loop applies the functions** one after the other if all segments are functions. -/
theorem applySegments_eq {definite : Bool} {input : List Site} {segments : List Segment}
    (h : ∀ segment ∈ segments, segment.isFunction = true) :
    applySegments env definite input none segments =
      (applyAll env definite input (functionsOf segments)).mapError .failed := by
  cases segments with
  | nil => rfl
  | cons segment later =>
      obtain ⟨hsegment, hlater⟩ := List.forall_mem_cons.1 h
      obtain ⟨function, hfunction⟩ := exists_function hsegment
      rw [applySegments, functionsOf_cons hfunction, applyAll, hfunction]
      dsimp only [Aggregate.applyAfter]
      cases function.apply env definite input with
      | error e => rfl
      | ok outcome =>
          cases outcome with
          | none => rfl
          | some text => exact applySegments_some hlater text

/-! ### Whole paths -/

namespace Path

/-- The values that the walk of a path finds; a path that begins with a function has none. -/
def foundByPosition (env : Environment) (p : Path) (root : Site) : Except Stop (List Site) :=
  if 0 < p.segments.findIdx Segment.isFunction then walkAt env root p.segments 0 root else .ok []

/-- What a path gives for the values that its walk finds. Functions that no walk comes before are
applied to the root. -/
def resultByPosition (env : Environment) (p : Path) (root : Site) (found : List Site) :
    Except Stop (Option (List Char)) :=
  let functionsAt := p.segments.findIdx Segment.isFunction
  if functionsAt < p.segments.length then
    applySegments env p.isDefinite (if functionsAt = 0 then [root] else found) none
      (p.segments.drop functionsAt)
  else
    (matchesText env p.isDefinite found).mapError .failed

/-- The path on a value, by positions. -/
def evaluateByPosition (env : Environment) (p : Path) (root : Site) : Except Stop (Option String) :=
  match p.foundByPosition env root with
  | .error stop => .error stop
  | .ok found => (p.resultByPosition env root found).map fun text => text.map String.ofList

variable {selecting functions : List Segment}

/-- The first function stands behind the segments that select. -/
theorem findIdx_isFunction (hselecting : ∀ segment ∈ selecting, segment.isFunction = false)
    (hfunctions : ∀ segment ∈ functions, segment.isFunction = true) :
    (selecting ++ functions).findIdx Segment.isFunction = selecting.length := by
  rw [List.findIdx_append, List.findIdx_eq_length.2 hselecting, if_neg (Nat.lt_irrefl _)]
  cases functions with
  | nil => exact Nat.zero_add _
  | cons function later =>
      rw [List.findIdx_cons, hfunctions function List.mem_cons_self]
      exact Nat.zero_add _

section FunctionsLast

variable {p : Path} (hsplit : p.segments = selecting ++ functions)
  (hselecting : ∀ segment ∈ selecting, segment.isFunction = false)
  (hfunctions : ∀ segment ∈ functions, segment.isFunction = true)

include hsplit hselecting hfunctions

/-- The values found are those of the walk, unless the path begins with a function. -/
theorem foundByPosition_eq (root : Site) :
    p.foundByPosition env root =
      if selecting = [] then .ok [] else (walk env root p.segments root).mapError .failed := by
  rw [foundByPosition, hsplit, findIdx_isFunction hselecting hfunctions]
  cases selecting with
  | nil => rfl
  | cons segment later =>
      have hfirst : (segment :: later ++ functions).drop 0 = segment :: (later ++ functions) := rfl
      rw [if_pos (by simp), if_neg (List.cons_ne_nil _ _),
        walkAt_eq hfirst (hselecting segment List.mem_cons_self), List.cons_append]

/-- What is made of the values found: the functions are applied to all that the walk leads to. -/
theorem resultByPosition_eq (hp : p.segments ≠ []) (root : Site) (found : List Site) :
    p.resultByPosition env root found =
      (p.resultOf env (if selecting = [] then [root] else found)).mapError .failed := by
  have hlength : p.segments.length = selecting.length + functions.length := by
    rw [hsplit, List.length_append]
  rw [resultByPosition, resultOf, hlength, hsplit, findIdx_isFunction hselecting hfunctions,
    List.drop_left,
    functionsOf_append hselecting, List.any_append]
  cases functions with
  | nil =>
      have hne : selecting ≠ [] := by simpa [hsplit] using hp
      have hany : selecting.any Segment.isFunction = false := by simpa using hselecting
      simp [hne, hany]
  | cons function later =>
      have hany : (function :: later).any Segment.isFunction = true := by simp [hfunctions function]
      rw [hany, Bool.or_true]
      simp [applySegments_eq hfunctions]

end FunctionsLast

/-- **A well-formed path is evaluated by positions** as it is without: no position is out of range,
no function has to select, and no selector to be applied. -/
theorem WellFormed.evaluateByPosition_eq {p : Path} (hp : p.WellFormed) (root : Site) :
    p.evaluateByPosition env root = (p.evaluate env root).mapError .failed := by
  obtain ⟨selecting, functions, hsplit, hselecting, hfunctions⟩ := hp.functionsLast
  rw [evaluate_eq_evaluateAt, evaluateByPosition, evaluateAt,
    foundByPosition_eq hsplit hselecting hfunctions]
  simp only [resultByPosition_eq hsplit hselecting hfunctions hp.nonempty]
  by_cases hselects : selecting = []
  · have hwalk : walk env root p.segments root = .ok [root] := by
      rw [hsplit, hselects]
      exact walk_of_functions hfunctions root
    rw [hwalk]
    simp only [if_pos hselects]
    cases p.resultOf env [root] <;> rfl
  · simp only [if_neg hselects]
    cases walk env root p.segments root with
    | error e => rfl
    | ok found =>
        show ((p.resultOf env found).mapError _).map _ = ((p.resultOf env found).map _).mapError _
        cases p.resultOf env found <;> rfl

/-- A selector behind a function, which no path that is read has. -/
example : evaluateByPosition .standard ⟨[⟨.apply .length, false⟩, ⟨.all, false⟩]⟩ nestedArray =
    .error .selectorApplied := by
  rfl

/-- **A path is read as the evaluation needs it.** It is well formed, the flag that is kept while it
is read says whether all of its segments are definite, and on every value its evaluation by
positions comes to what the path comes to: it fails at most with the errors of that, and does not
stop for any other reason. -/
theorem evaluateByPosition_of_ofString {text : String} {p : Path} (h : ofString text = .ok p) :
    p.WellFormed ∧
      (∃ body, text.toList = '$' :: body ∧
        collect [] true body = .ok (p.segments, p.segments.all Segment.isDefinite)) ∧
      ∀ env root, p.evaluateByPosition env root = (p.evaluate env root).mapError .failed :=
  ⟨wellFormed_of_ofString h, collect_of_ofString h,
    fun _ => (wellFormed_of_ofString h).evaluateByPosition_eq⟩

/-- The values at any depth are counted behind a detached segment. -/
theorem evaluateByPosition_of_ofString_nestedArray :
    ofString "$..*.length()" = .ok ⟨[⟨.all, true⟩, ⟨.apply .length, false⟩]⟩ ∧
      WellFormed ⟨[⟨.all, true⟩, ⟨.apply .length, false⟩]⟩ ∧
      evaluateByPosition .standard ⟨[⟨.all, true⟩, ⟨.apply .length, false⟩]⟩ nestedArray =
        .ok (some "1") := by
  have hread : ofString "$..*.length()" = .ok ⟨[⟨.all, true⟩, ⟨.apply .length, false⟩]⟩ := by cbv
  obtain ⟨hwellFormed, -, hposition⟩ := evaluateByPosition_of_ofString hread
  have hinside :
      walk .standard nestedArray [⟨.all, true⟩, ⟨.apply .length, false⟩] nestedElement =
        .ok [] := by
    rw [walk_eq _ _ _ _ rfl]
    rfl
  have hwalk : walk .standard nestedArray [⟨.all, true⟩, ⟨.apply .length, false⟩] nestedArray =
      .ok [nestedElement] := by
    have hchildren : nestedArray.children = [⟨.position 0 1, nestedElement⟩] := rfl
    rw [walk_eq _ _ _ _ rfl, hchildren]
    simp [gather, visit, hinside, walk, Selector.selects, Selector.picksPosition, Except.map,
      Segment.isFunction, Selector.isFunction]
  refine ⟨hread, hwellFormed, ?_⟩
  rw [hposition, evaluate, hwalk]
  rfl

end Path

end JsonPath
