import JsonPath.Filter.Predicate
import JsonPath.Path.Segment

/-!
# Walking a document

A segment selects among the children of a value; the segments after it go on from each child that is
selected. A detached segment also selects among the children of every child, selected or not. The
walk visits the children in the order of the document and, at each child, goes on with the later
segments before it looks for further matches of a detached one.

## Main definitions

* `Segment.selects`: whether a segment selects a child.
* `walk`: the values that segments lead to, in the order in which they are found.

## Main results

* `walk_eq`: the walk as one pass over the children, without reference to its termination.
-/

namespace JsonPath

/-- Whether a selector selects a child. A member is selected by its name, an element by its
position, either by a filter. -/
def Selector.selects (env : Environment) (root : Site) (selector : Selector) (child : Child) :
    Except Error Bool :=
  match selector, child.label with
  | .filter tokens, _ => Filter.holds env tokens root child.site
  | .names listed, .key start body =>
    (Document.decodeAt env start body).map fun name =>
      Selector.picksName (.names listed) (String.ofList name)
  | selector, .key _ _ => .ok (selector == .all)
  | selector, .position index count => .ok (selector.picksPosition index count)

/-- The results for all the members of a list, one after the other, up to the first error. -/
def gather {α β : Type} (f : α → Except Error (List β)) : List α → Except Error (List β)
  | [] => .ok []
  | a :: rest =>
    match f a with
    | .error e => .error e
    | .ok found => (gather f rest).map (found ++ ·)

/-- Functions that agree on a list gather the same from it. -/
theorem gather_congr {α β : Type} {f g : α → Except Error (List β)} {l : List α}
    (h : ∀ a ∈ l, f a = g a) : gather f l = gather g l := by
  induction l with
  | nil => rfl
  | cons a l ih =>
    rw [gather, gather, h a (by simp), ih fun b hb => h b (by simp [hb])]

/-- To gather from images is to gather with the composed function. -/
theorem gather_map {α β γ : Type} (f : β → Except Error (List γ)) (g : α → β) (l : List α) :
    gather f (l.map g) = gather (fun a => f (g a)) l := by
  induction l with
  | nil => rfl
  | cons a l ih => simp [gather, ih]

/-- What a walk does at one child, given how it goes on there with the later segments and with the
same segment. Neither is evaluated unless it is needed. -/
@[macro_inline]
def visit (env : Environment) (root : Site) (segment : Segment) (child : Child)
    (later same : Except Error (List Site)) : Except Error (List Site) :=
  match segment.selector.selects env root child with
  | .error e => .error e
  | .ok selected =>
    match if selected then later else .ok [] with
    | .error e => .error e
    | .ok found => if segment.detached then same.map (found ++ ·) else .ok found

/-- The values that segments lead to from a value, in the order in which they are found. A value
that all segments were followed to is found itself; a function ends the walk as the end of the path
does. -/
def walk (env : Environment) (root : Site) (segments : List Segment) (site : Site) :
    Except Error (List Site) :=
  match segments with
  | [] => .ok [site]
  | segment :: later =>
    if segment.isFunction then
      .ok [site]
    else
      gather
        (fun (child : { c : Child // c ∈ site.children }) =>
          have := Site.size_lt_of_mem_children child.2
          visit env root segment child.1 (walk env root later child.1.site)
            (walk env root (segment :: later) child.1.site))
        site.children.attach
termination_by site.node.size

/-- The walk as one pass over the children. -/
theorem walk_eq {env : Environment} (root : Site) (segment : Segment) (later : List Segment)
    (site : Site)
    (h : segment.isFunction = false) :
    walk env root (segment :: later) site =
      gather (fun child => visit env root segment child (walk env root later child.site)
        (walk env root (segment :: later) child.site)) site.children := by
  rw [walk, if_neg (by simp [h])]
  rw [← gather_map (fun child => visit env root segment child (walk env root later child.site)
    (walk env root (segment :: later) child.site)) Subtype.val, List.attach_map_subtype_val]

end JsonPath
