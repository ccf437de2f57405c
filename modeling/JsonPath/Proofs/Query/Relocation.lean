import Mathlib
import JsonPath.Proofs.Filter.Failing
import JsonPath.Proofs.Query.Composition
import JsonPath.Query

/-!
# Values at Another Place

A value can stand at different places: inside a document, and alone as a document of its own.
What a walk finds below it, what filters say about its children and what functions make of
them depends on its tree alone. The place shows in two ways only, in the places of the values
that are found and in the places that errors report, and both move with the value
(`relocated`).

The exception is a reference from the root of the document, which leads away from the value. A
segment without one is *relative*.

## Main definitions

* `Site.moved`, `Child.moved`, `Error.moved`: the same thing further on in a document.
* `relocated`: an outcome that is moved.
* `Segment.IsRelative`: a segment that has no reference from the root.

## Main results

* `Selector.selects_moved`: **a selector selects the same** of a value at another place.
* `walk_moved`: **a walk finds the same** below a value at another place.
* `Aggregate.apply_moved`, `matchesText_moved`: functions and results do not depend on places.
-/

namespace JsonPath

/-! ### Moving -/

/-- The value `k` bytes further on. -/
def Site.moved (k : Nat) (s : Site) : Site :=
  ⟨s.start + k, s.node⟩

/-- The member `k` bytes further on. -/
def MemberSite.moved (k : Nat) (m : MemberSite) : MemberSite :=
  ⟨m.keyStart + k, m.key, m.value.moved k⟩

/-- The child `k` bytes further on. -/
def Child.moved (k : Nat) (c : Child) : Child :=
  match c.label with
  | .key start body => ⟨.key (start + k) body, c.site.moved k⟩
  | .position index count => ⟨.position index count, c.site.moved k⟩

/-- The error about a place in a document that is `k` bytes further on. -/
def Error.moved (k : Nat) : Error → Error
  | .document position reason => .document (position + k) reason
  | e => e

/-- The same outcome further on in a document, where `f` moves what is found. -/
def relocated {α β : Type} (k : Nat) (f : α → β) : Except Error α → Except Error β
  | .ok a => .ok (f a)
  | .error e => .error (e.moved k)

section Outcomes

variable {α β γ : Type} {k : Nat}

/-- A function of a moved outcome is the composed function of the outcome, moved. -/
theorem map_relocated (f : α → β) (g : β → γ) (outcome : Except Error α) :
    (relocated k f outcome).map g = relocated k (g ∘ f) outcome := by
  cases outcome <;> rfl

/-- An outcome that is mapped and then moved is moved by the composed function. -/
theorem relocated_map (f : β → γ) (g : α → β) (outcome : Except Error α) :
    relocated k f (outcome.map g) = relocated k (f ∘ g) outcome := by
  cases outcome <;> rfl

/-- Moved outcomes are joined to the moved outcome. -/
theorem joined_relocated (f : α → β) (first second : Except Error (List α)) :
    joined (relocated k (List.map f) first) (relocated k (List.map f) second) =
      relocated k (List.map f) (joined first second) := by
  cases first with
  | error e => rfl
  | ok found =>
      rw [joined, relocated, joined, map_relocated, relocated_map]
      exact congrArg (relocated k · second) (funext fun rest => List.map_append.symm)

/-- Where every element's answer is moved, so is what is gathered. -/
theorem gather_relocated {f : α → β} {g : γ → Except Error (List α)}
    {g' : γ → Except Error (List β)} {move : γ → γ} {l : List γ}
    (h : ∀ c ∈ l, g' (move c) = relocated k (List.map f) (g c)) :
    gather g' (l.map move) = relocated k (List.map f) (gather g l) := by
  induction l with
  | nil => rfl
  | cons c l ih =>
      rw [List.map_cons, gather_cons, gather_cons, h c List.mem_cons_self,
        ih fun d hd => h d (List.mem_cons_of_mem c hd), joined_relocated]

end Outcomes

/-! ### The parts of a value -/

/-- Elements that start later stand at their sites moved. -/
theorem Items.sites_add (items : Items) (start k : Nat) :
    items.sites (start + k) = (items.sites start).map (Site.moved k) := by
  match items with
  | .close _ => rfl
  | .item gap value rest =>
      have hplace (n a : Nat) : n + k + a = n + a + k := Nat.add_right_comm n k a
      simp only [sites, hplace, List.map_cons, sites_add rest]
      rfl

/-- Members that start later stand at their sites moved. -/
theorem Members.sites_add (members : Members) (start k : Nat) :
    members.sites (start + k) = (members.sites start).map (MemberSite.moved k) := by
  match members with
  | .close _ => rfl
  | .member gap key colon value rest =>
      have hplace (n a : Nat) : n + k + a = n + a + k := Nat.add_right_comm n k a
      simp only [sites, hplace, List.map_cons, sites_add rest]
      rfl

variable {k : Nat} {s : Site}

namespace Site

/-- A moved site has the same value. -/
theorem node_moved : (s.moved k).node = s.node :=
  rfl

/-- A moved site has the same text. -/
theorem text_moved : (s.moved k).text = s.text :=
  rfl

/-- The elements of a moved site are its elements moved. -/
theorem elements_moved : (s.moved k).elements = s.elements.map (moved k) := by
  obtain ⟨start, node⟩ := s
  cases node with
  | array items =>
      have hstart : start + k + 1 = start + 1 + k := Nat.add_right_comm start k 1
      simp only [moved, elements, hstart, Items.sites_add]
  | _ => rfl

/-- The members of a moved site are its members moved. -/
theorem members_moved : (s.moved k).members = s.members.map (MemberSite.moved k) := by
  obtain ⟨start, node⟩ := s
  cases node with
  | object members =>
      have hstart : start + k + 1 = start + 1 + k := Nat.add_right_comm start k 1
      simp only [moved, Site.members, hstart, Members.sites_add]
  | _ => rfl

/-- The children of a moved site are its children moved. -/
theorem children_moved : (s.moved k).children = s.children.map (Child.moved k) := by
  obtain ⟨start, node⟩ := s
  have hstart : start + k + 1 = start + 1 + k := Nat.add_right_comm start k 1
  cases node with
  | array items =>
      simp only [moved, children, hstart, Items.sites_add, List.zipIdx_map, List.map_map,
        List.length_map]
      rfl
  | object members =>
      simp only [moved, children, hstart, Members.sites_add, List.map_map]
      rfl
  | _ => rfl

/-- A moved string is decoded to the same text, or fails that much later. -/
theorem decode_moved : (s.moved k).decode env = relocated k id (s.decode env) := by
  obtain ⟨start, node⟩ := s
  cases node with
  | string body =>
      show Document.decodeAt env (start + k) body =
        relocated k id (Document.decodeAt env start body)
      rw [Document.decodeAt, Document.decodeAt]
      split
      · cases env.decode body <;> rfl
      · rfl
  | _ => rfl

end Site

/-! ### References -/

/-- The name of a moved member is its name, or fails that much later. -/
theorem MemberSite.name_moved (m : MemberSite) :
    (m.moved k).name env = relocated k id (m.name env) :=
  Site.decode_moved (s := ⟨m.keyStart, .string m.key⟩)

/-- The search among moved members finds the moved member. -/
theorem findMember_moved (name : List Char) (members : List MemberSite) :
    findMember env name (members.map (MemberSite.moved k)) =
      relocated k (Option.map (Site.moved k)) (findMember env name members) := by
  induction members with
  | nil => rfl
  | cons m members ih =>
      rw [List.map_cons, findMember, findMember, m.name_moved, ih]
      cases m.name env with
      | error e => rfl
      | ok found =>
          dsimp only [relocated, id]
          split <;> rfl

/-- A step from a moved site leads to the moved child. -/
theorem Site.child?_moved (step : Step) :
    (s.moved k).child? env step = relocated k (Option.map (moved k)) (s.child? env step) := by
  cases step with
  | name name =>
      rw [child?, members_moved]
      exact findMember_moved name.toList s.members
  | index position =>
      rw [child?, elements_moved, List.getElem?_map]
      rfl

/-- A reference leads to the same value from a value at another place. -/
theorem Site.resolve?_moved (steps : List Step) :
    (s.moved k).resolve? env steps = relocated k (Option.map (moved k)) (s.resolve? env steps) := by
  induction steps generalizing s with
  | nil => rfl
  | cons step steps ih =>
      rw [resolve?, resolve?, child?_moved]
      rcases s.child? env step with e | (- | t)
      · rfl
      · rfl
      · exact ih

/-- A reference has the same value from a moved site. -/
theorem Reference.value_moved (reference : Reference) :
    reference.value env (s.moved k) = relocated k id (reference.value env s) := by
  rw [value, value, Site.resolve?_moved]
  rcases s.resolve? env reference.steps with e | (- | t)
  · rfl
  · rfl
  · show ((t.moved k).decode env).map _ = relocated k id ((t.decode env).map _)
    rw [Site.decode_moved, map_relocated, relocated_map]
    rfl

/-! ### Filters -/

namespace Filter

/-- The reason why an evaluation came to an end, for a document further on. -/
def Halt.moved (k : Nat) : Halt → Halt
  | .failed e => .failed (e.moved k)
  | halt => halt

/-- A moved outcome is pushed as the outcome is, its failure moved. -/
theorem push_moved (stack : List Operand) (outcome : Except Error Operand) :
    push stack (relocated k id outcome) = (push stack outcome).mapError (Halt.moved k) := by
  cases outcome <;> rfl

/-- An operator does not look at the document. -/
theorem stepOperator_moved (op : Operator) (stack : List Operand) :
    (stepOperator env op stack).mapError (Halt.moved k) = stepOperator env op stack := by
  cases hstep : stepOperator env op stack with
  | ok stack' => rfl
  | error halt =>
      cases halt with
      | failed e =>
          obtain ⟨reason, rfl⟩ := error_of_stepOperator hstep
          rfl
      | _ => rfl

/-- One token, unless it is a reference from the root, does the same with a candidate at
another place. -/
theorem step_moved (root root' : Site) {t : Token} (ht : ∀ reference, t ≠ .root reference)
    (stack : List Operand) :
    step env root' (s.moved k) stack t =
      (step env root s stack t).mapError (Halt.moved k) := by
  cases t with
  | operator op => exact (stepOperator_moved op stack).symm
  | root reference => exact absurd rfl (ht reference)
  | candidate reference =>
      rw [step, step, Site.node_moved, Reference.value_moved, push_moved]
      cases s.node.isContainer <;> rfl
  | _ => rfl

/-- A filter without references to the root runs the same on a moved site. -/
theorem run_moved (root root' : Site) {ts : List Token}
    (hts : ∀ reference, .root reference ∉ ts) (stack : List Operand) :
    run env root' (s.moved k) stack ts =
      (run env root s stack ts).mapError (Halt.moved k) := by
  induction ts generalizing stack with
  | nil => rfl
  | cons t ts ih =>
      have ht : ∀ reference, t ≠ .root reference :=
        fun reference heq => hts reference (heq ▸ List.mem_cons_self)
      rw [run, run, step_moved root root' ht]
      cases step env root s stack t with
      | error halt => rfl
      | ok stack => exact ih (fun reference h => hts reference (List.mem_cons_of_mem t h)) stack

/-- **A filter without references from the root** says the same of a candidate at another
place. -/
theorem holds_moved (root root' : Site) {ts : List Token}
    (hts : ∀ reference, .root reference ∉ ts) :
    holds env ts root' (s.moved k) = relocated k id (holds env ts root s) := by
  rw [holds, holds, run_moved root root' hts]
  cases hrun : run env root s [] ts with
  | ok stack => rcases stack with - | ⟨v, - | ⟨w, stack⟩⟩ <;> rfl
  | error halt => cases halt <;> rfl

end Filter

/-! ### Walks -/

/-- A segment that has no reference from the root of the document. -/
def Segment.IsRelative (segment : Segment) : Prop :=
  ∀ ts, segment.selector = .filter ts → ∀ reference, Token.root reference ∉ ts

/-- The site of a moved child is the child's site moved. -/
theorem Child.site_moved (c : Child) : (c.moved k).site = c.site.moved k := by
  rcases c with ⟨_ | _, _⟩ <;> rfl

/-- **A selector selects the same** of a value at another place. -/
theorem Selector.selects_moved (root root' : Site) {selector : Selector}
    (h : ∀ ts, selector = .filter ts → ∀ reference, Token.root reference ∉ ts) (c : Child) :
    selector.selects env root' (c.moved k) = relocated k id (selector.selects env root c) := by
  cases selector with
  | filter ts =>
      rw [selects, selects, Child.site_moved]
      exact Filter.holds_moved root root' (h ts rfl)
  | names listed =>
      rcases c with ⟨⟨start, body⟩ | ⟨index, count⟩, t⟩
      · have hname :
            (MemberSite.moved k ⟨start, body, t⟩).name env =
              relocated k id (MemberSite.name env ⟨start, body, t⟩) := MemberSite.name_moved _
        simp only [MemberSite.name, MemberSite.moved] at hname
        simp only [Child.moved, selects]
        rw [hname, map_relocated, relocated_map]
        rfl
      · rfl
  | _ => rcases c with ⟨_ | _, _⟩ <;> rfl

/-- **A walk finds the same** below a value at another place, if its segments are relative. -/
theorem walk_moved (root root' : Site) {segments : List Segment}
    (h : ∀ segment ∈ segments, segment.IsRelative) :
    walk env root' segments (s.moved k) =
      relocated k (List.map (Site.moved k)) (walk env root segments s) := by
  induction hn : s.node.size using Nat.strongRecOn generalizing s segments with
  | _ n ih =>
  rcases segments with - | ⟨segment, later⟩
  · rw [walk, walk]
    rfl
  cases hfunction : segment.isFunction with
  | true =>
      rw [walk, walk, if_pos hfunction, if_pos hfunction]
      rfl
  | false =>
      rw [walk_eq root' segment later _ hfunction, walk_eq root segment later s hfunction,
        Site.children_moved]
      refine gather_relocated fun c hc => ?_
      have hlt : c.site.node.size < n := hn ▸ Site.size_lt_of_mem_children hc
      have hlater := ih _ hlt (fun g hg => h g (List.mem_cons_of_mem segment hg)) rfl
      have hsame := ih _ hlt h rfl
      rw [visit_eq, visit_eq, Child.site_moved, hlater, hsame,
        Selector.selects_moved root root' (h segment List.mem_cons_self)]
      cases segment.selector.selects env root c with
      | error e => rfl
      | ok selected =>
          show joined _ _ = relocated k (List.map (Site.moved k)) (joined _ _)
          rw [← joined_relocated]
          cases selected <;> cases segment.detached <;> rfl

/-! ### Functions and results -/

namespace Site

/-- The number of a value at another place. -/
theorem number_moved : (s.moved k).number env = relocated k id (s.number env) := by
  rw [number, number, node_moved, text_moved, decode_moved]
  cases s.node.isContainer with
  | true => rfl
  | false =>
      cases s.decode env with
      | error e => rfl
      | ok text =>
          dsimp only [relocated, id]
          cases numberOf? text <;> rfl

end Site

namespace Aggregate

/-- Folding over moved sites gives the same number, or fails that much later. -/
theorem foldNumbers_moved (function : Aggregate) (result : Binary64) (items : List Site) :
    function.foldNumbers env result (items.map (Site.moved k)) =
      relocated k id (function.foldNumbers env result items) := by
  induction items generalizing result with
  | nil => rfl
  | cons s rest ih =>
      rw [List.map_cons, foldNumbers, foldNumbers, Site.number_moved]
      cases s.number env with
      | error e => rfl
      | ok x => exact ih _

/-- A numeric function of moved sites gives the same text, or fails that much later. -/
theorem onNumbers_moved (function : Aggregate) (items : List Site) :
    function.onNumbers env (items.map (Site.moved k)) =
      relocated k id (function.onNumbers env items) := by
  cases items with
  | nil => rfl
  | cons s rest =>
      rw [List.map_cons, onNumbers, onNumbers, Site.number_moved]
      cases s.number env with
      | error e => rfl
      | ok x =>
          dsimp only [relocated, id]
          rw [foldNumbers_moved, List.length_map]
          cases function.foldNumbers env x rest with
          | error e => rfl
          | ok result =>
              dsimp only [relocated, id, resultText]
              split <;> split <;> rfl

/-- A function of moved sites gives the same text, or fails that much later. -/
theorem onItems_moved (function : Aggregate) (items : List Site) :
    function.onItems env (items.map (Site.moved k)) =
      relocated k id (function.onItems env items) := by
  cases function with
  | length => simp [onItems, relocated]
  | first =>
      cases items with
      | nil => rfl
      | cons s rest =>
          rw [List.map_cons, onItems, onItems, Site.decode_moved, map_relocated, relocated_map]
          rfl
  | _ =>
      simp only [onItems]
      rw [onNumbers_moved, map_relocated, relocated_map]
      rfl

/-- **A function does not depend on places**, except for the places that its errors report. -/
theorem apply_moved (function : Aggregate) (definite : Bool) (found : List Site) :
    function.apply env definite (found.map (Site.moved k)) =
      relocated k id (function.apply env definite found) := by
  cases definite with
  | false => exact onItems_moved function found
  | true =>
      cases found with
      | nil => rfl
      | cons s rest =>
          show (if (s.moved k).node.isArray then function.onItems env (s.moved k).elements else _) =
            relocated k id (if s.node.isArray then function.onItems env s.elements else _)
          rw [Site.node_moved, Site.elements_moved, onItems_moved]
          cases s.node.isArray <;> rfl

end Aggregate

/-- The array of moved matches has the same text. -/
theorem arrayText_moved (found : List Site) :
    arrayText (found.map (Site.moved k)) = arrayText found := by
  rw [arrayText, arrayText, List.map_map]
  rfl

/-- **A result does not depend on places**, except for the places that its errors report. -/
theorem matchesText_moved (definite : Bool) (found : List Site) :
    matchesText env definite (found.map (Site.moved k)) =
      relocated k id (matchesText env definite found) := by
  cases found with
  | nil => rfl
  | cons s rest =>
      cases definite with
      | true =>
          simp only [List.map_cons, matchesText, if_true]
          rw [Site.decode_moved, map_relocated, relocated_map]
          rfl
      | false =>
          exact congrArg (fun text => (.ok (some text) : Except Error (Option (List Char))))
            (arrayText_moved (s :: rest))

end JsonPath
