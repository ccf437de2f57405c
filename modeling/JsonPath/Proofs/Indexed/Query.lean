import JsonPath.Proofs.Indexed.Cursor
import JsonPath.Proofs.Indexed.Operand
import JsonPath.Proofs.Indexed.Path
import JsonPath.Proofs.Query.Positions

/-!
# Queries on Bytes

A program that runs a path on a document keeps the segments in an array and the values as offsets.
It takes the segment at a position, scans the children of a value, decodes those that a selector has
to look at, and collects the offsets of the values it finds. A filter runs on a stack of operands
that are decoded from the document. Behind the walk come the segments from the first function on, as
a part of the array; a further function works on the text of the one before, which is a document of
its own.

Each piece comes to what it comes to on the tree: the filter (`holds_eq`), the walk (`walkAt_eq`),
by induction on the size of the value, which the program does not know, and the functions
(`applySegments_eq`). Two invariants carry this. The values stand in their document (`Located`), so
no byte and no part of it is missing; and a segment that selects stands at the position of the walk,
since a path that was read has its functions at its end, so no segment is missing either.

## Main definitions

* `holds`: whether a filter holds for a candidate.
* `walkAt`: the values that the segments from a position on lead to.
* `apply`, `applySegments`: one function, and the loop over all of them.
* `evaluate`, `query`: a path on a value, and a path on a document, both as texts.

## Main results

* `evaluate_eq`: a well-formed path on the value of a document.
* `query_eq`: **a query on two texts** comes to what it comes to, be that a result or an error.
* `takes_no_missing_part`: **no text makes the program take a part that does not exist**.
-/

namespace JsonPath.Indexed

open Text Document

/-! ### Filters -/

/-- Whether a value can have children. -/
def Cursor.isContainer (text : List Char) (c : Cursor) : Checked Bool := do
  let kind ← c.kind text
  pure (kind == .object || kind == .array)

/-- The text of the value that a reference leads to; no value if it leads to none. -/
def referenced (env : Environment) (text : List Char) (base : Cursor) (reference : Reference) :
    Checked Operand := do
  match ← base.resolve? env text reference.steps with
  | none => pure .absent
  | some found =>
    let decoded ← found.decode env text
    pure (.text (String.ofList decoded))

/-- An operator takes its operands off the stack and puts its result on. -/
def stepOperator (env : Environment) (tokens : List Token) (op : Operator) (stack : List Operand) :
    Checked (Option (List Operand)) :=
  match op.role, stack with
  | .unary, v :: stack => pure (some (truth (!v.isTruthy) :: stack))
  | .binary, right :: left :: stack => do
    let result ← applyBinary env tokens op left right
    pure (some (result :: stack))
  | _, _ => throw (.unevaluable (Token.displayAll tokens))

/-- One token of a filter on the stack; there is no stack behind a reference to a candidate that is
no container. -/
def step (env : Environment) (text : List Char) (tokens : List Token) (root candidate : Cursor)
    (stack : List Operand) :
    Token → Checked (Option (List Operand))
  | .operator op => stepOperator env tokens op stack
  | .root reference => do
    let value ← referenced env text root reference
    pure (some (value :: stack))
  | .candidate reference => do
    if ← candidate.isContainer text then
      let value ← referenced env text candidate reference
      pure (some (value :: stack))
    else
      pure none
  | .text s => pure (some (.text s :: stack))
  | .number literal => pure (some (.double literal.value :: stack))
  | .opening | .closing => pure (some stack)

/-- The stack after all tokens. -/
def run (env : Environment) (text : List Char) (tokens : List Token) (root candidate : Cursor)
    (stack : List Operand) :
    List Token → Checked (Option (List Operand))
  | [] => pure (some stack)
  | t :: rest => do
    match ← step env text tokens root candidate stack t with
    | none => pure none
    | some stack => run env text tokens root candidate stack rest

/-- Whether a filter holds for a candidate. -/
def holds (env : Environment) (text : List Char) (tokens : List Token) (root candidate : Cursor) :
    Checked Bool := do
  match ← run env text tokens root candidate [] tokens with
  | none => pure false
  | some [result] => pure result.isTruthy
  | some _ => throw (.unevaluable (Token.displayAll tokens))

/-- What a program makes of the stack, or of the end of an evaluation before its last token. -/
def unlessHalted (tokens : List Token) :
    Except Filter.Halt (List Operand) → Checked (Option (List Operand))
  | .ok stack => pure (some stack)
  | .error .rejected => pure none
  | .error .unevaluable => throw (.unevaluable (Token.displayAll tokens))
  | .error (.failed e) => throw e

section Filters

variable {env : Environment} {text : List Char} {root candidate s : Site}

/-- Whether a value holds others is seen at its cursor as in the tree. -/
theorem Cursor.isContainer_eq (h : Located text s) :
    (Cursor.of s).isContainer text = pure s.node.isContainer := by
  rw [Cursor.isContainer, Cursor.kind_eq h, pure_bind]
  obtain ⟨start, node⟩ := s
  cases node <;> rfl

/-- **A reference** stands for what it stands for in the tree. -/
theorem referenced_eq (h : Located text s) (reference : Reference) :
    referenced env text (.of s) reference = Checked.ofExcept (reference.value env s) := by
  rw [referenced, Cursor.resolve?_eq h, Reference.value]
  cases hfound : s.resolve? env reference.steps with
  | error e => rfl
  | ok found =>
      cases found with
      | none => rfl
      | some t =>
          have hdecode : (Cursor.of t).decode env text = Checked.ofExcept (t.decode env) :=
            Cursor.decode_eq (h.resolve? hfound)
          simp only [Except.map, Option.map, Checked.ofExcept_ok, pure_bind, hdecode]
          cases t.decode env <;> rfl

/-- An outcome is pushed as it is in the evaluation on the tree. -/
theorem push_eq (tokens : List Token) (stack : List Operand) (outcome : Except Error Operand) :
    (Checked.ofExcept outcome >>= fun value => pure (some (value :: stack))) =
      unlessHalted tokens (Filter.push stack outcome) := by
  cases outcome <;> rfl

/-- An operator steps as it does in the evaluation on the tree. -/
theorem stepOperator_eq (tokens : List Token) (op : Operator) (stack : List Operand) :
    stepOperator env tokens op stack = unlessHalted tokens (Filter.stepOperator env op stack) := by
  rw [stepOperator.eq_def, Filter.stepOperator.eq_def]
  cases op.role with
  | none => rfl
  | operand => rfl
  | unary => cases stack <;> rfl
  | binary =>
      rcases stack with - | ⟨right, - | ⟨left, stack⟩⟩
      · rfl
      · rfl
      · dsimp only
        rw [applyBinary_eq]
        cases JsonPath.applyBinary env op left right with
        | none => rfl
        | some outcome => exact push_eq tokens stack outcome

/-- **A token** does to the stack what it does in the evaluation of the filter. -/
theorem step_eq (hroot : Located text root) (hcandidate : Located text candidate)
    (tokens : List Token) (stack : List Operand) (t : Token) :
    step env text tokens (.of root) (.of candidate) stack t =
      unlessHalted tokens (Filter.step env root candidate stack t) := by
  cases t with
  | operator op => exact stepOperator_eq tokens op stack
  | root reference =>
      rw [step, referenced_eq hroot]
      exact push_eq tokens stack _
  | candidate reference =>
      rw [step, Cursor.isContainer_eq hcandidate, pure_bind, referenced_eq hcandidate, Filter.step]
      cases candidate.node.isContainer with
      | true => exact push_eq tokens stack _
      | false => rfl
  | text s => rfl
  | number literal => rfl
  | opening => rfl
  | closing => rfl

/-- **A filter runs** on located sites as it does on the tree. -/
theorem run_eq (hroot : Located text root) (hcandidate : Located text candidate)
    (tokens : List Token) (stack : List Operand) (rest : List Token) :
    run env text tokens (.of root) (.of candidate) stack rest =
      unlessHalted tokens (Filter.run env root candidate stack rest) := by
  induction rest generalizing stack with
  | nil => rfl
  | cons t rest ih =>
      rw [run, step_eq hroot hcandidate, Filter.run]
      rcases Filter.step env root candidate stack t with (- | - | e) | stack
      · rfl
      · rfl
      · rfl
      · exact ih stack

/-- **A filter** holds for a candidate if it holds in the tree. -/
theorem holds_eq (hroot : Located text root) (hcandidate : Located text candidate)
    (tokens : List Token) :
    holds env text tokens (.of root) (.of candidate) =
      Checked.ofExcept (Filter.holds env tokens root candidate) := by
  rw [holds, run_eq hroot hcandidate, Filter.holds]
  cases Filter.run env root candidate [] tokens with
  | error halt => cases halt <;> rfl
  | ok stack => rcases stack with - | ⟨v, - | ⟨w, stack⟩⟩ <;> rfl

end Filters

/-! ### Walks -/

/-- Whether a selector selects a member. -/
def selectsMember (env : Environment) (text : List Char) (root : Cursor) (selector : Selector)
    (key value : Cursor) :
    Checked Bool :=
  match selector with
  | .all => pure true
  | .names listed => do
    let name ← key.decode env text
    pure (listed.contains (String.ofList name))
  | .filter tokens => holds env text tokens root value
  | _ => pure false

/-- Whether a selector selects an element. -/
def selectsElement (env : Environment) (text : List Char) (root : Cursor) (selector : Selector)
    (element : Cursor)
    (index count : Nat) : Checked Bool :=
  match selector with
  | .filter tokens => holds env text tokens root element
  | _ => pure (selector.picksPosition index count)

mutual

/-- The values below a value that the segments from a position on lead to. -/
def walkAt (env : Environment) (text : List Char) (root : Cursor) (segments : List Segment)
    (position : Nat)
    (c : Cursor) : Checked (List Cursor) := do
  match ← c.kind text with
  | .object =>
    let segment ← Checked.ofOption segments[position]?
    let members ← c.members text
    let found ← members.mapM fun member =>
      visitMember env text root segments position c segment member
    pure found.flatten
  | .array =>
    let segment ← Checked.ofOption segments[position]?
    let elements ← c.elements text
    -- positions can count from the end, so all elements are counted first
    let counted ← elements.mapM Checked.ofExcept
    let found ← elements.zipIdx.mapM fun (element, index) =>
      visitElement env text root segments position c segment element index counted.length
    pure found.flatten
  | _ => pure []
termination_by (byteSize text - c.start, 3)

/-- What is found at a member. -/
def visitMember (env : Environment) (text : List Char) (root : Cursor) (segments : List Segment)
    (position : Nat)
    (c : Cursor) (segment : Segment) (member : Except Error (Cursor × Cursor)) :
    Checked (List Cursor) := do
  let (key, value) ← Checked.ofExcept member
  let selected ← selectsMember env text root segment.selector key value
  visitAt env text root segments position c segment value selected
termination_by (byteSize text - c.start, 2)

/-- What is found at an element. -/
def visitElement (env : Environment) (text : List Char) (root : Cursor) (segments : List Segment)
    (position : Nat)
    (c : Cursor) (segment : Segment) (element : Except Error Cursor) (index count : Nat) :
    Checked (List Cursor) := do
  let element ← Checked.ofExcept element
  let selected ← selectsElement env text root segment.selector element index count
  visitAt env text root segments position c segment element selected
termination_by (byteSize text - c.start, 2)

/-- What is found at a child: with the later segments if it is selected, and below it with the same
segment if that is detached. -/
def visitAt (env : Environment) (text : List Char) (root : Cursor) (segments : List Segment)
    (position : Nat)
    (c : Cursor) (segment : Segment) (child : Cursor) (selected : Bool) :
    Checked (List Cursor) := do
  let found ← if selected then nextAt env text root segments position c child else pure []
  let more ←
    if segment.detached then
      onward text c.start child.start fun _ => walkAt env text root segments position child
    else
      pure []
  pure (found ++ more)
termination_by (byteSize text - c.start, 1)

/-- What is found at a child that is selected: the child, if the path ends there or goes on with a
function, and otherwise what the next segment leads to. -/
def nextAt (env : Environment) (text : List Char) (root : Cursor) (segments : List Segment)
    (position : Nat)
    (c child : Cursor) : Checked (List Cursor) := do
  if position + 1 = segments.length then
    pure [child]
  else
    let next ← Checked.ofOption segments[position + 1]?
    if next.isFunction then
      pure [child]
    else
      onward text c.start child.start fun _ => walkAt env text root segments (position + 1) child
termination_by (byteSize text - c.start, 0)

end

/-- What a walk finds, by its places. -/
def places (outcome : Except Error (List Site)) : Checked (List Cursor) :=
  Checked.ofExcept (outcome.map (List.map .of))

section Walks

variable {env : Environment} {text : List Char} {position : Nat} {c : Cursor}
  {root site child : Site}
  {segments later : List Segment} {segment : Segment}

/-- **A member** is selected if it is selected in the tree. -/
theorem selectsMember_eq (hroot : Located text root) {m : MemberSite}
    (hkey : Located text m.keySite) (hvalue : Located text m.value) (selector : Selector) :
    selectsMember env text (.of root) selector (.of m.keySite) (.of m.value) =
      Checked.ofExcept (selector.selects env root ⟨.key m.keyStart m.key, m.value⟩) := by
  cases selector with
  | names listed =>
      have hname : m.keySite.decode env = decodeAt env m.keyStart m.key := rfl
      rw [selectsMember, Cursor.decode_eq hkey, hname, Selector.selects.eq_def]
      dsimp only
      cases decodeAt env m.keyStart m.key <;> rfl
  | filter tokens => exact holds_eq hroot hvalue tokens
  | _ => rfl

/-- **An element** is selected if it is selected in the tree. -/
theorem selectsElement_eq (hroot : Located text root) (hsite : Located text site)
    (selector : Selector) (index count : Nat) :
    selectsElement env text (.of root) selector (.of site) index count =
      Checked.ofExcept (selector.selects env root ⟨.position index count, site⟩) := by
  cases selector with
  | filter tokens => exact holds_eq hroot hsite tokens
  | _ => rfl

/-- What is found at each value of a list, one after the other. -/
theorem places_gather {α β : Type} {f : β → Checked (List Cursor)}
    {g : α → Except Error (List Site)} {place : α → β} {l : List α}
    (h : ∀ a ∈ l, f (place a) = places (g a)) :
    ((l.map place).mapM f >>= fun found => pure found.flatten) = places (gather g l) := by
  induction l with
  | nil => rfl
  | cons a l ih =>
      have hlater := ih fun b hb => h b (List.mem_cons_of_mem a hb)
      rw [List.map_cons, List.mapM_cons, h a List.mem_cons_self, gather]
      cases g a with
      | error e => rfl
      | ok found =>
          have hjoin : places ((gather g l).map (found ++ ·)) =
              places (gather g l) >>= fun more => pure (found.map .of ++ more) := by
            cases gather g l with
            | error e => rfl
            | ok more => simp [places, Except.map]
          dsimp only
          rw [hjoin, ← hlater]
          simp [places, Except.map]

/-- The walk goes on below a child, if there is a further segment that is no function. -/
theorem nextAt_eq (h : segments.drop position = segment :: later)
    (hchild : c.start < (Cursor.of child).start ∧ (Cursor.of child).start ≤ byteSize text)
    (hwalk : ∀ next rest, later = next :: rest → next.isFunction = false →
      walkAt env text (.of root) segments (position + 1) (.of child) =
        places (walk env root later child)) :
    nextAt env text (.of root) segments position c (.of child) =
      places (walk env root later child) := by
  have hlater : segments.drop (position + 1) = later := by
    rw [← List.tail_drop, h, List.tail_cons]
  have hlength : segments.length - position = later.length + 1 := by
    rw [← List.length_drop, h, List.length_cons]
  rw [nextAt, ← List.head?_drop, hlater, onward_eq hchild]
  cases later with
  | nil =>
      have hlast : position + 1 = segments.length := by
        rw [List.length_nil] at hlength
        omega
      rw [if_pos hlast, walk]
      rfl
  | cons next rest =>
      have hmore : position + 1 ≠ segments.length := by
        rw [List.length_cons] at hlength
        omega
      rw [if_neg hmore]
      cases hfunction : next.isFunction with
      | true => simp [hfunction, walk, places, Except.map]
      | false => simpa [hfunction] using hwalk next rest rfl hfunction

section Children

variable {later same : Except Error (List Site)}
  (hchild : c.start < (Cursor.of child).start ∧ (Cursor.of child).start ≤ byteSize text)
  (hlater : nextAt env text (.of root) segments position c (.of child) = places later)
  (hsame : walkAt env text (.of root) segments position (.of child) = places same)

include hchild hlater hsame

/-- A child that was decided on is visited as it is in the tree. -/
theorem visitAt_eq (selected : Bool) :
    visitAt env text (.of root) segments position c segment (.of child) selected =
      places (joined (if selected then later else .ok [])
        (if segment.detached then same else .ok [])) := by
  rw [visitAt, hlater, onward_eq hchild, hsame]
  cases selected <;> cases segment.detached <;> cases later <;> cases same <;>
    simp [places, joined, Except.map]

/-- A member is visited as it is in the tree. -/
theorem visitMember_eq (hroot : Located text root) {m : MemberSite} (hkey : Located text m.keySite)
    (hvalue : Located text m.value) (hm : m.value = child) :
    visitMember env text (.of root) segments position c segment (.ok (.of m.keySite, .of m.value)) =
      places (visit env root segment ⟨.key m.keyStart m.key, m.value⟩ later same) := by
  subst hm
  rw [visitMember, visit_eq, Checked.ofExcept_ok, pure_bind]
  dsimp only
  rw [selectsMember_eq hroot hkey hvalue]
  cases segment.selector.selects env root ⟨.key m.keyStart m.key, m.value⟩ with
  | error e => rfl
  | ok selected => exact visitAt_eq hchild hlater hsame selected

/-- An element is visited as it is in the tree. -/
theorem visitElement_eq (hroot : Located text root) (hsite : Located text child)
    (index count : Nat) :
    visitElement env text (.of root) segments position c segment (.ok (.of child)) index count =
      places (visit env root segment ⟨.position index count, child⟩ later same) := by
  rw [visitElement, visit_eq, Checked.ofExcept_ok, pure_bind, selectsElement_eq hroot hsite]
  cases segment.selector.selects env root ⟨.position index count, child⟩ with
  | error e => rfl
  | ok selected => exact visitAt_eq hchild hlater hsame selected

end Children

/-- All elements that can be read are counted. -/
theorem counted_eq (elements : List Site) :
    (elements.map fun t => (.ok (.of t) : Except Error Cursor)).mapM Checked.ofExcept =
      pure (elements.map .of) := by
  induction elements with
  | nil => rfl
  | cons t elements ih => simp [ih]

/-- **The walk by offsets is the walk**, from a segment that selects. The induction is on the size
of the value. -/
theorem walkAt_eq (env : Environment) (hroot : Located text root) (hsite : Located text site)
    (h : segments.drop position = segment :: later) (hsegment : segment.isFunction = false) :
    walkAt env text (.of root) segments position (.of site) =
      places (walk env root (segment :: later) site) := by
  induction hn : site.node.size using Nat.strongRecOn generalizing site segment later position with
  | _ n ih =>
  have hposition : segments[position]? = some segment := by
    rw [← List.head?_drop, h]
    rfl
  have hsame (c : Child) (hc : c ∈ site.children) :
      walkAt env text (.of root) segments position (.of c.site) =
        places (walk env root (segment :: later) c.site) :=
    ih _ (hn ▸ Site.size_lt_of_mem_children hc) (hsite.child hc) h hsegment rfl
  have hlater (c : Child) (hc : c ∈ site.children) :
      nextAt env text (.of root) segments position (.of site) (.of c.site) =
        places (walk env root later c.site) := by
    refine nextAt_eq h (hsite.start_lt hc) ?_
    rintro next rest rfl hnext
    refine ih _ (hn ▸ Site.size_lt_of_mem_children hc) (hsite.child hc) ?_ hnext rfl
    rw [← List.tail_drop, h, List.tail_cons]
  have helements := Cursor.elements_eq hsite
  have hmembers := Cursor.members_eq hsite
  rw [walkAt, Cursor.kind_eq hsite, pure_bind, hposition, walk_eq root segment later site hsegment]
  obtain ⟨start, node⟩ := site
  cases node with
  | array items =>
      have hplace : ((⟨start, .array items⟩ : Site).elements.map fun t =>
            (.ok (.of t) : Except Error Cursor)).zipIdx =
          (items.sites (start + 1)).zipIdx.map fun p => (.ok (.of p.1), p.2) :=
        List.zipIdx_map
      dsimp only [Node.kind]
      rw [Checked.ofOption_some, pure_bind, helements, pure_bind, counted_eq, pure_bind, hplace,
        Site.children, gather_map]
      refine places_gather fun p hp => ?_
      have hchild : ⟨.position p.2 (items.sites (start + 1)).length, p.1⟩ ∈
          (⟨start, .array items⟩ : Site).children := List.mem_map.2 ⟨p, hp, rfl⟩
      rw [List.length_map]
      exact visitElement_eq (hsite.start_lt hchild) (hlater _ hchild) (hsame _ hchild) hroot
        (hsite.child hchild) _ _
  | object members =>
      dsimp only [Node.kind]
      rw [Checked.ofOption_some, pure_bind, hmembers, pure_bind, Site.children, gather_map]
      refine places_gather fun m hm => ?_
      have hchild : ⟨.key m.keyStart m.key, m.value⟩ ∈ (⟨start, .object members⟩ : Site).children :=
        List.mem_map.2 ⟨m, hm, rfl⟩
      exact visitMember_eq (hsite.start_lt hchild) (hlater _ hchild) (hsame _ hchild) hroot
        (hsite.key hm) (hsite.value hm) rfl
  | _ => rfl

end Walks

/-! ### Functions -/

/-- The number that a value stands for. -/
def Cursor.number (env : Environment) (text : List Char) (c : Cursor) : Checked Binary64 := do
  if ← c.isContainer text then
    let written ← c.written text
    throw (Unfit.notNumber written).error
  else
    let decoded ← c.decode env text
    match ← numberOf? decoded with
    | some x => pure x
    | none =>
      let written ← c.written text
      throw (Unfit.notNumber written).error

/-- A numeric function on the numbers of values, from a first number on. -/
def foldNumbers (env : Environment) (text : List Char) (function : Aggregate) (result : Binary64) :
    List Cursor → Checked Binary64
  | [] => pure result
  | c :: rest => do
    let x ← c.number env text
    foldNumbers env text function (function.combine result x) rest

/-- A numeric function on values. -/
def onNumbers (env : Environment) (text : List Char) (function : Aggregate) :
    List Cursor → Checked (List Char)
  | [] => throw Unfit.noValues.error
  | c :: rest => do
    let x ← c.number env text
    let result ← foldNumbers env text function x rest
    Checked.ofExcept
      (resultText (if function = .avg then result.div (.ofNat (rest.length + 1)) else result))

/-- A function on values. -/
def onItems (env : Environment) (text : List Char) (function : Aggregate) (items : List Cursor) :
    Checked (Option (List Char)) :=
  match function with
  | .length => pure (some (Binary64.digits items.length))
  | .first =>
    match items with
    | [] => pure none
    | c :: _ => do
      let decoded ← c.decode env text
      pure (some decoded)
  | _ => do
    let result ← onNumbers env text function items
    pure (some result)

/-- A function on what a path leads to. -/
def apply (env : Environment) (text : List Char) (function : Aggregate) (definite : Bool)
    (found : List Cursor) :
    Checked (Option (List Char)) := do
  if definite then
    match found with
    | [] => throw Unfit.notArray.error
    | c :: _ =>
      if (← c.kind text) = .array then
        let elements ← c.elements text
        let items ← elements.mapM Checked.ofExcept
        onItems env text function items
      else
        throw Unfit.notArray.error
  else
    onItems env text function found

/-- The text of a function as the one value of the next function. -/
def reread (text : List Char) : Checked Cursor :=
  if byteAt? text 0 = some '[' then parse text else throw Unfit.notArray.error

/-- One function of a chain: the first works on what the path leads to, a later one on the text of
the one before. -/
def applyAfter (env : Environment) (text : List Char) (function : Aggregate) (definite : Bool)
    (input : List Cursor) :
    (chained : Option (List Char)) → Checked (Option (List Char))
  | none => apply env text function definite input
  | some previous => do
    let c ← reread previous
    apply env previous function true [c]

/-- The functions of a path, applied in a loop over its segments from the first function on. -/
def applySegments (env : Environment) (text : List Char) (definite : Bool) (input : List Cursor)
    (chained : Option (List Char)) : List Segment → Checked (Option (List Char))
  | [] => pure chained
  | segment :: later =>
    match segment.selector with
    | .apply function => do
      match ← applyAfter env text function definite input chained with
      | none => pure none
      | some result => applySegments env text definite input (some result) later
    | _ => applySegments env text definite input chained later

section Functions

variable {env : Environment} {text : List Char} {s : Site} {found : List Site}

/-- **A number** is had from a value as it is in the tree. -/
theorem Cursor.number_eq (h : Located text s) :
    (Cursor.of s).number env text = Checked.ofExcept (s.number env) := by
  rw [Cursor.number, Cursor.isContainer_eq h, pure_bind, Cursor.written_eq h, Cursor.decode_eq h,
    Site.number]
  split
  · rfl
  cases s.decode env with
  | error e => rfl
  | ok decoded =>
      simp only [Checked.ofExcept_ok, pure_bind, numberOf?_eq]
      cases JsonPath.numberOf? decoded <;> rfl

/-- Numbers are folded over cursors as they are over sites. -/
theorem foldNumbers_eq (function : Aggregate) (result : Binary64)
    (h : ∀ s ∈ found, Located text s) :
    foldNumbers env text function result (found.map .of) =
      Checked.ofExcept (function.foldNumbers env result found) := by
  induction found generalizing result with
  | nil => rfl
  | cons s found ih =>
      obtain ⟨hs, hfound⟩ := List.forall_mem_cons.1 h
      rw [List.map_cons, foldNumbers, Cursor.number_eq hs, Aggregate.foldNumbers]
      cases s.number env with
      | error e => rfl
      | ok x => exact ih _ hfound

/-- A numeric function works on cursors as it does on sites. -/
theorem onNumbers_eq (function : Aggregate) (h : ∀ s ∈ found, Located text s) :
    onNumbers env text function (found.map .of) =
      Checked.ofExcept (function.onNumbers env found) := by
  cases found with
  | nil => rfl
  | cons s found =>
      obtain ⟨hs, hfound⟩ := List.forall_mem_cons.1 h
      rw [List.map_cons, onNumbers, Cursor.number_eq hs, Aggregate.onNumbers]
      cases s.number env with
      | error e => rfl
      | ok x =>
          simp only [Checked.ofExcept_ok, pure_bind, foldNumbers_eq function x hfound,
            List.length_map]
          cases function.foldNumbers env x found <;> rfl

/-- **A function** comes to what it comes to on the values of the tree. -/
theorem onItems_eq (env : Environment) (function : Aggregate) (h : ∀ s ∈ found, Located text s) :
    onItems env text function (found.map .of) = Checked.ofExcept (function.onItems env found) := by
  have hnumbers :
      (onNumbers env text function (found.map .of) >>= fun result => pure (some result)) =
      Checked.ofExcept ((function.onNumbers env found).map some) := by
    rw [onNumbers_eq function h]
    cases function.onNumbers env found <;> rfl
  cases function with
  | length => rw [onItems, List.length_map, Aggregate.onItems, Checked.ofExcept_ok]
  | first =>
      cases found with
      | nil => rfl
      | cons s found =>
          rw [List.map_cons, onItems, Cursor.decode_eq (h s List.mem_cons_self), Aggregate.onItems]
          cases s.decode env <;> rfl
  | _ => exact hnumbers

/-- **A function** works on cursors as it does on sites. -/
theorem apply_eq (env : Environment) (function : Aggregate) (definite : Bool)
    (h : ∀ s ∈ found, Located text s) :
    apply env text function definite (found.map .of) =
      Checked.ofExcept (function.apply env definite found) := by
  rw [apply.eq_def, Aggregate.apply.eq_def]
  cases definite with
  | false => exact onItems_eq env function h
  | true =>
      cases found with
      | nil => rfl
      | cons s found =>
          have hs := h s List.mem_cons_self
          have hitems := onItems_eq env function fun t ht => hs.element ht
          have harray : s.node.kind = .array ↔ s.node.isArray = true := by
            cases s.node <;> simp [Node.kind, Node.isArray]
          simp only [List.map_cons, if_true, Cursor.kind_eq hs, pure_bind, harray,
            Cursor.elements_eq hs, counted_eq, hitems]
          split <;> rfl

/-- **The text of a function** is read again as it is. -/
theorem reread_eq (text : List Char) :
    reread text = Checked.ofExcept ((JsonPath.reread text).map Cursor.of) := by
  have hwhole : text <:+ text := List.suffix_refl text
  have hfirst := byteAt?_eq_some_iff hwhole (show '['.toNat < 128 by decide)
  rw [offsetIn, Nat.sub_self] at hfirst
  rw [reread, JsonPath.reread, parse_eq]
  simp only [hfirst]
  split <;> rfl

/-- A text that is read again is a located site. -/
theorem located_of_reread (h : JsonPath.reread text = .ok s) : Located text s := by
  rw [JsonPath.reread] at h
  split at h
  · obtain ⟨after, hplaced⟩ := placed_of_ofString h
    rw [String.toList_ofList] at hplaced
    exact ⟨0, after, hplaced⟩
  · cases h

/-- Behind a first result the remaining functions work on the texts, as the chain of them does. -/
theorem applySegments_some (definite : Bool) (input : List Cursor) {segments : List Segment}
    (h : ∀ segment ∈ segments, segment.isFunction = true) (previous : List Char) :
    applySegments env text definite input (some previous) segments =
      Checked.ofExcept (applyChain env previous (functionsOf segments)) := by
  induction segments generalizing previous with
  | nil => rfl
  | cons segment later ih =>
      obtain ⟨hsegment, hlater⟩ := List.forall_mem_cons.1 h
      obtain ⟨function, hfunction⟩ := exists_function hsegment
      rw [applySegments, functionsOf_cons hfunction, applyChain, hfunction]
      dsimp only [applyAfter]
      rw [reread_eq]
      cases hread : JsonPath.reread previous with
      | error e => rfl
      | ok s =>
          have happly :=
            apply_eq env function true (List.forall_mem_singleton.2 (located_of_reread hread))
          simp only [Except.map, Checked.ofExcept_ok, pure_bind]
          rw [← List.map_singleton, happly]
          rcases function.apply env true [s] with e | (- | result)
          · rfl
          · rfl
          · exact ih hlater result

/-- **The loop applies the functions** one after the other if all segments are functions. -/
theorem applySegments_eq (env : Environment) (definite : Bool) {segments : List Segment}
    (h : ∀ segment ∈ segments, segment.isFunction = true) (hfound : ∀ s ∈ found, Located text s) :
    applySegments env text definite (found.map .of) none segments =
      Checked.ofExcept (applyAll env definite found (functionsOf segments)) := by
  cases segments with
  | nil => rfl
  | cons segment later =>
      obtain ⟨hsegment, hlater⟩ := List.forall_mem_cons.1 h
      obtain ⟨function, hfunction⟩ := exists_function hsegment
      rw [applySegments, functionsOf_cons hfunction, applyAll, hfunction]
      dsimp only [applyAfter]
      rw [apply_eq env function definite hfound]
      rcases function.apply env definite found with e | (- | result)
      · rfl
      · rfl
      · exact applySegments_some definite _ hlater result

end Functions

/-! ### Whole paths -/

/-- The part of a list from a position on. The program breaks off if the list does not go on to
there. -/
def dropFrom {α : Type} (l : List α) (i : Nat) : Checked (List α) :=
  if i ≤ l.length then pure (l.drop i) else Checked.broken

/-- The text of the values that a path leads to. -/
def matchesText (env : Environment) (text : List Char) (definite : Bool) (found : List Cursor) :
    Checked (Option (List Char)) :=
  match found with
  | [] => pure none
  | c :: _ => do
    if definite then
      let decoded ← c.decode env text
      pure (some decoded)
    else
      let written ← found.mapM (Cursor.written text)
      pure (some ('[' :: ([','].intercalate written ++ [']'])))

/-- What a path gives for the values that its walk finds. Functions that no walk comes before are
applied to the root. -/
def resultOf (env : Environment) (text : List Char) (p : Path) (root : Cursor)
    (found : List Cursor) :
    Checked (Option (List Char)) := do
  let functionsAt := p.segments.findIdx Segment.isFunction
  if functionsAt < p.segments.length then
    let functions ← dropFrom p.segments functionsAt
    applySegments env text p.isDefinite (if functionsAt = 0 then [root] else found) none functions
  else
    matchesText env text p.isDefinite found

/-- The path on a value, which `$` in filters stands for as well. -/
def evaluate (env : Environment) (text : List Char) (p : Path) (root : Cursor) :
    Checked (Option String) := do
  let functionsAt := p.segments.findIdx Segment.isFunction
  let found ← if 0 < functionsAt then walkAt env text root p.segments 0 root else pure []
  let result ← resultOf env text p root found
  pure (result.map String.ofList)

/-- A path on a document, both as texts. -/
def query (env : Environment) (document path : List Char) : Checked (Option String) := do
  let p ← compile path
  let root ← parse document
  evaluate env document p root

section Paths

variable {env : Environment} {text after : List Char} {root s : Site} {found : List Site} {p : Path}
  {selecting functions : List Segment}

/-- The matches are written at their cursors as they are in the tree. -/
theorem mapM_written_eq (h : ∀ s ∈ found, Located text s) :
    (found.map Cursor.of).mapM (Cursor.written text) = pure (found.map Site.text) := by
  induction found with
  | nil => rfl
  | cons s found ih =>
      obtain ⟨hs, hfound⟩ := List.forall_mem_cons.1 h
      rw [List.map_cons, List.mapM_cons, Cursor.written_eq hs, pure_bind, ih hfound, pure_bind,
        List.map_cons]

/-- The text of the matches is that of the sites. -/
theorem matchesText_eq (definite : Bool) (h : ∀ s ∈ found, Located text s) :
    matchesText env text definite (found.map .of) =
      Checked.ofExcept (JsonPath.matchesText env definite found) := by
  have hwritten := mapM_written_eq h
  cases found with
  | nil => rfl
  | cons s found =>
      rw [JsonPath.matchesText, List.map_cons, matchesText, ← List.map_cons, hwritten,
        Cursor.decode_eq (h s List.mem_cons_self)]
      cases definite with
      | false => rfl
      | true => cases s.decode env <;> rfl

/-- What a walk finds stands in the document. -/
theorem located_of_walk (hroot : root.Placed text 0 after) {segments : List Segment}
    (h : walk env root segments root = .ok found) : ∀ s ∈ found, Located text s := by
  intro t ht
  obtain ⟨level, -, hcontains⟩ := Site.Contains.of_walk .top h ht
  exact .of_contains hroot hcontains

/-- **The result of a path** is made of cursors as it is made of sites. -/
theorem resultOf_eq (env : Environment) (hsplit : p.segments = selecting ++ functions)
    (hselecting : ∀ segment ∈ selecting, segment.isFunction = false)
    (hfunctions : ∀ segment ∈ functions, segment.isFunction = true) (hp : p.segments ≠ [])
    (hroot : Located text root) (hfound : ∀ s ∈ found, Located text s) :
    resultOf env text p (.of root) (found.map .of) =
      Checked.ofExcept (p.resultOf env (if selecting = [] then [root] else found)) := by
  have hinput : ∀ s ∈ if selecting = [] then [root] else found, Located text s := by
    split
    · exact List.forall_mem_singleton.2 hroot
    · exact hfound
  rw [resultOf, Path.resultOf, hsplit, Path.findIdx_isFunction hselecting hfunctions,
    functionsOf_append hselecting, List.any_append, List.length_append]
  cases functions with
  | nil =>
      have hne : selecting ≠ [] := by simpa [hsplit] using hp
      have hany : selecting.any Segment.isFunction = false := by simpa using hselecting
      simp [hne, hany, matchesText_eq p.isDefinite hfound]
  | cons function later =>
      have hany : (function :: later).any Segment.isFunction = true := by simp [hfunctions function]
      have happly := applySegments_eq env p.isDefinite hfunctions hinput
      have hlength : selecting.length < selecting.length + (function :: later).length := by simp
      have hnone : selecting.length = 0 ↔ selecting = [] := List.length_eq_zero_iff
      have hplaces : (if selecting = [] then [Cursor.of root] else found.map .of) =
          (if selecting = [] then [root] else found).map .of := by
        split <;> rfl
      rw [hany, Bool.or_true]
      simp only [hlength, hnone, hplaces, dropFrom, List.length_append, hlength.le, if_true,
        List.drop_left, pure_bind]
      exact happly

/-- **A well-formed path** comes to what it comes to on the value of the document. -/
theorem evaluate_eq (hp : p.WellFormed) (hroot : root.Placed text 0 after) :
    evaluate env text p (.of root) = Checked.ofExcept (p.evaluate env root) := by
  obtain ⟨selecting, functions, hsplit, hselecting, hfunctions⟩ := hp.functionsLast
  have hlocated : Located text root := ⟨0, after, hroot⟩
  have hresult {found : List Site} (hfound : ∀ s ∈ found, Located text s) :=
    resultOf_eq env hsplit hselecting hfunctions hp.nonempty hlocated hfound
  have hat : p.segments.findIdx Segment.isFunction = selecting.length := by
    rw [hsplit, Path.findIdx_isFunction hselecting hfunctions]
  rw [evaluate, hat, Path.evaluate_eq_evaluateAt, Path.evaluateAt]
  cases selecting with
  | nil =>
      have hwalk : walk env root p.segments root = .ok [root] := by
        rw [hsplit]
        exact walk_of_functions hfunctions root
      have hnone := hresult (List.forall_mem_nil (Located text))
      rw [hwalk]
      simp only [List.length_nil, Nat.lt_irrefl, if_false, pure_bind]
      rw [List.map_nil, if_pos rfl] at hnone
      rw [hnone]
      cases p.resultOf env [root] <;> rfl
  | cons segment later =>
      have hdrop : p.segments.drop 0 = segment :: (later ++ functions) := by
        rw [hsplit]
        rfl
      have hwalk := walkAt_eq env hlocated hlocated hdrop (hselecting segment List.mem_cons_self)
      rw [← List.cons_append, ← hsplit] at hwalk
      rw [if_pos (by simp), hwalk]
      cases hfound : walk env root p.segments root with
      | error e => rfl
      | ok found =>
          have hsome := hresult (located_of_walk hroot hfound)
          rw [if_neg (List.cons_ne_nil _ _)] at hsome
          simp only [places, Except.map, Checked.ofExcept_ok, pure_bind, hsome]
          cases p.resultOf env found <;> rfl

/-- **A query** on two texts comes to what it comes to, be that a result or an error. -/
theorem query_eq (env : Environment) (document path : String) :
    query env document.toList path.toList =
      Checked.ofExcept (JsonPath.query env document path) := by
  rw [query, compile_eq, parse_eq, String.ofList_toList, String.ofList_toList, JsonPath.query]
  cases hpath : Path.ofString path with
  | error e => rfl
  | ok p =>
      rw [Checked.ofExcept_ok, pure_bind]
      show _ = Checked.ofExcept (p.query env document)
      rw [Path.query]
      cases hdocument : ofString document with
      | error e => rfl
      | ok root =>
          obtain ⟨after, hroot⟩ := placed_of_ofString hdocument
          exact evaluate_eq (Path.wellFormed_of_ofString hpath) hroot

/-- **No text makes the program take a part that does not exist.** Whatever the path, the document
and the text of an operand are, and however texts are searched and strings decoded, the program
ends, and comes to what the readers come to: it compiles the path or reports why not, reads the
document, answers what is asked of a value of it by two offsets, runs the path on the document, and
recognises, reads and strips a number. Had one part on the way not existed (`slice_eq_pure_iff`), or
one difference, or had one counter got past the size of its text (`tally`), it would have come to
nothing (`Checked.exists_of_bind_eq`). -/
theorem takes_no_missing_part (env : Environment) (document path : String) :
    compile path.toList = Checked.ofExcept (Path.ofString path) ∧
      parse document.toList = Checked.ofExcept ((ofString document).map Cursor.of) ∧
      (∀ top, ofString document = .ok top → ∀ level s, top.Contains level s →
        (Cursor.of s).Represents document.toList s) ∧
      query env document.toList path.toList = Checked.ofExcept (JsonPath.query env document path) ∧
      ∀ text, isNumeral text = pure (JsonPath.isNumeral text) ∧
        leadingNumber text = pure (JsonPath.leadingNumber text) ∧
        ∀ dropPlus, unpad dropPlus text = pure (JsonPath.unpad dropPlus text) := by
  refine ⟨?_, ?_, fun top hdocument level s hs => ?_, query_eq env document path, fun text =>
    ⟨isNumeral_eq text, leadingNumber_eq text, fun dropPlus => unpad_eq dropPlus text⟩⟩
  · rw [compile_eq, String.ofList_toList]
  · rw [parse_eq, String.ofList_toList]
  · obtain ⟨after, htop⟩ := placed_of_ofString hdocument
    exact (Located.of_contains htop hs).represents

/-- The string in an array begins at the offset `1`, and ends at the offset `5`: its letter takes
two bytes. -/
theorem takes_no_missing_part_accented :
    ofString "[\"é\"]" = .ok ⟨0, .array (.item [] (.string ['é']) (.close []))⟩ ∧
      (⟨1, 5⟩ : Cursor).Represents "[\"é\"]".toList ⟨1, .string ['é']⟩ := by
  have hread : ofString "[\"é\"]" = .ok ⟨0, .array (.item [] (.string ['é']) (.close []))⟩ := by cbv
  have helement : (⟨1, .string ['é']⟩ : Site) ∈
      (⟨0, .array (.item [] (.string ['é']) (.close []))⟩ : Site).elements :=
    List.mem_singleton.2 rfl
  obtain ⟨-, -, hrepresents, -⟩ := takes_no_missing_part .standard "[\"é\"]" "$"
  exact ⟨hread, hrepresents _ hread 1 _ (.element .top helement)⟩

end Paths

end JsonPath.Indexed
