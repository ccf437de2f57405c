import Mathlib.Data.List.Sigma
import JsonPath.Environment.Standard
import JsonPath.Proofs.Query.Composition
import JsonPath.Proofs.Query.Selection
import JsonPath.Query

/-!
# Definite Paths and References

The steps of a reference can also be written as a path, with one name or one position in each
segment. The two are followed in different ways: a reference takes the first child that a step
names (`Site.child?`), a path tests all children and collects every one that is selected. They
lead to the same value if the keys of every object can be decoded and are different names,
since then a step picks at most one child (`Step.pairwise_picks`) and no test of a child fails.

## Main results

* `Step.child?_eq_find?`: a step leads to the first child that it picks.
* `walk_steps`: **the segments for steps lead where the steps lead**.
* `Path.evaluate_ofSteps`: **a definite path gives the text of what its steps lead to**.
* `Reference.value_eq_evaluate`: so a reference in a filter stands for what that path gives.
-/

namespace JsonPath

variable {env : Environment}

/-- The segment that selects what a step leads to. -/
def Step.segment : Step → Segment
  | .name key => ⟨.names [key], false⟩
  | .index position => ⟨.indices [(position : Int)], false⟩

/-- The path that follows steps. -/
def Path.ofSteps (steps : List Step) : Path :=
  ⟨steps.map Step.segment⟩

/-- The keys of an object can be decoded and are different names. A value that is no object
has no keys. -/
structure Site.DistinctKeys (env : Environment) (s : Site) : Prop where
  /-- Every key can be decoded. -/
  decodes : ∀ m ∈ s.members, ∃ name, m.name env = .ok name
  /-- No two keys are the same name. -/
  distinct : s.members.Pairwise fun m m' => m.name env ≠ m'.name env

/-- Where at most one member of a list is picked, what is gathered comes from that one. -/
theorem gather_eq_find? {α β : Type} {p : α → Bool} {f : α → Except Error (List β)} {l : List α}
    (h : l.Pairwise fun a b => ¬(p a = true ∧ p b = true)) :
    gather (fun a => if p a then f a else .ok []) l = (l.find? p).elim (.ok []) f := by
  induction l with
  | nil => rfl
  | cons a l ih =>
      obtain ⟨ha, hl⟩ := List.pairwise_cons.1 h
      rw [gather_cons, ih hl]
      cases hp : p a with
      | true =>
          have hnone : l.find? p = none :=
            List.find?_eq_none.2 fun b hb hpb => ha b hb ⟨hp, hpb⟩
          rw [hnone, List.find?_cons_of_pos hp, if_pos rfl]
          exact joined_nil (f a)
      | false =>
          rw [List.find?_cons_of_neg (by simp [hp]), if_neg Bool.false_ne_true, nil_joined]

/-- An element is found by its position, counted from any number on. -/
theorem find?_zipIdx {α : Type} (l : List α) (k n : Nat) :
    (l.zipIdx n).find? (fun p => p.2 == n + k) = l[k]?.map fun a => (a, n + k) := by
  induction l generalizing k n with
  | nil => rfl
  | cons a l ih =>
      rw [List.zipIdx_cons]
      cases k with
      | zero => simp
      | succ k =>
          have hplace : n + (k + 1) = n + 1 + k := by omega
          rw [List.find?_cons_of_neg (by simp), List.getElem?_cons_succ, hplace, ih]

namespace Step

/-- Whether a step names a child. -/
def picks (env : Environment) (step : Step) (c : Child) : Bool :=
  match step, c.label with
  | .name wanted, .key start body =>
    match Document.decodeAt env start body with
    | .ok found => found = wanted.toList
    | .error _ => false
  | .index position, .position i _ => i == position
  | _, _ => false

/-- A step by name picks a member exactly if the member's name is that name. -/
theorem picks_member {m : MemberSite} {found : List Char} (h : m.name env = .ok found)
    (name : String) :
    (Step.name name).picks env ⟨.key m.keyStart m.key, m.value⟩ = (found = name.toList : Bool) := by
  rw [MemberSite.name] at h
  simp [picks, h]

/-! ### The one child that a step picks -/

variable {s : Site}

/-- A segment for a step selects the children that the step picks, if all keys can be
decoded. -/
theorem selects_segment (hkeys : ∀ m ∈ s.members, ∃ name, m.name env = .ok name) {c : Child}
    (hc : c ∈ s.children) (root : Site) (step : Step) :
    step.segment.selector.selects env root c = .ok (step.picks env c) := by
  rcases Site.mem_children_iff.1 hc with ⟨m, hm, rfl⟩ | ⟨i, t, -, rfl⟩
  · cases step with
    | name name =>
        obtain ⟨found, hfound⟩ := hkeys m hm
        rw [picks_member hfound]
        rw [MemberSite.name] at hfound
        simp only [segment, Selector.selects, hfound, Except.map, Selector.picksName]
        congr 1
        rw [Bool.eq_iff_iff]
        simp [String.ext_iff]
    | index position => rfl
  · cases step with
    | name name => rfl
    | index position =>
        have hplace : fromEnd s.elements.length position = position :=
          if_neg (by omega)
        have hcast : ((position : Int) == (i : Int)) = (i == position) := by
          rw [Bool.eq_iff_iff, beq_iff_eq, beq_iff_eq, Int.natCast_inj, eq_comm]
        simp [segment, Selector.selects, picks, Selector.picksPosition, hplace, hcast]

/-- **A step picks at most one child.** -/
theorem pairwise_picks (hs : s.DistinctKeys env) (step : Step) :
    s.children.Pairwise fun c d => ¬(step.picks env c = true ∧ step.picks env d = true) := by
  obtain ⟨start, node⟩ := s
  cases node with
  | array items =>
      refine List.pairwise_map.2 ?_
      have hsnd := List.pairwise_map.1 (List.nodup_zipIdx_map_snd (items.sites (start + 1)))
      refine hsnd.imp ?_
      rintro ⟨t, i⟩ ⟨u, j⟩ hne
      cases step with
      | name name => simp [picks]
      | index position =>
          simp only [picks, beq_iff_eq, not_and]
          rintro rfl rfl
          exact hne rfl
  | object members =>
      refine List.pairwise_map.2 (hs.distinct.imp_of_mem ?_)
      intro m m' hm hm' hne
      cases step with
      | name name =>
          obtain ⟨found, hfound⟩ := hs.decodes m hm
          obtain ⟨found', hfound'⟩ := hs.decodes m' hm'
          rw [picks_member hfound, picks_member hfound']
          simp only [decide_eq_true_eq, not_and]
          rintro rfl rfl
          exact hne (hfound.trans hfound'.symm)
      | index position => simp [picks]
  | _ => exact .nil

/-- Where all names can be decoded, the search for a member is a search for the first that the step
picks. -/
theorem findMember_eq_find? {l : List MemberSite} (h : ∀ m ∈ l, ∃ name, m.name env = .ok name)
    (name : String) :
    findMember env name.toList l =
      .ok ((l.find? fun m => (Step.name name).picks env ⟨.key m.keyStart m.key, m.value⟩).map
        MemberSite.value) := by
  induction l with
  | nil => rfl
  | cons m l ih =>
      obtain ⟨found, hfound⟩ := h m List.mem_cons_self
      rw [findMember, hfound, ih fun m' hm' => h m' (List.mem_cons_of_mem m hm'), List.find?_cons,
        picks_member hfound]
      by_cases heq : found = name.toList <;> simp [heq]

/-- **A step leads to the first child that it picks.** -/
theorem child?_eq_find? (hs : s.DistinctKeys env) (step : Step) :
    s.child? env step = .ok ((s.children.find? (step.picks env)).map Child.site) := by
  obtain ⟨start, node⟩ := s
  cases step with
  | name name =>
      cases node with
      | object members =>
          rw [Site.child?, findMember_eq_find? hs.decodes, Site.children, List.find?_map,
            Option.map_map]
          rfl
      | array items =>
          have hnone : (Site.mk start (.array items)).children.find? ((Step.name name).picks env) =
              none := by
            simp [Site.children, picks]
          rw [hnone]
          rfl
      | _ => rfl
  | index position =>
      cases node with
      | array items =>
          have hfind := find?_zipIdx (items.sites (start + 1)) position 0
          rw [Nat.zero_add] at hfind
          have hpicks : (Step.index position).picks env ∘ (fun p : Site × Nat =>
              (⟨.position p.2 (items.sites (start + 1)).length, p.1⟩ : Child)) =
              fun p => p.2 == position := rfl
          rw [Site.child?, Site.children, List.find?_map, hpicks, hfind, Option.map_map,
            Option.map_map]
          exact congrArg Except.ok Option.map_id'.symm
      | object members =>
          have hnone : (Site.mk start (.object members)).children.find?
              ((Step.index position).picks env) = none := by
            simp [Site.children, picks]
          rw [hnone]
          rfl
      | _ => rfl

end Step

/-! ### Following the steps -/

/-- The keys of every object below a value are different names. -/
def Site.Unambiguous (env : Environment) (s : Site) : Prop :=
  ∀ t : Site, t.Below s → t.DistinctKeys env

/-- A site is unambiguous exactly if its own keys are distinct and its children are unambiguous. -/
theorem Site.unambiguous_iff {s : Site} :
    s.Unambiguous env ↔ s.DistinctKeys env ∧ ∀ c ∈ s.children, c.site.Unambiguous env := by
  constructor
  · intro h
    exact ⟨h s .refl, fun c hc t ht => h t (.head ⟨c, hc, rfl⟩ ht)⟩
  · rintro ⟨hs, hchildren⟩ t ht
    rcases Relation.ReflTransGen.cases_head ht with rfl | ⟨u, ⟨c, hc, rfl⟩, hbelow⟩
    · exact hs
    · exact hchildren c hc t hbelow

/-- A segment for a step goes on from the children that the step picks. -/
theorem walk_step_eq_gather (root : Site) {s : Site}
    (hkeys : ∀ m ∈ s.members, ∃ name, m.name env = .ok name) (step : Step) (later : List Segment) :
    walk env root (step.segment :: later) s =
      gather (fun c => if step.picks env c then walk env root later c.site else .ok [])
        s.children := by
  have hfunction : step.segment.isFunction = false := by cases step <;> rfl
  have hattached : step.segment.detached = false := by cases step <;> rfl
  rw [walk_eq root _ later s hfunction]
  refine gather_congr fun c hc => ?_
  rw [visit_eq, Step.selects_segment hkeys hc, hattached]
  exact joined_nil _

/-- **A segment for a step leads where the step leads**, or nowhere. -/
theorem walk_step_cons (root : Site) {s : Site} (hs : s.DistinctKeys env) (step : Step)
    (later : List Segment) :
    walk env root (step.segment :: later) s =
      (s.children.find? (step.picks env)).elim (.ok []) fun c => walk env root later c.site := by
  rw [walk_step_eq_gather root hs.decodes, gather_eq_find? (step.pairwise_picks hs)]

/-- **The segments for steps lead where the steps lead**, or nowhere. -/
theorem walk_steps (root : Site) {s : Site} (hs : s.Unambiguous env) (steps : List Step) :
    walk env root (steps.map Step.segment) s = (s.resolve? env steps).map Option.toList := by
  induction steps generalizing s with
  | nil =>
      rw [List.map_nil, walk]
      rfl
  | cons step steps ih =>
      obtain ⟨hkeys, hchildren⟩ := Site.unambiguous_iff.1 hs
      rw [List.map_cons, walk_step_cons root hkeys, Site.resolve?, step.child?_eq_find? hkeys]
      cases hfind : s.children.find? (step.picks env) with
      | none => rfl
      | some c => exact ih (hchildren c (List.mem_of_find?_eq_some hfind))

/-- A path of steps is definite. -/
theorem Path.isDefinite_ofSteps (steps : List Step) : (ofSteps steps).isDefinite = true := by
  refine List.all_eq_true.2 fun segment hsegment => ?_
  obtain ⟨step, -, rfl⟩ := List.mem_map.1 hsegment
  cases step <;> rfl

/-- A path of steps has no function. -/
theorem Path.any_isFunction_ofSteps (steps : List Step) :
    (ofSteps steps).segments.any Segment.isFunction = false := by
  refine List.any_eq_false.2 fun segment hsegment => ?_
  obtain ⟨step, -, rfl⟩ := List.mem_map.1 hsegment
  cases step <;> exact Bool.false_ne_true

/-- The text of the value that was looked for, if there is one. -/
def textOfFound (env : Environment) : Except Error (Option Site) → Except Error (Option String)
  | .error e => .error e
  | .ok none => .ok none
  | .ok (some s) => (s.decode env).map fun text => some (String.ofList text)

/-- A path for steps gives the text of the one value that the walk finds. -/
theorem Path.evaluate_of_walk {root : Site} {steps : List Step} {found : Except Error (Option Site)}
    (h : walk env root (steps.map Step.segment) root = found.map Option.toList) :
    (ofSteps steps).evaluate env root = textOfFound env found := by
  have hwalk : walk env root (ofSteps steps).segments root = found.map Option.toList := h
  rw [evaluate, hwalk, any_isFunction_ofSteps, isDefinite_ofSteps]
  rcases found with e | (- | s)
  · rfl
  · rfl
  · cases hs : s.decode env <;> simp [textOfFound, Except.map, matchesText, hs]

/-- **A definite path gives what its steps lead to**, as text: nothing if they lead nowhere,
the decoded text of the value that they find, and the error if there is one. -/
theorem Path.evaluate_ofSteps {root : Site} (hkeys : root.Unambiguous env) (first : Step)
    (later : List Step) :
    (ofSteps (first :: later)).evaluate env root =
      textOfFound env (root.resolve? env (first :: later)) :=
  evaluate_of_walk (walk_steps root hkeys (first :: later))

/-- The array in `arrayAndNull`. -/
def letterArray : Site :=
  ⟨5, .array (.item [] (.string ['x']) (.close []))⟩

/-- The object with the key `a` and an array of the string `x`, and with the key `b` and null. -/
def arrayAndNull : Site :=
  ⟨0, .object (.member [] ['a'] [':'] letterArray.node
    (.member [','] ['b'] [':'] .null (.close [])))⟩

/-- The array and the null beside it repeat no key. -/
theorem unambiguous_arrayAndNull : arrayAndNull.Unambiguous env := by
  have hleaf {s : Site} (hmembers : s.members = []) (hchildren : s.children = []) :
      s.Unambiguous env :=
    Site.unambiguous_iff.2 ⟨⟨by simp [hmembers], by simp [hmembers]⟩, by simp [hchildren]⟩
  have harray : letterArray.Unambiguous env := by
    have hmembers : letterArray.members = [] := rfl
    have hchildren : letterArray.children = [⟨.position 0 1, ⟨6, .string ['x']⟩⟩] := rfl
    refine Site.unambiguous_iff.2 ⟨⟨by simp [hmembers], by simp [hmembers]⟩, ?_⟩
    simpa [hchildren] using hleaf rfl rfl
  have hmembers : arrayAndNull.members = [⟨1, ['a'], letterArray⟩, ⟨11, ['b'], ⟨15, .null⟩⟩] := rfl
  have hchildren : arrayAndNull.children =
      [⟨.key 1 ['a'], letterArray⟩, ⟨.key 11 ['b'], ⟨15, .null⟩⟩] := rfl
  have ha : (MemberSite.mk 1 ['a'] letterArray).name env = .ok ['a'] := rfl
  have hb : (MemberSite.mk 11 ['b'] ⟨15, .null⟩).name env = .ok ['b'] := rfl
  refine Site.unambiguous_iff.2 ⟨⟨by simp [hmembers, ha, hb], by simp [hmembers, ha, hb]⟩, ?_⟩
  simpa [hchildren] using ⟨harray, hleaf rfl rfl⟩

/-- `.a[0]` gives the text `x`. -/
theorem Path.evaluate_ofSteps_arrayAndNull :
    arrayAndNull.Unambiguous .standard ∧
      (ofSteps [.name "a", .index 0]).evaluate .standard arrayAndNull = .ok (some "x") :=
  ⟨unambiguous_arrayAndNull,
    (evaluate_ofSteps unambiguous_arrayAndNull (.name "a") [.index 0]).trans (by decide)⟩

/-- **A reference stands for the text that the definite path with its steps gives**, and for no
value if that path leads nowhere. -/
theorem Reference.value_eq_evaluate {root : Site} (hkeys : root.Unambiguous env)
    {reference : Reference} {first : Step} {later : List Step}
    (h : reference.steps = first :: later) :
    reference.value env root = ((Path.ofSteps (first :: later)).evaluate env root).map fun text =>
      text.elim .absent .text := by
  rw [Path.evaluate_of_walk (walk_steps root hkeys (first :: later)), value, h]
  rcases root.resolve? env (first :: later) with e | (- | s)
  · rfl
  · rfl
  · cases hs : s.decode env <;> simp [textOfFound, Except.map, hs]

end JsonPath
