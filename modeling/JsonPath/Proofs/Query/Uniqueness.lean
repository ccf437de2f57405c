import Mathlib
import JsonPath.Environment.Standard
import JsonPath.Proofs.Query.Definite

/-!
# How Many Values a Definite Path Finds

A definite path has one name or one position in each segment, and it gives the value that is
found first. There is only one if no object has two members of the same name: then a segment
selects at most one child of any value, and so does a walk along all segments.

Nothing in the reading of documents keeps members apart, and a walk does not stop at the first
member with a name but goes on from each of them. So the condition cannot be dropped: if two
members of some object have the same name, the path that leads to that object and then to the
name finds at least two values (`exists_steps_of_not_distinctNames`), and which of them is
given depends on their order.

## Main results

* `Segment.pairwise_selects`: a definite segment selects at most one child.
* `Path.findsAtMostOne_of_distinctNames_and_conversely`: **a definite path finds at most one
  value** if names are not repeated, and every such path does so only in that case.
* `not_forall_findsAtMostOne`: a definite path that finds two values.
-/

namespace JsonPath

variable {env : Environment}

/-- No two members have the same name. A key that cannot be decoded is no name, and a value
that is no object has no members. -/
def Site.DistinctNames (env : Environment) (s : Site) : Prop :=
  s.members.Pairwise fun m m' => ∀ name, m.name env = .ok name → m'.name env ≠ .ok name

/-- All keys of an object can be decoded. -/
def Site.DecodableKeys (env : Environment) (s : Site) : Prop :=
  ∀ m ∈ s.members, ∃ name, m.name env = .ok name

/-- The walk along a path finds at most one value. -/
def Path.FindsAtMostOne (env : Environment) (p : Path) (top : Site) : Prop :=
  ∀ found, walk env top p.segments top = .ok found → found.length ≤ 1

/-! ### Definite segments -/

/-- A definite segment that is no function has one name or one position. -/
theorem Segment.selector_of_isDefinite {segment : Segment} (hdefinite : segment.isDefinite = true)
    (hfunction : segment.isFunction = false) : segment.detached = false ∧
      ((∃ name, segment.selector = .names [name]) ∨ ∃ k, segment.selector = .indices [k]) := by
  obtain ⟨selector, detached⟩ := segment
  cases detached with
  | true => cases hdefinite
  | false =>
      refine ⟨rfl, ?_⟩
      cases selector with
      | names listed =>
          obtain ⟨name, rfl⟩ := List.length_eq_one_iff.1 (by simpa [isDefinite] using hdefinite)
          exact .inl ⟨name, rfl⟩
      | indices positions =>
          obtain ⟨k, rfl⟩ := List.length_eq_one_iff.1 (by simpa [isDefinite] using hdefinite)
          exact .inr ⟨k, rfl⟩
      | apply function => cases hfunction
      | _ => cases hdefinite

/-- A single name selects a member with that name. -/
theorem Selector.name_of_selects {root : Site} {wanted : String} {m : MemberSite}
    (h : (Selector.names [wanted]).selects env root ⟨.key m.keyStart m.key, m.value⟩ = .ok true) :
    m.name env = .ok wanted.toList := by
  obtain ⟨name, hname, hpicks⟩ := map_eq_ok_iff.1 h
  have heq : String.ofList name = wanted := by simpa [picksName] using hpicks
  rw [MemberSite.name, hname, ← heq, String.toList_ofList]

/-- **A definite segment selects at most one child** of a value without repeated names. -/
theorem Segment.pairwise_selects {segment : Segment} (hdefinite : segment.isDefinite = true)
    (hfunction : segment.isFunction = false) {s : Site} (hs : s.DistinctNames env) (root : Site) :
    s.children.Pairwise fun c d => ¬(segment.selector.selects env root c = .ok true ∧
      segment.selector.selects env root d = .ok true) := by
  obtain ⟨-, hselector⟩ := selector_of_isDefinite hdefinite hfunction
  obtain ⟨start, node⟩ := s
  cases node with
  | array items =>
      refine List.pairwise_map.2 ?_
      have hsnd := List.pairwise_map.1 (List.nodup_zipIdx_map_snd (items.sites (start + 1)))
      refine hsnd.imp ?_
      rintro ⟨t, i⟩ ⟨u, j⟩ hne ⟨hi, hj⟩
      rcases hselector with ⟨name, hname⟩ | ⟨k, hk⟩
      · simp [hname, Selector.selects, Selector.picksPosition] at hi
      · simp only [hk, Selector.selects, Except.ok.injEq, Selector.picksPosition_indices,
          List.mem_singleton, exists_eq_left] at hi hj
        exact hne (Int.natCast_inj.1 (hi.symm.trans hj))
  | object members =>
      refine List.pairwise_map.2 (hs.imp ?_)
      rintro m m' hne ⟨hm, hm'⟩
      rcases hselector with ⟨name, hname⟩ | ⟨k, hk⟩
      · rw [hname] at hm hm'
        exact hne _ (Selector.name_of_selects hm) (Selector.name_of_selects hm')
      · simp [hk, Selector.selects] at hm
  | _ => exact .nil

/-! ### At most one value -/

/-- A list has no two places if it has at most one. -/
theorem length_le_one_iff_pairwise {α : Type} {l : List α} :
    l.length ≤ 1 ↔ l.Pairwise fun _ _ => False := by
  match l with
  | [] => simp
  | [a] => simp
  | a :: b :: l =>
      have hpair : ¬ (a :: b :: l).Pairwise fun _ _ => False :=
        fun h => (List.pairwise_cons.1 h).1 b List.mem_cons_self
      simp [hpair]

/-- If at most one part is not empty, and that part has at most one value, then at most one
value is gathered. -/
theorem length_gather_le_one {α β : Type} {f : α → Except Error (List β)} {l : List α}
    {found : List β} (h : gather f l = .ok found)
    (hle : ∀ a ∈ l, ∀ part, f a = .ok part → part.length ≤ 1)
    (hone : l.Pairwise fun a b => ∀ part part', f a = .ok part → f b = .ok part' →
      part = [] ∨ part' = []) : found.length ≤ 1 := by
  rw [length_le_one_iff_pairwise, pairwise_gather_iff h]
  refine ⟨fun a ha part hpart => length_le_one_iff_pairwise.1 (hle a ha part hpart), ?_⟩
  refine hone.imp fun hempty part part' hpart hpart' x hx y hy => ?_
  rcases hempty part part' hpart hpart' with rfl | rfl
  · cases hx
  · cases hy

/-- **A definite walk finds at most one value** where names are not repeated. The induction is on
the segments; none of them is detached, so each goes on below the one child that it selects. -/
theorem length_walk_le_one {root s : Site} {segments : List Segment} {found : List Site}
    (hdefinite : ∀ segment ∈ segments, segment.isDefinite = true)
    (hfunction : ∀ segment ∈ segments, segment.isFunction = false)
    (hs : ∀ t : Site, t.Below s → t.DistinctNames env) (h : walk env root segments s = .ok found) :
    found.length ≤ 1 := by
  induction segments generalizing s found with
  | nil =>
      rw [walk] at h
      obtain rfl : [s] = found := Except.ok.inj h
      exact Nat.le_refl 1
  | cons segment later ih =>
      have hdef := hdefinite segment List.mem_cons_self
      have hfun := hfunction segment List.mem_cons_self
      have hattached := (Segment.selector_of_isDefinite hdef hfun).1
      have hvisit (c : Child) (same : Except Error (List Site)) (part : List Site)
          (hpart : visit env root segment c (walk env root later c.site) same = .ok part) :
          part = [] ∨ segment.selector.selects env root c = .ok true ∧
            walk env root later c.site = .ok part := by
        rw [visit_eq, hattached] at hpart
        cases hselects : segment.selector.selects env root c with
        | error e => rw [hselects] at hpart; cases hpart
        | ok selected =>
            simp only [hselects, Bool.false_eq_true, if_false, joined_nil] at hpart
            cases selected with
            | false => exact .inl (Except.ok.inj hpart).symm
            | true => exact .inr ⟨rfl, hpart⟩
      rw [walk_eq root segment later s hfun] at h
      refine length_gather_le_one h (fun c hc part hpart => ?_) ?_
      · rcases hvisit c _ part hpart with rfl | ⟨-, hwalk⟩
        · exact Nat.zero_le 1
        · exact ih (fun g hg => hdefinite g (List.mem_cons_of_mem _ hg))
            (fun g hg => hfunction g (List.mem_cons_of_mem _ hg))
            (fun t ht => hs t (.head ⟨c, hc, rfl⟩ ht)) hwalk
      · refine (Segment.pairwise_selects hdef hfun (hs s .refl) root).imp ?_
        intro c d hnot part part' hpart hpart'
        rcases hvisit c _ part hpart with hempty | ⟨hc, -⟩
        · exact .inl hempty
        · rcases hvisit d _ part' hpart' with hempty | ⟨hd, -⟩
          · exact .inr hempty
          · exact (hnot ⟨hc, hd⟩).elim

/-! ### Repeated names -/

/-- Steps can be followed wherever all keys can be decoded. -/
theorem exists_walk_steps_eq_ok (root : Site) {s : Site}
    (hkeys : ∀ t : Site, t.Below s → t.DecodableKeys env) (steps : List Step) :
    ∃ found, walk env root (steps.map Step.segment) s = .ok found := by
  induction steps generalizing s with
  | nil => exact ⟨[s], by rw [List.map_nil, walk]⟩
  | cons step steps ih =>
      rw [List.map_cons, walk_step_eq_gather root (hkeys s .refl)]
      refine exists_gather_eq_ok fun c hc => ?_
      cases step.picks env c with
      | false => exact ⟨[], rfl⟩
      | true => exact ih fun t ht => hkeys t (.head ⟨c, hc, rfl⟩ ht)

/-- Some step picks a child, its key or position. -/
theorem Step.exists_picks {s : Site} (hkeys : s.DecodableKeys env) {c : Child}
    (hc : c ∈ s.children) :
    ∃ step : Step, step.picks env c = true := by
  rcases Site.mem_children_iff.1 hc with ⟨m, hm, rfl⟩ | ⟨i, t, -, rfl⟩
  · obtain ⟨name, hname⟩ := hkeys m hm
    exact ⟨.name (String.ofList name), by simp [picks_member hname]⟩
  · exact ⟨.index i, by simp [picks]⟩

/-- The name that two members have finds both of them. -/
theorem exists_step_of_not_distinctNames (root : Site) {s : Site} (hkeys : s.DecodableKeys env)
    (hs : ¬ s.DistinctNames env) : ∃ step found,
      walk env root [Step.segment step] s = .ok found ∧ 2 ≤ found.length := by
  obtain ⟨m, m', hsub, hsame⟩ : ∃ m m', [m, m'].Sublist s.members ∧
      ¬ ∀ name, m.name env = .ok name → m'.name env ≠ .ok name := by
    by_contra hno
    refine hs (List.pairwise_iff_forall_sublist.2 fun {m m'} hsub => ?_)
    by_contra hsame
    exact hno ⟨m, m', hsub, hsame⟩
  obtain ⟨name, hm, hm'⟩ : ∃ name, m.name env = .ok name ∧ m'.name env = .ok name := by
    by_contra hno
    exact hsame fun name hm hm' => hno ⟨name, hm, hm'⟩
  have hchildren : s.children = s.members.map fun m => ⟨.key m.keyStart m.key, m.value⟩ := by
    obtain ⟨start, node⟩ := s
    cases node with
    | object members => rfl
    | _ => cases hsub
  refine ⟨.name (String.ofList name),
    (s.children.filter ((Step.name (String.ofList name)).picks env)).map Child.site, ?_, ?_⟩
  · rw [walk_step_eq_gather root hkeys]
    simp only [walk]
    exact gather_filter _ _ _
  · have hboth := (hsub.map fun m => (⟨.key m.keyStart m.key, m.value⟩ : Child)).filter
      ((Step.name (String.ofList name)).picks env)
    rw [← hchildren] at hboth
    simpa [Step.picks_member hm, Step.picks_member hm'] using hboth.length_le

/-- **Where a name is repeated, some steps find two values**, as far as keys can be decoded. The
induction is on the way down to the object that repeats a name; there its name is the last
step. -/
theorem exists_steps_of_not_distinctNames (root : Site) {top s : Site} (hs : s.Below top)
    (hkeys : ∀ t : Site, t.Below top → t.DecodableKeys env) (hnames : ¬ s.DistinctNames env) :
    ∃ (steps : List Step) (found : List Site),
      walk env root (steps.map Step.segment) top = .ok found ∧ 2 ≤ found.length := by
  induction hs using Relation.ReflTransGen.head_induction_on with
  | refl =>
      obtain ⟨step, found, hwalk, hlength⟩ :=
        exists_step_of_not_distinctNames root (hkeys s .refl) hnames
      exact ⟨[step], found, hwalk, hlength⟩
  | @head t u htu hbelow ih =>
      obtain ⟨c, hc, rfl⟩ := htu
      obtain ⟨steps, part, hpart, hlength⟩ := ih fun v hv => hkeys v (.head ⟨c, hc, rfl⟩ hv)
      obtain ⟨step, hpicks⟩ := Step.exists_picks (hkeys t .refl) hc
      obtain ⟨found, hfound⟩ := exists_walk_steps_eq_ok root hkeys (step :: steps)
      refine ⟨step :: steps, found, hfound, hlength.trans ?_⟩
      rw [List.map_cons, walk_step_eq_gather root (hkeys t .refl)] at hfound
      exact (sublist_of_gather hfound hc (by rw [if_pos hpicks, hpart])).length_le

/-! ### Definite paths -/

/-- **A definite path finds at most one value** if no object repeats a name. Where all keys can
be decoded, this condition is also necessary for all definite paths together. -/
theorem Path.findsAtMostOne_of_distinctNames_and_conversely (env : Environment) (top : Site) :
    ((∀ s : Site, s.Below top → s.DistinctNames env) → ∀ p : Path, p.isDefinite = true →
      p.segments.any Segment.isFunction = false → p.FindsAtMostOne env top) ∧
    ((∀ s : Site, s.Below top → s.DecodableKeys env) →
      (∀ p : Path, p.isDefinite = true → p.segments.any Segment.isFunction = false →
        p.FindsAtMostOne env top) → ∀ s : Site, s.Below top → s.DistinctNames env) := by
  constructor
  · intro hnames p hdefinite hfunction found hwalk
    refine length_walk_le_one (List.all_eq_true.1 hdefinite) (fun segment hsegment => ?_) hnames
      hwalk
    simpa using List.any_eq_false.1 hfunction segment hsegment
  · intro hkeys hone s hs
    by_contra hnames
    obtain ⟨steps, found, hwalk, hlength⟩ :=
      exists_steps_of_not_distinctNames top hs hkeys hnames
    have hle := hone (.ofSteps steps) (isDefinite_ofSteps steps) (any_isFunction_ofSteps steps)
      found hwalk
    omega

/-- Keys that are distinct name distinct members. -/
theorem Site.DistinctKeys.distinctNames {s : Site} (h : s.DistinctKeys env) :
    s.DistinctNames env :=
  h.distinct.imp fun hne _ hm hm' => hne (hm.trans hm'.symm)

/-- An object with two members of the same name, the numbers 1 and 2. -/
def repeatedName : Site :=
  ⟨0, .object (.member [] ['a'] [':'] (.number ⟨[], ['1'], none, none⟩)
    (.member [','] ['a'] [':'] (.number ⟨[], ['2'], none, none⟩) (.close [])))⟩

/-- The text with the repeated name is read as the document that is meant. -/
theorem ofString_repeatedName :
    Document.ofString "\x7b\"a\":1,\"a\":2\x7d" = .ok repeatedName := by
  cbv

/-- All names in it can be decoded. -/
theorem decodableKeys_repeatedName (s : Site) (hs : s.Below repeatedName) :
    s.DecodableKeys .standard := by
  rcases Relation.ReflTransGen.cases_head hs with rfl | ⟨_, ⟨c, hc, rfl⟩, hbelow⟩
  · have hmembers : repeatedName.members = [⟨1, ['a'], ⟨5, .number ⟨[], ['1'], none, none⟩⟩⟩,
        ⟨7, ['a'], ⟨11, .number ⟨[], ['2'], none, none⟩⟩⟩] := rfl
    intro m hm
    rw [hmembers] at hm
    refine ⟨['a'], ?_⟩
    rcases List.mem_pair.1 hm with rfl | rfl <;> rfl
  · have hchildren : repeatedName.children =
        [⟨.key 1 ['a'], ⟨5, .number ⟨[], ['1'], none, none⟩⟩⟩,
          ⟨.key 7 ['a'], ⟨11, .number ⟨[], ['2'], none, none⟩⟩⟩] := rfl
    rw [hchildren] at hc
    have hleaf : s = c.site := by
      rcases Relation.ReflTransGen.cases_head hbelow with h | ⟨_, ⟨d, hd, -⟩, -⟩
      · exact h.symm
      · rcases List.mem_pair.1 hc with rfl | rfl <;> cases hd
    intro m hm
    rw [hleaf] at hm
    rcases List.mem_pair.1 hc with rfl | rfl <;> cases hm

/-- `$.a[-1]` finds at most one value in an object with the names `a` and `b`, and some definite
path finds two values in one that has the name `a` twice. -/
theorem Path.findsAtMostOne_arrayAndNull :
    (∀ s : Site, s.Below arrayAndNull → s.DistinctNames .standard) ∧
      FindsAtMostOne .standard ⟨[⟨.names ["a"], false⟩, ⟨.indices [-1], false⟩]⟩ arrayAndNull ∧
      (∀ s : Site, s.Below repeatedName → s.DecodableKeys .standard) ∧
      ¬ ∀ p : Path, p.isDefinite = true → p.segments.any Segment.isFunction = false →
        p.FindsAtMostOne .standard repeatedName := by
  have hnames (s : Site) (hs : s.Below arrayAndNull) : s.DistinctNames .standard :=
    (unambiguous_arrayAndNull s hs).distinctNames
  refine ⟨hnames,
    (findsAtMostOne_of_distinctNames_and_conversely .standard arrayAndNull).1 hnames _ rfl rfl,
    decodableKeys_repeatedName, fun hone => ?_⟩
  have hrepeated := (findsAtMostOne_of_distinctNames_and_conversely .standard repeatedName).2
    decodableKeys_repeatedName hone repeatedName .refl
  obtain ⟨hne, -⟩ := List.pairwise_cons.1 hrepeated
  exact hne _ (List.mem_singleton.2 rfl) ['a'] rfl rfl

/-- **A definite path that finds two values**: `$.a` in an object with two members `a`. -/
theorem not_forall_findsAtMostOne :
    ¬ ∀ (document text : String) (top : Site) (p : Path), Document.ofString document = .ok top →
      Path.ofString text = .ok p → p.isDefinite = true →
      p.segments.any Segment.isFunction = false → p.FindsAtMostOne .standard top := by
  intro hone
  have hpath : Path.ofString "$.a" = .ok ⟨[⟨.names ["a"], false⟩]⟩ := by cbv
  have hwalk : walk .standard repeatedName [⟨.names ["a"], false⟩] repeatedName =
      .ok [⟨5, .number ⟨[], ['1'], none, none⟩⟩, ⟨11, .number ⟨[], ['2'], none, none⟩⟩] := by
    cbv
  have hlength := hone _ _ _ _ ofString_repeatedName hpath rfl rfl _ hwalk
  exact absurd hlength (by decide)

/-- The order of the two members decides which of the values is given. -/
example : query .standard "\x7b\"a\":1,\"a\":2\x7d" "$.a" = .ok (some "1") ∧
    query .standard "\x7b\"a\":2,\"a\":1\x7d" "$.a" = .ok (some "2") := by
  constructor <;> cbv

end JsonPath
