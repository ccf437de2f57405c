import Mathlib.Data.Set.Card
import JsonPath.Environment.Standard
import JsonPath.Proofs.Document.Layout
import JsonPath.Proofs.Query.Composition

/-!
# What a Path Selects

A path without functions selects by chains: from the value it starts at, each segment leads
on to a child that its selector picks, or, if it is detached, to one that it picks anywhere
below. `Chain` says this without reference to the walk, and a walk is shown to find the end
of every chain, once for each chain.

A chain is written as the values it passes, without the one it starts at. A walk over the
children of a value concatenates what it finds at each of them; no chain is found at two
children, since nothing stands below two of them (`Site.Below.disjoint`), and none is found
twice at one child, since what stands below a child is not the child itself.

## Main results

* `Selector.picks_iff`: the walk tests a child for what the selector picks.
* `enumerates_walk`: **a walk enumerates the chains**.
* `walk_count`: **a value is found as often as chains lead to it**.
-/

namespace JsonPath

deriving instance DecidableEq for Node, Items, Members

deriving instance DecidableEq for Site

variable {env : Environment}

/-! ### What a selector picks -/

/-- A selector picks a child of a value. -/
inductive Selector.Picks (env : Environment) (root parent : Site) : Selector → Site → Prop
  /-- Every child. -/
  | all {t : Site} : parent.IsParentOf t → Picks env root parent .all t
  /-- A member with a name that is listed. -/
  | names {listed : List String} {m : MemberSite} {name : List Char} : m ∈ parent.members →
      m.name env = .ok name → String.ofList name ∈ listed →
        Picks env root parent (.names listed) m.value
  /-- An element at a position that is listed. -/
  | indices {positions : List Int} {index : Nat} {k : Int} {t : Site} :
      parent.elements[index]? = some t → k ∈ positions →
      fromEnd parent.elements.length k = index → Picks env root parent (.indices positions) t
  /-- An element between two positions. -/
  | slice {start stop : Option Int} {index : Nat} {t : Site} :
      parent.elements[index]? = some t →
      start.elim 0 (fromEnd parent.elements.length) ≤ index →
      index < stop.elim (parent.elements.length : Int) (fromEnd parent.elements.length) →
      Picks env root parent (.slice start stop) t
  /-- A child for which the filter holds. -/
  | filter {tokens : List Token} {t : Site} : parent.IsParentOf t →
      Filter.holds env tokens root t = .ok true → Picks env root parent (.filter tokens) t

/-- `*` selects every child. -/
theorem Selector.selects_all (root : Site) (c : Child) :
    Selector.all.selects env root c = .ok true := by
  rcases c with ⟨_ | _, _⟩ <;> rfl

/-- The children of a value are its members and its elements. -/
theorem Site.mem_children_iff {s : Site} {c : Child} :
    c ∈ s.children ↔ (∃ m ∈ s.members, c = ⟨.key m.keyStart m.key, m.value⟩) ∨
      ∃ index t, s.elements[index]? = some t ∧ c = ⟨.position index s.elements.length, t⟩ := by
  obtain ⟨start, node⟩ := s
  cases node with
  | array items =>
      simp only [children, members, elements, List.not_mem_nil, false_and, exists_false, false_or,
        List.mem_map, Prod.exists, List.mem_zipIdx_iff_getElem?]
      constructor
      · rintro ⟨t, index, ht, rfl⟩
        exact ⟨index, t, ht, rfl⟩
      · rintro ⟨index, t, ht, rfl⟩
        exact ⟨t, index, ht, rfl⟩
  | object members =>
      simp only [children, Site.members, elements, List.mem_map, List.getElem?_nil, reduceCtorEq,
        false_and, exists_false, or_false]
      constructor <;> rintro ⟨m, hm, rfl⟩ <;> exact ⟨m, hm, rfl⟩
  | _ => simp [children, members, elements]

/-- **The walk tests a child for what the selector picks.** -/
theorem Selector.picks_iff {root parent t : Site} {selector : Selector} :
    selector.Picks env root parent t ↔
      ∃ c ∈ parent.children, c.site = t ∧ selector.selects env root c = .ok true := by
  constructor
  · intro h
    cases h with
    | all hparent =>
        obtain ⟨c, hc, rfl⟩ := hparent
        refine ⟨c, hc, rfl, ?_⟩
        cases hlabel : c.label <;> simp [selects, hlabel, picksPosition]
    | @names listed m name hm hname hmem =>
        refine ⟨_, Site.mem_children_iff.2 (.inl ⟨m, hm, rfl⟩), rfl, ?_⟩
        rw [MemberSite.name] at hname
        simp [selects, hname, Except.map, picksName, hmem]
    | @indices positions index k t helement hk hindex =>
        exact ⟨_, Site.mem_children_iff.2 (.inr ⟨index, t, helement, rfl⟩), rfl,
          congrArg Except.ok ((picksPosition_indices _ _ _).2 ⟨k, hk, hindex⟩)⟩
    | @slice start stop index t helement hstart hstop =>
        exact ⟨_, Site.mem_children_iff.2 (.inr ⟨index, t, helement, rfl⟩), rfl,
          congrArg Except.ok ((picksPosition_slice _ _ _ _).2 ⟨hstart, hstop⟩)⟩
    | filter hparent hholds =>
        obtain ⟨c, hc, rfl⟩ := hparent
        exact ⟨c, hc, rfl, hholds⟩
  · rintro ⟨c, hc, rfl, hselects⟩
    have hparent : parent.IsParentOf c.site := ⟨c, hc, rfl⟩
    rcases Site.mem_children_iff.1 hc with ⟨m, hm, rfl⟩ | ⟨index, t, ht, rfl⟩
    · cases selector with
      | all => exact .all hparent
      | names listed =>
          simp only [selects] at hselects
          obtain ⟨name, hname, hmem⟩ := map_eq_ok_iff.1 hselects
          exact .names hm hname (by simpa [picksName] using hmem)
      | filter tokens => exact .filter hparent hselects
      | _ => simp [selects] at hselects
    · cases selector with
      | all => exact .all hparent
      | indices positions =>
          obtain ⟨k, hk, hindex⟩ :=
            (picksPosition_indices _ _ _).1 (Except.ok.inj hselects)
          exact .indices ht hk hindex
      | slice start stop =>
          obtain ⟨hstart, hstop⟩ := (picksPosition_slice _ _ _ _).1 (Except.ok.inj hselects)
          exact .slice ht hstart hstop
      | filter tokens => exact .filter hparent hselects
      | _ => simp [selects, picksPosition] at hselects

/-! ### Chains -/

/-- A segment leads from a value to one that its selector picks among the children of that
value, or, if it is detached, among the children of anything below it. -/
def Segment.Reaches (env : Environment) (root : Site) (segment : Segment) (s t : Site) : Prop :=
  ∃ parent : Site, (parent = s ∨ segment.detached = true ∧ parent.Below s) ∧
    segment.selector.Picks env root parent t

/-- The values that segments lead to one after the other, from a value on. -/
inductive Chain (env : Environment) (root : Site) : List Segment → Site → List Site → Prop
  /-- The chain ends with the segments. -/
  | nil {s : Site} : Chain env root [] s []
  /-- The first segment leads to a value, from which the others go on. -/
  | cons {segment : Segment} {later : List Segment} {s t : Site} {nodes : List Site} :
      segment.Reaches env root s t → Chain env root later t nodes →
      Chain env root (segment :: later) s (t :: nodes)

/-- A chain through no segment has no further node. -/
theorem chain_nil_iff {root s : Site} {nodes : List Site} :
    Chain env root [] s nodes ↔ nodes = [] := by
  constructor
  · intro h
    cases h
    rfl
  · rintro rfl
    exact .nil

/-- A chain through a path goes to a node its first segment reaches, and on from there. -/
theorem chain_cons_iff {root s : Site} {segment : Segment} {later : List Segment}
    {nodes : List Site} : Chain env root (segment :: later) s nodes ↔
      ∃ t rest, nodes = t :: rest ∧ segment.Reaches env root s t ∧ Chain env root later t rest := by
  constructor
  · intro h
    cases h with
    | cons hreaches hchain => exact ⟨_, _, rfl, hreaches, hchain⟩
  · rintro ⟨t, rest, rfl, hreaches, hchain⟩
    exact .cons hreaches hchain

/-- What a segment leads to is a child that is picked, or a detached segment leads to it from
a child. -/
theorem Segment.reaches_iff {root s t : Site} {segment : Segment} :
    segment.Reaches env root s t ↔ ∃ c ∈ s.children,
      (c.site = t ∧ segment.selector.selects env root c = .ok true) ∨
        (segment.detached = true ∧ segment.Reaches env root c.site t) := by
  constructor
  · rintro ⟨parent, hbelow, hpicks⟩
    have hhere (h : parent = s) : ∃ c ∈ s.children,
        (c.site = t ∧ segment.selector.selects env root c = .ok true) ∨
          (segment.detached = true ∧ segment.Reaches env root c.site t) := by
      subst h
      obtain ⟨c, hc, ht, hselects⟩ := Selector.picks_iff.1 hpicks
      exact ⟨c, hc, .inl ⟨ht, hselects⟩⟩
    rcases hbelow with h | ⟨hdetached, hbelow⟩
    · exact hhere h
    rcases Relation.ReflTransGen.cases_head hbelow with h | ⟨u, ⟨c, hc, rfl⟩, hbelow⟩
    · exact hhere h.symm
    · exact ⟨c, hc, .inr ⟨hdetached, parent, .inr ⟨hdetached, hbelow⟩, hpicks⟩⟩
  · rintro ⟨c, hc, ⟨rfl, hselects⟩ | ⟨hdetached, parent, hbelow, hpicks⟩⟩
    · exact ⟨s, .inl rfl, Selector.picks_iff.2 ⟨c, hc, rfl, hselects⟩⟩
    · have hchild : s.IsParentOf c.site := ⟨c, hc, rfl⟩
      have hparent : parent.Below c.site := by
        rcases hbelow with rfl | ⟨-, hbelow⟩
        · exact .refl
        · exact hbelow
      exact ⟨parent, .inr ⟨hdetached, .head hchild hparent⟩, hpicks⟩

/-- What a segment leads to stands below a child. -/
theorem Segment.Reaches.exists_below {root s t : Site} {segment : Segment}
    (h : segment.Reaches env root s t) : ∃ c ∈ s.children, t.Below c.site := by
  obtain ⟨parent, hbelow, hpicks⟩ := h
  obtain ⟨c, hc, rfl, -⟩ := Selector.picks_iff.1 hpicks
  rcases hbelow with rfl | ⟨-, hbelow⟩
  · exact ⟨c, hc, .refl⟩
  rcases Relation.ReflTransGen.cases_head hbelow with rfl | ⟨u, ⟨d, hd, rfl⟩, hbelow⟩
  · exact ⟨c, hc, .refl⟩
  · exact ⟨d, hd, .tail hbelow ⟨c, hc, rfl⟩⟩

/-! ### Enumerations -/

/-- The values are the ends of the chains that a property describes, once for each of them.
A chain without values ends where it starts. -/
def Enumerates (found : List Site) (start : Site) (P : List Site → Prop) : Prop :=
  ∃ chains : List (List Site), chains.Nodup ∧ (∀ nodes, nodes ∈ chains ↔ P nodes) ∧
    found = chains.map fun nodes => nodes.getLastD start

namespace Enumerates

variable {found found' : List Site} {s t : Site} {P Q : List Site → Prop}

/-- A list enumerates equivalent properties alike. -/
theorem congr (h : Enumerates found s P) (hPQ : ∀ nodes, P nodes ↔ Q nodes) :
    Enumerates found s Q := by
  obtain ⟨chains, hnodup, hmem, hfound⟩ := h
  exact ⟨chains, hnodup, fun nodes => (hmem nodes).trans (hPQ nodes), hfound⟩

/-- The empty list enumerates what nothing satisfies. -/
theorem nil (h : ∀ nodes, ¬ P nodes) : Enumerates [] s P :=
  ⟨[], List.nodup_nil, fun nodes => by simpa using h nodes, rfl⟩

/-- Two enumerations without a chain in common. -/
theorem append (hP : Enumerates found s P) (hQ : Enumerates found' s Q)
    (hdisjoint : ∀ nodes, P nodes → ¬ Q nodes) :
    Enumerates (found ++ found') s fun nodes => P nodes ∨ Q nodes := by
  obtain ⟨chains, hnodup, hmem, rfl⟩ := hP
  obtain ⟨chains', hnodup', hmem', rfl⟩ := hQ
  refine ⟨chains ++ chains', ?_, fun nodes => ?_, List.map_append.symm⟩
  · refine List.nodup_append.2 ⟨hnodup, hnodup', ?_⟩
    rintro nodes hnodes _ hnodes' rfl
    exact hdisjoint nodes ((hmem nodes).1 hnodes) ((hmem' nodes).1 hnodes')
  · rw [List.mem_append, hmem, hmem']

/-- One value more in front of every chain. -/
theorem cons (h : Enumerates found t P) :
    Enumerates found s fun nodes => ∃ rest, nodes = t :: rest ∧ P rest := by
  obtain ⟨chains, hnodup, hmem, rfl⟩ := h
  refine ⟨chains.map (t :: ·), ?_, fun nodes => ?_, ?_⟩
  · exact hnodup.map fun _ _ h => (List.cons.inj h).2
  · simp only [List.mem_map, hmem]
    constructor <;> rintro ⟨rest, h, h'⟩
    · exact ⟨rest, h'.symm, h⟩
    · exact ⟨rest, h', h.symm⟩
  · rw [List.map_map]
    refine List.map_congr_left fun nodes _ => ?_
    rw [Function.comp_apply, List.getLastD_cons]

/-- Where the chains start matters only if one of them has no values. -/
theorem restart (h : Enumerates found t P) (hne : ∀ nodes, P nodes → nodes ≠ []) :
    Enumerates found s P := by
  obtain ⟨chains, hnodup, hmem, rfl⟩ := h
  refine ⟨chains, hnodup, hmem, List.map_congr_left fun nodes hnodes => ?_⟩
  obtain ⟨u, rest, rfl⟩ := List.exists_cons_of_ne_nil (hne nodes ((hmem nodes).1 hnodes))
  rw [List.getLastD_cons, List.getLastD_cons]

/-- **What is gathered** from the members of a list enumerates the chains of all of them, if
no two members have a chain in common. -/
theorem gather {α : Type} {f : α → Except Error (List Site)} {R : α → List Site → Prop}
    {l : List α} (h : gather f l = .ok found)
    (hf : ∀ a ∈ l, ∀ part, f a = .ok part → Enumerates part s (R a))
    (hdisjoint : l.Pairwise fun a b => ∀ nodes, R a nodes → ¬ R b nodes) :
    Enumerates found s fun nodes => ∃ a ∈ l, R a nodes := by
  induction l generalizing found with
  | nil =>
      obtain rfl : [] = found := Except.ok.inj h
      exact nil (by simp)
  | cons a l ih =>
      rw [JsonPath.gather] at h
      split at h
      · cases h
      next part hpart =>
      obtain ⟨more, hrest, rfl⟩ := map_eq_ok_iff.1 h
      obtain ⟨ha, hl⟩ := List.pairwise_cons.1 hdisjoint
      have hmore := ih hrest (fun b hb => hf b (List.mem_cons_of_mem a hb)) hl
      have happend := append (hf a List.mem_cons_self part hpart) hmore (by
        rintro nodes hnodes ⟨b, hb, hnodes'⟩
        exact ha b hb nodes hnodes hnodes')
      exact happend.congr fun nodes => by simp

/-- The number of times a value is found is the number of chains that end at it. -/
theorem count (h : Enumerates found s P) (n : Site) :
    (found.count n : ℕ∞) = {nodes | P nodes ∧ nodes.getLastD s = n}.encard := by
  obtain ⟨chains, hnodup, hmem, rfl⟩ := h
  have hset : {nodes | P nodes ∧ nodes.getLastD s = n} =
      ((chains.filter fun nodes => nodes.getLastD s = n).toFinset : Set (List Site)) := by
    ext nodes
    simp [hmem]
  rw [hset, Set.encard_coe_eq_coe_finsetCard, List.toFinset_card_of_nodup (hnodup.filter _),
    List.count, List.countP_map, ← List.countP_eq_length_filter]
  congr 1

end Enumerates

/-! ### Walks -/

/-- The chains that begin at a child: the child itself is picked and the other segments go on
from it, or the same segment, detached, goes on below it. -/
def ChainsAt (env : Environment) (root : Site) (segment : Segment) (later : List Segment)
    (c : Child)
    (nodes : List Site) : Prop :=
  (segment.selector.selects env root c = .ok true ∧
      ∃ rest, nodes = c.site :: rest ∧ Chain env root later c.site rest) ∨
    (segment.detached = true ∧ Chain env root (segment :: later) c.site nodes)

/-- A chain begins at one of the children. -/
theorem chain_iff_exists_chainsAt {root s : Site} {segment : Segment} {later : List Segment}
    {nodes : List Site} : Chain env root (segment :: later) s nodes ↔
      ∃ c ∈ s.children, ChainsAt env root segment later c nodes := by
  rw [chain_cons_iff]
  constructor
  · rintro ⟨t, rest, rfl, hreaches, hchain⟩
    obtain ⟨c, hc, ⟨rfl, hselects⟩ | ⟨hdetached, hbelow⟩⟩ := Segment.reaches_iff.1 hreaches
    · exact ⟨c, hc, .inl ⟨hselects, rest, rfl, hchain⟩⟩
    · exact ⟨c, hc, .inr ⟨hdetached, .cons hbelow hchain⟩⟩
  · rintro ⟨c, hc, ⟨hselects, rest, rfl, hchain⟩ | ⟨hdetached, hchain⟩⟩
    · exact ⟨c.site, rest, rfl, Segment.reaches_iff.2 ⟨c, hc, .inl ⟨rfl, hselects⟩⟩, hchain⟩
    · obtain ⟨t, rest, rfl, hreaches, hchain⟩ := chain_cons_iff.1 hchain
      exact ⟨t, rest, rfl, Segment.reaches_iff.2 ⟨c, hc, .inr ⟨hdetached, hreaches⟩⟩, hchain⟩

/-- A chain that begins at a child passes what stands below it. -/
theorem ChainsAt.exists_eq_cons {root : Site} {segment : Segment} {later : List Segment}
    {c : Child} {nodes : List Site} (h : ChainsAt env root segment later c nodes) :
    ∃ t rest, nodes = t :: rest ∧ t.Below c.site := by
  rcases h with ⟨-, rest, rfl, -⟩ | ⟨-, hchain⟩
  · exact ⟨c.site, rest, rfl, .refl⟩
  · obtain ⟨t, rest, rfl, hreaches, -⟩ := chain_cons_iff.1 hchain
    obtain ⟨d, hd, hbelow⟩ := hreaches.exists_below
    exact ⟨t, rest, rfl, .head ⟨d, hd, rfl⟩ hbelow⟩

/-- **At one child** a walk finds the chains that begin there, given that it does so below
the child. A chain of the second kind passes a value that begins after the child. -/
theorem enumerates_visit {root s : Site} {segment : Segment} {later : List Segment} {c : Child}
    {afterwards same : Except Error (List Site)} {part : List Site}
    (h : visit env root segment c afterwards same = .ok part)
    (hlater : ∀ found, afterwards = .ok found →
      Enumerates found c.site (Chain env root later c.site))
    (hsame : ∀ found, same = .ok found →
      Enumerates found c.site (Chain env root (segment :: later) c.site)) :
    Enumerates part s (ChainsAt env root segment later c) := by
  have hnonempty : ∀ nodes, Chain env root (segment :: later) c.site nodes → nodes ≠ [] := by
    intro nodes hchain
    obtain ⟨t, rest, rfl, -⟩ := chain_cons_iff.1 hchain
    exact List.cons_ne_nil t rest
  rw [visit] at h
  split at h
  · cases h
  next selected hselects =>
  split at h
  · cases h
  next found hfound =>
  have hfirst : Enumerates found s fun nodes => segment.selector.selects env root c = .ok true ∧
      ∃ rest, nodes = c.site :: rest ∧ Chain env root later c.site rest := by
    cases selected with
    | true => exact (hlater found hfound).cons.congr fun nodes => by simp [hselects]
    | false =>
        obtain rfl : [] = found := Except.ok.inj hfound
        exact .nil fun nodes h => by simp [hselects] at h
  by_cases hdetached : segment.detached = true
  · rw [if_pos hdetached] at h
    obtain ⟨more, hmore, rfl⟩ := map_eq_ok_iff.1 h
    have hsecond : Enumerates more s (Chain env root (segment :: later) c.site) :=
      (hsame more hmore).restart hnonempty
    refine (hfirst.append hsecond ?_).congr fun nodes => by simp [ChainsAt, hdetached]
    rintro _ ⟨-, rest, rfl, -⟩ hchain
    obtain ⟨t, rest', heq, hreaches, -⟩ := chain_cons_iff.1 hchain
    obtain ⟨rfl, rfl⟩ := List.cons.inj heq
    obtain ⟨d, hd, hbelow⟩ := hreaches.exists_below
    exact absurd (Site.Below.start_lt hd hbelow) (lt_irrefl _)
  · rw [if_neg hdetached] at h
    obtain rfl := Except.ok.inj h
    exact hfirst.congr fun nodes => by simp [ChainsAt, hdetached]

/-- **A walk enumerates the chains.** The induction is on the size of the value; the segments may be
the same below a child. What stands below two children is different. -/
theorem enumerates_walk {root s : Site} (hw : s.WellFormed) {segments : List Segment}
    (hsegments : ∀ segment ∈ segments, segment.isFunction = false) {found : List Site}
    (h : walk env root segments s = .ok found) :
    Enumerates found s (Chain env root segments s) := by
  induction hn : s.node.size using Nat.strong_induction_on generalizing s segments found with
  | _ n ih =>
  rcases segments with - | ⟨segment, later⟩
  · rw [walk] at h
    obtain rfl : [s] = found := Except.ok.inj h
    refine ⟨[[]], List.nodup_singleton _, fun nodes => ?_, rfl⟩
    rw [List.mem_singleton, chain_nil_iff]
  rw [walk_eq root segment later s (hsegments segment List.mem_cons_self)] at h
  have hlater : ∀ segment ∈ later, segment.isFunction = false :=
    fun segment hsegment => hsegments segment (List.mem_cons_of_mem _ hsegment)
  refine (Enumerates.gather h ?_ ?_).congr fun nodes => chain_iff_exists_chainsAt.symm
  · intro c hc part hpart
    have hlt : c.site.node.size < n := hn ▸ Site.size_lt_of_mem_children hc
    have hwc := hw.of_mem_children hc
    exact enumerates_visit hpart (fun found hfound => ih _ hlt hwc hlater hfound rfl)
      fun found hfound => ih _ hlt hwc hsegments hfound rfl
  · refine List.Pairwise.imp_of_mem ?_ s.children_layout.2
    intro c d hc hd hstop nodes hnodes hnodes'
    obtain ⟨t, rest, rfl, hbelow⟩ := hnodes.exists_eq_cons
    obtain ⟨u, rest', heq, hbelow'⟩ := hnodes'.exists_eq_cons
    obtain ⟨rfl, rfl⟩ := List.cons.inj heq
    exact Site.Below.disjoint (hw.of_mem_children hc) hstop hbelow hbelow'

/-- **A value is found as often as chains lead to it**, in any document that is accepted and
from any value in it, if the walk succeeds. -/
theorem walk_count {document : String} {top root r n : Site} {segments : List Segment}
    {found : List Site} (hdocument : Document.ofString document = .ok top) (hr : r.Below top)
    (hsegments : ∀ segment ∈ segments, segment.isFunction = false)
    (h : walk env root segments r = .ok found) :
    (found.count n : ℕ∞) =
      {nodes | Chain env root segments r nodes ∧ nodes.getLastD r = n}.encard := by
  have hw := (Document.wellFormed_of_ofString hdocument).of_below hr
  exact (enumerates_walk hw hsegments h).count n

/-- The array `[[[[]]]]`. -/
def fourArrays : Site :=
  ⟨0, .array (.item [] (.array (.item [] (.array (.item [] (.array (.close [])) (.close [])))
    (.close []))) (.close []))⟩

/-- The outermost array in `[[[[]]]]`. -/
def secondArray : Site :=
  ⟨1, .array (.item [] (.array (.item [] (.array (.close [])) (.close []))) (.close []))⟩

/-- The array in the middle of those in `[[[[]]]]`. -/
def thirdArray : Site :=
  ⟨2, .array (.item [] (.array (.close [])) (.close []))⟩

/-- The innermost array in `[[[[]]]]`. -/
def fourthArray : Site :=
  ⟨3, .array (.close [])⟩

/-- The text of four arrays is read as the document that is meant. -/
theorem ofString_fourArrays : Document.ofString "[[[[]]]]" = .ok fourArrays := by
  refine Document.ofString_eq_ok_iff.2 ⟨[], [], rfl, ?_, ?_, ?_, ?_, rfl⟩
  · simp [Grammar.Blanks]
  · simp [Grammar.Blanks]
  · simp [fourArrays, Node.WellFormed, Items.WellFormed, Grammar.Gap, Grammar.Blanks]
  · decide

/-- From an array of one element `..*` leads to the element, and below it. -/
theorem walk_all_of_children {root parent child : Site} {later : List Segment}
    (h : parent.children = [⟨.position 0 1, child⟩]) :
    walk env root (⟨.all, true⟩ :: later) parent =
      joined (walk env root later child) (walk env root (⟨.all, true⟩ :: later) child) := by
  rw [walk_eq _ _ _ _ rfl, h, gather_singleton, visit_eq]
  rfl

/-- `..*..*` finds the innermost array in `[[[[]]]]` twice: below the second array, and below the
third. -/
theorem walk_count_fourArrays :
    fourArrays.Below fourArrays ∧
      walk .standard fourArrays [⟨.all, true⟩, ⟨.all, true⟩] fourArrays =
        .ok [thirdArray, fourthArray, fourthArray] ∧
      2 = {nodes | Chain .standard fourArrays [⟨.all, true⟩, ⟨.all, true⟩] fourArrays nodes ∧
        nodes.getLastD fourArrays = fourthArray}.encard := by
  have hfunction : ∀ segment ∈ [(⟨.all, true⟩ : Segment), ⟨.all, true⟩],
      segment.isFunction = false := by
    simp [Segment.isFunction, Selector.isFunction]
  have hend (later : List Segment) :
      walk .standard fourArrays (⟨.all, true⟩ :: later) fourthArray = .ok [] := by
    rw [walk_eq _ _ _ _ rfl]
    rfl
  have hhere (s : Site) : walk .standard fourArrays [] s = .ok [s] := by rw [walk]
  have hchild : fourArrays.children = [⟨.position 0 1, secondArray⟩] := rfl
  have hchild' : secondArray.children = [⟨.position 0 1, thirdArray⟩] := rfl
  have hchild'' : thirdArray.children = [⟨.position 0 1, fourthArray⟩] := rfl
  have hthird : walk .standard fourArrays [⟨.all, true⟩] thirdArray = .ok [fourthArray] := by
    rw [walk_all_of_children hchild'', hhere, hend]
    rfl
  have hsecond : walk .standard fourArrays [⟨.all, true⟩] secondArray =
      .ok [thirdArray, fourthArray] := by
    rw [walk_all_of_children hchild', hhere, hthird]
    rfl
  have hwalk : walk .standard fourArrays [⟨.all, true⟩, ⟨.all, true⟩] fourArrays =
      .ok [thirdArray, fourthArray, fourthArray] := by
    rw [walk_all_of_children hchild, hsecond, walk_all_of_children hchild', hthird,
      walk_all_of_children hchild'', hend, hend]
    rfl
  have hcount := walk_count (n := fourthArray) ofString_fourArrays .refl hfunction hwalk
  exact ⟨.refl, hwalk, hcount⟩

end JsonPath
