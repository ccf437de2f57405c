import Mathlib
import JsonPath.Environment.Standard
import JsonPath.Proofs.Query.Containment
import JsonPath.Query

/-!
# In Which Order Values Are Found

A walk goes on from a value with the later segments as soon as the value is found, and looks
further down for the same segment only afterwards. If `..` is the last segment or does not occur
(`DescendsLast`), there are no later segments to go on with in between, and the values are found in
the order in which they begin in the document, each of them once (`Path.start_lt_of_walk`). The
invariant is that whatever is found from a child stands below that child (`below_of_walk`), and
the children stand one after the other.

If `..` is followed by other segments, it may find a value inside another one. What the other
segments find from the outer value is then reported before what they find from the inner one, even
if it stands behind it. Nothing else puts results out of order. A path can be cut behind its last
`..` that is followed by anything, and its results are in order if nothing below a value that the
first part finds begins behind something below a value that it finds later (`Site.Precedes`). Where
this fails, the first part can be continued so that the results are out of order.

## Main definitions

* `DescendsLast`: segments of which at most the last one is detached.
* `InOrder`: values none of which begins before an earlier one.
* `Site.Precedes`: nothing below a value begins behind what is below another one.
* `Path.DescentsPrecede`: this holds of the values found at the last descent that is followed by
  other segments.

## Main results

* `pairwise_start_lt_of_walk`: a walk finds values in the order in which they begin.
* `Path.start_lt_of_walk`: **no value is found twice or too late** if descents come last.
* `inOrder_of_precedes`: what is found from values that precede each other is in order.
* `exists_walk_inOrder_iff`: everything inside the values that a path finds is found in order
  exactly if they precede each other.
* `Path.inOrder_of_descentsPrecede_and_conversely`: **results are in order** if the values found at
  the last such descent precede each other, and not always otherwise.
* `not_forall_inOrder`: a path that finds a value after one that stands behind it.
-/

namespace JsonPath

variable {env : Environment}

/-- At most the last segment goes down to any depth. -/
def DescendsLast (segments : List Segment) : Prop :=
  ∀ segment ∈ segments.dropLast, segment.detached = false

/-- No value begins before an earlier one. -/
def InOrder (found : List Site) : Prop :=
  found.Pairwise fun s t => s.start ≤ t.start

namespace DescendsLast

variable {segment : Segment} {later : List Segment}

/-- If descents come last in a path, they do in what follows its first segment. -/
theorem tail (h : DescendsLast (segment :: later)) : DescendsLast later := by
  cases later with
  | nil => exact h
  | cons next rest => exact fun g hg => h g (List.mem_cons_of_mem segment hg)

/-- Nothing follows a detached segment. -/
theorem eq_nil_of_detached (h : DescendsLast (segment :: later))
    (hdetached : segment.detached = true) : later = [] := by
  cases later with
  | nil => rfl
  | cons next rest =>
      have hattached := h segment List.mem_cons_self
      rw [hdetached] at hattached
      cases hattached

end DescendsLast

/-! ### Values inside a value -/

namespace Site

/-- The first value stands below a child of the second. -/
def Inside (t s : Site) : Prop :=
  ∃ c ∈ s.children, t.Below c.site

/-- Nothing below the first value begins behind something below the second. -/
def Precedes (s t : Site) : Prop :=
  ∀ x y : Site, x.Inside s → y.Inside t → x.start ≤ y.start

variable {s t : Site}

/-- What lies inside a site lies below it. -/
theorem Inside.below (h : t.Inside s) : t.Below s := by
  obtain ⟨c, hc, hbelow⟩ := h
  exact .head ⟨c, hc, rfl⟩ hbelow

/-- What lies inside a site begins behind the site's start. -/
theorem Inside.start_lt (h : t.Inside s) : s.start < t.start := by
  obtain ⟨c, hc, hbelow⟩ := h
  exact Below.start_lt hc hbelow

/-- Values that stand apart precede each other. -/
theorem precedes_of_stop_le (hw : s.WellFormed) (h : s.stop ≤ t.start) : s.Precedes t := by
  intro x y hx hy
  exact (Below.start_lt_of_stop_le hw h hx.below hy.below).le

end Site

/-! ### What a walk finds stands below -/

/-- **What a walk finds** stands below the value that the walk starts at. -/
theorem below_of_walk {root s t : Site} {segments : List Segment} {found : List Site}
    (h : walk env root segments s = .ok found) (ht : t ∈ found) : t.Below s := by
  obtain ⟨_, -, hbelow⟩ := exists_of_mem_walk (P := fun _ x => x.Below s) (n := 0)
    (fun hx c hc => Relation.ReflTransGen.tail hx ⟨c, hc, rfl⟩) .refl h ht
  exact hbelow

/-- What is found at a child stands below the child. -/
theorem below_of_visit {root t : Site} {segment : Segment} {later : List Segment} {c : Child}
    {part : List Site} (h : visit env root segment c (walk env root later c.site)
      (walk env root (segment :: later) c.site) = .ok part) (ht : t ∈ part) : t.Below c.site := by
  rcases mem_of_visit h ht with ⟨found, hfound, hmem⟩ | ⟨found, hfound, hmem⟩
  · exact below_of_walk hfound hmem
  · exact below_of_walk hfound hmem

/-- What a segment finds stands inside the value that the walk starts at. -/
theorem inside_of_walk {root s t : Site} {segments : List Segment} (hne : segments ≠ [])
    (hfunctions : ∀ segment ∈ segments, segment.isFunction = false) {found : List Site}
    (h : walk env root segments s = .ok found) (ht : t ∈ found) : t.Inside s := by
  obtain ⟨segment, later, rfl⟩ := List.exists_cons_of_ne_nil hne
  rw [walk_eq root segment later s (hfunctions segment List.mem_cons_self)] at h
  obtain ⟨c, hc, part, hpart, hmem⟩ := mem_of_gather h ht
  exact ⟨c, hc, below_of_visit hpart hmem⟩

/-! ### Descents that come last -/

/-- **At one child**, what the later segments find comes before what a detached segment finds
further down: there are no later segments then, and only the child itself comes before. -/
theorem pairwise_start_lt_of_visit {root : Site} {segment : Segment} {later : List Segment}
    {c : Child} {part : List Site} (hfunction : segment.isFunction = false)
    (hlast : DescendsLast (segment :: later))
    (h : visit env root segment c (walk env root later c.site)
      (walk env root (segment :: later) c.site) = .ok part)
    (hlater : ∀ found, walk env root later c.site = .ok found →
      found.Pairwise fun s t => s.start < t.start)
    (hsame : ∀ found, walk env root (segment :: later) c.site = .ok found →
      found.Pairwise fun s t => s.start < t.start) :
    part.Pairwise fun s t => s.start < t.start := by
  rw [visit_eq] at h
  split at h
  · cases h
  next selected _ =>
  obtain ⟨xs, ys, hxs, hys, rfl⟩ := joined_eq_ok_iff.1 h
  have hfirst : xs.Pairwise fun s t => s.start < t.start := by
    cases selected with
    | true => exact hlater xs hxs
    | false =>
        obtain rfl : [] = xs := Except.ok.inj hxs
        exact .nil
  cases hdetached : segment.detached with
  | false =>
      rw [hdetached] at hys
      obtain rfl : [] = ys := Except.ok.inj hys
      rwa [List.append_nil]
  | true =>
      rw [hdetached] at hys
      obtain rfl := hlast.eq_nil_of_detached hdetached
      refine List.pairwise_append.2 ⟨hfirst, hsame ys hys, fun s hs t ht => ?_⟩
      have hinside : t.Inside c.site :=
        inside_of_walk (List.cons_ne_nil _ _) (by simpa using hfunction) hys ht
      have hchild : s = c.site := by
        cases selected with
        | true =>
            rw [if_pos rfl, walk] at hxs
            obtain rfl := Except.ok.inj hxs
            exact List.mem_singleton.1 hs
        | false =>
            obtain rfl : [] = xs := Except.ok.inj hxs
            cases hs
      rw [hchild]
      exact hinside.start_lt

/-- **A walk finds values in the order in which they begin**, if descents come last. The induction
is on the size of the value; what is found from different children stands below them. -/
theorem pairwise_start_lt_of_walk {root s : Site} (hw : s.WellFormed) {segments : List Segment}
    (hfunctions : ∀ segment ∈ segments, segment.isFunction = false)
    (hlast : DescendsLast segments) {found : List Site}
    (h : walk env root segments s = .ok found) : found.Pairwise fun s t => s.start < t.start := by
  induction hn : s.node.size using Nat.strong_induction_on generalizing s segments found with
  | _ n ih =>
  rcases segments with - | ⟨segment, later⟩
  · rw [walk] at h
    obtain rfl : [s] = found := Except.ok.inj h
    exact List.pairwise_singleton _ s
  have hfunction := hfunctions segment List.mem_cons_self
  rw [walk_eq root segment later s hfunction] at h
  refine (pairwise_gather_iff h).2 ⟨fun c hc part hpart => ?_, ?_⟩
  · have hlt : c.site.node.size < n := hn ▸ Site.size_lt_of_mem_children hc
    have hwc := hw.of_mem_children hc
    refine pairwise_start_lt_of_visit hfunction hlast hpart (fun found hfound => ?_)
      fun found hfound => ?_
    · have hlater : ∀ g ∈ later, g.isFunction = false :=
        fun g hg => hfunctions g (List.mem_cons_of_mem _ hg)
      exact ih _ hlt hwc hlater hlast.tail hfound rfl
    · exact ih _ hlt hwc hfunctions hlast hfound rfl
  · refine List.Pairwise.imp_of_mem ?_ s.children_layout.2
    intro c d hc hd hstop part part' hpart hpart' x hx y hy
    exact Site.Below.start_lt_of_stop_le (hw.of_mem_children hc) hstop (below_of_visit hpart hx)
      (below_of_visit hpart' hy)

/-- **No value is found twice or too late** if descents come last: along a path without functions of
which at most the last segment is detached, every value that is found begins behind the one that was
found before it. -/
theorem Path.start_lt_of_walk {document : String} {top : Site} {p : Path} {found : List Site}
    (hdocument : Document.ofString document = .ok top)
    (hfunction : p.segments.any Segment.isFunction = false) (hlast : DescendsLast p.segments)
    (hwalk : walk env top p.segments top = .ok found) :
    found.Pairwise fun s t => s.start < t.start := by
  refine pairwise_start_lt_of_walk (Document.wellFormed_of_ofString hdocument) ?_ hlast hwalk
  intro segment hsegment
  simpa using List.any_eq_false.1 hfunction segment hsegment

/-- An object named `a` in an object named `a`, each with a number named `b`, the inner one
first. -/
def nestedNames : Site :=
  ⟨0, .object (.member [] ['a'] [':'] (.object
    (.member [] ['a'] [':'] (.object
      (.member [] ['b'] [':'] (.number ⟨[], ['1'], none, none⟩) (.close [])))
    (.member [','] ['b'] [':'] (.number ⟨[], ['2'], none, none⟩) (.close [])))) (.close []))⟩

/-- The text with the nested names is read as the document that is meant. -/
theorem ofString_nestedNames :
    Document.ofString "\x7b\"a\":\x7b\"a\":\x7b\"b\":1\x7d,\"b\":2\x7d\x7d" = .ok nestedNames := by
  cbv

/-- `$.a..b` finds the two numbers in the order in which they stand in the document. -/
theorem Path.start_lt_of_walk_nestedNames :
    Document.ofString "\x7b\"a\":\x7b\"a\":\x7b\"b\":1\x7d,\"b\":2\x7d\x7d" = .ok nestedNames ∧
      [⟨.names ["a"], false⟩, ⟨.names ["b"], true⟩].any Segment.isFunction = false ∧
      DescendsLast [⟨.names ["a"], false⟩, ⟨.names ["b"], true⟩] ∧
      walk .standard nestedNames [⟨.names ["a"], false⟩, ⟨.names ["b"], true⟩] nestedNames =
        .ok [⟨15, .number ⟨[], ['1'], none, none⟩⟩, ⟨22, .number ⟨[], ['2'], none, none⟩⟩] ∧
      [(⟨15, .number ⟨[], ['1'], none, none⟩⟩ : Site),
        ⟨22, .number ⟨[], ['2'], none, none⟩⟩].Pairwise fun s t => s.start < t.start := by
  have hlast : DescendsLast [⟨.names ["a"], false⟩, ⟨.names ["b"], true⟩] := by simp [DescendsLast]
  have hwalk :
      walk .standard nestedNames [⟨.names ["a"], false⟩, ⟨.names ["b"], true⟩] nestedNames =
      .ok [⟨15, .number ⟨[], ['1'], none, none⟩⟩, ⟨22, .number ⟨[], ['2'], none, none⟩⟩] := by
    cbv
  exact ⟨ofString_nestedNames, rfl, hlast, hwalk,
    start_lt_of_walk (p := ⟨[⟨.names ["a"], false⟩, ⟨.names ["b"], true⟩]⟩) ofString_nestedNames rfl
      hlast hwalk⟩

/-! ### Descents that are followed by other segments -/

/-- **`..*` finds everything inside a value.** The induction is on the size of the value. -/
theorem exists_walk_descendants (root s : Site) :
    ∃ found, walk env root [⟨.all, true⟩] s = .ok found ∧ ∀ t : Site, t.Inside s → t ∈ found := by
  induction hn : s.node.size using Nat.strong_induction_on generalizing s with
  | _ n ih =>
  have hparts (c : Child) (hc : c ∈ s.children) : ∃ part,
      visit env root ⟨.all, true⟩ c (walk env root [] c.site)
          (walk env root [⟨.all, true⟩] c.site) = .ok part ∧
        ∀ t : Site, t.Below c.site → t ∈ part := by
    obtain ⟨more, hmore, hinside⟩ := ih _ (hn ▸ Site.size_lt_of_mem_children hc) c.site rfl
    refine ⟨c.site :: more, ?_, fun t ht => ?_⟩
    · rw [visit_eq, Selector.selects_all, hmore, walk]
      rfl
    · rcases Relation.ReflTransGen.cases_head ht with rfl | ⟨_, ⟨d, hd, rfl⟩, hbelow⟩
      · exact List.mem_cons_self
      · exact List.mem_cons_of_mem _ (hinside t ⟨d, hd, hbelow⟩)
  rw [walk_eq root ⟨.all, true⟩ [] s rfl]
  obtain ⟨found, hfound⟩ := exists_gather_eq_ok fun c hc =>
    (hparts c hc).imp fun part hpart => hpart.1
  refine ⟨found, hfound, ?_⟩
  rintro t ⟨c, hc, hbelow⟩
  obtain ⟨part, hpart, hmem⟩ := hparts c hc
  exact (sublist_of_gather hfound hc hpart).subset (hmem t hbelow)

section Continuing

variable {document : String} {top : Site} (hdocument : Document.ofString document = .ok top)
  {front : List Segment} (hfront : ∀ segment ∈ front, segment.isFunction = false)
  {starts : List Site} (hstarts : walk env top front top = .ok starts)

include hdocument hfront hstarts

/-- **What is found from values that precede each other** is in order, if descents come last from
there on. -/
theorem inOrder_of_precedes (hprecedes : starts.Pairwise Site.Precedes) {back : List Segment}
    (hne : back ≠ []) (hback : ∀ segment ∈ back, segment.isFunction = false)
    (hlast : DescendsLast back) {found : List Site}
    (hwalk : walk env top (front ++ back) top = .ok found) : InOrder found := by
  rw [walk_append_of_eq_ok back hfront hstarts] at hwalk
  refine (pairwise_gather_iff hwalk).2 ⟨fun s hs part hpart => ?_, hprecedes.imp ?_⟩
  · have hw : s.WellFormed :=
      (Document.wellFormed_of_ofString hdocument).of_below (below_of_walk hstarts hs)
    exact (pairwise_start_lt_of_walk hw hback hlast hpart).imp Nat.le_of_lt
  · intro s t hst part part' hpart hpart' x hx y hy
    exact hst x y (inside_of_walk hne hback hpart hx) (inside_of_walk hne hback hpart' hy)

/-- **`..*` behind a path** finds everything inside the values that the path finds, and finds it in
order exactly if they precede each other. -/
theorem exists_walk_inOrder_iff : ∃ found, walk env top (front ++ [⟨.all, true⟩]) top = .ok found ∧
    (InOrder found ↔ starts.Pairwise Site.Precedes) := by
  obtain ⟨found, hfound⟩ : ∃ found, gather (walk env top [⟨.all, true⟩]) starts = .ok found :=
    exists_gather_eq_ok fun s _ => (exists_walk_descendants top s).imp fun part hpart => hpart.1
  have hwalk : walk env top (front ++ [⟨.all, true⟩]) top = .ok found := by
    rw [walk_append_of_eq_ok _ hfront hstarts, hfound]
  refine ⟨found, hwalk, fun horder => ((pairwise_gather_iff hfound).1 horder).2.imp ?_, fun h => ?_⟩
  · intro s t hst x y hx hy
    obtain ⟨part, hpart, hmem⟩ := exists_walk_descendants top s
    obtain ⟨part', hpart', hmem'⟩ := exists_walk_descendants top t
    exact hst part part' hpart hpart' x (hmem x hx) y (hmem' y hy)
  · exact inOrder_of_precedes hdocument hfront hstarts h (List.cons_ne_nil _ _)
      (by simp [Segment.isFunction, Selector.isFunction]) (by simp [DescendsLast]) hwalk

end Continuing

/-- Segments whose descents do not come last have a last descent that is followed by others. -/
theorem exists_last_descent {segments : List Segment} (h : ¬ DescendsLast segments) :
    ∃ front segment back, segments = front ++ segment :: back ∧ segment.detached = true ∧
      back ≠ [] ∧ DescendsLast back := by
  induction segments with
  | nil => exact (h (by simp [DescendsLast])).elim
  | cons first later ih =>
      by_cases hlater : DescendsLast later
      · obtain ⟨segment, hsegment, hdetached⟩ : ∃ segment ∈ (first :: later).dropLast,
            segment.detached = true := by simpa [DescendsLast] using h
        cases later with
        | nil => cases hsegment
        | cons next rest =>
            rcases List.mem_cons.1 hsegment with rfl | hsegment
            · exact ⟨[], segment, next :: rest, rfl, hdetached, List.cons_ne_nil _ _, hlater⟩
            · rw [hlater segment hsegment] at hdetached
              cases hdetached
      · obtain ⟨front, segment, back, rfl, hsegment⟩ := ih hlater
        exact ⟨first :: front, segment, back, rfl, hsegment⟩

/-- The values that a path finds at the last of its descents that are followed by other segments
precede each other. -/
def Path.DescentsPrecede (env : Environment) (p : Path) (top : Site) : Prop :=
  ∀ front segment back starts, p.segments = front ++ segment :: back → segment.detached = true →
    back ≠ [] → DescendsLast back → walk env top (front ++ [segment]) top = .ok starts →
    starts.Pairwise Site.Precedes

/-- **Results are in order** if the values found at the last descent that is followed by other
segments precede each other. This cannot be weakened: `..*` behind a path without functions always
succeeds, and what it finds is in order only if the values that the path finds precede each
other. -/
theorem Path.inOrder_of_descentsPrecede_and_conversely {document : String} {top : Site}
    (hdocument : Document.ofString document = .ok top) {p : Path} {found : List Site}
    (hfunction : p.segments.any Segment.isFunction = false)
    (hwalk : walk env top p.segments top = .ok found) :
    (p.DescentsPrecede env top → InOrder found) ∧
      ∃ inside, walk env top (p.segments ++ [⟨.all, true⟩]) top = .ok inside ∧
        (InOrder inside ↔ found.Pairwise Site.Precedes) := by
  have hselecting : ∀ segment ∈ p.segments, segment.isFunction = false := by simpa using hfunction
  refine ⟨fun hprecede => ?_, exists_walk_inOrder_iff hdocument hselecting hwalk⟩
  by_cases hlast : DescendsLast p.segments
  · have hw := Document.wellFormed_of_ofString hdocument
    exact (pairwise_start_lt_of_walk hw hselecting hlast hwalk).imp Nat.le_of_lt
  · obtain ⟨front, segment, back, hsplit, hdetached, hne, hback⟩ := exists_last_descent hlast
    have hparts : p.segments = front ++ [segment] ++ back := by rw [hsplit]; simp
    rw [hparts] at hselecting hwalk
    have hfront : ∀ g ∈ front ++ [segment], g.isFunction = false :=
      fun g hg => hselecting g (List.mem_append_left back hg)
    obtain ⟨starts, hstarts, -⟩ := (walk_append top back hfront top found).1 hwalk
    have hpairwise := hprecede front segment back starts hsplit hdetached hne hback hstarts
    exact inOrder_of_precedes hdocument hfront hstarts hpairwise hne
      (fun g hg => hselecting g (List.mem_append_right _ hg)) hback hwalk

/-- Two objects named `a`, apart from each other, each with a number named `b`. -/
def separateNames : Site :=
  ⟨0, .array (.item [] (.object (.member [] ['a'] [':'] (.object
      (.member [] ['b'] [':'] (.number ⟨[], ['1'], none, none⟩) (.close []))) (.close [])))
    (.item [','] (.object (.member [] ['a'] [':'] (.object
      (.member [] ['b'] [':'] (.number ⟨[], ['2'], none, none⟩) (.close []))) (.close [])))
    (.close [])))⟩

/-- The text with the separate names is read as the document that is meant. -/
theorem ofString_separateNames :
    Document.ofString "[\x7b\"a\":\x7b\"b\":1\x7d\x7d,\x7b\"a\":\x7b\"b\":2\x7d\x7d]" =
      .ok separateNames := by
  cbv

/-- The objects named `a` precede each other. -/
theorem descentsPrecede_separateNames :
    Path.DescentsPrecede env ⟨[⟨.names ["a"], true⟩, ⟨.names ["b"], false⟩]⟩ separateNames := by
  intro front segment back starts hsplit hdetached hne _ hwalk
  have hfirst : front = [] ∧ segment = ⟨.names ["a"], true⟩ := by
    rcases front with - | ⟨g, - | ⟨g', front⟩⟩
    · exact ⟨rfl, (List.cons.inj hsplit).1.symm⟩
    · obtain ⟨-, rfl, -⟩ : _ ∧ _ = segment ∧ _ := by simpa using hsplit
      cases hdetached
    · simp at hsplit
  obtain ⟨rfl, rfl⟩ := hfirst
  have hstarts : walk env separateNames [⟨.names ["a"], true⟩] separateNames =
      .ok [⟨6, .object (.member [] ['b'] [':'] (.number ⟨[], ['1'], none, none⟩) (.close []))⟩,
        ⟨20, .object (.member [] ['b'] [':'] (.number ⟨[], ['2'], none, none⟩) (.close []))⟩] := by
    cbv
  rw [List.nil_append, hstarts] at hwalk
  obtain rfl := Except.ok.inj hwalk
  refine List.pairwise_pair.2 (Site.precedes_of_stop_le ?_ (by decide))
  exact (Document.wellFormed_of_ofString ofString_separateNames).of_below
    (below_of_walk hstarts List.mem_cons_self)

/-- `$..a.b` finds the numbers in two objects in order, since the objects precede each other. -/
theorem Path.inOrder_of_descentsPrecede_separateNames :
    Document.ofString "[\x7b\"a\":\x7b\"b\":1\x7d\x7d,\x7b\"a\":\x7b\"b\":2\x7d\x7d]" =
        .ok separateNames ∧
      [⟨.names ["a"], true⟩, ⟨.names ["b"], false⟩].any Segment.isFunction = false ∧
      walk .standard separateNames [⟨.names ["a"], true⟩, ⟨.names ["b"], false⟩] separateNames =
        .ok [⟨11, .number ⟨[], ['1'], none, none⟩⟩, ⟨25, .number ⟨[], ['2'], none, none⟩⟩] ∧
      DescentsPrecede .standard ⟨[⟨.names ["a"], true⟩, ⟨.names ["b"], false⟩]⟩ separateNames ∧
      InOrder [⟨11, .number ⟨[], ['1'], none, none⟩⟩, ⟨25, .number ⟨[], ['2'], none, none⟩⟩] := by
  have hwalk : walk .standard separateNames [⟨.names ["a"], true⟩, ⟨.names ["b"], false⟩]
      separateNames =
        .ok [⟨11, .number ⟨[], ['1'], none, none⟩⟩, ⟨25, .number ⟨[], ['2'], none, none⟩⟩] := by
    cbv
  exact ⟨ofString_separateNames, rfl, hwalk, descentsPrecede_separateNames,
    (inOrder_of_descentsPrecede_and_conversely
      (p := ⟨[⟨.names ["a"], true⟩, ⟨.names ["b"], false⟩]⟩) ofString_separateNames rfl hwalk).1
      descentsPrecede_separateNames⟩

/-- **A path that finds a value after one that stands behind it**: `$..a.b`, where an object named
`a` contains another one and a number named `b` behind it. -/
theorem not_forall_inOrder :
    ¬ ∀ (document text : String) (top : Site) (p : Path) (found : List Site),
      Document.ofString document = .ok top → Path.ofString text = .ok p →
      p.segments.any Segment.isFunction = false → walk .standard top p.segments top = .ok found →
      InOrder found := by
  intro horder
  have hpath : Path.ofString "$..a.b" = .ok ⟨[⟨.names ["a"], true⟩, ⟨.names ["b"], false⟩]⟩ := by
    cbv
  have hwalk :
      walk .standard nestedNames [⟨.names ["a"], true⟩, ⟨.names ["b"], false⟩] nestedNames =
      .ok [⟨22, .number ⟨[], ['2'], none, none⟩⟩, ⟨15, .number ⟨[], ['1'], none, none⟩⟩] := by
    cbv
  have hinOrder := horder _ _ _ _ _ ofString_nestedNames hpath rfl hwalk
  exact absurd (List.pairwise_pair.1 hinOrder) (by decide)

end JsonPath
