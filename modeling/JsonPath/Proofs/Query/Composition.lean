import Mathlib.Data.List.Forall2
import JsonPath.Environment.Standard
import JsonPath.Query.Walk

/-!
# Walking in Two Parts

A walk goes on with the later segments from each value as soon as it is found, before it looks
for further matches of the earlier segments. What it finds is nevertheless the same, and in the
same order, as if all matches of the earlier segments were collected first and the later
segments then followed from each of them (`walk_append_iff`). A value that the earlier segments
match several times counts several times.

Only the order of the errors is different, so the two outcomes are compared by what they are
if they succeed: an outcome *goes on to* another one (`GoesOnTo`) if the second succeeds with
what is gathered from the values of the first. This passes from the parts of a walk to the
whole, since both are joined in the same way (`joined`).

## Main results

* `gather_eq_ok_iff`: what is gathered is the concatenation of the parts.
* `pairwise_gather_iff`: what is gathered is in order if the parts are.
* `walk_append`: **the first segments go on to all of them**.
* `walk_append_iff`: **a walk in two parts**, with the concatenation written out.
* `walk_append_of_eq_ok`: the same with errors, where the first part succeeds.
-/

namespace JsonPath

variable {env : Environment}

section Gathering

variable {α β γ : Type} {f : α → Except Error (List β)}

/-- What is found first and what is found then, up to the first error. -/
def joined (first second : Except Error (List α)) : Except Error (List α) :=
  match first with
  | .error e => .error e
  | .ok found => second.map (found ++ ·)

/-- A joined outcome is a list exactly if both parts are, and then it is the two lists in order. -/
theorem joined_eq_ok_iff {first second : Except Error (List α)} {found : List α} :
    joined first second = .ok found ↔
      ∃ xs ys, first = .ok xs ∧ second = .ok ys ∧ xs ++ ys = found := by
  cases first with
  | error e => simp [joined]
  | ok xs => simp [joined, map_eq_ok_iff]

/-- Nothing found behind an outcome leaves it as it is. -/
@[simp] theorem joined_nil (first : Except Error (List α)) : joined first (.ok []) = first := by
  cases first with
  | error e => rfl
  | ok xs => exact congrArg Except.ok (List.append_nil xs)

/-- Nothing found in front of an outcome leaves it as it is. -/
@[simp] theorem nil_joined (second : Except Error (List α)) : joined (.ok []) second = second := by
  cases second <;> rfl

/-- What is gathered from a list comes from its head first. -/
theorem gather_cons (f : α → Except Error (List β)) (a : α) (l : List α) :
    gather f (a :: l) = joined (f a) (gather f l) :=
  rfl

/-- From a single element it gathers what that element gives. -/
theorem gather_singleton (f : α → Except Error (List β)) (a : α) : gather f [a] = f a :=
  joined_nil (f a)

/-- **What is gathered is the concatenation of the parts**, one for each member of the list. -/
theorem gather_eq_ok_iff {l : List α} {found : List β} :
    gather f l = .ok found ↔
      ∃ parts, List.Forall₂ (fun a part => f a = .ok part) l parts ∧ parts.flatten = found := by
  induction l generalizing found with
  | nil => simp [gather]
  | cons a l ih =>
      simp only [gather_cons, joined_eq_ok_iff, ih, List.forall₂_cons_left_iff]
      constructor
      · rintro ⟨part, _, hpart, ⟨parts, hparts, rfl⟩, rfl⟩
        exact ⟨part :: parts, ⟨part, parts, hpart, hparts, rfl⟩, rfl⟩
      · rintro ⟨_, ⟨part, parts, hpart, hparts, rfl⟩, rfl⟩
        exact ⟨part, parts.flatten, hpart, ⟨parts, hparts, rfl⟩, rfl⟩

/-- Whatever is gathered is in one of the parts. -/
theorem mem_of_gather {l : List α} {found : List β} (h : gather f l = .ok found) {b : β}
    (hb : b ∈ found) : ∃ a ∈ l, ∃ part, f a = .ok part ∧ b ∈ part := by
  induction l generalizing found with
  | nil =>
      obtain rfl : [] = found := Except.ok.inj h
      cases hb
  | cons a l ih =>
      obtain ⟨part, more, hpart, hmore, rfl⟩ := joined_eq_ok_iff.1 h
      rcases List.mem_append.1 hb with hb | hb
      · exact ⟨a, List.mem_cons_self, part, hpart, hb⟩
      · obtain ⟨a', ha', hrest⟩ := ih hmore hb
        exact ⟨a', List.mem_cons_of_mem a ha', hrest⟩

/-- What is gathered contains each part, in its order. -/
theorem sublist_of_gather {l : List α} {found part : List β} (h : gather f l = .ok found) {a : α}
    (ha : a ∈ l) (hpart : f a = .ok part) : part.Sublist found := by
  induction l generalizing found with
  | nil => cases ha
  | cons b l ih =>
      obtain ⟨xs, ys, hxs, hys, rfl⟩ := joined_eq_ok_iff.1 h
      rcases List.mem_cons.1 ha with rfl | ha
      · obtain rfl : part = xs := Except.ok.inj (hpart.symm.trans hxs)
        exact List.sublist_append_left part ys
      · exact (ih hys ha).trans (List.sublist_append_right xs ys)

/-- **What is gathered is in order** if each part is in itself and the parts are one after the
other. -/
theorem pairwise_gather_iff {R : β → β → Prop} {l : List α} {found : List β}
    (h : gather f l = .ok found) :
    found.Pairwise R ↔ (∀ a ∈ l, ∀ part, f a = .ok part → part.Pairwise R) ∧
      l.Pairwise fun a b => ∀ part part', f a = .ok part → f b = .ok part' →
        ∀ x ∈ part, ∀ y ∈ part', R x y := by
  induction l generalizing found with
  | nil =>
      obtain rfl : [] = found := Except.ok.inj h
      simp
  | cons a l ih =>
      obtain ⟨part, more, hpart, hmore, rfl⟩ := joined_eq_ok_iff.1 h
      have hhead : (∀ part, f a = .ok part → part.Pairwise R) ↔ part.Pairwise R := by
        simp [hpart]
      have hcross : (∀ b ∈ l, ∀ part part', f a = .ok part → f b = .ok part' →
          ∀ x ∈ part, ∀ y ∈ part', R x y) ↔ ∀ x ∈ part, ∀ y ∈ more, R x y := by
        constructor
        · intro hR x hx y hy
          obtain ⟨b, hb, part', hpart', hy⟩ := mem_of_gather hmore hy
          exact hR b hb part part' hpart hpart' x hx y hy
        · intro hR b hb p part' hp hpart' x hx y hy
          obtain rfl : part = p := Except.ok.inj (hpart.symm.trans hp)
          exact hR x hx y ((sublist_of_gather hmore hb hpart').subset hy)
      rw [List.pairwise_append, ih hmore, List.pairwise_cons, List.forall_mem_cons, hhead, hcross]
      tauto

/-- Where every part can be had, gathering succeeds. -/
theorem exists_gather_eq_ok {l : List α} (h : ∀ a ∈ l, ∃ part, f a = .ok part) :
    ∃ found, gather f l = .ok found := by
  induction l with
  | nil => exact ⟨[], rfl⟩
  | cons a l ih =>
      obtain ⟨xs, hxs⟩ := h a List.mem_cons_self
      obtain ⟨ys, hys⟩ := ih fun b hb => h b (List.mem_cons_of_mem a hb)
      exact ⟨xs ++ ys, joined_eq_ok_iff.2 ⟨xs, ys, hxs, hys, rfl⟩⟩

/-- What is gathered from two lists is gathered from the one and then from the other. -/
theorem gather_append (l l' : List α) :
    gather f (l ++ l') = joined (gather f l) (gather f l') := by
  induction l with
  | nil => rw [List.nil_append, gather, nil_joined]
  | cons a l ih =>
      rw [List.cons_append, gather_cons, gather_cons, ih]
      cases f a with
      | error e => rfl
      | ok xs =>
          cases gather f l with
          | error e => rfl
          | ok ys => cases gather f l' <;> simp [joined, Except.map]

/-- What is gathered from the picked members alone, one from each. -/
theorem gather_filter (p : α → Bool) (g : α → β) (l : List α) :
    gather (fun a => if p a then .ok [g a] else .ok []) l = .ok ((l.filter p).map g) := by
  induction l with
  | nil => rfl
  | cons a l ih =>
      rw [gather_cons, ih]
      cases hp : p a <;> simp [hp, joined, Except.map]

/-! ### One outcome goes on to another -/

/-- The second outcome succeeds with what is gathered from the values of the first. -/
def GoesOnTo (f : α → Except Error (List β)) (first : Except Error (List α))
    (whole : Except Error (List β)) : Prop :=
  ∀ found, whole = .ok found ↔ ∃ starts, first = .ok starts ∧ gather f starts = .ok found

namespace GoesOnTo

/-- An outcome that failed stays the failure it is. -/
theorem error (e : Error) : GoesOnTo f (.error e) (.error e) :=
  fun found => by simp

/-- Where nothing was found there is nothing to go on from. -/
theorem nil : GoesOnTo f (.ok []) (.ok []) :=
  fun found => by simp [gather]

/-- From one site the outcome is what goes on from there. -/
theorem singleton (a : α) : GoesOnTo f (.ok [a]) (f a) :=
  fun found => by simp [gather_singleton]

/-- **Joined outcomes go on to joined outcomes.** -/
theorem joined {first second : Except Error (List α)} {whole whole' : Except Error (List β)}
    (h : GoesOnTo f first whole) (h' : GoesOnTo f second whole') :
    GoesOnTo f (joined first second) (joined whole whole') := by
  intro found
  simp only [joined_eq_ok_iff, h _, h' _]
  constructor
  · rintro ⟨xs, ys, ⟨starts, hstarts, hxs⟩, ⟨starts', hstarts', hys⟩, rfl⟩
    refine ⟨starts ++ starts', ⟨starts, starts', hstarts, hstarts', rfl⟩, ?_⟩
    rw [gather_append, hxs, hys]
    rfl
  · rintro ⟨_, ⟨starts, starts', hstarts, hstarts', rfl⟩, hfound⟩
    rw [gather_append] at hfound
    obtain ⟨xs, ys, hxs, hys, rfl⟩ := joined_eq_ok_iff.1 hfound
    exact ⟨xs, ys, ⟨starts, hstarts, hxs⟩, ⟨starts', hstarts', hys⟩, rfl⟩

/-- **Gathered outcomes go on to gathered outcomes.** -/
theorem gather {g : γ → Except Error (List α)} {g' : γ → Except Error (List β)} {l : List γ}
    (h : ∀ c ∈ l, GoesOnTo f (g c) (g' c)) : GoesOnTo f (gather g l) (gather g' l) := by
  induction l with
  | nil => exact nil
  | cons c l ih =>
      rw [gather_cons, gather_cons]
      exact (h c List.mem_cons_self).joined (ih fun d hd => h d (List.mem_cons_of_mem c hd))

end GoesOnTo

end Gathering

/-- A walk ends where only functions are left. -/
theorem walk_of_functions {root : Site} {functions : List Segment}
    (hfunctions : ∀ segment ∈ functions, segment.isFunction = true) (site : Site) :
    walk env root functions site = .ok [site] := by
  cases functions with
  | nil => rw [walk]
  | cons function later => rw [walk, if_pos (hfunctions function List.mem_cons_self)]

/-- A visit joins what the later segments find and what the same segment finds again. -/
theorem visit_eq (root : Site) (segment : Segment) (child : Child)
    (later same : Except Error (List Site)) :
    visit env root segment child later same =
      match segment.selector.selects env root child with
      | .error e => .error e
      | .ok selected =>
        joined (if selected then later else .ok [])
          (if segment.detached then same else .ok []) := by
  rw [visit]
  cases segment.selector.selects env root child with
  | error e => rfl
  | ok selected =>
      dsimp only
      generalize (if selected then later else .ok []) = found
      cases segment.detached with
      | true => cases found <;> rfl
      | false =>
          rw [if_neg Bool.false_ne_true, joined_nil]
          cases found <;> rfl

/-- A visit goes on to another one if its parts do. -/
theorem GoesOnTo.visit {f : Site → Except Error (List Site)} (root : Site) (segment : Segment)
    (child : Child) {later later' same same' : Except Error (List Site)}
    (hlater : GoesOnTo f later later') (hsame : GoesOnTo f same same') :
    GoesOnTo f (visit env root segment child later same)
      (visit env root segment child later' same') := by
  rw [visit_eq, visit_eq]
  cases segment.selector.selects env root child with
  | error e => exact .error e
  | ok selected =>
      refine GoesOnTo.joined ?_ ?_
      · split
        · exact hlater
        · exact .nil
      · split
        · exact hsame
        · exact .nil

/-- **The first segments go on to all of them.** The induction is on the size of the value, as
the walk is: below a child the first segments may be the same. -/
theorem walk_append (root : Site) (later : List Segment) {first : List Segment}
    (hfirst : ∀ segment ∈ first, segment.isFunction = false) (s : Site) :
    GoesOnTo (walk env root later) (walk env root first s) (walk env root (first ++ later) s) := by
  induction hn : s.node.size using Nat.strongRecOn generalizing s first with
  | _ n ih =>
  rcases first with - | ⟨segment, rest⟩
  · rw [walk]
    exact .singleton s
  have hsegment := hfirst segment List.mem_cons_self
  rw [List.cons_append, walk_eq root segment rest s hsegment,
    walk_eq root segment (rest ++ later) s hsegment]
  refine .gather fun child hchild => ?_
  have hlt : child.site.node.size < n := hn ▸ Site.size_lt_of_mem_children hchild
  have hrest : ∀ segment ∈ rest, segment.isFunction = false :=
    fun segment hsegment => hfirst segment (List.mem_cons_of_mem _ hsegment)
  exact .visit root segment child (ih _ hlt hrest child.site rfl)
    (ih _ hlt hfirst child.site rfl)

/-- **A walk in two parts.** It succeeds if the first segments can be followed and the later
ones from each value that those find, and it finds the values of these walks in order. -/
theorem walk_append_iff {root s : Site} {first : List Segment}
    (hfirst : ∀ segment ∈ first, segment.isFunction = false) (later : List Segment)
    {found : List Site} :
    walk env root (first ++ later) s = .ok found ↔
      ∃ starts parts, walk env root first s = .ok starts ∧
        List.Forall₂ (fun t part => walk env root later t = .ok part) starts parts ∧
        parts.flatten = found := by
  simp only [walk_append root later hfirst s found, gather_eq_ok_iff, ← exists_and_left]

/-- What is gathered after what was gathered, part by part. -/
theorem gather_of_gather {α β γ : Type} {f : β → Except Error (List γ)}
    {g : α → Except Error (List β)} {g' : α → Except Error (List γ)} {l : List α}
    {starts : List β} (h : gather g l = .ok starts)
    (hparts : ∀ a ∈ l, ∀ part, g a = .ok part → g' a = gather f part) :
    gather g' l = gather f starts := by
  induction l generalizing starts with
  | nil =>
      obtain rfl := Except.ok.inj h
      rfl
  | cons a l ih =>
      rw [gather_cons] at h
      obtain ⟨part, rest, hpart, hrest, rfl⟩ := joined_eq_ok_iff.1 h
      rw [gather_cons, gather_append, hparts a List.mem_cons_self part hpart,
        ih hrest fun b hb => hparts b (List.mem_cons_of_mem a hb)]

/-- If the first segments can be followed, so that their errors cannot come first, then all of
them come to the same as the later ones from each value that was found, errors included. -/
theorem walk_append_of_eq_ok {root s : Site} (later : List Segment) {first : List Segment}
    (hfirst : ∀ segment ∈ first, segment.isFunction = false) {starts : List Site}
    (h : walk env root first s = .ok starts) :
    walk env root (first ++ later) s = gather (walk env root later) starts := by
  induction hn : s.node.size using Nat.strongRecOn generalizing s first starts with
  | _ n ih =>
  rcases first with - | ⟨segment, rest⟩
  · rw [walk] at h
    obtain rfl := Except.ok.inj h
    exact (gather_singleton _ s).symm
  have hsegment := hfirst segment List.mem_cons_self
  have hrest : ∀ segment ∈ rest, segment.isFunction = false :=
    fun segment hsegment => hfirst segment (List.mem_cons_of_mem _ hsegment)
  rw [walk_eq root segment rest s hsegment] at h
  rw [List.cons_append, walk_eq root segment (rest ++ later) s hsegment]
  refine gather_of_gather h fun child hchild part hpart => ?_
  have hlt : child.site.node.size < n := hn ▸ Site.size_lt_of_mem_children hchild
  rw [visit_eq] at hpart ⊢
  split at hpart
  · cases hpart
  · next selected hselected =>
      obtain ⟨xs, ys, hxs, hys, rfl⟩ := joined_eq_ok_iff.1 hpart
      rw [gather_append]
      congr 1
      · cases selected with
        | true => exact ih _ hlt hrest hxs rfl
        | false =>
            obtain rfl := Except.ok.inj hxs
            rfl
      · cases hdetached : segment.detached with
        | true =>
            rw [hdetached] at hys
            exact ih _ hlt hfirst hys rfl
        | false =>
            rw [hdetached] at hys
            obtain rfl := Except.ok.inj hys
            rfl

/-- The value `[[[]]]`. -/
def threeArrays : Site :=
  ⟨0, .array (.item [] (.array (.item [] (.array (.close [])) (.close []))) (.close []))⟩

/-- The middle one of the arrays in `[[[]]]`. -/
def middleArray : Site :=
  ⟨1, .array (.item [] (.array (.close [])) (.close []))⟩

/-- The innermost one of the arrays in `[[[]]]`. -/
def innermostArray : Site :=
  ⟨2, .array (.close [])⟩

/-- `..*` finds two arrays in `[[[]]]`, and `*` goes on from the first of them only. -/
theorem walk_append_iff_threeArrays :
    (∀ segment ∈ [(⟨.all, true⟩ : Segment)], segment.isFunction = false) ∧
      walk .standard threeArrays [⟨.all, true⟩, ⟨.all, false⟩] threeArrays =
        .ok [innermostArray] := by
  have hfirst : ∀ segment ∈ [(⟨.all, true⟩ : Segment)], segment.isFunction = false := by
    simp [Segment.isFunction, Selector.isFunction]
  have hinnermost (detached : Bool) :
      walk .standard threeArrays [⟨.all, detached⟩] innermostArray = .ok [] := by
    rw [walk_eq _ _ _ _ rfl]
    rfl
  have hmiddle (detached : Bool) :
      walk .standard threeArrays [⟨.all, detached⟩] middleArray = .ok [innermostArray] := by
    have hchildren : middleArray.children = [⟨.position 0 1, innermostArray⟩] := rfl
    rw [walk_eq _ _ _ _ rfl, hchildren, gather_singleton, hinnermost]
    cases detached <;> simp [visit, walk, Selector.selects, Selector.picksPosition, Except.map]
  have houter : walk .standard threeArrays [⟨.all, true⟩] threeArrays =
      .ok [middleArray, innermostArray] := by
    have hchildren : threeArrays.children = [⟨.position 0 1, middleArray⟩] := rfl
    rw [walk_eq _ _ _ _ rfl, hchildren, gather_singleton, hmiddle]
    simp [visit, walk, Selector.selects, Selector.picksPosition, Except.map]
  exact ⟨hfirst, (walk_append_iff hfirst [⟨.all, false⟩]).2
    ⟨_, [[innermostArray], []], houter, .cons (hmiddle false) (.cons (hinnermost false) .nil), rfl⟩⟩

end JsonPath
