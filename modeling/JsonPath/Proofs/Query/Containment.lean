import JsonPath.Proofs.Document.Rescanning
import JsonPath.Proofs.Query.Composition
import JsonPath.Proofs.Query.Selection

/-!
# What an Evaluation Comes To

An evaluation goes down from the value of the document: a walk goes from values to their
children, a reference follows members and elements, and a function takes the elements of an
array. So all that it comes to is contained in the document (`Site.Contains`), and with every
segment that is followed there is at least one container more around it.

## Main results

* `exists_of_mem_walk`: what passes from values to their children holds of what a walk finds.
* `Site.Contains.of_walk`: **what a walk finds** is contained in the document, inside the value
  that the walk starts at.
* `Site.Contains.of_resolve?`: **what a reference leads to** is contained in the document.
-/

namespace JsonPath

variable {env : Environment}

namespace Site.Contains

variable {top s t : Site} {level : Nat}

/-- A child is contained with one container more around it. -/
theorem child (h : top.Contains level s) {c : Child} (hc : c ∈ s.children) :
    top.Contains (level + 1) c.site := by
  rcases Site.mem_children_iff.1 hc with ⟨m, hm, rfl⟩ | ⟨i, t, ht, rfl⟩
  · exact h.value hm
  · exact h.element (List.mem_of_getElem? ht)

/-- What a document contains stands in its text. -/
theorem placed_of_ofString (h : top.Contains level s) {document : String}
    (hdocument : Document.ofString document = .ok top) :
    ∃ after, s.Placed document.toList level after := by
  obtain ⟨behind, htop⟩ := Document.placed_of_ofString hdocument
  exact h.placed htop

end Site.Contains

/-! ### Walks -/

/-- What a visit finds is found by the later segments or by the same segment again. -/
theorem mem_of_visit {root : Site} {segment : Segment} {c : Child}
    {later same : Except Error (List Site)} {part : List Site}
    (h : visit env root segment c later same = .ok part) {t : Site} (ht : t ∈ part) :
    (∃ found, later = .ok found ∧ t ∈ found) ∨ ∃ found, same = .ok found ∧ t ∈ found := by
  rw [visit_eq] at h
  split at h
  · cases h
  obtain ⟨xs, ys, hxs, hys, rfl⟩ := joined_eq_ok_iff.1 h
  rcases List.mem_append.1 ht with ht | ht
  · left
    split at hxs
    · exact ⟨xs, hxs, ht⟩
    · obtain rfl := Except.ok.inj hxs
      cases ht
  · right
    split at hys
    · exact ⟨ys, hys, ht⟩
    · obtain rfl := Except.ok.inj hys
      cases ht

/-- **What holds all the way down** holds of what a walk finds: `P n` holds of the value that the
walk starts at, and goes on from `n` to `n + 1` with each container that is opened. The walk opens
at least one for each segment before a function. The induction is on the size of the value, as the
walk is. -/
theorem exists_of_mem_walk {P : Nat → Site → Prop} {root : Site}
    (hchild : ∀ {n : Nat} {s : Site}, P n s → ∀ {c : Child}, c ∈ s.children → P (n + 1) c.site)
    {n : Nat} {s t : Site} (hs : P n s) {segments : List Segment} {found : List Site}
    (h : walk env root segments s = .ok found) (ht : t ∈ found) :
    ∃ m, n + (segments.takeWhile fun g => !g.isFunction).length ≤ m ∧ P m t := by
  induction hsize : s.node.size using Nat.strong_induction_on
    generalizing s segments found n with
  | _ size ih =>
  rcases segments with - | ⟨segment, later⟩
  · rw [walk] at h
    obtain rfl : [s] = found := Except.ok.inj h
    obtain rfl : t = s := List.mem_singleton.1 ht
    exact ⟨n, Nat.le_refl _, hs⟩
  cases hfunction : segment.isFunction with
  | true =>
      rw [walk, if_pos hfunction] at h
      obtain rfl : [s] = found := Except.ok.inj h
      obtain rfl : t = s := List.mem_singleton.1 ht
      exact ⟨n, by simp [hfunction], hs⟩
  | false =>
      rw [List.takeWhile_cons_of_pos (by simp [hfunction]), List.length_cons]
      rw [walk_eq root segment later s hfunction] at h
      obtain ⟨c, hc, part, hpart, hmem⟩ := mem_of_gather h ht
      have hlt : c.site.node.size < size := hsize ▸ Site.size_lt_of_mem_children hc
      rcases mem_of_visit hpart hmem with ⟨found, hfound, hmem⟩ | ⟨found, hfound, hmem⟩
      · obtain ⟨m, hle, hm⟩ := ih _ hlt (hchild hs hc) hfound hmem rfl
        exact ⟨m, by omega, hm⟩
      · obtain ⟨m, hle, hm⟩ := ih _ hlt (hchild hs hc) hfound hmem rfl
        rw [List.takeWhile_cons_of_pos (by simp [hfunction]), List.length_cons] at hle
        exact ⟨m, by omega, hm⟩

/-- **What a walk finds** is contained in the document, and each segment before a function puts
a container around it. -/
theorem Site.Contains.of_walk {top root s t : Site} {level : Nat} (hs : top.Contains level s)
    {segments : List Segment} {found : List Site} (h : walk env root segments s = .ok found)
    (ht : t ∈ found) :
    ∃ level', level + (segments.takeWhile fun g => !g.isFunction).length ≤ level' ∧
      top.Contains level' t :=
  exists_of_mem_walk (fun hs _ hc => hs.child hc) hs h ht

/-! ### References -/

/-- The value that is found by its name is the value of a member. -/
theorem exists_member_of_findMember {name : List Char} {members : List MemberSite} {t : Site}
    (h : findMember env name members = .ok (some t)) : ∃ m ∈ members, m.value = t := by
  induction members with
  | nil => cases h
  | cons m members ih =>
      rw [findMember] at h
      split at h
      · cases h
      · split at h
        · obtain rfl : m.value = t := by simpa using h
          exact ⟨m, List.mem_cons_self, rfl⟩
        · obtain ⟨m', hm', hvalue⟩ := ih h
          exact ⟨m', List.mem_cons_of_mem m hm', hvalue⟩

/-- The child that a step leads to is contained one level further down. -/
theorem Site.Contains.of_child? {top s t : Site} {level : Nat} (hs : top.Contains level s)
    {step : Step} (h : s.child? env step = .ok (some t)) : top.Contains (level + 1) t := by
  cases step with
  | name name =>
      obtain ⟨m, hm, rfl⟩ := exists_member_of_findMember h
      exact hs.value hm
  | index position =>
      exact hs.element (List.mem_of_getElem? (Except.ok.inj h))

/-- **What a reference leads to** is contained in the document, a container deeper with each
step. -/
theorem Site.Contains.of_resolve? {top s t : Site} {level : Nat} (hs : top.Contains level s)
    {steps : List Step} (h : s.resolve? env steps = .ok (some t)) :
    top.Contains (level + steps.length) t := by
  induction steps generalizing s level with
  | nil =>
      obtain rfl : s = t := by simpa [resolve?] using h
      exact hs
  | cons step steps ih =>
      rw [resolve?] at h
      split at h
      · cases h
      · cases h
      · next next hnext =>
          have hrest := ih (hs.of_child? hnext) h
          rwa [List.length_cons, Nat.add_comm steps.length, ← Nat.add_assoc]

end JsonPath
