import Mathlib.Logic.Relation
import JsonPath.Proofs.Document.Reading

/-!
# Where the Values of a Document Stand

A value takes a span of its document, from `Site.start` to `Site.stop`. The children of a
value stand inside it, one after the other, and if the value is well formed none of the
spans is empty. So two values below one value are the same value only if they are found
below the same child: a value is known by its place.

## Main results

* `Site.children_layout`: the children of a value stand inside it, one after the other.
* `Site.Below.span`: what stands below a value stands inside it.
* `Site.Below.disjoint`: **nothing stands below two values** of which one ends before the
  other begins.
-/

namespace JsonPath

open Text

namespace Site

/-- Where a value ends. -/
def stop (s : Site) : Nat :=
  s.start + byteSize s.text

/-- The second value is a child of the first. -/
def IsParentOf (s t : Site) : Prop :=
  ∃ c ∈ s.children, c.site = t

/-- The first value is the second or stands below it, at any depth. -/
def Below (t s : Site) : Prop :=
  Relation.ReflTransGen IsParentOf s t

/-- The tree of a value is well formed. -/
def WellFormed (s : Site) : Prop :=
  s.node.WellFormed

end Site

/-! ### Elements and members -/

/-- **Elements** stand one after the other, inside the text that they are part of. -/
theorem Items.sites_layout (items : Items) (start : Nat) :
    (∀ s ∈ items.sites start, start ≤ s.start ∧ s.stop ≤ start + byteSize items.text) ∧
      (items.sites start).Pairwise fun s t => s.stop ≤ t.start := by
  match items with
  | .close blanks => simp [Items.sites]
  | .item gap value rest =>
      obtain ⟨hspan, hpair⟩ := rest.sites_layout (start + byteSize gap + byteSize value.text)
      have hsize : byteSize (Items.item gap value rest).text =
          byteSize gap + (byteSize value.text + byteSize rest.text) := by
        rw [Items.text, byteSize_append, byteSize_append]
      rw [Items.sites, hsize]
      refine ⟨?_, ?_⟩
      · intro s hs
        rcases List.mem_cons.1 hs with rfl | hs
        · simp only [Site.stop, Site.text]
          omega
        · have := hspan s hs
          omega
      · rw [List.pairwise_cons]
        exact ⟨fun s hs => (hspan s hs).1, hpair⟩

/-- **Members** stand one after the other as well. -/
theorem Members.sites_layout (members : Members) (start : Nat) :
    (∀ m ∈ members.sites start, start ≤ m.value.start ∧
      m.value.stop ≤ start + byteSize members.text) ∧
      (members.sites start).Pairwise fun m n => m.value.stop ≤ n.value.start := by
  match members with
  | .close blanks => simp [Members.sites]
  | .member gap key colon value rest =>
      obtain ⟨hspan, hpair⟩ := rest.sites_layout
        (start + byteSize gap + byteSize (quoted key) + byteSize colon + byteSize value.text)
      have hsize : byteSize (Members.member gap key colon value rest).text =
          byteSize gap + (byteSize (quoted key) +
            (byteSize colon + (byteSize value.text + byteSize rest.text))) := by
        rw [Members.text, byteSize_append, byteSize_append, byteSize_append, byteSize_append]
      rw [Members.sites, hsize]
      refine ⟨?_, ?_⟩
      · intro m hm
        rcases List.mem_cons.1 hm with rfl | hm
        · simp only [Site.stop, Site.text]
          omega
        · have := hspan m hm
          omega
      · rw [List.pairwise_cons]
        exact ⟨fun m hm => (hspan m hm).1, hpair⟩

/-- The elements of well-formed items are well-formed. -/
theorem Items.wellFormed_of_mem_sites {items : Items} {first : Bool}
    (h : items.WellFormed first) {start : Nat} {s : Site} (hs : s ∈ items.sites start) :
    s.WellFormed := by
  match items with
  | .close blanks => cases hs
  | .item gap value rest =>
      rw [Items.sites] at hs
      rcases List.mem_cons.1 hs with rfl | hs
      · exact h.2.1
      · exact Items.wellFormed_of_mem_sites h.2.2 hs

/-- The values of well-formed members are well-formed. -/
theorem Members.wellFormed_of_mem_sites {members : Members} {first : Bool}
    (h : members.WellFormed first) {start : Nat} {m : MemberSite}
    (hm : m ∈ members.sites start) : m.value.WellFormed := by
  match members with
  | .close blanks => cases hm
  | .member gap key colon value rest =>
      rw [Members.sites] at hm
      rcases List.mem_cons.1 hm with rfl | hm
      · exact h.2.2.2.1
      · exact Members.wellFormed_of_mem_sites h.2.2.2.2 hm

/-! ### Children -/

namespace Site

/-- An array ends behind its bracket and its elements. -/
theorem stop_array (start : Nat) (items : Items) :
    stop ⟨start, .array items⟩ = start + 1 + byteSize items.text := by
  have hsize : '['.utf8Size = 1 := by decide
  rw [stop, text, Node.text, byteSize_cons, hsize, Nat.add_assoc]

/-- An object ends behind its brace and its members. -/
theorem stop_object (start : Nat) (members : Members) :
    stop ⟨start, .object members⟩ = start + 1 + byteSize members.text := by
  have hsize : '\x7b'.utf8Size = 1 := by decide
  rw [stop, text, Node.text, byteSize_cons, hsize, Nat.add_assoc]

/-- **The children of a value** stand inside it, after its opening bracket, and one after
the other. -/
theorem children_layout (s : Site) :
    (∀ c ∈ s.children, s.start < c.site.start ∧ c.site.stop ≤ s.stop) ∧
      s.children.Pairwise fun c d => c.site.stop ≤ d.site.start := by
  obtain ⟨start, node⟩ := s
  cases node with
  | array items =>
      obtain ⟨hspan, hpair⟩ := items.sites_layout (start + 1)
      refine ⟨?_, List.pairwise_map.2 ?_⟩
      · intro c hc
        obtain ⟨⟨t, i⟩, ht, rfl⟩ := List.mem_map.1 hc
        have := hspan t (List.fst_mem_of_mem_zipIdx ht)
        rw [stop_array]
        exact ⟨this.1, this.2⟩
      · have hfst : ((items.sites (start + 1)).zipIdx.map Prod.fst).Pairwise
            fun s t => s.stop ≤ t.start := by
          rw [List.zipIdx_map_fst]
          exact hpair
        exact List.pairwise_map.1 hfst
  | object members =>
      obtain ⟨hspan, hpair⟩ := members.sites_layout (start + 1)
      refine ⟨?_, List.pairwise_map.2 hpair⟩
      intro c hc
      obtain ⟨m, hm, rfl⟩ := List.mem_map.1 hc
      have := hspan m hm
      rw [stop_object]
      exact ⟨this.1, this.2⟩
  | _ => simp [children]

/-- The children of a well-formed value are well formed. -/
theorem WellFormed.of_mem_children {s : Site} (h : s.WellFormed) {c : Child}
    (hc : c ∈ s.children) : c.site.WellFormed := by
  obtain ⟨start, node⟩ := s
  cases node with
  | array items =>
      obtain ⟨⟨t, i⟩, ht, rfl⟩ := List.mem_map.1 hc
      exact Items.wellFormed_of_mem_sites h (List.fst_mem_of_mem_zipIdx ht)
  | object members =>
      obtain ⟨m, hm, rfl⟩ := List.mem_map.1 hc
      exact Members.wellFormed_of_mem_sites h hm
  | _ => cases hc

/-- A well-formed value is not empty. -/
theorem WellFormed.start_lt_stop {s : Site} (h : s.WellFormed) : s.start < s.stop := by
  obtain ⟨c, t, ht, -⟩ := Node.WellFormed.exists_text_eq_cons h
  have := c.utf8Size_pos
  rw [stop, text, ht, byteSize_cons]
  omega

/-! ### Values below a value -/

/-- What lies below a well-formed site is well-formed. -/
theorem WellFormed.of_below {s t : Site} (h : s.WellFormed) (ht : t.Below s) : t.WellFormed := by
  induction ht with
  | refl => exact h
  | tail _ hparent ih =>
      obtain ⟨c, hc, rfl⟩ := hparent
      exact ih.of_mem_children hc

/-- **What stands below a value** stands inside it. -/
theorem Below.span {s t : Site} (h : t.Below s) : s.start ≤ t.start ∧ t.stop ≤ s.stop := by
  induction h with
  | refl => exact ⟨Nat.le_refl _, Nat.le_refl _⟩
  | @tail p _ _ hparent ih =>
      obtain ⟨c, hc, rfl⟩ := hparent
      have hinside := p.children_layout.1 c hc
      exact ⟨ih.1.trans hinside.1.le, hinside.2.trans ih.2⟩

/-- What stands below a child begins after the value. -/
theorem Below.start_lt {s t : Site} {c : Child} (hc : c ∈ s.children) (h : t.Below c.site) :
    s.start < t.start :=
  (s.children_layout.1 c hc).1.trans_le h.span.1

/-- What stands below a value begins before what stands below another one, if the first value
ends before the other begins. -/
theorem Below.start_lt_of_stop_le {s s' t t' : Site} (hw : s.WellFormed)
    (hstop : s.stop ≤ s'.start) (h : t.Below s) (h' : t'.Below s') : t.start < t'.start := by
  have hne := (hw.of_below h).start_lt_stop
  have hle := h.span.2
  have hle' := h'.span.1
  omega

/-- **Nothing stands below two values**, if one ends before the other begins. -/
theorem Below.disjoint {s s' t : Site} (hw : s.WellFormed) (hstop : s.stop ≤ s'.start)
    (h : t.Below s) (h' : t.Below s') : False :=
  Nat.lt_irrefl _ (start_lt_of_stop_le hw hstop h h')

end Site

/-- The value of a document that is accepted is well formed. -/
theorem Document.wellFormed_of_ofString {document : String} {s : Site}
    (h : Document.ofString document = .ok s) : s.WellFormed := by
  obtain ⟨_, _, _, _, _, hw, -⟩ := Document.ofString_eq_ok_iff.1 h
  exact hw

end JsonPath
