import JsonPath.Document.Span
import JsonPath.Proofs.Document.Layout

/-!
# Walking Agrees with Reading

A document is read once, as a whole, and then walked by its text alone: each step finds the
children of a value by reading them again (`Document.Span`). The two readings share the
reader of values, but little else. The second one keeps its own account of brackets, commas
and of the first child, and it starts at every value as if nothing stood around it, with
room for the full depth.

What holds of a value wherever it is met is `Site.Placed`: its tree is well formed, it
stands at its place in front of something that can follow a value, and its depth and the
number of containers around it stay within the bound. It passes from a value to its
children, and it is all that a step of a walk needs.

## Main results

* `Document.Scan.step_closing`, `Document.Scan.step_child`: one step of a walk, at the
  closing bracket and in front of a child.
* `Document.Span.collect_items`, `Document.Span.collect_members`: **a walk over a container**
  finds what the tree has there.
* `Site.Placed.found?`: a value is read again as the same value, whatever room there is.
* `Document.Span.walk_agrees`: **walking agrees with reading** in every document that is
  accepted.
-/

namespace JsonPath

open Text Grammar

/-! ### Where texts stand -/

/-- A text stands in a document at a byte offset, in front of `after`. -/
def Text.StandsAt (document : List Char) (start : Nat) (s after : List Char) : Prop :=
  ∃ front, document = front ++ (s ++ after) ∧ start = byteSize front

namespace Text.StandsAt

variable {document s t after : List Char} {start : Nat}

/-- The first part of a text stands in front of the second. -/
theorem left (h : StandsAt document start (s ++ t) after) :
    StandsAt document start s (t ++ after) := by
  obtain ⟨front, rfl, rfl⟩ := h
  exact ⟨front, by rw [List.append_assoc], rfl⟩

/-- The second part of a text stands behind the first. -/
theorem right (h : StandsAt document start (s ++ t) after) :
    StandsAt document (start + byteSize s) t after := by
  obtain ⟨front, rfl, rfl⟩ := h
  exact ⟨front ++ s, by simp only [List.append_assoc], (byteSize_append front s).symm⟩

/-- The text from an offset on, and what follows the text. -/
theorem dropBytes? (h : StandsAt document start s after) :
    Text.dropBytes? start document = some (s ++ after) ∧
      Text.dropBytes? (start + byteSize s) document = some after := by
  obtain ⟨front, rfl, rfl⟩ := h
  refine ⟨dropBytes?_byteSize front _, ?_⟩
  rw [← byteSize_append, ← List.append_assoc, dropBytes?_byteSize]

/-- The offsets of a text and of what follows it. -/
theorem offsetIn (h : StandsAt document start s after) :
    Text.offsetIn document (s ++ after) = start ∧
      Text.offsetIn document after = start + byteSize s := by
  obtain ⟨front, rfl, rfl⟩ := h
  refine ⟨offsetIn_append front _, ?_⟩
  rw [← byteSize_append, ← List.append_assoc, offsetIn_append]

end Text.StandsAt

/-- The span of a value that stands in a document. -/
theorem Site.spanIn_eq {document after : List Char} {s : Site}
    (h : StandsAt document s.start s.text after) :
    s.spanIn document = ⟨s.text ++ after, after⟩ := by
  rw [spanIn, h.dropBytes?.1, h.dropBytes?.2]
  rfl

/-- The key of a member as a value of its own, a string. -/
def MemberSite.keySite (m : MemberSite) : Site :=
  ⟨m.keyStart, .string m.key⟩

namespace Document

/-! ### One step of a walk -/

namespace Scan

variable {α : Type} {closing : Char} {missing : Malformed}
  {child : (s : List Char) → Outcome α s} {s t : Scan}

/-- An iterator that has ended collects nothing. -/
theorem collect_of_step_eq_none (h : s.step closing missing child = none) :
    s.collect closing missing child = [] := by
  rw [collect]
  split
  · rfl
  · next h' => rw [h] at h'; cases h'

/-- An iterator collects its next child and then the rest. -/
theorem collect_of_step_eq_some {found : Except Flaw α}
    (h : s.step closing missing child = some (found, t)) :
    s.collect closing missing child = found :: t.collect closing missing child := by
  rw [collect]
  split
  · next h' => rw [h] at h'; cases h'
  · next h' =>
      rw [h] at h'
      obtain ⟨rfl, rfl⟩ := by simpa using h'
      rfl

/-- At the closing bracket a walk ends. -/
theorem step_closing {blanks : List Char} (hrest : s.rest = blanks ++ closing :: s.stop)
    (hblanks : Blanks blanks) (hclosing : isBlank closing = false ∧ closing ≠ ',') :
    s.step closing missing child = none := by
  have hnext : s.next? closing missing = .ok none := by
    rw [next?, hrest, skipBlanks_append_cons hblanks hclosing.1]
    simp [hclosing.2]
  rw [step, hnext]
  split <;> rfl

/-- **In front of a child** a walk finds it. -/
theorem step_child {gap rest after : List Char} {value : α} {c : Char} {tail : List Char}
    (hrest : s.rest = gap ++ rest) (hgap : Gap s.first gap) (hhead : rest = c :: tail)
    (hblank : isBlank c = false) (hclosing : c ≠ closing) (hstop : s.stop.length < s.rest.length)
    (hchild : (child rest).found? = some (value, after)) :
    s.step closing missing child = some (.ok value, ⟨after, s.stop, false⟩) := by
  have hnext : s.next? closing missing = .ok (some rest) := by
    rw [next?, hrest]
    cases hfirst : s.first with
    | true =>
        rw [hfirst] at hgap
        rw [hhead, skipBlanks_append_cons hgap hblank]
        simp [hclosing]
    | false =>
        rw [hfirst] at hgap
        obtain ⟨before, behind, rfl, hbefore, hbehind⟩ := hgap
        rw [List.append_assoc, List.cons_append, skipBlanks_append_cons hbefore (by decide), hhead]
        exact congrArg (fun rest => Except.ok (some rest))
          (skipBlanks_append_cons hbehind hblank tail)
  rw [step, if_neg (Nat.not_le.2 hstop), hnext]
  dsimp only
  cases hread : child rest with
  | error flaw => rw [hread] at hchild; cases hchild
  | ok p =>
      rw [hread] at hchild
      obtain ⟨rfl, rfl⟩ := by simpa [Outcome.found?] using hchild
      rfl

end Scan

namespace Span

/-- An element is a span up to where its value ends. -/
theorem readElement_found? (s : List Char) :
    (readElement s).found? =
      (readValue maxDepth s).found?.map fun p => (⟨s, p.2⟩, p.2) := by
  rw [readElement]
  cases readValue maxDepth s <;> rfl

/-- An element is found again, in front of what can follow it. -/
theorem readElement_text {value : Node} {rest : List Char} (hvalue : value.WellFormed)
    (hdepth : value.depth ≤ maxDepth) (hrest : Delimited rest) :
    (readElement (value.text ++ rest)).found? = some (⟨value.text ++ rest, rest⟩, rest) := by
  have hread := (readsValues_readValue maxDepth _ value rest hrest).2 ⟨hvalue, hdepth, rfl⟩
  rw [readElement_found?, hread, Option.map_some]

/-- A pair is the spans of a key and of a value, with a colon between blanks. -/
theorem readPair_found? (s : List Char) :
    (readPair s).found? = (readString s .keyExpected).found?.bind fun p =>
      match skipBlanks p.2 with
      | ':' :: rest => (readValue maxDepth (skipBlanks rest)).found?.map fun q =>
          ((⟨s, p.2⟩, ⟨skipBlanks rest, q.2⟩), q.2)
      | _ => none := by
  rw [readPair]
  cases readString s .keyExpected with
  | error flaw => rfl
  | ok p =>
      obtain ⟨key, behind, hbehind⟩ := p
      dsimp only
      split
      · next rest h =>
          simp only [Outcome.found?, Option.bind_some, h]
          cases readValue maxDepth (skipBlanks rest) <;> rfl
      · simp only [Outcome.found?, Option.bind_some]

/-- A member is found again: the key up to its quote, and the value behind the colon. -/
theorem readPair_text {key colon rest : List Char} {value : Node} (hkey : Characters key)
    (hcolon : Colon colon) (hvalue : value.WellFormed) (hdepth : value.depth ≤ maxDepth)
    (hrest : Delimited rest) :
    (readPair (quoted key ++ (colon ++ (value.text ++ rest)))).found? =
      some ((⟨quoted key ++ (colon ++ (value.text ++ rest)), colon ++ (value.text ++ rest)⟩,
        ⟨value.text ++ rest, rest⟩), rest) := by
  have hread := (readsValues_readValue maxDepth _ value rest hrest).2 ⟨hvalue, hdepth, rfl⟩
  obtain ⟨left, right, rfl, hleft, hright⟩ := hcolon
  rw [readPair_found?, readString_found?_iff.2 ⟨hkey, rfl⟩, Option.bind_some]
  rw [List.append_assoc, List.cons_append, skipBlanks_append_cons hleft (by decide)]
  change (readValue maxDepth (skipBlanks (right ++ (value.text ++ rest)))).found?.map _ = _
  rw [(skipBlanks_append_text hright hvalue rest).1, hread, Option.map_some]

/-! ### What a walk collects -/

/-- **The elements** that a walk finds are those of the tree, at the same places. The walk
stands in front of a gap or of the closing bracket. -/
theorem collect_items {document after : List Char} {items : Items} {start : Nat}
    {first : Bool} (h : items.WellFormed first) (hdepth : items.depth ≤ maxDepth)
    (hstands : StandsAt document start items.text after) :
    Scan.collect ']' .elementEnd readElement ⟨items.text ++ after, after, first⟩ =
      (items.sites start).map fun s => .ok (s.spanIn document) := by
  match items with
  | .close blanks =>
      refine Scan.collect_of_step_eq_none (Scan.step_closing ?_ h (by decide))
      simp [Items.text]
  | .item gap value tail =>
      obtain ⟨hgap, hvalue, htail⟩ := h
      obtain ⟨hd, hdtail⟩ : value.depth ≤ maxDepth ∧ tail.depth ≤ maxDepth := Nat.max_le.1 hdepth
      obtain ⟨c, t, ht, hblank, hc⟩ := hvalue.exists_text_eq_cons
      have hrest := collect_items htail hdtail hstands.right.right
      have hspan : Site.spanIn document ⟨start + byteSize gap, value⟩ =
          ⟨value.text ++ (tail.text ++ after), tail.text ++ after⟩ :=
        Site.spanIn_eq hstands.right.left
      have hstep : Scan.step ']' .elementEnd readElement
          ⟨(Items.item gap value tail).text ++ after, after, first⟩ =
            some (.ok (Site.spanIn document ⟨start + byteSize gap, value⟩),
              ⟨tail.text ++ after, after, false⟩) := by
        rw [hspan]
        refine Scan.step_child ?_ hgap (by rw [ht, List.cons_append]) hblank ?_ ?_
          (readElement_text hvalue hd (delimited_items_append htail after))
        · simp only [Items.text, List.append_assoc]
        · rintro rfl
          exact hc (by simp)
        · simp only [Items.text, ht, List.length_append, List.length_cons]
          omega
      rw [Scan.collect_of_step_eq_some hstep, hrest, Items.sites, List.map_cons]

/-- **The members** that a walk finds are those of the tree, at the same places. -/
theorem collect_members {document after : List Char} {members : Members} {start : Nat}
    {first : Bool} (h : members.WellFormed first) (hdepth : members.depth ≤ maxDepth)
    (hstands : StandsAt document start members.text after) :
    Scan.collect '\x7d' .memberEnd readPair ⟨members.text ++ after, after, first⟩ =
      (members.sites start).map fun m =>
        .ok (m.keySite.spanIn document, m.value.spanIn document) := by
  match members with
  | .close blanks =>
      refine Scan.collect_of_step_eq_none (Scan.step_closing ?_ h (by decide))
      simp [Members.text]
  | .member gap key colon value tail =>
      obtain ⟨hgap, hkey, hcolon, hvalue, htail⟩ := h
      obtain ⟨hd, hdtail⟩ : value.depth ≤ maxDepth ∧ tail.depth ≤ maxDepth := Nat.max_le.1 hdepth
      have hrest := collect_members htail hdtail hstands.right.right.right.right
      have hkeySpan : Site.spanIn document ⟨start + byteSize gap, .string key⟩ =
          ⟨quoted key ++ (colon ++ (value.text ++ (tail.text ++ after))),
            colon ++ (value.text ++ (tail.text ++ after))⟩ := by
        rw [Site.spanIn_eq hstands.right.left]
        simp only [Site.text, Node.text, List.append_assoc]
      have hspan : Site.spanIn document
          ⟨start + byteSize gap + byteSize (quoted key) + byteSize colon, value⟩ =
            ⟨value.text ++ (tail.text ++ after), tail.text ++ after⟩ :=
        Site.spanIn_eq hstands.right.right.right.left
      have hstep : Scan.step '\x7d' .memberEnd readPair
          ⟨(Members.member gap key colon value tail).text ++ after, after, first⟩ =
            some (.ok (Site.spanIn document ⟨start + byteSize gap, .string key⟩,
              Site.spanIn document
                ⟨start + byteSize gap + byteSize (quoted key) + byteSize colon, value⟩),
              ⟨tail.text ++ after, after, false⟩) := by
        rw [hkeySpan, hspan]
        refine Scan.step_child ?_ hgap rfl (by decide) (by decide) ?_
          (readPair_text hkey hcolon hvalue hd (delimited_members_append htail after))
        · simp only [Members.text, List.append_assoc]
          rfl
        · simp only [Members.text, quoted, List.length_append, List.length_cons]
          omega
      rw [Scan.collect_of_step_eq_some hstep, hrest, Members.sites, List.map_cons]
      rfl

/-! ### The span of a value of the tree -/

/-- The kind of a value is known by its first character. -/
theorem kind_eq {node : Node} (h : node.WellFormed) (after : List Char) :
    kind ⟨node.text ++ after, after⟩ = node.kind := by
  cases node with
  | bool value => cases value <;> rfl
  | number numeral =>
      obtain ⟨c, t, ht, hc⟩ := h.integer.exists_eq_cons
      have hhead : ∃ d u, numeral.text ++ after = d :: u ∧ (d = '-' ∨ d.isDigit) := by
        rcases h.sign with hsign | hsign
        · exact ⟨c, _, by rw [Numeral.text, hsign, ht]; rfl, .inr hc⟩
        · exact ⟨'-', _, by rw [Numeral.text, hsign]; rfl, .inl rfl⟩
      obtain ⟨d, u, hd, hdigit⟩ := hhead
      rw [Node.text, hd, kind]
      dsimp only
      split <;> next heq =>
        first
        | rfl
        | obtain rfl := (List.cons.inj heq).1
          exact absurd hdigit (by decide)
  | _ => rfl

/-- An iterator over another kind of value collects nothing. -/
theorem collect_scan_of_kind_ne {α : Type} {s : Span} {kind : Kind} (h : s.kind ≠ kind)
    (closing : Char) (missing : Malformed) (child : (s : List Char) → Outcome α s) :
    (s.scan kind).collect closing missing child = [] := by
  refine Scan.collect_of_step_eq_none ?_
  rw [Scan.step, scan, if_neg h, if_pos (Nat.le_refl _)]

/-- **The elements of a span** are those of the value. -/
theorem elements_spanIn {document after : List Char} {s : Site} (hs : s.WellFormed)
    (hdepth : s.node.depth ≤ maxDepth) (hstands : StandsAt document s.start s.text after) :
    (s.spanIn document).elements = s.elements.map fun t => .ok (t.spanIn document) := by
  have hkind := kind_eq hs after
  rw [Site.spanIn_eq hstands]
  obtain ⟨start, node⟩ := s
  cases node with
  | array items =>
      have hitems : StandsAt document (start + 1) items.text after :=
        StandsAt.right (s := ['[']) hstands
      exact collect_items hs (Nat.le_of_succ_le hdepth) hitems
  | _ => exact collect_scan_of_kind_ne (by simp [Site.text, hkind, Node.kind]) _ _ _

/-- **The members of a span** are those of the value. -/
theorem members_spanIn {document after : List Char} {s : Site} (hs : s.WellFormed)
    (hdepth : s.node.depth ≤ maxDepth) (hstands : StandsAt document s.start s.text after) :
    (s.spanIn document).members =
      s.members.map fun m => .ok (m.keySite.spanIn document, m.value.spanIn document) := by
  have hkind := kind_eq hs after
  rw [Site.spanIn_eq hstands]
  obtain ⟨start, node⟩ := s
  cases node with
  | object members =>
      have hmembers : StandsAt document (start + 1) members.text after :=
        StandsAt.right (s := ['\x7b']) hstands
      exact collect_members hs (Nat.le_of_succ_le hdepth) hmembers
  | _ => exact collect_scan_of_kind_ne (by simp [Site.text, hkind, Node.kind]) _ _ _

end Span

end Document

/-! ### The parts of a document -/

/-- The values of a tree with the number of containers around them, the keys of members among
them. -/
inductive Site.Contains (top : Site) : Nat → Site → Prop
  | top : Contains top 0 top
  | element {level : Nat} {s t : Site} :
      Contains top level s → t ∈ s.elements → Contains top (level + 1) t
  | key {level : Nat} {s : Site} {m : MemberSite} :
      Contains top level s → m ∈ s.members → Contains top (level + 1) m.keySite
  | value {level : Nat} {s : Site} {m : MemberSite} :
      Contains top level s → m ∈ s.members → Contains top (level + 1) m.value

/-- An element stands in front of a text that can follow a value. -/
theorem Items.standsAt_of_mem_sites {document after : List Char} {items : Items} {start : Nat}
    {first : Bool} (h : items.WellFormed first) (hstands : StandsAt document start items.text after)
    {s : Site} (hs : s ∈ items.sites start) :
    s.node.depth ≤ items.depth ∧
      ∃ behind, StandsAt document s.start s.text behind ∧ Document.Delimited behind := by
  match items with
  | .close blanks => cases hs
  | .item gap value rest =>
      rw [Items.sites] at hs
      rcases List.mem_cons.1 hs with rfl | hs
      · exact ⟨Nat.le_max_left _ _, rest.text ++ after, hstands.right.left,
          Document.delimited_items_append h.2.2 after⟩
      · obtain ⟨hdepth, hbehind⟩ := standsAt_of_mem_sites h.2.2 hstands.right.right hs
        exact ⟨hdepth.trans (Nat.le_max_right _ _), hbehind⟩

/-- So does the value of a member, and its key is a string. -/
theorem Members.standsAt_of_mem_sites {document after : List Char} {members : Members}
    {start : Nat} {first : Bool} (h : members.WellFormed first)
    (hstands : StandsAt document start members.text after) {m : MemberSite}
    (hm : m ∈ members.sites start) :
    (Characters m.key ∧ ∃ behind, StandsAt document m.keyStart (quoted m.key) behind) ∧
      m.value.node.depth ≤ members.depth ∧
      ∃ behind, StandsAt document m.value.start m.value.text behind ∧
        Document.Delimited behind := by
  match members with
  | .close blanks => cases hm
  | .member gap key colon value rest =>
      rw [Members.sites] at hm
      rcases List.mem_cons.1 hm with rfl | hm
      · exact ⟨⟨h.2.1, _, hstands.right.left⟩, Nat.le_max_left _ _, rest.text ++ after,
          hstands.right.right.right.left, Document.delimited_members_append h.2.2.2.2 after⟩
      · obtain ⟨hkey, hdepth, hbehind⟩ :=
          standsAt_of_mem_sites h.2.2.2.2 hstands.right.right.right.right hm
        exact ⟨hkey, hdepth.trans (Nat.le_max_right _ _), hbehind⟩

/-- A value stands in a document below so many containers: its tree is well formed and not
too deep, and behind it stands what can follow a value, or anything if it is a string. -/
structure Site.Placed (document : List Char) (level : Nat) (s : Site) (after : List Char) :
    Prop where
  /-- The tree is what the grammar allows. -/
  wellFormed : s.WellFormed
  /-- There is room for the tree. -/
  depth : s.node.depth + level ≤ Document.maxDepth
  /-- The value stands where it says. -/
  stands : StandsAt document s.start s.text after
  /-- What stands behind the value ends it. -/
  ended : Document.Delimited after ∨ ∃ body, s.node = .string body

namespace Site.Placed

variable {document after : List Char} {level : Nat} {s : Site}

/-- **A value is read again** with any room that is enough for its depth. -/
theorem found? (h : s.Placed document level after) {room : Nat} (hroom : s.node.depth ≤ room) :
    (Document.readValue room (s.text ++ after)).found? = some (s.node, after) := by
  rcases h.ended with hafter | ⟨body, hbody⟩
  · exact (Document.readsValues_readValue room _ _ _ hafter).2 ⟨h.wellFormed, hroom, rfl⟩
  · have hw : s.node.WellFormed := h.wellFormed
    rw [hbody] at hw
    have hstring : (Document.readString (quoted body ++ after) .noValue).found? =
        some (body, after) := Document.readString_found?_iff.2 ⟨hw, rfl⟩
    rw [Site.text, hbody, Node.text]
    rw [quoted, List.cons_append] at hstring ⊢
    rw [Document.readValue_string, hstring, Option.map_some]

/-- The elements of a placed site are placed one level further down. -/
theorem element (h : s.Placed document level after) {t : Site} (ht : t ∈ s.elements) :
    ∃ behind, t.Placed document (level + 1) behind := by
  obtain ⟨start, node⟩ := s
  cases node with
  | array items =>
      have hitems : StandsAt document (start + 1) items.text after :=
        StandsAt.right (s := ['[']) h.stands
      obtain ⟨hdepth, behind, hstands, hended⟩ :=
        Items.standsAt_of_mem_sites h.wellFormed hitems ht
      have hle : items.depth + 1 + level ≤ Document.maxDepth := h.depth
      exact ⟨behind, Items.wellFormed_of_mem_sites h.wellFormed ht, by omega, hstands, .inl hended⟩
  | _ => cases ht

/-- The keys and values of a placed site are placed one level further down. -/
theorem member (h : s.Placed document level after) {m : MemberSite} (hm : m ∈ s.members) :
    (∃ behind, m.keySite.Placed document (level + 1) behind) ∧
      ∃ behind, m.value.Placed document (level + 1) behind := by
  obtain ⟨start, node⟩ := s
  cases node with
  | object members =>
      have hmembers : StandsAt document (start + 1) members.text after :=
        StandsAt.right (s := ['\x7b']) h.stands
      obtain ⟨⟨hkey, before, hkeyStands⟩, hdepth, behind, hstands, hended⟩ :=
        Members.standsAt_of_mem_sites h.wellFormed hmembers hm
      have hle : members.depth + 1 + level ≤ Document.maxDepth := h.depth
      refine ⟨⟨before, hkey, ?_, hkeyStands, .inr ⟨m.key, rfl⟩⟩,
        behind, Members.wellFormed_of_mem_sites h.wellFormed hm, by omega, hstands, .inl hended⟩
      have hzero : m.keySite.node.depth = 0 := rfl
      omega
  | _ => cases hm

end Site.Placed

/-- **What a document contains is placed** in it, below as many containers as are around it. -/
theorem Site.Contains.placed {document : List Char} {top : Site} {behind : List Char}
    (htop : top.Placed document 0 behind) {level : Nat} {s : Site} (h : top.Contains level s) :
    ∃ after, s.Placed document level after := by
  induction h with
  | top => exact ⟨behind, htop⟩
  | element _ ht ih =>
      obtain ⟨after, hplaced⟩ := ih
      exact hplaced.element ht
  | key _ hm ih =>
      obtain ⟨after, hplaced⟩ := ih
      exact (hplaced.member hm).1
  | value _ hm ih =>
      obtain ⟨after, hplaced⟩ := ih
      exact (hplaced.member hm).2

namespace Document

/-- The value of a document that is accepted is placed in it. -/
theorem placed_of_ofString {document : String} {top : Site} (h : ofString document = .ok top) :
    ∃ after, top.Placed document.toList 0 after := by
  obtain ⟨front, after, hdocument, -, hafter, hw, hd, hstart⟩ := ofString_eq_ok_iff.1 h
  have hdelimited : Delimited after := fun c hc =>
    .inl (blanks_iff.1 hafter c (List.mem_of_mem_head? hc))
  exact ⟨after, hw, hd, ⟨front, hdocument, hstart⟩, .inl hdelimited⟩

/-! ### Walking -/

/-- One step of a walk leads from a value to an element, or to the key or the value of a
member. -/
inductive Span.Yields (c : Span) : Span → Prop
  | element {d : Span} : .ok d ∈ c.elements → Yields c d
  | key {k v : Span} : .ok (k, v) ∈ c.members → Yields c k
  | value {k v : Span} : .ok (k, v) ∈ c.members → Yields c v

/-- A span agrees with a value of the tree that has `level` containers around it. -/
structure Span.Agrees (document : List Char) (level : Nat) (s : Site) (c : Span) : Prop where
  /-- It begins where the value does. -/
  start : offsetIn document c.rest = s.start
  /-- It ends where the value does. -/
  stop : offsetIn document c.after = s.stop
  /-- The document is read there as this value, with the room that is left for it. -/
  read : (readValue (maxDepth - level) c.rest).found? = some (s.node, c.after)
  /-- The value is read again with all the room there is, and ends at the same place. -/
  reread : (readValue maxDepth c.rest).found? = some (s.node, c.after)
  /-- Its first character tells the kind of the value. -/
  kind : c.kind = s.node.kind
  /-- A walk finds exactly the elements of the value, in order. -/
  elements : c.elements = s.elements.map fun t => .ok (t.spanIn document)
  /-- A walk finds exactly the members of the value, in order. -/
  members : c.members =
    s.members.map fun m => .ok (m.keySite.spanIn document, m.value.spanIn document)
  /-- Nothing but an array has elements. -/
  elements_eq_nil : c.kind ≠ .array → c.elements = []
  /-- Nothing but an object has members. -/
  members_eq_nil : c.kind ≠ .object → c.members = []

/-- The span of a placed site agrees with the site. -/
theorem Span.agrees_spanIn {document after : List Char} {level : Nat} {s : Site}
    (h : s.Placed document level after) : (s.spanIn document).Agrees document level s := by
  have hdepth := h.depth
  have hspan := Site.spanIn_eq h.stands
  refine ⟨?_, ?_, ?_, ?_, ?_, elements_spanIn h.wellFormed (by omega) h.stands,
    members_spanIn h.wellFormed (by omega) h.stands,
    fun hkind => collect_scan_of_kind_ne hkind _ _ _,
    fun hkind => collect_scan_of_kind_ne hkind _ _ _⟩
  · rw [hspan]
    exact h.stands.offsetIn.1
  · rw [hspan]
    exact h.stands.offsetIn.2
  · rw [hspan]
    exact h.found? (by omega)
  · rw [hspan]
    exact h.found? (by omega)
  · rw [hspan]
    exact kind_eq h.wellFormed after

/-- The span of what a document contains agrees with it. -/
theorem Span.agrees_of_contains {document : String} {top : Site}
    (h : ofString document = .ok top) {level : Nat} {s : Site} (hs : top.Contains level s) :
    (s.spanIn document.toList).Agrees document.toList level s := by
  obtain ⟨behind, htop⟩ := placed_of_ofString h
  obtain ⟨after, hplaced⟩ := hs.placed htop
  exact agrees_spanIn hplaced

/-- A walk comes to nothing else than what the document contains. -/
theorem Span.exists_contains_of_reached {document : String} {top : Site}
    (h : ofString document = .ok top) {c : Span}
    (hc : Relation.ReflTransGen Span.Yields (top.spanIn document.toList) c) :
    ∃ level s, top.Contains level s ∧ c = s.spanIn document.toList := by
  induction hc with
  | refl => exact ⟨0, top, .top, rfl⟩
  | tail _ hyields ih =>
      obtain ⟨level, s, hs, rfl⟩ := ih
      have hagrees := agrees_of_contains h hs
      cases hyields with
      | element hd =>
          rw [hagrees.elements] at hd
          obtain ⟨t, ht, hspan⟩ := List.mem_map.1 hd
          exact ⟨level + 1, t, hs.element ht, (Except.ok.inj hspan).symm⟩
      | key hm =>
          rw [hagrees.members] at hm
          obtain ⟨m, hmem, hspan⟩ := List.mem_map.1 hm
          obtain ⟨hk, -⟩ := Prod.mk.inj (Except.ok.inj hspan)
          exact ⟨level + 1, m.keySite, hs.key hmem, hk.symm⟩
      | value hm =>
          rw [hagrees.members] at hm
          obtain ⟨m, hmem, hspan⟩ := List.mem_map.1 hm
          obtain ⟨-, hv⟩ := Prod.mk.inj (Except.ok.inj hspan)
          exact ⟨level + 1, m.value, hs.value hmem, hv.symm⟩

/-- A walk can come to everything that the document contains. -/
theorem Span.reached_of_contains {document : String} {top : Site}
    (h : ofString document = .ok top) {level : Nat} {s : Site} (hs : top.Contains level s) :
    Relation.ReflTransGen Span.Yields (top.spanIn document.toList)
      (s.spanIn document.toList) := by
  induction hs with
  | top => exact .refl
  | element hs ht ih =>
      refine ih.tail (.element ?_)
      rw [(agrees_of_contains h hs).elements]
      exact List.mem_map.2 ⟨_, ht, rfl⟩
  | @key _ s m hs hm ih =>
      refine ih.tail (.key (v := m.value.spanIn document.toList) ?_)
      rw [(agrees_of_contains h hs).members]
      exact List.mem_map.2 ⟨m, hm, rfl⟩
  | @value _ s m hs hm ih =>
      refine ih.tail (.value (k := m.keySite.spanIn document.toList) ?_)
      rw [(agrees_of_contains h hs).members]
      exact List.mem_map.2 ⟨m, hm, rfl⟩

/-- **Walking agrees with reading**: from the value of a document that is accepted, walks
come to the spans of what the tree of the document contains and to no others, and each of
these agrees with the tree: the walk goes on from it with exactly the children in the tree,
each where it stands, and without an error. -/
theorem Span.walk_agrees {document : String} {top : Site} (h : ofString document = .ok top) :
    (∀ c, Relation.ReflTransGen Span.Yields (top.spanIn document.toList) c ↔
      ∃ level s, top.Contains level s ∧ c = s.spanIn document.toList) ∧
    ∀ level s, top.Contains level s →
      (s.spanIn document.toList).Agrees document.toList level s := by
  refine ⟨fun c => ⟨exists_contains_of_reached h, ?_⟩, fun level s hs => agrees_of_contains h hs⟩
  rintro ⟨level, s, hs, rfl⟩
  exact reached_of_contains h hs

/-- The object with the key `a` and an array of the number 7. -/
def keyedArray : Site :=
  ⟨0, .object (.member [] ['a'] [':']
    (.array (.item [] (.number ⟨[], ['7'], none, none⟩) (.close []))) (.close []))⟩

/-- The text with an array under a key is read as the document that is meant. -/
theorem ofString_keyedArray : ofString "\x7b\"a\":[7]\x7d" = .ok keyedArray := by
  have hkey : Characters ['a'] := .plain (by decide) (by decide) (by decide) .nil
  have hcolon : Colon [':'] := ⟨[], [], rfl, by simp [Blanks], by simp [Blanks]⟩
  have hseven : Whole ['7'] := .digits (by decide) ⟨by simp, by simp [Char.isDigit]⟩
  refine ofString_eq_ok_iff.2 ⟨[], [], rfl, by simp [Blanks], by simp [Blanks], ?_, by decide, rfl⟩
  simp only [keyedArray, Node.WellFormed, Members.WellFormed, Items.WellFormed, Gap, if_true]
  exact ⟨by simp [Blanks], hkey, hcolon,
    ⟨by simp [Blanks], ⟨.inl rfl, hseven, by simp, by simp⟩, by simp [Blanks]⟩, by simp [Blanks]⟩

/-- The number is found by way of the array. -/
theorem Span.walk_agrees_keyedArray :
    ofString "\x7b\"a\":[7]\x7d" = .ok keyedArray ∧
    Relation.ReflTransGen Span.Yields (keyedArray.spanIn "\x7b\"a\":[7]\x7d".toList)
      ⟨['7', ']', '\x7d'], [']', '\x7d']⟩ ∧
    Span.Agrees "\x7b\"a\":[7]\x7d".toList 2 ⟨6, .number ⟨[], ['7'], none, none⟩⟩
      ⟨['7', ']', '\x7d'], [']', '\x7d']⟩ := by
  have hnumber : keyedArray.Contains 2 ⟨6, .number ⟨[], ['7'], none, none⟩⟩ := by
    have harray : (⟨1, ['a'], ⟨5, .array (.item [] (.number ⟨[], ['7'], none, none⟩)
        (.close []))⟩⟩ : MemberSite) ∈ keyedArray.members := List.mem_singleton.2 rfl
    exact .element (.value .top harray) (List.mem_singleton.2 rfl)
  obtain ⟨hreached, hagrees⟩ := walk_agrees ofString_keyedArray
  exact ⟨ofString_keyedArray, (hreached _).2 ⟨2, _, hnumber, by decide⟩, hagrees 2 _ hnumber⟩

end Document

end JsonPath
