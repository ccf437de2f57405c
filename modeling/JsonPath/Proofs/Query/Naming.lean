import Mathlib.Data.List.Forall2
import JsonPath.Environment.Standard
import JsonPath.Proofs.Document.Spelling
import JsonPath.Query.Walk

/-!
# Names However They Are Spelled

A document may spell the key of a member in many ways, and a path names the text that is spelled.
Whether a list of names or the name behind a point selects a member depends on that text alone, and
so does the member that a reference leads to: the first one whose key spells the name
(`spelling_decoded`).

## Main results

* `Selector.selects_of_spells`: names select by the text of a key.
* `findMember_of_spells`: references find by the text of a key.
* `spelling_decoded`: **spellings are accepted, decoded and matched** as the text they spell.
-/

namespace JsonPath

open Grammar

variable {search : Search}

/-- A member is selected if the text that its key spells is listed. -/
theorem Selector.selects_of_spells {s key : List Char} (h : Spells s key) (listed : List String)
    (root : Site) (start : Nat) (value : Site) :
    selects ⟨search, Document.decoder⟩ root (.names listed) ⟨.key start key, value⟩ =
      .ok (listed.contains (String.ofList s)) := by
  show (Document.decodeAt ⟨search, Document.decoder⟩ start key).map _ = _
  rw [Document.decodeAt_of_spells h]
  rfl

/-- The first member is found whose key spells the name. -/
theorem findMember_of_spells {members : List MemberSite} {texts : List (List Char)}
    (h : List.Forall₂ (fun m s => Spells s m.key) members texts) (name : List Char) :
    findMember ⟨search, Document.decoder⟩ name members =
      .ok (((members.zip texts).find? fun p => p.2 == name).map fun p => p.1.value) := by
  induction h with
  | nil => rfl
  | @cons m s members texts hm _ ih =>
      have hname : m.name ⟨search, Document.decoder⟩ = .ok s :=
        Document.decodeAt_of_spells hm search m.keyStart
      rw [findMember, hname, List.zip_cons_cons, List.find?_cons]
      dsimp only
      by_cases hs : s = name
      · rw [if_pos hs, beq_iff_eq.2 hs]
        rfl
      · rw [if_neg hs, beq_false_of_ne hs]
        exact ih

/-- **Spellings are accepted, decoded and matched** as the text that they spell, however texts are
searched. Every spelling of a text, in quotes, is read as a string, and its characters are decoded
to the text; the string stands for the text too, whether it has escapes and is decoded or has none
and is taken as it is. A string that is read stands for nothing exactly if it has a surrogate
without a partner. A list of names selects a member if the text of its key is listed, and a step of
a reference leads to the first member whose key has the name as its text. -/
theorem spelling_decoded (search : Search) :
    (∀ s body, Spells s body →
      (∀ rest missing, (Document.readString (quoted body ++ rest) missing).found? =
        some (body, rest)) ∧
      Document.ofString (String.ofList (quoted body)) = .ok ⟨0, .string body⟩ ∧
      Document.decode body = .ok s ∧
      ∀ start, Site.decode ⟨search, Document.decoder⟩ ⟨start, .string body⟩ = .ok s) ∧
    (∀ body rest missing, (Document.readString (quoted body ++ rest) missing).found? =
        some (body, rest) → ∀ start,
      (∃ e, Site.decode ⟨search, Document.decoder⟩ ⟨start, .string body⟩ = .error e) ↔
        Unpaired (escapeNumbers body)) ∧
    (∀ s key, Spells s key → ∀ listed root start value,
      Selector.selects ⟨search, Document.decoder⟩ root (.names listed) ⟨.key start key, value⟩ =
        .ok (listed.contains (String.ofList s))) ∧
    ∀ (site : Site) texts, List.Forall₂ (fun m s => Spells s m.key) site.members texts →
      ∀ name : String, site.child? ⟨search, Document.decoder⟩ (.name name) =
        .ok (((site.members.zip texts).find? fun p => p.2 == name.toList).map
          fun p => p.1.value) := by
  refine ⟨fun s body h => ⟨fun rest missing => ?_, ?_, ?_, fun start => ?_⟩,
    fun body rest missing h start => ?_, fun s key h => Selector.selects_of_spells h,
    fun site texts h name => findMember_of_spells h name.toList⟩
  · exact Document.readString_found?_iff.2 ⟨h.characters, rfl⟩
  · refine Document.ofString_eq_ok_iff.2 ⟨[], [], ?_, blanks_nil, blanks_nil, h.characters, ?_, rfl⟩
    · simp [Site.text, Node.text]
    · exact Nat.zero_le _
  · exact (Document.decode_eq_ok_iff h.characters).2 h
  · exact Document.decodeAt_of_spells h search start
  · exact Document.decodeAt_eq_error_iff (Document.readString_found?_iff.1 h).1 search start

/-- The spelling of a capital letter by its number, an emoji by two surrogates with digits in both
cases, and a line end by a letter. -/
def mixedSpelling : List Char :=
  ['\\', 'u', '0', '0', '4', '1', '\\', 'u', 'D', '8', '3', 'd', '\\', 'u', 'd', 'e', '0', '0',
    '\\', 'n']

/-- The mixed spelling, with a code, a surrogate pair and a short escape, spells the three
characters. -/
theorem spells_mixed : Spells ['A', '😀', '\n'] mixedSpelling := by
  have hletter : Escape 'A'.toNat ['\\', 'u', '0', '0', '4', '1'] :=
    .mk (by decide) (by decide) (by decide) (by decide)
  have hlead : Escape (0xD800 + ('😀'.toNat - 0x10000) / 0x400) ['\\', 'u', 'D', '8', '3', 'd'] :=
    .mk (by decide) (by decide) (by decide) (by decide)
  have htrail : Escape (0xDC00 + ('😀'.toNat - 0x10000) % 0x400) ['\\', 'u', 'd', 'e', '0', '0'] :=
    .mk (by decide) (by decide) (by decide) (by decide)
  have hbeyond : 0x10000 ≤ '😀'.toNat := by decide
  have hemoji := CharSpelling.pair hbeyond hlead htrail
  exact .cons (.single hletter) (.cons hemoji (.cons (.short (by decide)) .nil))

/-- A mixed spelling as a string and as the key of a member, and a surrogate alone. -/
theorem spelling_decoded_mixed :
    Document.ofString (String.ofList (quoted mixedSpelling)) = .ok ⟨0, .string mixedSpelling⟩ ∧
      Site.decode .standard ⟨7, .string mixedSpelling⟩ = .ok ['A', '😀', '\n'] ∧
      Site.child? .standard ⟨0, .object (.member [] mixedSpelling [':'] .null (.close []))⟩
          (.name "A😀\n") = .ok (some ⟨24, .null⟩) ∧
      ∃ e, Site.decode .standard ⟨0, .string ['\\', 'u', 'd', '8', '3', 'd']⟩ = .error e := by
  obtain ⟨haccepted, hfails, -, hfinds⟩ := spelling_decoded Environment.standard.search
  obtain ⟨-, hdocument, -, hdecode⟩ := haccepted _ _ spells_mixed
  refine ⟨hdocument, hdecode 7, ?_, ?_⟩
  · exact hfinds ⟨0, .object (.member [] mixedSpelling [':'] .null (.close []))⟩ [_]
      (.cons spells_mixed .nil) "A😀\n"
  · exact (hfails ['\\', 'u', 'd', '8', '3', 'd'] [] .noValue rfl 0).2
      ⟨[], 0xD83D, [], rfl, .inl ⟨rfl, nofun⟩⟩

end JsonPath
