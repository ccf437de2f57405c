import Mathlib
import JsonPath.Environment.Standard
import JsonPath.Proofs.Document.Surrogates
import JsonPath.Proofs.Filter.Failing
import JsonPath.Proofs.Query.Containment
import JsonPath.Proofs.Query.Definite
import JsonPath.Query

/-!
# Documents that Are Never at Fault

A document is read once as a whole before a path is evaluated on it. After that it can only be
at fault for a string that has no text: one with a surrogate that has no partner. If there is
no such string, neither among the keys nor among the values, then whatever an evaluation comes
to is contained in the document (`Site.Contains`), can be decoded, and has children that can be
read again (`Site.Intact`). So every error of an evaluation is about the path: about a filter,
a regular expression, or a function that does not fit.

A second function is different, since it reads the text of the first one as a document.

## Main definitions

* `Site.Paired`: no string in a document has a surrogate without a partner.
* `Site.Intact`: whatever an evaluation asks of a value can be answered.
* `Faultless`: an outcome that does not blame the document.

## Main results

* `faultless_walk`: a walk does not blame the document.
* `Path.query_faultless`: **a path never blames a document** without such strings.
-/

namespace JsonPath

variable {env : Environment}

/-- No string in a value has a surrogate without a partner, and no key. -/
def Site.Paired (top : Site) : Prop :=
  ∀ level s body, top.Contains level s → s.node = .string body → Grammar.Paired body

/-- Everything in a value can be decoded. -/
def Site.Decodable (env : Environment) (top : Site) : Prop :=
  ∀ level s, top.Contains level s → ∃ text, s.decode env = .ok text

/-- What an evaluation may ask of a value in a document is there: its children can be read
again, it has a text, and references can be followed from it. All that this leads to is
contained in the document. -/
structure Site.Intact (env : Environment) (s : Site) (document : List Char) (top : Site) :
    Prop where
  /-- Every element is read again. -/
  elements : ∀ found ∈ (s.spanIn document).elements, ∃ level t, top.Contains level t ∧
    found = .ok (t.spanIn document)
  /-- Every member is read again, its key and its value. -/
  members : ∀ found ∈ (s.spanIn document).members, ∃ level k t, top.Contains level k ∧
    top.Contains level t ∧ found = .ok (k.spanIn document, t.spanIn document)
  /-- The value can be decoded. -/
  decode : ∃ text, s.decode env = .ok text
  /-- Every reference can be followed. -/
  resolve : ∀ steps, ∃ found, s.resolve? env steps = .ok found ∧
    ∀ t ∈ found, ∃ level, top.Contains level t

/-- The document is not at fault. -/
def Faultless {α : Type} (outcome : Except Error α) : Prop :=
  ∀ position reason, outcome ≠ .error (.document position reason)

namespace Faultless

variable {α β : Type} {outcome : Except Error α}

/-- An outcome that is a value has no fault. -/
theorem of_exists (h : ∃ a, outcome = .ok a) : Faultless outcome := by
  obtain ⟨a, rfl⟩ := h
  exact fun _ _ h => by cases h

/-- A value has no fault. -/
theorem ok (a : α) : Faultless (.ok a : Except Error α) :=
  of_exists ⟨a, rfl⟩

/-- An error that is passed on blames the document no more than it did before. -/
theorem error {e : Error} (h : Faultless outcome) (he : outcome = .error e) :
    Faultless (.error e : Except Error β) :=
  fun position reason hpassed =>
    h position reason (he.trans (congrArg _ (Except.error.inj hpassed)))

/-- A function of what was found brings in no fault. -/
theorem map (h : Faultless outcome) (f : α → β) : Faultless (outcome.map f) := by
  cases outcome with
  | ok a => exact ok (f a)
  | error e => exact h.error rfl

/-- Outcomes without faults are joined to one without. -/
theorem joined {first second : Except Error (List α)} (h : Faultless first)
    (h' : Faultless second) : Faultless (joined first second) := by
  cases first with
  | error e => exact h
  | ok found => exact h'.map _

/-- Nothing at fault is gathered from a list whose elements give no fault. -/
theorem gather {f : α → Except Error (List β)} {l : List α} (h : ∀ a ∈ l, Faultless (f a)) :
    Faultless (gather f l) := by
  induction l with
  | nil => exact ok []
  | cons a l ih =>
      rw [gather_cons]
      exact (h a List.mem_cons_self).joined (ih fun b hb => h b (List.mem_cons_of_mem a hb))

end Faultless

/-! ### Decoding -/

/-- Paired surrogates are all that decoding needs, if a surrogate without a partner is all that can
be wrong for the decoder. -/
theorem Site.Paired.decodable {document : String} {top : Site}
    (hdocument : Document.ofString document = .ok top) (hdecode : env.decode.Complete)
    (h : top.Paired) : top.Decodable env := by
  intro level s hs
  rw [Site.decode]
  split
  · next body hbody =>
      have hbodyOf : Node.WellFormed (.string body) := by
        obtain ⟨after, hplaced⟩ := hs.placed_of_ofString hdocument
        exact hbody ▸ hplaced.wellFormed
      obtain ⟨text, htext⟩ := hdecode body hbodyOf (h level s body hs hbody)
      rw [Document.decodeAt, htext]
      split
      · exact ⟨text, rfl⟩
      · exact ⟨body, rfl⟩
  · exact ⟨_, rfl⟩
  · exact ⟨_, rfl⟩

section Decodable

variable {top s root : Site} {level level' : Nat}

/-- The members of a value that is contained have names. -/
theorem Site.Decodable.exists_name (h : top.Decodable env) (hs : top.Contains level s)
    {m : MemberSite} (hm : m ∈ s.members) : ∃ name, m.name env = .ok name :=
  h _ _ (hs.key hm)

/-- In a decodable document every step from a site within it ends in an answer. -/
theorem Site.Decodable.exists_child? (h : top.Decodable env) (hs : top.Contains level s)
    (step : Step) : ∃ found, s.child? env step = .ok found := by
  cases step with
  | name name => exact ⟨_, Step.findMember_eq_find? (fun m hm => h.exists_name hs hm) name⟩
  | index position => exact ⟨_, rfl⟩

/-- References can be followed from what is contained. -/
theorem Site.Decodable.exists_resolve? (h : top.Decodable env) (hs : top.Contains level s)
    (steps : List Step) : ∃ found, s.resolve? env steps = .ok found := by
  induction steps generalizing s level with
  | nil => exact ⟨some s, rfl⟩
  | cons step steps ih =>
      obtain ⟨found, hfound⟩ := h.exists_child? hs step
      rw [resolve?, hfound]
      cases found with
      | none => exact ⟨none, rfl⟩
      | some t => exact ih (hs.of_child? hfound)

/-- In a decodable document every reference has a value. -/
theorem Reference.exists_value (h : top.Decodable env) (hs : top.Contains level s)
    (reference : Reference) : ∃ v, reference.value env s = .ok v := by
  obtain ⟨found, hfound⟩ := h.exists_resolve? hs reference.steps
  rw [value, hfound]
  cases found with
  | none => exact ⟨_, rfl⟩
  | some t =>
      obtain ⟨text, htext⟩ := h _ _ (hs.of_resolve? hfound)
      exact ⟨_, map_eq_ok_iff.2 ⟨text, htext, rfl⟩⟩

/-! ### Walking -/

/-- A filter does not blame the document. -/
theorem Filter.faultless_holds (h : top.Decodable env) (hroot : top.Contains level' root)
    (hs : top.Contains level s) (ts : List Token) : Faultless (holds env ts root s) := by
  intro position reason herror
  have value_ne {reference : Reference} {base : Site} {level : Nat} {e : Error}
      (hbase : top.Contains level base) : reference.value env base ≠ .error e := by
    obtain ⟨v, hv⟩ := reference.exists_value h hbase
    rw [hv]
    exact fun he => by cases he
  rcases error_of_holds herror with he | hcause
  · cases he
  · cases hcause with
    | root he => exact value_ne hroot he
    | candidate he => exact value_ne hs he

/-- In a decodable document no selector's decision about a child is a fault. -/
theorem Selector.faultless_selects (h : top.Decodable env) (hroot : top.Contains level' root)
    (hs : top.Contains level s) (selector : Selector) {c : Child} (hc : c ∈ s.children) :
    Faultless (selector.selects env root c) := by
  cases selector with
  | filter ts => exact Filter.faultless_holds h hroot (hs.child hc) ts
  | names listed =>
      rcases Site.mem_children_iff.1 hc with ⟨m, hm, rfl⟩ | ⟨i, t, -, rfl⟩
      · exact (Faultless.of_exists (h.exists_name hs hm)).map _
      · exact .ok _
  | _ =>
      rcases c with ⟨_ | _, _⟩
      · exact .ok _
      · exact .ok _

/-- **A walk does not blame the document.** The induction is on the size of the value. -/
theorem faultless_walk (h : top.Decodable env) (hroot : top.Contains level' root)
    (hs : top.Contains level s) (segments : List Segment) :
    Faultless (walk env root segments s) := by
  induction hn : s.node.size using Nat.strong_induction_on generalizing s level segments with
  | _ n ih =>
  rcases segments with - | ⟨segment, later⟩
  · rw [walk]
    exact .ok [s]
  cases hfunction : segment.isFunction with
  | true =>
      rw [walk, if_pos hfunction]
      exact .ok [s]
  | false =>
      rw [walk_eq root segment later s hfunction]
      refine .gather fun c hc => ?_
      have hlt : c.site.node.size < n := hn ▸ Site.size_lt_of_mem_children hc
      rw [visit_eq]
      split
      · next he => exact (segment.selector.faultless_selects h hroot hs hc).error he
      · refine .joined ?_ ?_
        · split
          · exact ih _ hlt (hs.child hc) later rfl
          · exact .ok []
        · split
          · exact ih _ hlt (hs.child hc) (segment :: later) rfl
          · exact .ok []

end Decodable

/-! ### Functions -/

/-- Taking the number of a value that can be decoded is no fault, whether or not it has one. -/
theorem Site.faultless_number {s : Site} (h : ∃ text, s.decode env = .ok text) :
    Faultless (s.number env) := by
  obtain ⟨text, htext⟩ := h
  intro position reason he
  rw [number, htext] at he
  split at he
  · cases he
  · dsimp only at he
    split at he <;> cases he

namespace Aggregate

variable {items : List Site}

/-- Folding over values that can be decoded is no fault. -/
theorem faultless_foldNumbers (h : ∀ s ∈ items, ∃ text, s.decode env = .ok text)
    (function : Aggregate) (result : Binary64) :
    Faultless (function.foldNumbers env result items) := by
  induction items generalizing result with
  | nil => exact .ok result
  | cons s rest ih =>
      have hs := Site.faultless_number (h s List.mem_cons_self)
      rw [foldNumbers]
      split
      · next he => exact hs.error he
      · exact ih (fun t ht => h t (List.mem_cons_of_mem s ht)) _

/-- Writing a result is no fault; what is not a number is an error of the function. -/
theorem faultless_resultText (x : Binary64) : Faultless (resultText x) := by
  intro position reason he
  rw [resultText] at he
  split at he <;> cases he

/-- A function over values that can be decoded is no fault. -/
theorem faultless_onNumbers (h : ∀ s ∈ items, ∃ text, s.decode env = .ok text)
    (function : Aggregate) : Faultless (function.onNumbers env items) := by
  cases items with
  | nil => exact fun _ _ he => by cases he
  | cons s rest =>
      have hs := Site.faultless_number (h s List.mem_cons_self)
      have hrest := faultless_foldNumbers (fun t ht => h t (List.mem_cons_of_mem s ht)) function
      rw [onNumbers]
      split
      · next he => exact hs.error he
      · split
        · next he => exact (hrest _).error he
        · exact faultless_resultText _

/-- A function on values that can be decoded does not blame the document. -/
theorem faultless_onItems (h : ∀ s ∈ items, ∃ text, s.decode env = .ok text)
    (function : Aggregate) : Faultless (function.onItems env items) := by
  cases function with
  | length => exact .ok _
  | first =>
      cases items with
      | nil => exact .ok none
      | cons s rest => exact (Faultless.of_exists (h s List.mem_cons_self)).map some
  | _ => exact (faultless_onNumbers h _).map some

/-- A function over sites of a decodable document is no fault. -/
theorem faultless_apply {top : Site} (h : top.Decodable env) {found : List Site}
    (hfound : ∀ s ∈ found, ∃ level, top.Contains level s) (function : Aggregate)
    (definite : Bool) : Faultless (function.apply env definite found) := by
  rw [apply.eq_def]
  split
  · split
    · next s rest =>
        obtain ⟨level, hs⟩ := hfound s List.mem_cons_self
        split
        · exact faultless_onItems (fun t ht => h _ t (hs.element ht)) function
        · exact fun _ _ he => by cases he
    · exact fun _ _ he => by cases he
  · refine faultless_onItems (fun s hs => ?_) function
    obtain ⟨level, hs⟩ := hfound s hs
    exact h level s hs

end Aggregate

/-- One function does not read a text again. -/
theorem faultless_applyAll {top : Site} (h : top.Decodable env) {found : List Site}
    (hfound : ∀ s ∈ found, ∃ level, top.Contains level s) (definite : Bool)
    {functions : List Aggregate} (hone : functions.length ≤ 1) :
    Faultless (applyAll env definite found functions) := by
  rcases functions with - | ⟨function, - | ⟨second, rest⟩⟩
  · exact .ok none
  · have happly := function.faultless_apply h hfound definite
    rw [applyAll]
    split
    · next he => exact happly.error he
    · exact .ok none
    · exact .ok _
  · simp at hone

/-! ### Queries -/

/-- **What is contained in a document is intact** if everything in it can be decoded. -/
theorem Site.Contains.intact {document : String} {top s : Site} {level : Nat}
    (hdocument : Document.ofString document = .ok top) (h : top.Decodable env)
    (hs : top.Contains level s) : s.Intact env document.toList top := by
  have hagrees := Document.Span.agrees_of_contains hdocument hs
  refine ⟨fun found hfound => ?_, fun found hfound => ?_, h level s hs, fun steps => ?_⟩
  · rw [hagrees.elements] at hfound
    obtain ⟨t, ht, rfl⟩ := List.mem_map.1 hfound
    exact ⟨level + 1, t, hs.element ht, rfl⟩
  · rw [hagrees.members] at hfound
    obtain ⟨m, hm, rfl⟩ := List.mem_map.1 hfound
    exact ⟨level + 1, m.keySite, m.value, hs.key hm, hs.value hm, rfl⟩
  · obtain ⟨found, hfound⟩ := h.exists_resolve? hs steps
    refine ⟨found, hfound, fun t ht => ?_⟩
    obtain rfl := Option.mem_def.1 ht
    exact ⟨level + steps.length, hs.of_resolve? hfound⟩

/-- **A path never blames a document** whose strings have no surrogate without a partner, if it
has at most one function. All that its walk finds is contained in the document, and all that is
contained there is intact. -/
theorem Path.query_faultless {document : String} {top : Site}
    (hdocument : Document.ofString document = .ok top) (hdecode : env.decode.Complete)
    (hpaired : top.Paired) {p : Path}
    (hone : p.segments.countP Segment.isFunction ≤ 1) :
    Faultless (p.query env document) ∧
      (∀ found, walk env top p.segments top = .ok found →
        ∀ s ∈ found, ∃ level, top.Contains level s) ∧
      ∀ level s, top.Contains level s → s.Intact env document.toList top := by
  have h := hpaired.decodable hdocument hdecode
  have hcontains {found : List Site} (hwalk : walk env top p.segments top = .ok found) :
      ∀ s ∈ found, ∃ level, top.Contains level s := by
    intro s hs
    obtain ⟨level, -, hlevel⟩ := Site.Contains.of_walk .top hwalk hs
    exact ⟨level, hlevel⟩
  refine ⟨?_, fun found => hcontains, fun level s hs => hs.intact hdocument h⟩
  rw [query, hdocument]
  dsimp only
  rw [evaluate]
  split
  · next he => exact (faultless_walk h .top .top p.segments).error he
  · next found hwalk =>
      refine Faultless.map ?_ _
      split
      · exact faultless_applyAll h (hcontains hwalk) _ (length_functionsOf p.segments ▸ hone)
      · rw [matchesText.eq_def]
        split
        · exact .ok none
        · next s rest =>
            obtain ⟨level, hs⟩ := hcontains hwalk s List.mem_cons_self
            split
            · exact (Faultless.of_exists (h level s hs)).map some
            · exact .ok _

/-- The key of one character beyond the first 65536, as two escapes. -/
def pairedKey : List Char :=
  "\\ud83d\\ude00".toList

/-- An object with this key and the number 1. -/
def pairedObject : Site :=
  ⟨0, .object (.member [] pairedKey [':'] (.number ⟨[], ['1'], none, none⟩) (.close []))⟩

/-- In the object with a surrogate pair no half stands alone. -/
theorem paired_pairedObject : pairedObject.Paired := by
  have hmembers : pairedObject.members =
      [⟨1, pairedKey, ⟨16, .number ⟨[], ['1'], none, none⟩⟩⟩] := rfl
  have hcontains {level : Nat} {s : Site} (hs : pairedObject.Contains level s) :
      s = pairedObject ∨ s = ⟨1, .string pairedKey⟩ ∨
        s = ⟨16, .number ⟨[], ['1'], none, none⟩⟩ := by
    induction hs with
    | top => exact .inl rfl
    | element _ ht ih => rcases ih with rfl | rfl | rfl <;> cases ht
    | key _ hm ih =>
        rcases ih with rfl | rfl | rfl
        · rw [hmembers] at hm
          obtain rfl := List.mem_singleton.1 hm
          exact .inr (.inl rfl)
        · cases hm
        · cases hm
    | value _ hm ih =>
        rcases ih with rfl | rfl | rfl
        · rw [hmembers] at hm
          obtain rfl := List.mem_singleton.1 hm
          exact .inr (.inr rfl)
        · cases hm
        · cases hm
  intro level s body hs hbody
  rcases hcontains hs with rfl | rfl | rfl
  · cases hbody
  · obtain rfl : pairedKey = body := by simpa using hbody
    exact .pair (by decide) (by decide) .nil
  · cases hbody

/-- The sum of all values of the object does not blame it, and the key of its member is read
again. -/
theorem Path.query_faultless_pairedObject :
    Document.ofString "\x7b\"\\ud83d\\ude00\":1\x7d" = .ok pairedObject ∧ pairedObject.Paired ∧
      Environment.standard.decode.Complete ∧
      [⟨.all, false⟩, ⟨.apply .sum, false⟩].countP Segment.isFunction ≤ 1 ∧
      Faultless (query .standard ⟨[⟨.all, false⟩, ⟨.apply .sum, false⟩]⟩
        "\x7b\"\\ud83d\\ude00\":1\x7d") ∧
      pairedObject.Intact .standard "\x7b\"\\ud83d\\ude00\":1\x7d".toList pairedObject := by
  have hdocument : Document.ofString "\x7b\"\\ud83d\\ude00\":1\x7d" = .ok pairedObject := by cbv
  have hone : [⟨.all, false⟩, ⟨.apply .sum, false⟩].countP Segment.isFunction ≤ 1 := by decide
  have hdecode : Environment.standard.decode.Complete := Document.complete_decoder
  obtain ⟨hfaultless, -, hintact⟩ := query_faultless hdocument hdecode paired_pairedObject
    (p := ⟨[⟨.all, false⟩, ⟨.apply .sum, false⟩]⟩) hone
  exact ⟨hdocument, paired_pairedObject, hdecode, hone, hfaultless, hintact 0 pairedObject .top⟩

end JsonPath
