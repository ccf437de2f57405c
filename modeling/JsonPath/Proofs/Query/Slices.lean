import JsonPath.Environment.Standard
import JsonPath.Proofs.Query.Composition
import JsonPath.Proofs.Query.Selection

/-!
# Positions and Slices of Arrays

Numbers in brackets are 64-bit integers, and so is the number of elements that a negative one is
added to. The sum of a negative and a non-negative integer has the magnitude of one of them, so it
fits 64 bits again: arithmetic in words that wrap around gives what exact arithmetic gives
(`toInt_fromEndWord`), and a test of a position in words decides what the test of the position does
(`Selector.listsWord_eq`, `Selector.slicesWord_eq`).

What a list or a slice selects from an array is then a matter of positions alone. A slice takes one
run of elements, those behind its start in front of its stop, both moved into the array if they lie
outside. Two slices that meet at the same number, one without a start and one without a stop, cut
the array in two.

## Main definitions

* `Selector.listsWord`, `Selector.slicesWord`: the tests of a position, computed in words.
* `Listed`, `InSlice`: the positions that a list or a slice stands for.
* `Site.elementsWhere`: the elements at some of the positions.

## Main results

* `toInt_fromEndWord`: no sum leaves the range of a word.
* `walk_elements`: a walk of one segment over an array.
* `walk_positions`: **lists and slices select by position**, and a number cuts an array in two.
-/

namespace JsonPath

variable {env : Environment}

/-! ### Words -/

/-- The position that a number stands for, computed in words of 64 bits, where a sum that is too
large would wrap around. -/
def fromEndWord (count k : Int64) : Int64 :=
  if k < 0 then k + count else k

/-- **No sum leaves the range of a word**, so the position computed in words is the position. -/
theorem toInt_fromEndWord {count : Nat} (hcount : count < 2 ^ 63) (k : Int64) :
    (fromEndWord (.ofNat count) k).toInt = fromEnd count k.toInt := by
  have hnegative : k < 0 ↔ k.toInt < 0 := by rw [Int64.lt_iff_toInt_lt, Int64.toInt_zero]
  have hlow := k.le_toInt
  rw [fromEndWord, fromEnd, apply_ite Int64.toInt, Int64.toInt_add, Int64.toInt_ofNat_of_lt hcount]
  by_cases hk : k < 0
  · have hk' := hnegative.1 hk
    rw [if_pos hk, if_pos hk', Int.bmod_eq_of_le (by omega) (by omega)]
  · rw [if_neg hk, if_neg (mt hnegative.2 hk)]

namespace Selector

/-- Whether an element is at a listed position, computed in words. -/
def listsWord (positions : List Int64) (index count : Int64) : Bool :=
  positions.any fun k => fromEndWord count k == index

/-- Whether an element is in a slice, computed in words. -/
def slicesWord (start stop : Option Int64) (index count : Int64) : Bool :=
  decide (start.elim 0 (fromEndWord count) ≤ index) &&
    decide (index < stop.elim count (fromEndWord count))

variable {index count : Nat}

/-- On words, a list of positions picks the elements that it picks on integers. -/
theorem listsWord_eq (hcount : count < 2 ^ 63) (hindex : index < count) (positions : List Int64) :
    listsWord positions (.ofNat index) (.ofNat count) =
      (indices (positions.map Int64.toInt)).picksPosition index count := by
  rw [listsWord, picksPosition, List.any_map]
  refine congrArg positions.any (funext fun k => ?_)
  rw [Bool.eq_iff_iff, beq_iff_eq, Function.comp_apply, beq_iff_eq, ← Int64.toInt_inj,
    toInt_fromEndWord hcount, Int64.toInt_ofNat_of_lt (hindex.trans hcount)]

/-- On words, a slice picks the elements that it picks on integers. -/
theorem slicesWord_eq (hcount : count < 2 ^ 63) (hindex : index < count)
    (start stop : Option Int64) : slicesWord start stop (.ofNat index) (.ofNat count) =
      (slice (start.map Int64.toInt) (stop.map Int64.toInt)).picksPosition index count := by
  have hstart : (start.elim 0 (fromEndWord (.ofNat count))).toInt =
      (start.map Int64.toInt).elim 0 (fromEnd count) := by
    cases start with
    | none => exact Int64.toInt_zero
    | some k => exact toInt_fromEndWord hcount k
  have hstop : (stop.elim (.ofNat count) (fromEndWord (.ofNat count))).toInt =
      (stop.map Int64.toInt).elim (count : Int) (fromEnd count) := by
    cases stop with
    | none => exact Int64.toInt_ofNat_of_lt hcount
    | some k => exact toInt_fromEndWord hcount k
  simp only [slicesWord, picksPosition, Int64.le_iff_toInt_le, Int64.lt_iff_toInt_lt, hstart, hstop,
    Int64.toInt_ofNat_of_lt (hindex.trans hcount)]

end Selector

/-! ### The positions that are meant -/

/-- An element is listed by its position from the beginning or from the end. -/
def Listed (positions : List Int64) (count index : Nat) : Prop :=
  ∃ k ∈ positions, (0 ≤ k.toInt ∧ (index : Int) = k.toInt) ∨
    (k.toInt < 0 ∧ (index : Int) = count + k.toInt)

/-- The place that a bound of a slice stands for; a bound that is left out stands for `missing`. -/
def boundAt (count : Nat) (missing : Int) : Option Int64 → Int
  | none => missing
  | some k => if k.toInt < 0 then count + k.toInt else k.toInt

/-- An element is in a slice: not in front of its start and in front of its stop, where the array
has no elements in front of the first one and none behind the last one. -/
def InSlice (start stop : Option Int64) (count index : Nat) : Prop :=
  max 0 (boundAt count 0 start) ≤ index ∧ (index : Int) <
    min (count : Int) (boundAt count count stop)

instance (positions : List Int64) (count : Nat) : DecidablePred (Listed positions count) :=
  fun _ => inferInstanceAs (Decidable (∃ _ ∈ _, _))

instance (start stop : Option Int64) (count : Nat) : DecidablePred (InSlice start stop count) :=
  fun _ => inferInstanceAs (Decidable (_ ∧ _))

/-- A list of positions picks exactly the elements that it lists. -/
theorem listed_iff {positions : List Int64} {count index : Nat} :
    (Selector.indices (positions.map Int64.toInt)).picksPosition index count = true ↔
      Listed positions count index := by
  rw [Selector.picksPosition_indices]
  constructor
  · rintro ⟨_, hmem, hk⟩
    obtain ⟨k, hk', rfl⟩ := List.mem_map.1 hmem
    refine ⟨k, hk', ?_⟩
    rw [fromEnd] at hk
    split at hk <;> omega
  · rintro ⟨k, hk, hindex⟩
    refine ⟨k.toInt, List.mem_map_of_mem hk, ?_⟩
    rw [fromEnd]
    split <;> omega

/-- A bound of a slice, its default included, is the bound over the integers. -/
theorem elim_eq_boundAt (count : Nat) (missing : Int) (bound : Option Int64) :
    (bound.map Int64.toInt).elim missing (fromEnd count) = boundAt count missing bound := by
  cases bound with
  | none => rfl
  | some k =>
      show fromEnd count k.toInt = _
      rw [fromEnd, boundAt, Int.add_comm]

/-- A slice picks exactly the elements between its bounds. -/
theorem inSlice_iff {start stop : Option Int64} {count index : Nat} (h : index < count) :
    (Selector.slice (start.map Int64.toInt) (stop.map Int64.toInt)).picksPosition index count =
      true ↔ InSlice start stop count index := by
  rw [Selector.picksPosition_slice, elim_eq_boundAt, elim_eq_boundAt, InSlice]
  omega

/-! ### The elements at some positions -/

/-- The elements of an array at the positions for which a property holds, in their order. -/
def Site.elementsWhere (s : Site) (p : Nat → Prop) [DecidablePred p] : List Site :=
  (s.elements.zipIdx.filter fun e => p e.2).map Prod.fst

/-- The members of a list from one place up to another are one run of the list. -/
theorem filter_zipIdx_eq_drop_take {α : Type} (l : List α) (start stop n : Nat) :
    ((l.zipIdx n).filter fun e => n + start ≤ e.2 ∧ e.2 < n + stop).map Prod.fst =
      (l.take stop).drop start := by
  induction l generalizing start stop n with
  | nil => simp
  | cons a l ih =>
      rw [List.zipIdx_cons]
      cases stop with
      | zero =>
          rw [List.filter_eq_nil_iff.2, List.take_zero, List.drop_nil, List.map_nil]
          intro e _
          simp only [decide_eq_true_eq]
          omega
      | succ stop =>
          cases start with
          | zero =>
              have hrest := ih 0 stop (n + 1)
              rw [List.filter_cons_of_pos (by simp), List.map_cons, List.take_succ_cons]
              refine congrArg (a :: ·) (Eq.trans ?_ hrest)
              refine congrArg (List.map Prod.fst) (List.filter_congr fun e he => ?_)
              have := List.le_snd_of_mem_zipIdx he
              rw [decide_eq_decide]
              omega
          | succ start =>
              have hrest := ih start stop (n + 1)
              rw [List.filter_cons_of_neg (by simp), List.take_succ_cons, List.drop_succ_cons]
              refine Eq.trans ?_ hrest
              refine congrArg (List.map Prod.fst) (List.filter_congr fun e _ => ?_)
              rw [decide_eq_decide]
              omega

/-- **A slice is one run** of the elements, between the places of its bounds in the array. -/
theorem Site.elementsWhere_inSlice (s : Site) (start stop : Option Int64) :
    s.elementsWhere (InSlice start stop s.elements.length) =
      (s.elements.take (boundAt s.elements.length s.elements.length stop).toNat).drop
        (boundAt s.elements.length 0 start).toNat := by
  rw [← filter_zipIdx_eq_drop_take _ _ _ 0, elementsWhere]
  refine congrArg (List.map Prod.fst) (List.filter_congr fun e he => ?_)
  have hlt := List.snd_lt_of_mem_zipIdx he
  rw [decide_eq_decide, InSlice]
  omega

/-! ### Walks -/

/-- **A walk of one segment over an array** finds the elements that its selector picks. -/
theorem walk_elements {root s : Site} (hs : s.node.isArray = true) {selector : Selector}
    (hselector : selector.isFunction = false) {p : Nat → Prop} [DecidablePred p]
    (hp : ∀ index < s.elements.length, ∀ site : Site,
      selector.selects env root ⟨.position index s.elements.length, site⟩ =
        .ok (decide (p index))) :
    walk env root [⟨selector, false⟩] s = .ok (s.elementsWhere p) := by
  obtain ⟨start, node⟩ := s
  cases node with
  | array items =>
      rw [walk_eq root ⟨selector, false⟩ [] _ hselector, Site.children, gather_map,
        Site.elementsWhere, ← gather_filter]
      refine gather_congr ?_
      rintro ⟨site, index⟩ he
      have hindex : index < (items.sites (start + 1)).length := by
        simpa using List.snd_lt_of_mem_zipIdx he
      have hselects : selector.selects env root
          ⟨.position index (items.sites (start + 1)).length, site⟩ = .ok (decide (p index)) :=
        hp index hindex site
      rw [visit_eq]
      dsimp only
      rw [hselects]
      dsimp only
      rw [if_neg Bool.false_ne_true, joined_nil, walk]
  | _ => cases hs

variable {root s : Site}

/-- A walk by a list of positions finds the elements listed, in order. -/
theorem walk_indices (hs : s.node.isArray = true) (positions : List Int64) :
    walk env root [⟨.indices (positions.map Int64.toInt), false⟩] s =
      .ok (s.elementsWhere (Listed positions s.elements.length)) :=
  walk_elements hs rfl fun _ _ _ => congrArg Except.ok (Bool.eq_iff_iff.2 (by
    rw [listed_iff, decide_eq_true_eq]))

/-- A walk by a slice finds the elements between its bounds, in order. -/
theorem walk_slice (hs : s.node.isArray = true) (start stop : Option Int64) :
    walk env root [⟨.slice (start.map Int64.toInt) (stop.map Int64.toInt), false⟩] s =
      .ok (s.elementsWhere (InSlice start stop s.elements.length)) :=
  walk_elements hs rfl fun _ hindex _ => congrArg Except.ok (Bool.eq_iff_iff.2 (by
    rw [inSlice_iff hindex, decide_eq_true_eq]))

/-- **Lists and slices select by position.** From an array whose elements a word can count, a list
selects the elements at the listed positions and a slice those between its bounds, in their order,
and the tests of a position come to the same in words of 64 bits, in which no sum is out of range. A
number cuts the array in two: the slice up to it and the slice from it on have no position in common
and make up the whole array. -/
theorem walk_positions (hs : s.node.isArray = true) (hcount : s.elements.length < 2 ^ 63) :
    (∀ positions : List Int64,
      walk env root [⟨.indices (positions.map Int64.toInt), false⟩] s =
          .ok (s.elementsWhere (Listed positions s.elements.length)) ∧
        ∀ index < s.elements.length,
          Selector.listsWord positions (.ofNat index) (.ofNat s.elements.length) = true ↔
            Listed positions s.elements.length index) ∧
    (∀ start stop : Option Int64,
      walk env root [⟨.slice (start.map Int64.toInt) (stop.map Int64.toInt), false⟩] s =
          .ok (s.elementsWhere (InSlice start stop s.elements.length)) ∧
        ∀ index < s.elements.length,
          Selector.slicesWord start stop (.ofNat index) (.ofNat s.elements.length) = true ↔
            InSlice start stop s.elements.length index) ∧
    (∀ k : Int64, (fromEndWord (.ofNat s.elements.length) k).toInt =
      if k.toInt < 0 then s.elements.length + k.toInt else k.toInt) ∧
    ∀ k : Int64, ∃ front back,
      walk env root [⟨.slice none (some k.toInt), false⟩] s = .ok front ∧
        walk env root [⟨.slice (some k.toInt) none, false⟩] s = .ok back ∧
        front ++ back = s.elements ∧
        ∀ index, ¬ (InSlice none (some k) s.elements.length index ∧
          InSlice (some k) none s.elements.length index) := by
  refine ⟨fun positions => ⟨walk_indices hs positions, fun index hindex => ?_⟩,
    fun start stop => ⟨walk_slice hs start stop, fun index hindex => ?_⟩, fun k => ?_, fun k => ?_⟩
  · rw [Selector.listsWord_eq hcount hindex, listed_iff]
  · rw [Selector.slicesWord_eq hcount hindex, inSlice_iff hindex]
  · rw [toInt_fromEndWord hcount, fromEnd, Int.add_comm]
  · refine ⟨_, _, walk_slice hs none (some k), walk_slice hs (some k) none, ?_, fun index => ?_⟩
    · have hall : boundAt s.elements.length s.elements.length none = s.elements.length := rfl
      have hnone : boundAt s.elements.length 0 none = 0 := rfl
      have hmissing : boundAt s.elements.length s.elements.length (some k) =
          boundAt s.elements.length 0 (some k) := rfl
      rw [Site.elementsWhere_inSlice, Site.elementsWhere_inSlice, hall, hnone, hmissing,
        Int.toNat_natCast, Int.toNat_zero, List.take_length, List.drop_zero,
        List.take_append_drop]
    · simp only [InSlice, boundAt]
      omega

/-- The array `[null,true,false]`. -/
def threeWords : Site :=
  ⟨0, .array (.item [] .null (.item [','] (.bool true) (.item [','] (.bool false) (.close []))))⟩

/-- The last and the first word, and those from far in front of the array up to the last one. -/
theorem walk_positions_threeWords :
    threeWords.node.isArray = true ∧ threeWords.elements.length < 2 ^ 63 ∧
      walk .standard threeWords [⟨.indices [-1, 5, 0], false⟩] threeWords =
        .ok [⟨1, .null⟩, ⟨11, .bool false⟩] ∧
      walk .standard threeWords [⟨.slice (some (-9223372036854775808)) (some (-1)), false⟩]
          threeWords =
        .ok [⟨1, .null⟩, ⟨6, .bool true⟩] := by
  have hs : threeWords.node.isArray = true := rfl
  have hcount : threeWords.elements.length < 2 ^ 63 := by decide
  have hpositions : [-1, 5, 0].map Int64.toInt = [-1, 5, 0] := by decide
  have hstart : Int64.toInt (-9223372036854775808) = -9223372036854775808 := by decide
  have hstop : Int64.toInt (-1) = -1 := by decide
  obtain ⟨hindices, hslice, -, -⟩ := @walk_positions .standard threeWords threeWords hs hcount
  have hlist := (hindices [-1, 5, 0]).1
  have hrun := (hslice (some (-9223372036854775808)) (some (-1))).1
  rw [hpositions] at hlist
  rw [Option.map_some, Option.map_some, hstart, hstop] at hrun
  exact ⟨hs, hcount, hlist.trans (by decide), hrun.trans (by decide)⟩

end JsonPath
