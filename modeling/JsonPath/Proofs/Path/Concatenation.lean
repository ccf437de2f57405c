import JsonPath.Proofs.Path.Endings

/-!
# Paths in Two Parts

A path that is followed by more segments has the segments that it has alone, and then those
(`Path.readSegments_append`). The one thing that the later segments depend on is whether the
earlier ones end with a function.

## Main definitions

* `Path.endsInFunction`: whether segments end with a function.
* `Path.Reaches`: the places that are reached by reading segments.

## Main results

* `Path.readSegments_of_reaches`: the segments in front of a place are read the same, whatever
  follows.
* `Path.readSegments_append`: **segments that follow others**.
* `Path.ofString_append`: **segments that follow a path** follow its segments.
-/

namespace JsonPath

open Text

/-! ### Paths -/

namespace Path

/-- A segment that is read is the first of the segments, unless it follows a function and is
none. -/
theorem readSegments_of_read {afterFunction : Bool} {s body rest : List Char} {segment : Segment}
    (h : Segment.read s = .ok (segment, body, rest)) :
    readSegments afterFunction s =
      if afterFunction && !segment.isFunction then .error (.unparsable body)
      else (readSegments segment.isFunction rest).map (segment :: ·) := by
  have hs : s.isEmpty = false := by
    rcases s with - | ⟨c, s⟩
    · cases h
    · rfl
  rw [readSegments, if_neg (by simp [hs])]
  split
  · next h' =>
      rw [h] at h'
      cases h'
  · next h' =>
      rw [h] at h'
      obtain ⟨rfl, rfl, rfl⟩ : segment = _ ∧ body = _ ∧ rest = _ := by simpa using h'
      rfl

/-- A segment's fault is that of the segments. -/
theorem readSegments_of_error {afterFunction : Bool} {s : List Char} {fault : Fault}
    (h : Segment.read s = .error fault) (hs : s ≠ []) :
    readSegments afterFunction s = .error fault := by
  rw [readSegments, if_neg (by simpa using hs)]
  split
  · next h' => exact congrArg Except.error (Except.error.inj (h'.symm.trans h))
  · next h' =>
      rw [h] at h'
      cases h'

/-- The first of the segments that a text is read as. -/
theorem read_of_readSegments {afterFunction : Bool} {s : List Char} {segments : List Segment}
    (hs : s ≠ []) (h : readSegments afterFunction s = .ok segments) :
    ∃ first body rest later, segments = first :: later ∧
      Segment.read s = .ok (first, body, rest) ∧
      readSegments first.isFunction rest = .ok later := by
  rw [readSegments, if_neg (by simpa using hs)] at h
  split at h
  · cases h
  · next segment body rest hread =>
      split at h
      · cases h
      · obtain ⟨later, hlater, rfl⟩ := map_eq_ok_iff.1 h
        exact ⟨segment, body, rest, later, rfl, hread, hlater⟩

/-- An empty text has no segments. -/
theorem readSegments_nil (afterFunction : Bool) : readSegments afterFunction [] = .ok [] := by
  rw [readSegments, if_pos List.isEmpty_nil]

/-- What segments are read from begins as a segment does. -/
theorem continues_of_readSegments {afterFunction : Bool} {s : List Char} {segments : List Segment}
    (h : readSegments afterFunction s = .ok segments) : Selector.Continues s := by
  rcases s with - | ⟨c, s⟩
  · exact fun c hc => by cases hc
  · rw [readSegments, if_neg (by simp)] at h
    split at h
    · cases h
    · next hread => exact Segment.continues_of_read hread

/-- Whether segments end with a function; `before` is what holds in front of them. -/
def endsInFunction (before : Bool) (segments : List Segment) : Bool :=
  segments.foldl (fun _ segment => segment.isFunction) before

/-- Where no segment is added, what holds in front holds at the end. -/
theorem endsInFunction_nil (before : Bool) : endsInFunction before [] = before :=
  rfl

/-- The first segment stands in front of the others. -/
theorem endsInFunction_cons (before : Bool) (segment : Segment) (segments : List Segment) :
    endsInFunction before (segment :: segments) = endsInFunction segment.isFunction segments :=
  rfl

/-- Segments without functions do not end with one. -/
theorem endsInFunction_of_any {segments : List Segment}
    (h : segments.any Segment.isFunction = false) : endsInFunction false segments = false := by
  induction segments with
  | nil => rfl
  | cons segment segments ih =>
      obtain ⟨hsegment, hlater⟩ : segment.isFunction = false ∧
          segments.any Segment.isFunction = false := by
        simpa using h
      rw [endsInFunction_cons, hsegment, ih hlater]

/-- A text is a path if segments, at least one, follow the root. -/
theorem ofString_root_eq_ok_iff {s : String} {p : Path} :
    ofString ("$" ++ s) = .ok p ↔ s.toList ≠ [] ∧ readSegments false s.toList = .ok p.segments := by
  have htext : ("$" ++ s).toList = '$' :: s.toList := String.toList_append
  rw [ofString, htext]
  rcases s.toList with - | ⟨c, rest⟩
  · exact ⟨fun h => (by cases h), fun h => absurd rfl h.1⟩
  · rw [read]
    cases readSegments false (c :: rest) with
    | error fault => exact ⟨fun h => (by cases h), fun h => (by cases h.2)⟩
    | ok segments =>
        obtain ⟨later⟩ := p
        simp [Except.map, Except.mapError]

/-- Brackets right behind the root are a path of one segment if they end the text. -/
theorem ofString_brackets_iff {content : String} {p : Path}
    (hend : ∀ selector rest, Selector.readBracketed (content.toList ++ [']']) =
      .ok (selector, rest) → rest = []) :
    ofString ("$[" ++ content ++ "]") = .ok p ↔
      ∃ selector, Selector.readBracketed (content.toList ++ [']']) = .ok (selector, []) ∧
        p = ⟨[⟨selector, false⟩]⟩ := by
  have htext : "$[" ++ content ++ "]" =
      "$" ++ String.ofList ('[' :: (content.toList ++ [']'])) := by
    apply String.toList_injective
    simp
  have hread : Segment.read ('[' :: (content.toList ++ [']'])) =
      (Selector.readBracketed (content.toList ++ [']'])).map fun p =>
        (⟨p.1, false⟩, '[' :: (content.toList ++ [']']), p.2) := rfl
  obtain ⟨segments⟩ := p
  rw [htext, ofString_root_eq_ok_iff, String.toList_ofList]
  constructor
  · rintro ⟨-, h⟩
    obtain ⟨first, body, rest, later, rfl, hfirst, hlater⟩ :=
      read_of_readSegments (List.cons_ne_nil _ _) h
    rw [hread] at hfirst
    obtain ⟨⟨selector, tail⟩, hselector, hp⟩ := map_eq_ok_iff.1 hfirst
    obtain rfl := hend selector tail hselector
    obtain ⟨rfl, -, rfl⟩ : (⟨selector, false⟩ : Segment) = first ∧ _ ∧ [] = rest := by
      simpa using hp
    rw [readSegments_nil] at hlater
    obtain rfl := Except.ok.inj hlater
    exact ⟨selector, hselector, rfl⟩
  · rintro ⟨selector, hselector, hp⟩
    obtain rfl : segments = _ := congrArg Path.segments hp
    rw [hselector] at hread
    refine ⟨List.cons_ne_nil _ _, ?_⟩
    rw [readSegments_of_read hread, if_neg (by simp), readSegments_nil]
    rfl

/-- The places in a text that are reached by reading segments. -/
inductive Reaches : List Char → List Char → Prop
  | here {s : List Char} : Reaches s s
  | later {s body rest t : List Char} {segment : Segment} :
      Segment.read s = .ok (segment, body, rest) → Reaches rest t → Reaches s t

/-- **The segments in front of a place** are read the same, whatever segments follow. -/
theorem readSegments_of_reaches {s t : List Char} (h : Reaches s t) {afterFunction : Bool}
    {segments : List Segment} (hread : readSegments afterFunction s = .ok segments) :
    ∃ front earlier later, s = front ++ t ∧ segments = earlier ++ later ∧
      readSegments (endsInFunction afterFunction earlier) t = .ok later ∧
      ∀ next, Selector.Continues next → readSegments afterFunction (front ++ next) =
        (readSegments (endsInFunction afterFunction earlier) next).map (earlier ++ ·) := by
  induction h generalizing afterFunction segments with
  | here =>
      refine ⟨[], [], segments, rfl, rfl, hread, fun next _ => ?_⟩
      rw [List.nil_append, endsInFunction_nil]
      cases readSegments afterFunction next <;> rfl
  | @later s body rest t segment hsegment _ ih =>
      rw [readSegments_of_read hsegment] at hread
      split at hread
      · cases hread
      next hallowed =>
      obtain ⟨others, hothers, rfl⟩ := map_eq_ok_iff.1 hread
      obtain ⟨u, rfl, hu⟩ := Segment.read_of_continues hsegment
      have hrest := continues_of_readSegments hothers
      obtain ⟨front, earlier, later, rfl, rfl, hlater, hfront⟩ := ih hothers
      refine ⟨u ++ front, segment :: earlier, later, by simp, rfl, hlater, fun next hnext => ?_⟩
      obtain ⟨body', hread'⟩ := hu (front ++ next) (hrest.replace hnext)
      rw [List.append_assoc, readSegments_of_read hread', if_neg hallowed, hfront next hnext,
        endsInFunction_cons]
      cases readSegments (endsInFunction segment.isFunction earlier) next <;> rfl

/-- Reading segments reaches the end of the text. -/
theorem reaches_nil {afterFunction : Bool} {s : List Char} {segments : List Segment}
    (h : readSegments afterFunction s = .ok segments) : Reaches s [] := by
  fun_induction readSegments afterFunction s generalizing segments with
  | case1 afterFunction s hempty =>
      obtain rfl : s = [] := List.isEmpty_iff.1 hempty
      exact .here
  | case4 afterFunction s hempty segment body rest hread _ hfunction ih =>
      obtain ⟨later, hlater, -⟩ := map_eq_ok_iff.1 h
      exact .later hread (ih hlater)
  | _ => cases h

/-- **Segments that follow others** are read as they are alone, except that only functions may
follow a function. -/
theorem readSegments_append {afterFunction : Bool} {s after : List Char} {segments : List Segment}
    (h : readSegments afterFunction s = .ok segments) (hafter : Selector.Continues after) :
    readSegments afterFunction (s ++ after) =
      (readSegments (endsInFunction afterFunction segments) after).map (segments ++ ·) := by
  obtain ⟨front, earlier, later, rfl, rfl, hlater, hfront⟩ :=
    readSegments_of_reaches (reaches_nil h) h
  obtain rfl : [] = later := Except.ok.inj ((readSegments_nil _).symm.trans hlater)
  rw [List.append_nil, List.append_nil]
  exact hfront after hafter

/-- **Segments that follow a path** without functions follow its segments. -/
theorem ofString_append {p q : String} {P Q : Path} (hp : ofString ("$" ++ p) = .ok P)
    (hq : ofString ("$" ++ q) = .ok Q) (hfunction : P.segments.any Segment.isFunction = false) :
    ofString ("$" ++ p ++ q) = .ok ⟨P.segments ++ Q.segments⟩ := by
  obtain ⟨hne, hp⟩ := ofString_root_eq_ok_iff.1 hp
  obtain ⟨-, hq⟩ := ofString_root_eq_ok_iff.1 hq
  rw [String.append_assoc, ofString_root_eq_ok_iff, String.toList_append]
  refine ⟨by simp [hne], ?_⟩
  rw [readSegments_append hp (continues_of_readSegments hq), endsInFunction_of_any hfunction, hq]
  rfl

end Path

end JsonPath
