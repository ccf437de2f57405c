import Mathlib
import JsonPath.Proofs.Path.Concatenation

/-!
# Joining Paths

The text of one path behind that of another is the text of their segments in turn, so it is read
as a path unless a segment that is no function would come to stand behind a function
(`Path.Admits`). In that case the text is refused where the body of that segment begins: behind
its points, at the bracket or at the name.

`Path.readSegments_append` says what is read; here the state between the two parts
(`Path.endsInFunction`) is read off the last segment, and the fault off the first one that follows.

## Main definitions

* `Path.Admits`: whether the segments of one path may stand behind those of another.

## Main results

* `Segment.dropWhile_of_read`: where the body of a segment begins, and with which character.
* `Path.readSegments_of_admits`, `Path.readSegments_of_not_admits`: the segments of one path behind
  those of another.
* `Path.ofString_concat`: **two paths in one text**.
-/

namespace JsonPath

open Text

/-! ### The body of a segment -/

/-- What follows a point begins with `*` or a name. -/
theorem Selector.head_of_readDotted {s rest : List Char} {selector : Selector}
    (h : readDotted s = .ok (selector, rest)) : ∃ c ∈ s.head?, c = '*' ∨ isWord c = true := by
  rw [readDotted.eq_def] at h
  split at h
  · exact ⟨'*', rfl, .inl rfl⟩
  rcases s with - | ⟨c, s⟩
  · cases h
  refine ⟨c, rfl, .inr ?_⟩
  by_contra hword
  have hname : (c :: s).takeWhile isWord = [] := by simp [hword]
  have hfunction : Aggregate.ofName? (String.ofList []) = none := by decide
  simp only [hname, hfunction] at h
  split at h <;> cases h

namespace Segment

/-- The body of a segment is what is left behind its points. It begins with a bracket or, if there
are points, with `*` or a name. -/
theorem dropWhile_of_read {s body rest : List Char} {segment : Segment}
    (h : read s = .ok (segment, body, rest)) :
    s.dropWhile (· == '.') = body ∧
      ∃ c ∈ body.head?, c = '[' ∨ s.head? = some '.' ∧ (c = '*' ∨ isWord c = true) := by
  obtain ⟨points, c, tail, rfl, rfl, ⟨hne, hpoints⟩, hbody⟩ := read_eq_ok_iff.1 h
  constructor
  · rcases hpoints with ⟨rfl, -⟩ | ⟨rfl, -⟩ | ⟨rfl, -⟩ <;> simp [hne]
  refine ⟨c, rfl, ?_⟩
  by_cases hbracket : c = '['
  · exact .inl hbracket
  · rw [if_neg hbracket] at hbody
    obtain ⟨d, hd, hname⟩ := Selector.head_of_readDotted hbody
    obtain rfl : c = d := by simpa using hd
    refine .inr ⟨?_, hname⟩
    rcases hpoints with ⟨-, hc, -⟩ | ⟨rfl, -⟩ | ⟨rfl, -⟩
    · exact absurd hc hbracket
    · rfl
    · rfl

end Segment

/-! ### Two paths in one text -/

namespace Path

/-- Whether the segments of a second path may stand behind those of the first: behind a function
there may only be functions. -/
def Admits (P Q : Path) : Prop :=
  ∀ last ∈ P.segments.getLast?, ∀ first ∈ Q.segments.head?,
    last.isFunction = true → first.isFunction = true

/-- Segments end with a function if the last one is a function. -/
theorem endsInFunction_eq_getLast? (before : Bool) (segments : List Segment) :
    endsInFunction before segments = (segments.getLast?.map Segment.isFunction).getD before := by
  induction segments generalizing before with
  | nil => rfl
  | cons segment segments ih =>
      rw [endsInFunction_cons, ih, List.getLast?_cons]
      cases segments.getLast? <;> rfl

variable {P Q : Path} {s body rest : List Char} {first : Segment} {later : List Segment}

/-- What a second path is read as behind the first. -/
theorem readSegments_of_admits (h : P.Admits Q) (hQ : Q.segments = first :: later)
    (hread : Segment.read s = .ok (first, body, rest))
    (hlater : readSegments first.isFunction rest = .ok later) :
    readSegments (endsInFunction false P.segments) s = .ok Q.segments := by
  have hallowed : ¬ (endsInFunction false P.segments && !first.isFunction) = true := by
    rw [endsInFunction_eq_getLast?]
    cases hlast : P.segments.getLast? with
    | none => simp
    | some last => simpa using h last hlast first (by rw [hQ]; rfl)
  rw [readSegments_of_read hread, if_neg hallowed, hlater, hQ]
  rfl

/-- Where a second path is refused behind the first. -/
theorem readSegments_of_not_admits (h : ¬ P.Admits Q) (hQ : Q.segments = first :: later)
    (hread : Segment.read s = .ok (first, body, rest)) :
    readSegments (endsInFunction false P.segments) s = .error (.unparsable body) := by
  simp only [Admits, not_forall] at h
  obtain ⟨last, hlast, first', hfirst, hfunction, hno⟩ := h
  obtain rfl : first = first' := by simpa [hQ] using hfirst
  have hrefused : (endsInFunction false P.segments && !first.isFunction) = true := by
    rw [endsInFunction_eq_getLast?, Option.mem_def.1 hlast]
    simp [hfunction, hno]
  rw [readSegments_of_read hread, if_pos hrefused]

/-- A fault behind the root is reported at the byte where it was found. -/
theorem ofString_of_readSegments_eq_error {text : String} {front : List Char}
    (htext : text.toList = front ++ rest) (hne : text.toList ≠ [])
    (h : readSegments false text.toList = .error (.unparsable rest)) :
    ofString ("$" ++ text) =
      .error (.unparsable (byteSize ('$' :: front)) (String.ofList rest)) := by
  have hroot : ("$" ++ text).toList = '$' :: text.toList := String.toList_append
  have hread : read ('$' :: text.toList) = .error (.unparsable rest) := by
    obtain ⟨c, tail, hcons⟩ := List.exists_cons_of_ne_nil hne
    rw [hcons] at h ⊢
    rw [read, h]
    rfl
  rw [ofString, hroot, hread, htext]
  show Except.error (Error.unparsable (offsetIn ('$' :: front ++ rest) rest) _) = _
  rw [offsetIn_append]

/-- **Two paths in one text.** If the second may stand behind the first, the text is read as the
path of all their segments, which is definite exactly if both paths are. Otherwise the first
segment of the second path is refused: behind its points, where its brackets or its name
begin. -/
theorem ofString_concat {p q : String} (hp : ofString ("$" ++ p) = .ok P)
    (hq : ofString ("$" ++ q) = .ok Q) :
    (P.Admits Q → ofString ("$" ++ p ++ q) = .ok ⟨P.segments ++ Q.segments⟩ ∧
      Path.isDefinite ⟨P.segments ++ Q.segments⟩ = (P.isDefinite && Q.isDefinite)) ∧
    (¬ P.Admits Q →
      ofString ("$" ++ p ++ q) = .error (.unparsable
        (byteSize ("$" ++ p).toList + byteSize (q.toList.takeWhile (· == '.')))
        (String.ofList (q.toList.dropWhile (· == '.')))) ∧
      ∃ c ∈ (q.toList.dropWhile (· == '.')).head?,
        c = '[' ∨ q.toList.head? = some '.' ∧ (c = '*' ∨ isWord c = true)) := by
  obtain ⟨hpne, hp⟩ := ofString_root_eq_ok_iff.1 hp
  obtain ⟨hqne, hq⟩ := ofString_root_eq_ok_iff.1 hq
  obtain ⟨first, body, rest, later, hQ, hread, hlater⟩ := read_of_readSegments hqne hq
  have hjoined : readSegments false (p ++ q).toList =
      (readSegments (endsInFunction false P.segments) q.toList).map (P.segments ++ ·) := by
    rw [String.toList_append, readSegments_append hp (continues_of_readSegments hq)]
  have hne : (p ++ q).toList ≠ [] := by
    rw [String.toList_append]
    exact List.append_ne_nil_of_left_ne_nil hpne _
  rw [String.append_assoc]
  constructor
  · intro hadmits
    refine ⟨?_, List.all_append⟩
    rw [ofString_root_eq_ok_iff, hjoined, readSegments_of_admits hadmits hQ hread hlater]
    exact ⟨hne, rfl⟩
  · intro hadmits
    obtain ⟨hbody, hstart⟩ := Segment.dropWhile_of_read hread
    rw [hbody]
    refine ⟨?_, hstart⟩
    have hfault : readSegments false (p ++ q).toList = .error (.unparsable body) := by
      rw [hjoined, readSegments_of_not_admits hadmits hQ hread]
      rfl
    have hsplit : (p ++ q).toList = (p.toList ++ q.toList.takeWhile (· == '.')) ++ body := by
      rw [String.toList_append, List.append_assoc, ← hbody, List.takeWhile_append_dropWhile]
    rw [ofString_of_readSegments_eq_error hsplit hne hfault, ← List.cons_append, byteSize_append,
      String.toList_append]
    rfl

/-- A name may stand behind a name, but behind a function it is refused behind its points. -/
theorem ofString_concat_names :
    ofString ("$" ++ ".a" ++ "..b") = .ok ⟨[⟨.names ["a"], false⟩, ⟨.names ["b"], true⟩]⟩ ∧
      ofString ("$" ++ ".sum()" ++ "..b") = .error (.unparsable 9 "b") := by
  have hname : ofString ("$" ++ ".a") = .ok ⟨[⟨.names ["a"], false⟩]⟩ := by cbv
  have hsum : ofString ("$" ++ ".sum()") = .ok ⟨[⟨.apply .sum, false⟩]⟩ := by cbv
  have hbelow : ofString ("$" ++ "..b") = .ok ⟨[⟨.names ["b"], true⟩]⟩ := by cbv
  have hadmits : Admits ⟨[⟨.names ["a"], false⟩]⟩ ⟨[⟨.names ["b"], true⟩]⟩ := by
    simp [Admits, Segment.isFunction, Selector.isFunction]
  have hrefuses : ¬ Admits ⟨[⟨.apply .sum, false⟩]⟩ ⟨[⟨.names ["b"], true⟩]⟩ := by
    simp [Admits, Segment.isFunction, Selector.isFunction]
  exact ⟨((ofString_concat hname hbelow).1 hadmits).1,
    ((ofString_concat hsum hbelow).2 hrefuses).1⟩

end Path

end JsonPath
