import JsonPath.Proofs.Path.Joining
import JsonPath.Proofs.Path.WellFormed

/-!
# Faults Stand in the Path

A reader that fails gives the rest of the text from the place at fault on, and the error that is
reported has the offset of that place and what stands there. Both are right only if the rest is an
end of the path that was read (`Fault.StandsIn`). That is so for every reader: it fails at an end of
the text it was given, and what it hands to another reader is an end of that text as well. So the
offset is that of a character of the path or of the end, the fragment is all that follows it, and
there is no fragment exactly if the path ended too early.

Parentheses that do not pair up are no fault of a path. The parenthesis that ends a filter is the
one that closes as many as were opened, so no other waits at that point.

## Main definitions

* `Fault.StandsIn`: a fault is placed in a text.

## Main results

* `Segment.standsIn_of_read`: the fault of a segment stands in its text.
* `Path.anchored_of_ofString`: **every error of a path is anchored in it**.
-/

namespace JsonPath

open Text

/-! ### Faults in a text -/

/-- A fault of a segment in a text: its place is an end of the text, and a function that does not
exist is called at that place. -/
inductive Fault.StandsIn (s : List Char) : Fault → Prop
  | unparsable {rest : List Char} : rest <:+ s → StandsIn s (.unparsable rest)
  | unsupported {rest construct : List Char} : rest <:+ s → construct <+: rest →
      StandsIn s (.unsupported rest construct)

/-- A fault that stands in the end of a text stands in the text. -/
theorem Fault.StandsIn.of_suffix {s t : List Char} {fault : Fault} (h : fault.StandsIn t)
    (ht : t <:+ s) : fault.StandsIn s := by
  cases h with
  | unparsable hrest => exact .unparsable (hrest.trans ht)
  | unsupported hrest hconstruct => exact .unsupported (hrest.trans ht) hconstruct

/-- A reader that cannot go on at an end of its text fails there. -/
theorem Fault.StandsIn.of_error {α : Type} {s rest : List Char} {fault : Fault}
    (h : (Except.error (.unparsable rest) : Except Fault α) = .error fault) (hrest : rest <:+ s) :
    fault.StandsIn s := by
  obtain rfl := Except.error.inj h
  exact .unparsable hrest

namespace Text

/-- Without its leading blanks a text is an end of itself. -/
theorem suffix_skipBlanks (s : List Char) : skipBlanks s <:+ s :=
  List.dropWhile_suffix isBlank

/-- A quoted text fails at an end of what follows its first quote. -/
theorem Quoted.suffix_of_split_error {α : Type} [DecidableEq α] {escape quote : α}
    {banned : α → Bool} {s rest : List α} (h : split escape quote banned s = .error rest) :
    rest <:+ s := by
  fun_induction split escape quote banned s with
  | case2 => cases h
  | case4 c tail _ _ ih =>
      have htail := ih (map_eq_error_iff.1 h)
      exact htail.trans ((List.suffix_cons c tail).trans (List.suffix_cons escape _))
  | case7 c tail _ _ _ ih => exact (ih (map_eq_error_iff.1 h)).trans (List.suffix_cons c tail)
  | _ =>
      obtain rfl := Except.error.inj h
      exact List.suffix_refl _

/-- What follows a quoted text is an end of it. -/
theorem Quoted.suffix_of_split {α : Type} [DecidableEq α] {escape quote : α} {banned : α → Bool}
    {s body rest : List α} (h : split escape quote banned s = .ok (body, rest)) : rest <:+ s := by
  rw [← append_of_split h]
  exact (List.suffix_cons quote rest).trans (List.suffix_append body _)

end Text

/-! ### Filters -/

/-- Steps fail at an end of their text: at the beginning of a step. -/
theorem Step.suffix_of_readAll_error {s rest : List Char} (h : readAll s = .error rest) :
    rest <:+ s := by
  fun_induction readAll s with
  | case1 =>
      obtain rfl := Except.error.inj h
      exact List.suffix_refl _
  | case2 s _ step tail hs _ ih =>
      obtain ⟨u, -, rfl, -⟩ := read?_of_stopsAt hs
      exact (ih (map_eq_error_iff.1 h)).trans (List.suffix_append u tail)
  | case3 => cases h

namespace Token

/-- A reference fails in its steps. -/
theorem suffix_of_readReference_error {sign : Char} {s rest : List Char}
    (h : readReference sign s = .error rest) : rest <:+ s :=
  Step.suffix_of_readAll_error (map_eq_error_iff.1 h)

/-- A token fails at its beginning or in the steps of a reference. -/
theorem suffix_of_read_error {previous : Role} {s rest : List Char}
    (h : read previous s = .error rest) : rest <:+ s := by
  rcases s with - | ⟨c, s⟩
  · obtain rfl := Except.error.inj h
    exact List.suffix_refl _
  have here {found : Option (Token × List Char)}
      (h : found.elim (.error (c :: s)) .ok = Except.error rest) : rest <:+ c :: s := by
    cases found with
    | none =>
        obtain rfl := Except.error.inj h
        exact List.suffix_refl _
    | some p => cases h
  have reference {make : Reference → Token}
      (h : (readReference c s).map (fun p => (make p.1, p.2)) = .error rest) : rest <:+ c :: s :=
    (suffix_of_readReference_error (map_eq_error_iff.1 h)).trans (List.suffix_cons c s)
  rw [read] at h
  split at h
  · cases h
  split_ifs at h
  · exact reference h
  · exact reference h
  · exact here h
  · exact here h
  · obtain rfl := Except.error.inj h
    exact List.suffix_refl _

/-- A token that is refused is refused at an end of the text. -/
theorem suffix_of_next_error {previous : Role} {s rest : List Char}
    (h : next previous s = .error rest) : rest <:+ s :=
  (suffix_of_read_error h).trans (suffix_skipBlanks s)

end Token

/-- A filter fails at an end of its text: in a token, or at a token that may not stand there. -/
theorem Arrangement.suffix_of_run_error {a : Arrangement} {s rest : List Char}
    (h : a.run s = .error rest) : rest <:+ s := by
  fun_induction run a s with
  | case1 a s rest' hnext =>
      obtain rfl := Except.error.inj h
      exact Token.suffix_of_next_error hnext
  | case2 a s =>
      obtain rfl := Except.error.inj h
      exact suffix_skipBlanks s
  | case3 => cases h
  | case4 a s t tail hnext _ b hfeed ih =>
      obtain ⟨u, -, rfl, -⟩ := Token.next_of_stopsAt hnext
      exact (ih h).trans (List.suffix_append u tail)

/-- **No parenthesis waits** where a filter ends. -/
theorem Arrangement.opening_notMem_of_run {a : Arrangement} {s rest : List Char}
    (h : start.run s = .ok (a, rest)) : .opening ∉ a.stack := by
  obtain ⟨tokens, -, hfeed, -, hdepth⟩ := (run_eq_ok_iff (Nat.le_refl 1)).1 h
  have hopened := (wellFormed_start.feedAll hfeed).opened
  intro hmem
  have hcount := List.count_pos_iff.2 hmem
  omega

/-- A filter cannot be read from a place on, and nothing else can be at fault with it. -/
theorem Filter.standsIn_of_read {s : List Char} {fault : Fault} (h : read s = .error fault) :
    fault.StandsIn s := by
  rw [read.eq_def] at h
  split at h
  · next s =>
      split at h
      · next rest hrun =>
          obtain rfl := Except.error.inj h
          exact .unparsable ((Arrangement.suffix_of_run_error hrun).trans (List.suffix_cons '(' s))
      · next a rest hrun =>
          rw [if_neg (by simpa using Arrangement.opening_notMem_of_run hrun)] at h
          cases h
  · obtain rfl := Except.error.inj h
    exact .unparsable (List.suffix_refl _)

/-! ### Brackets and points -/

namespace Selector

variable {s : List Char} {fault : Fault}

/-- A fault among names stands in their text. -/
theorem standsIn_of_readNames {done : List String} {settled : Bool}
    (h : readNames done settled s = .error fault) : fault.StandsIn s := by
  fun_induction readNames done settled s with
  | case2 => cases h
  | case5 done _ c tail _ _ _ rest hsplit =>
      have hrest := Quoted.suffix_of_split_error hsplit
      exact .of_error h (hrest.trans (List.suffix_cons c tail))
  | case7 done settled c tail _ _ _ body after hsplit _ _ ih =>
      have hafter := Quoted.suffix_of_split hsplit
      exact (ih h).of_suffix (hafter.trans (List.suffix_cons c tail))
  | case8 _ _ c tail _ _ _ ih => exact (ih h).of_suffix (List.suffix_cons c tail)
  | case9 _ tail _ _ _ ih => exact (ih h).of_suffix (List.suffix_cons ',' tail)
  | _ => exact .of_error h (List.suffix_refl _)

/-- A fault among positions stands in their text. -/
theorem standsIn_of_readPositions {kind : Positions} {done : List Int} {current : Option Int}
    (h : readPositions kind done current s = .error fault) : fault.StandsIn s := by
  have digits (c : Char) (tail : List Char) : tail.dropWhile Char.isDigit <:+ c :: tail :=
    (List.dropWhile_suffix _).trans (List.suffix_cons c tail)
  fun_induction readPositions kind done current s with
  | case3 _ _ _ c tail => exact .of_error h (digits c tail)
  | case5 _ _ _ c tail _ _ _ _ _ _ ih => exact (ih h).of_suffix (digits c tail)
  | case6 => cases h
  | case7 => cases h
  | case9 _ _ tail _ _ ih => exact (ih h).of_suffix (List.suffix_cons ':' tail)
  | case12 _ _ tail _ _ _ _ _ ih => exact (ih h).of_suffix (List.suffix_cons ',' tail)
  | case14 _ _ _ c tail _ _ _ _ _ ih => exact (ih h).of_suffix (List.suffix_cons c tail)
  | _ => exact .of_error h (List.suffix_refl _)

/-- A fault in what is listed stands in its text. -/
theorem standsIn_of_readListed (h : readListed s = .error fault) : fault.StandsIn s := by
  rw [readListed.eq_def] at h
  split at h
  · next tail =>
      have hread := Filter.standsIn_of_read (map_eq_error_iff.1 h)
      exact hread.of_suffix (List.suffix_cons '?' tail)
  · cases h
  · split_ifs at h
    · exact standsIn_of_readNames (map_eq_error_iff.1 h)
    · exact standsIn_of_readPositions h
    · exact .of_error h (List.suffix_refl _)
  · exact .of_error h (List.suffix_refl _)

/-- A fault inside brackets stands in their text. -/
theorem standsIn_of_readBracketed (h : readBracketed s = .error fault) : fault.StandsIn s := by
  rw [readBracketed] at h
  split at h
  · next hlisted =>
      obtain rfl := Except.error.inj h
      exact (standsIn_of_readListed hlisted).of_suffix (suffix_skipBlanks s)
  · next selector rest hlisted =>
      obtain ⟨u, hs, -⟩ := readListed_of_head_eq hlisted
      have hrest : rest <:+ s := by
        have hinside := suffix_skipBlanks s
        rw [hs] at hinside
        exact (List.suffix_append u rest).trans hinside
      split at h
      · cases h
      · exact .of_error h ((suffix_skipBlanks rest).trans hrest)

/-- A fault behind a point stands in the text behind it. -/
theorem standsIn_of_readDotted (h : readDotted s = .error fault) : fault.StandsIn s := by
  rw [readDotted.eq_def] at h
  split at h
  · cases h
  dsimp only at h
  split at h
  · next parentheses after hcall =>
      split at h
      · cases h
      · obtain ⟨hrest, -, -⟩ := callParentheses?_of_close hcall
        have hs : s.takeWhile isWord ++ parentheses ++ after = s := by
          rw [List.append_assoc, ← hrest, List.takeWhile_append_dropWhile]
        obtain rfl := Except.error.inj h
        exact .unsupported (List.suffix_refl _) ⟨after, hs⟩
  · split_ifs at h
    exact .of_error h (List.suffix_refl _)

end Selector

/-! ### Segments and paths -/

/-- A fault of an opening stands in the text that was to be opened. -/
theorem Segment.standsIn_of_readOpening {s : List Char} {fault : Fault}
    (h : readOpening s = .error fault) : fault.StandsIn s := by
  have after {detached : Bool} {body : List Char} (h : openingAfter detached body = .error fault) :
      fault.StandsIn body := by
    rcases body with - | ⟨c, body⟩
    · exact .of_error h (List.suffix_refl _)
    · rw [openingAfter_cons] at h
      split_ifs at h
      exact .of_error h (List.suffix_refl _)
  rw [readOpening.eq_def] at h
  split at h
  · next body =>
      exact (after h).of_suffix ((List.suffix_cons '.' body).trans (List.suffix_cons '.' _))
  · next body _ => exact (after h).of_suffix (List.suffix_cons '.' body)
  · cases h
  · exact .of_error h (List.suffix_refl _)

/-- What follows the points of a segment is an end of its text. -/
theorem Segment.suffix_of_readOpening {s body : List Char} {opening : Opening}
    (h : readOpening s = .ok (opening, body)) : body <:+ s := by
  obtain ⟨points, -, -, rfl, -, -, -⟩ := readOpening_eq_ok_iff.1 h
  exact List.suffix_append points body

/-- **The fault of a segment stands in its text.** -/
theorem Segment.standsIn_of_read {s : List Char} {fault : Fault} (h : read s = .error fault) :
    fault.StandsIn s := by
  rw [read] at h
  split at h
  · next hopening =>
      obtain rfl := Except.error.inj h
      exact standsIn_of_readOpening hopening
  · next opening body hopening =>
      have hfault : fault.StandsIn body := by
        have hbody := map_eq_error_iff.1 h
        rw [readBody] at hbody
        split_ifs at hbody
        · exact (Selector.standsIn_of_readBracketed hbody).of_suffix (List.tail_suffix body)
        · exact Selector.standsIn_of_readDotted hbody
      exact hfault.of_suffix (suffix_of_readOpening hopening)

namespace Path

/-- A fault among segments stands in their text. -/
theorem standsIn_of_readSegments {afterFunction : Bool} {s : List Char} {fault : Fault}
    (h : readSegments afterFunction s = .error fault) : fault.StandsIn s := by
  fun_induction readSegments afterFunction s with
  | case1 => cases h
  | case2 _ _ _ _ hread =>
      obtain rfl := Except.error.inj h
      exact Segment.standsIn_of_read hread
  | case3 _ s _ segment body rest hread =>
      obtain ⟨points, _, _, rfl, -⟩ := Segment.read_eq_ok_iff.1 hread
      exact .of_error h (List.suffix_append points body)
  | case4 _ s _ segment body rest hread _ _ ih =>
      obtain ⟨u, rfl, -⟩ := Segment.read_of_continues hread
      exact (ih (map_eq_error_iff.1 h)).of_suffix (List.suffix_append u rest)

/-- A path has no root, or its fault stands in it. -/
theorem standsIn_of_read {s : List Char} {fault : Fault} (h : read s = .error fault) :
    fault = .missingRoot ∨ fault.StandsIn s := by
  rw [read.eq_def] at h
  split at h
  · next c rest =>
      exact .inr ((standsIn_of_readSegments (map_eq_error_iff.1 h)).of_suffix
        (List.suffix_cons '$' _))
  · exact .inl (Except.error.inj h).symm

end Path

/-! ### Errors -/

/-- A path that cannot be read is said to end too early if there is no fragment. -/
theorem Error.message_unparsable_iff {position : Nat} {fragment : String} :
    (unparsable position fragment).message = "jsonpath was unexpectedly terminated" ↔
      fragment = "" := by
  by_cases hempty : fragment.isEmpty = true
  · have hmessage : (unparsable position fragment).message =
        "jsonpath was unexpectedly terminated" := if_pos hempty
    exact iff_of_true hmessage (by simpa using hempty)
  · have hmessage : (unparsable position fragment).message =
        "unsupported construct in jsonpath starting with: \"" ++ fragment ++ "\"" := if_neg hempty
    refine iff_of_false (fun h => ?_) (by simpa using hempty)
    have hhead : some 'u' = some 'j' := by
      calc some 'u' = (unparsable position fragment).message.toList.head? := by
            rw [hmessage, String.append_assoc, String.toList_append]
            rfl
        _ = some 'j' := by
            rw [h]
            rfl
    cases hhead

/-- An end of a text stands behind a text of the size that is its offset. -/
theorem Text.exists_append_of_suffix {text : String} {rest : List Char} (h : rest <:+ text.toList) :
    ∃ before, text = before ++ String.ofList rest ∧
      offsetIn text.toList rest = before.utf8ByteSize := by
  obtain ⟨s, hs⟩ := h
  refine ⟨String.ofList s, ?_, ?_⟩
  · rw [← String.ofList_append, hs, String.ofList_toList]
  · rw [← hs, offsetIn_append, utf8ByteSize_ofList]

namespace Path

/-- **Every error of a path is anchored in it.** A text without a root has no other error. All
others have the offset of a character of the text or of its end: what cannot be read is all that
stands from there on, and it is said to end too early exactly if nothing does; a function that
does not exist is called there. -/
theorem anchored_of_ofString {text : String} {e : Error} (h : ofString text = .error e) :
    e = .missingRoot ∨
    (∃ position fragment, e = .unparsable position fragment ∧
      position ≤ text.utf8ByteSize ∧ String.Pos.Raw.IsValid text ⟨position⟩ ∧
      (∃ before, text = before ++ fragment ∧ before.utf8ByteSize = position) ∧
      (e.message = "jsonpath was unexpectedly terminated" ↔ position = text.utf8ByteSize)) ∨
    ∃ position construct, e = .unsupported position construct ∧
      ∃ before after, text = before ++ construct ++ after ∧ before.utf8ByteSize = position := by
  have hfault : ∃ fault, read text.toList = .error fault ∧ fault.report text.toList = e := by
    rw [ofString] at h
    cases hread : read text.toList with
    | ok p =>
        rw [hread] at h
        cases h
    | error fault =>
        rw [hread] at h
        exact ⟨fault, rfl, Except.error.inj h⟩
  obtain ⟨fault, hread, rfl⟩ := hfault
  rcases standsIn_of_read hread with rfl | hstands
  · exact .inl rfl
  right
  cases hstands with
  | @unparsable rest hrest =>
      left
      obtain ⟨before, htext, hoffset⟩ := exists_append_of_suffix hrest
      have hsize : text.utf8ByteSize =
          before.utf8ByteSize + (String.ofList rest).utf8ByteSize := by
        conv => lhs; rw [htext, String.utf8ByteSize_append]
      refine ⟨before.utf8ByteSize, String.ofList rest, ?_, ?_, ?_, ⟨before, htext, rfl⟩, ?_⟩
      · rw [Fault.report, hoffset]
      · omega
      · exact String.Pos.Raw.isValid_iff_exists_append.2 ⟨before, _, htext, rfl⟩
      · rw [Fault.report, Error.message_unparsable_iff, ← String.utf8ByteSize_eq_zero_iff]
        omega
  | @unsupported rest construct hrest hconstruct =>
      right
      obtain ⟨before, htext, hoffset⟩ := exists_append_of_suffix hrest
      obtain ⟨after, rfl⟩ := hconstruct
      refine ⟨before.utf8ByteSize, String.ofList construct, ?_, before,
        String.ofList after, ?_, rfl⟩
      · rw [Fault.report, hoffset]
      · rw [String.append_assoc, ← String.ofList_append]
        exact htext

/-- A point inside the brackets, behind a name of a character that takes two bytes. -/
theorem anchored_of_ofString_pointInBrackets :
    ofString "$['é'.x]" = .error (.unparsable 6 ".x]") ∧
      (Error.unparsable 6 ".x]" = .missingRoot ∨
      (∃ position fragment, Error.unparsable 6 ".x]" = .unparsable position fragment ∧
        position ≤ "$['é'.x]".utf8ByteSize ∧ String.Pos.Raw.IsValid "$['é'.x]" ⟨position⟩ ∧
        (∃ before, "$['é'.x]" = before ++ fragment ∧ before.utf8ByteSize = position) ∧
        ((Error.unparsable 6 ".x]").message = "jsonpath was unexpectedly terminated" ↔
          position = "$['é'.x]".utf8ByteSize)) ∨
      ∃ position construct, Error.unparsable 6 ".x]" = .unsupported position construct ∧
        ∃ before after, "$['é'.x]" = before ++ construct ++ after ∧
          before.utf8ByteSize = position) := by
  have hrefused : Segment.read "['é'.x]".toList = .error (.unparsable ".x]".toList) := by cbv
  have htext : "['é'.x]".toList = "['é'".toList ++ ".x]".toList := rfl
  have hread : ofString ("$" ++ "['é'.x]") = .error (.unparsable 6 ".x]") := by
    rw [ofString_of_readSegments_eq_error htext (by decide)
      (readSegments_of_error hrefused (by decide))]
    cbv
  exact ⟨hread, anchored_of_ofString hread⟩

end Path

end JsonPath
