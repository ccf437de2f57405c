import JsonPath.Proofs.Filter.Precedence
import JsonPath.Proofs.Path.Concatenation

/-!
# Paths Are Well Formed

Whatever text is read as a path, the path has a segment, its functions are at its end, no list of
names or positions in it is empty and no name is, and every filter has tokens, none of which is a
parenthesis (`Path.WellFormed`). The evaluation relies on this without looking.

Each reader is answered for on its own. Names and positions are read by loops that keep what was
read so far, so a list is not empty because something was read since the last comma. A filter has
one operand more than binary operators, or still more than that, hence at least one.

A reader that goes through a path once can also keep the segments and whether all of them are
definite as it goes (`Path.collect`); it ends with the segments of the path and with
`Path.isDefinite`.

## Main definitions

* `Selector.WellFormed`, `Path.WellFormed`.
* `Path.collect`: reading in one pass, with the segments and the flag so far.

## Main results

* `Selector.wellFormed_of_readNames`, `Selector.wellFormed_of_readPositions`,
  `Filter.wellFormed_of_read`: the three kinds of brackets.
* `Path.collect_eq`: one pass keeps what the recursion gives.
* `Path.wellFormed_of_ofString`: **every path is well formed**.
-/

namespace JsonPath

open Text

/-- What is never missing from a selector: a name or a position to select, and an operand in a
filter, which has no parentheses. -/
def Selector.WellFormed : Selector → Prop
  | .names listed => listed ≠ [] ∧ ∀ name ∈ listed, name ≠ ""
  | .indices positions => positions ≠ []
  | .filter tokens => tokens ≠ [] ∧ .opening ∉ tokens ∧ .closing ∉ tokens
  | _ => True

/-- What holds of every path: there is a segment, the functions come last, and every selector is
well formed. -/
structure Path.WellFormed (p : Path) : Prop where
  /-- There is a segment. -/
  nonempty : p.segments ≠ []
  /-- The functions come last. -/
  functionsLast : ∃ selecting functions, p.segments = selecting ++ functions ∧
    (∀ segment ∈ selecting, segment.isFunction = false) ∧
    ∀ segment ∈ functions, segment.isFunction = true
  /-- Every selector is well formed. -/
  selectors : ∀ segment ∈ p.segments, segment.selector.WellFormed

/-! ### Filters -/

/-- A filter has an operand and no parenthesis. -/
theorem Filter.wellFormed_of_read {s rest : List Char} {tokens : List Token}
    (h : read s = .ok (tokens, rest)) : (Selector.filter tokens).WellFormed := by
  obtain ⟨s, rfl⟩ : ∃ s', s = '(' :: s' := by
    rw [read.eq_def] at h
    split at h
    · exact ⟨_, rfl⟩
    · cases h
  obtain ⟨written, b, -, hfeed, hprevious, hdepth, rfl⟩ := read_eq_ok_iff.1 h
  have hb := Arrangement.wellFormed_start.feedAll hfeed
  have hroles : ∀ t ∈ b.output ++ b.stack, t.role ≠ .none := by
    intro t ht
    rcases List.mem_append.1 ht with ht | ht
    · exact hb.sent t ht
    · refine hb.role_ne_none ht ?_
      rintro rfl
      have hopened := hb.opened
      have hcount := List.count_pos_iff.2 ht
      omega
  refine ⟨fun hnil => ?_, fun hopening => hroles _ hopening rfl,
    fun hclosing => hroles _ hclosing rfl⟩
  have hbalance := Arrangement.operands_feedAll hfeed
  have hkept := Arrangement.countP_feedAll hfeed (by decide : Role.operand ≠ .none)
  rw [← operands, ← operands, ← operands, hnil] at hkept
  simp [hprevious, Arrangement.start, operands] at hbalance hkept
  omega

/-! ### Brackets and points -/

/-- A body that is not empty stands for a text that is not. -/
theorem Text.Quoted.unquote_ne_nil {quote : Char} {banned : Char → Bool} {s body rest : List Char}
    (h : split '\\' quote banned s = .ok (body, rest)) (hbody : body ≠ []) :
    unquote body ≠ [] := by
  rw [split.eq_def] at h
  split at h
  · cases h
  next c s =>
  split at h
  · obtain ⟨rfl, rfl⟩ := Prod.mk.inj (Except.ok.inj h)
    exact absurd rfl hbody
  split at h
  · next hescape =>
      subst hescape
      split at h
      · cases h
      split at h
      · obtain ⟨p, -, hp⟩ := map_eq_ok_iff.1 h
        obtain ⟨rfl, -⟩ := Prod.mk.inj hp
        exact List.cons_ne_nil _ _
      · cases h
  · next hescape =>
      split at h
      · cases h
      · obtain ⟨p, -, hp⟩ := map_eq_ok_iff.1 h
        obtain ⟨rfl, -⟩ := Prod.mk.inj hp
        rw [unquote]
        · exact List.cons_ne_nil _ _
        · exact fun hc _ => hescape hc
        · exact fun _ _ hc _ => hescape hc

namespace Selector

/-- A list of names has a name, and none of them is empty. `settled` says that there is one since
the last comma, so there is one at the bracket that closes the list. -/
theorem wellFormed_of_readNames {done names : List String} {settled : Bool} {s rest : List Char}
    (h : readNames done settled s = .ok (names, rest)) (hdone : ∀ name ∈ done, name ≠ "")
    (hsettled : settled = true → done ≠ []) : (Selector.names names).WellFormed := by
  fun_induction readNames done settled s with
  | case2 =>
      obtain ⟨rfl, rfl⟩ := Prod.mk.inj (Except.ok.inj h)
      exact ⟨hsettled rfl, hdone⟩
  | case7 done settled c s hbracket hquote _ body tail hsplit _ hbody ih =>
      refine ih h (fun name hname => ?_) fun _ => by simp
      rcases List.mem_append.1 hname with hname | hname
      · exact hdone name hname
      · obtain rfl : name = String.ofList (Quoted.unquote body) := by simpa using hname
        have hne := Quoted.unquote_ne_nil hsplit (by simpa using hbody)
        simpa using hne
  | case8 done settled c s hbracket hquote hpad ih => exact ih h hdone hsettled
  | case9 done s hbracket hquote hpad ih => exact ih h hdone (fun hfalse => by cases hfalse)
  | _ => cases h

/-- A list of positions has a position. -/
theorem wellFormed_of_readPositions {kind : Positions} {done : List Int} {current : Option Int}
    {s rest : List Char} {selector : Selector}
    (h : readPositions kind done current s = .ok (selector, rest)) : selector.WellFormed := by
  fun_induction readPositions kind done current s with
  | case5 kind done current c s hdigit hcurrent hminus k hk _ ih => exact ih h
  | case6 =>
      obtain ⟨rfl, rfl⟩ := Prod.mk.inj (Except.ok.inj h)
      trivial
  | case7 =>
      obtain ⟨rfl, rfl⟩ := Prod.mk.inj (Except.ok.inj h)
      exact List.concat_ne_nil _ _
  | case9 done current s hdigit hbracket ih => exact ih h
  | case12 kind done s k hkind hdigit hbracket hcolon ih => exact ih h
  | case14 kind done current c s hdigit hbracket hcolon hcomma hpad ih => exact ih h
  | _ => cases h

/-- What is listed is read to a well-formed selector. -/
theorem wellFormed_of_readListed {s rest : List Char} {selector : Selector}
    (h : readListed s = .ok (selector, rest)) : selector.WellFormed := by
  rw [readListed.eq_def] at h
  split at h
  · obtain ⟨p, hread, hp⟩ := map_eq_ok_iff.1 h
    obtain ⟨rfl, -⟩ := Prod.mk.inj hp
    exact Filter.wellFormed_of_read hread
  · obtain ⟨rfl, -⟩ := Prod.mk.inj (Except.ok.inj h)
    trivial
  · split at h
    · obtain ⟨p, hread, hp⟩ := map_eq_ok_iff.1 h
      obtain ⟨rfl, -⟩ := Prod.mk.inj hp
      exact wellFormed_of_readNames hread (by simp) (fun hfalse => by cases hfalse)
    · split at h
      · exact wellFormed_of_readPositions h
      · cases h
  · cases h

/-- What stands behind a point is read to a well-formed selector. -/
theorem wellFormed_of_readDotted {s rest : List Char} {selector : Selector}
    (h : readDotted s = .ok (selector, rest)) : selector.WellFormed := by
  obtain rfl | ⟨f, rfl⟩ | ⟨name, hne, rfl⟩ := selector_of_readDotted h
  · trivial
  · trivial
  · exact ⟨List.cons_ne_nil _ _, by simpa using hne⟩

end Selector

/-! ### Segments -/

/-- A segment that is read has a well-formed selector. -/
theorem Segment.wellFormed_of_read {s body rest : List Char} {segment : Segment}
    (h : read s = .ok (segment, body, rest)) : segment.selector.WellFormed := by
  obtain ⟨_, _, hlisted⟩ | ⟨_, _, hdotted⟩ := selector_of_read h
  · exact Selector.wellFormed_of_readListed hlisted
  · exact Selector.wellFormed_of_readDotted hdotted

namespace Path

variable {afterFunction : Bool} {s : List Char} {segments : List Segment}

/-- Segments that are read have well-formed selectors. -/
theorem wellFormed_of_readSegments (h : readSegments afterFunction s = .ok segments) :
    ∀ segment ∈ segments, segment.selector.WellFormed := by
  fun_induction readSegments afterFunction s generalizing segments with
  | case1 =>
      obtain rfl := Except.ok.inj h
      simp
  | case4 afterFunction s hempty segment body rest hread _ hfunction ih =>
      obtain ⟨later, hlater, rfl⟩ := map_eq_ok_iff.1 h
      exact List.forall_mem_cons.2 ⟨Segment.wellFormed_of_read hread, ih hlater⟩
  | _ => cases h

/-- Functions come last, and behind a function there is nothing else. -/
theorem functionsLast_of_readSegments (h : readSegments afterFunction s = .ok segments) :
    ∃ selecting functions, segments = selecting ++ functions ∧
      (∀ segment ∈ selecting, segment.isFunction = false) ∧
      (∀ segment ∈ functions, segment.isFunction = true) ∧
      (afterFunction = true → selecting = []) := by
  fun_induction readSegments afterFunction s generalizing segments with
  | case1 =>
      obtain rfl := Except.ok.inj h
      exact ⟨[], [], rfl, by simp, by simp, fun _ => rfl⟩
  | case4 afterFunction s hempty segment body rest hread _ hallowed ih =>
      obtain ⟨later, hlater, rfl⟩ := map_eq_ok_iff.1 h
      obtain ⟨selecting, functions, rfl, hselecting, hfunctions, hnone⟩ := ih hlater
      cases hsegment : segment.isFunction with
      | true =>
          obtain rfl := hnone hsegment
          exact ⟨[], segment :: functions, rfl, by simp,
            List.forall_mem_cons.2 ⟨hsegment, hfunctions⟩, fun _ => rfl⟩
      | false =>
          refine ⟨segment :: selecting, functions, rfl,
            List.forall_mem_cons.2 ⟨hsegment, hselecting⟩, hfunctions, fun hafter => ?_⟩
          simp [hafter, hsegment] at hallowed
  | _ => cases h

/-! ### Reading in one pass -/

/-- The segments of a path, read in one pass that keeps the segments so far and whether all of
them are definite. -/
def collect (before : List Segment) (definite : Bool) (s : List Char) :
    Except Fault (List Segment × Bool) :=
  if s.isEmpty then
    .ok (before, definite)
  else
    match h : Segment.read s with
    | .error fault => .error fault
    | .ok (segment, body, rest) =>
      have := Segment.length_lt_of_read h
      if before.getLast?.any Segment.isFunction && !segment.isFunction then
        .error (.unparsable body)
      else collect (before ++ [segment]) (definite && segment.isDefinite) rest
termination_by s.length

/-- **One pass keeps what the recursion gives**: behind the segments so far come those that are
read from the rest, and the flag holds if it did so far and all of those are definite. -/
theorem collect_eq (before : List Segment) (definite : Bool) (s : List Char) :
    collect before definite s =
      (readSegments (before.getLast?.any Segment.isFunction) s).map fun later =>
        (before ++ later, definite && later.all Segment.isDefinite) := by
  fun_induction collect before definite s with
  | case1 before definite s hempty =>
      rw [readSegments, if_pos hempty]
      simp [Except.map]
  | case2 before definite s hempty fault hread =>
      rw [readSegments, if_neg hempty]
      split
      · next hread' =>
          rw [hread] at hread'
          cases hread'
          rfl
      · next hread' =>
          rw [hread] at hread'
          cases hread'
  | case3 before definite s hempty segment body rest hread _ hrefused =>
      rw [readSegments_of_read hread, if_pos hrefused]
      rfl
  | case4 before definite s hempty segment body rest hread _ hallowed ih =>
      rw [readSegments_of_read hread, if_neg hallowed, ih, List.getLast?_concat]
      cases h : readSegments segment.isFunction rest <;>
        simp [h, Except.map, Bool.and_assoc]

/-! ### Whole paths -/

/-- A path is read behind the root. -/
theorem ofString_eq_ok {text : String} {p : Path} (h : ofString text = .ok p) :
    ∃ body, text.toList = '$' :: body ∧ body ≠ [] ∧ readSegments false body = .ok p.segments := by
  rw [ofString] at h
  generalize text.toList = s at h
  rw [read.eq_def] at h
  split at h
  · next c rest =>
      cases hread : readSegments false (c :: rest) with
      | error fault =>
          rw [hread] at h
          cases h
      | ok segments =>
          rw [hread] at h
          obtain rfl := Except.ok.inj h
          exact ⟨c :: rest, rfl, List.cons_ne_nil c rest, hread⟩
  · cases h

/-- **Every path is well formed.** -/
theorem wellFormed_of_ofString {text : String} {p : Path} (h : ofString text = .ok p) :
    p.WellFormed := by
  obtain ⟨body, -, hne, hread⟩ := ofString_eq_ok h
  obtain ⟨selecting, functions, hsplit, hselecting, hfunctions, -⟩ :=
    functionsLast_of_readSegments hread
  obtain ⟨first, _, _, later, hcons, -⟩ := read_of_readSegments hne hread
  refine ⟨?_, ⟨selecting, functions, hsplit, hselecting, hfunctions⟩,
    wellFormed_of_readSegments hread⟩
  rw [hcons]
  exact List.cons_ne_nil first later

/-- The flag that is kept while a path is read says whether all of its segments are definite. -/
theorem collect_of_ofString {text : String} {p : Path} (h : ofString text = .ok p) :
    ∃ body, text.toList = '$' :: body ∧
      collect [] true body = .ok (p.segments, p.segments.all Segment.isDefinite) := by
  obtain ⟨body, htext, -, hread⟩ := ofString_eq_ok h
  refine ⟨body, htext, ?_⟩
  rw [collect_eq]
  show (readSegments false body).map _ = _
  rw [hread]
  simp [Except.map]

end Path

end JsonPath
