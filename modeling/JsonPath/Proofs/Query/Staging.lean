import JsonPath.Environment.Standard
import JsonPath.Proofs.Path.Concatenation
import JsonPath.Proofs.Query.Containment
import JsonPath.Proofs.Query.Relocation

/-!
# Queries in Two Stages

A definite path that leads to an array or an object gives its text, and this text is a document
again. A second path can be followed on that document, or the two paths can be written one
after the other and followed on the first document. Both give the same result, or both fail for
the same reason. All that may differ is the place in a document that an error reports, since
the value stands at another place in its own document.

The second path must not refer to the root of the document in a filter, since the roots are
different ones.

## Main definitions

* `Alike`: outcomes that differ at most in the places that errors report.
* `Path.evaluateAt`: a path from a value inside a document.

## Main results

* `Path.evaluateAt_moved`: a path comes to the same from a value at another place.
* `Site.Placed.ofString_text`: **a value of a document is a document**.
* `query_append_alike`: **two paths in one query** come to the same as one after the other.
-/

namespace JsonPath

variable {env : Environment}

/-! ### Outcomes up to places -/

/-- The error without the place in a document that it reports. -/
def Error.unplaced : Error → Error
  | .document _ reason => .document 0 reason
  | e => e

/-- The outcomes are the same, except for the places in a document that errors report. -/
def Alike {α : Type} (outcome outcome' : Except Error α) : Prop :=
  outcome.mapError Error.unplaced = outcome'.mapError Error.unplaced

/-- Moving an error does not show once its position is left out. -/
theorem Error.unplaced_moved (k : Nat) (e : Error) : (e.moved k).unplaced = e.unplaced := by
  cases e <;> rfl

namespace Alike

variable {α β : Type} {outcome outcome' : Except Error α}

/-- A moved error is like the error. -/
theorem error_moved (k : Nat) (e : Error) :
    Alike (.error (e.moved k) : Except Error α) (.error e) :=
  congrArg Except.error (e.unplaced_moved k)

/-- A moved outcome is like the outcome. -/
theorem of_relocated {k : Nat} (h : outcome = relocated k id outcome') :
    Alike outcome outcome' := by
  subst h
  cases outcome' with
  | ok a => rfl
  | error e => exact error_moved k e

/-- Alike outcomes stay alike under a function of what was found. -/
theorem map (h : Alike outcome outcome') (f : α → β) : Alike (outcome.map f) (outcome'.map f) := by
  cases outcome with
  | ok a =>
      cases outcome' with
      | ok b =>
          obtain rfl : a = b := Except.ok.inj h
          rfl
      | error e => cases h
  | error e =>
      cases outcome' with
      | ok b => cases h
      | error e' => exact congrArg Except.error (Except.error.inj h)

end Alike

/-! ### Functions -/

/-- The functions of a path stand behind the segments that select. -/
theorem functionsOf_append {selecting : List Segment}
    (hselecting : ∀ segment ∈ selecting, segment.isFunction = false)
    (functions : List Segment) : functionsOf (selecting ++ functions) = functionsOf functions := by
  induction selecting with
  | nil => rfl
  | cons segment later ih =>
      obtain ⟨hsegment, hlater⟩ := List.forall_mem_cons.1 hselecting
      have hnone : functionsOf [segment] = [] :=
        List.eq_nil_of_length_eq_zero (by simp [length_functionsOf, hsegment])
      rw [← List.singleton_append, List.append_assoc, functionsOf, List.filterMap_append,
        ← functionsOf, ← functionsOf, hnone, List.nil_append, ih hlater]

/-- Functions come to the same for values at another place. A further function reads the text
of the one before, which is the same text. -/
theorem applyAll_moved {k : Nat} (definite : Bool) (found : List Site)
    (functions : List Aggregate) :
    Alike (applyAll env definite (found.map (Site.moved k)) functions)
      (applyAll env definite found functions) := by
  cases functions with
  | nil => rfl
  | cons function rest =>
      rw [applyAll, applyAll, function.apply_moved]
      rcases function.apply env definite found with e | (- | text)
      · exact .error_moved k e
      · rfl
      · rfl

namespace Path

/-- What a path gives for the values that its walk finds. -/
def resultOf (env : Environment) (p : Path) (found : List Site) :
    Except Error (Option (List Char)) :=
  if p.segments.any Segment.isFunction then
    applyAll env p.isDefinite found (functionsOf p.segments)
  else
    matchesText env p.isDefinite found

/-- The path from a value inside a document; `$` in filters stands for the root. -/
def evaluateAt (env : Environment) (p : Path) (root s : Site) : Except Error (Option String) :=
  match walk env root p.segments s with
  | .error e => .error e
  | .ok found => (p.resultOf env found).map fun text => text.map String.ofList

/-- A path on a document is the path from its value. -/
theorem evaluate_eq_evaluateAt (p : Path) (top : Site) :
    p.evaluate env top = p.evaluateAt env top top :=
  rfl

/-- The result from moved matches is like the result from the matches. -/
theorem resultOf_moved {k : Nat} (p : Path) (found : List Site) :
    Alike (p.resultOf env (found.map (Site.moved k))) (p.resultOf env found) := by
  rw [resultOf, resultOf]
  split
  · exact applyAll_moved p.isDefinite found (functionsOf p.segments)
  · exact .of_relocated (matchesText_moved p.isDefinite found)

/-- **A path comes to the same from a value at another place**, also if the root is another
one, as long as no filter refers to it. -/
theorem evaluateAt_moved {k : Nat} {p : Path} (h : ∀ segment ∈ p.segments, segment.IsRelative)
    (root root' s : Site) :
    Alike (p.evaluateAt env root' (s.moved k)) (p.evaluateAt env root s) := by
  rw [evaluateAt, evaluateAt, walk_moved root root' h]
  cases walk env root p.segments s with
  | error e => exact .error_moved k e
  | ok found => exact (p.resultOf_moved found).map _

/-- Behind a definite path without functions, a path gives what it gives alone. -/
theorem resultOf_append {p : Path} (hdefinite : p.isDefinite = true)
    (hfunction : p.segments.any Segment.isFunction = false) (q : Path) (found : List Site) :
    resultOf env ⟨p.segments ++ q.segments⟩ found = q.resultOf env found := by
  have hall : isDefinite ⟨p.segments ++ q.segments⟩ = q.isDefinite := by
    rw [isDefinite] at hdefinite ⊢
    rw [List.all_append, hdefinite, Bool.true_and]
    rfl
  have hfunctions : functionsOf (p.segments ++ q.segments) = functionsOf q.segments :=
    functionsOf_append (by simpa using hfunction) q.segments
  rw [resultOf, resultOf, hall, hfunctions, List.any_append, hfunction, Bool.false_or]

/-- A path that leads to one value can be followed by another path from that value. -/
theorem evaluate_append {p : Path} (hdefinite : p.isDefinite = true)
    (hfunction : p.segments.any Segment.isFunction = false) {top n : Site}
    (hwalk : walk env top p.segments top = .ok [n]) (q : Path) :
    evaluate env ⟨p.segments ++ q.segments⟩ top = q.evaluateAt env top n := by
  have hfirst : ∀ segment ∈ p.segments, segment.isFunction = false := fun segment hsegment => by
    simpa using List.any_eq_false.1 hfunction segment hsegment
  rw [evaluate_eq_evaluateAt, evaluateAt, evaluateAt,
    walk_append_of_eq_ok q.segments hfirst hwalk, gather_singleton]
  cases walk env top q.segments n with
  | error e => rfl
  | ok found =>
      dsimp only
      rw [resultOf_append hdefinite hfunction]

end Path

/-! ### Values as documents -/

/-- **A value of a document is a document.** -/
theorem Site.Placed.ofString_text {document after : List Char} {level : Nat} {s : Site}
    (h : s.Placed document level after) :
    Document.ofString (String.ofList s.text) = .ok ⟨0, s.node⟩ := by
  exact Document.ofString_eq_ok_iff.2 ⟨[], [], by simp [Site.text], Grammar.blanks_nil,
    Grammar.blanks_nil, h.wellFormed, Nat.le_of_add_right_le h.depth, rfl⟩

/-- An array or an object stands for its text. -/
theorem Site.decode_of_isContainer {s : Site} (h : s.node.isContainer = true) :
    s.decode env = .ok s.text := by
  obtain ⟨start, node⟩ := s
  cases node with
  | array items => rfl
  | object members => rfl
  | _ => cases h

/-- **Two paths in one query** come to the same as one after the other: if the first one is
definite and leads to an array or an object, it gives the text of that value, and the second
path on this text gives what both paths together give on the document. -/
theorem query_append_alike {document p q : String} {P Q : Path} {top n : Site}
    (hp : Path.ofString ("$" ++ p) = .ok P) (hq : Path.ofString ("$" ++ q) = .ok Q)
    (hdefinite : P.isDefinite = true) (hfunction : P.segments.any Segment.isFunction = false)
    (hdocument : Document.ofString document = .ok top)
    (hwalk : walk env top P.segments top = .ok [n]) (hcontainer : n.node.isContainer = true)
    (hrelative : ∀ segment ∈ Q.segments, segment.IsRelative) :
    ∃ text, query env document ("$" ++ p) = .ok (some text) ∧
      Alike (query env document ("$" ++ p ++ q)) (query env text ("$" ++ q)) := by
  obtain ⟨level, -, hcontains⟩ := Site.Contains.of_walk .top hwalk (List.mem_singleton.2 rfl)
  obtain ⟨after, hplaced⟩ := hcontains.placed_of_ofString hdocument
  have hmoved : n = Site.moved n.start ⟨0, n.node⟩ := by
    rw [Site.moved, Nat.zero_add]
  refine ⟨String.ofList n.text, ?_, ?_⟩
  · have hresult : P.resultOf env [n] = .ok (some n.text) := by
      rw [Path.resultOf, hfunction, hdefinite]
      exact congrArg (Except.map some) (Site.decode_of_isContainer hcontainer)
    rw [query_eq_evaluate hp hdocument, Path.evaluate_eq_evaluateAt, Path.evaluateAt, hwalk]
    dsimp only
    rw [hresult]
    rfl
  · rw [query_eq_evaluate (Path.ofString_append hp hq hfunction) hdocument,
      query_eq_evaluate hq hplaced.ofString_text, Path.evaluate_append hdefinite hfunction hwalk,
      Path.evaluate_eq_evaluateAt, hmoved]
    exact Path.evaluateAt_moved hrelative _ _ _

/-- In the object with the key `a` and an array of the number 7: how many values there are
below `a`, asked for in one query and in two. -/
theorem query_append_alike_keyedArray :
    Path.ofString ("$" ++ ".a") = .ok ⟨[⟨.names ["a"], false⟩]⟩ ∧
      Path.ofString ("$" ++ "..*.length()") = .ok ⟨[⟨.all, true⟩, ⟨.apply .length, false⟩]⟩ ∧
      Document.ofString "\x7b\"a\":[7]\x7d" = .ok Document.keyedArray ∧
      walk .standard Document.keyedArray [⟨.names ["a"], false⟩] Document.keyedArray =
        .ok [⟨5, .array (.item [] (.number ⟨[], ['7'], none, none⟩) (.close []))⟩] ∧
      (∀ segment ∈ [(⟨.all, true⟩ : Segment), ⟨.apply .length, false⟩], segment.IsRelative) ∧
      ∃ text, query .standard "\x7b\"a\":[7]\x7d" ("$" ++ ".a") = .ok (some text) ∧
        Alike (query .standard "\x7b\"a\":[7]\x7d" ("$" ++ ".a" ++ "..*.length()"))
          (query .standard text ("$" ++ "..*.length()")) := by
  have hp : Path.ofString ("$" ++ ".a") = .ok ⟨[⟨.names ["a"], false⟩]⟩ := by cbv
  have hq : Path.ofString ("$" ++ "..*.length()") =
      .ok ⟨[⟨.all, true⟩, ⟨.apply .length, false⟩]⟩ := by
    cbv
  have hwalk : walk .standard Document.keyedArray [⟨.names ["a"], false⟩] Document.keyedArray =
      .ok [⟨5, .array (.item [] (.number ⟨[], ['7'], none, none⟩) (.close []))⟩] := by
    cbv
  have hrelative :
      ∀ segment ∈ [(⟨.all, true⟩ : Segment), ⟨.apply .length, false⟩], segment.IsRelative := by
    intro segment hsegment ts hts
    rcases List.mem_pair.1 hsegment with rfl | rfl <;> cases hts
  exact ⟨hp, hq, Document.ofString_keyedArray, hwalk, hrelative,
    query_append_alike hp hq rfl rfl Document.ofString_keyedArray hwalk rfl hrelative⟩

end JsonPath
