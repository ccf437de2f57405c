import JsonPath.Filter.Predicate

/-!
# Why a Filter Fails

The tokens of a filter are put on a stack, where little can go wrong: an operator may lack an
operand, a search may refuse its regular expression, and a reference may lead through a text
that cannot be decoded. Nothing else fails, and everything but the reference depends on the
filter alone and not on the document.

## Main definitions

* `Filter.Cause`: what goes wrong with one token.

## Main results

* `Reference.error_of_value`: a reference fails only for a string that cannot be decoded.
* `Filter.error_of_holds`: **why a filter fails**.
-/

namespace JsonPath

/-! ### Decoding -/

section Decoding

variable {env : Environment} {e : Error}

/-- Decoding fails with an error of the document. -/
theorem Document.error_of_decodeAt {start : Nat} {body : List Char}
    (h : decodeAt env start body = .error e) :
    ∃ position reason, e = .document position reason := by
  rw [decodeAt] at h
  split at h
  · cases hbody : env.decode body with
    | ok text =>
        rw [hbody] at h
        cases h
    | error reason =>
        rw [hbody] at h
        exact ⟨start, reason, (Except.error.inj h).symm⟩
  · cases h

/-- The search for a member fails with an error of the document. -/
theorem error_of_findMember {name : List Char} {members : List MemberSite}
    (h : findMember env name members = .error e) :
    ∃ position reason, e = .document position reason := by
  induction members with
  | nil => cases h
  | cons m members ih =>
      rw [findMember] at h
      split at h
      · next hname =>
          obtain rfl := Except.error.inj h
          exact Document.error_of_decodeAt hname
      · split at h
        · cases h
        · exact ih h

/-- Following a reference can fail only for a key that cannot be decoded. -/
theorem Site.error_of_resolve? {s : Site} {steps : List Step}
    (h : s.resolve? env steps = .error e) :
    ∃ position reason, e = .document position reason := by
  induction steps generalizing s with
  | nil => cases h
  | cons step steps ih =>
      rw [resolve?] at h
      split at h
      · next hchild =>
          obtain rfl := Except.error.inj h
          cases step with
          | name name => exact error_of_findMember hchild
          | index position => cases hchild
      · cases h
      · exact ih h

/-- Decoding a site fails with an error of the document. -/
theorem Site.error_of_decode {s : Site} (h : s.decode env = .error e) :
    ∃ position reason, e = .document position reason := by
  rw [decode] at h
  split at h
  · exact Document.error_of_decodeAt h
  · cases h
  · cases h

/-- **A reference fails only for a string that cannot be decoded.** -/
theorem Reference.error_of_value {reference : Reference} {base : Site}
    (h : reference.value env base = .error e) :
    ∃ position reason, e = .document position reason := by
  rw [value] at h
  split at h
  · next hresolve =>
      obtain rfl := Except.error.inj h
      exact Site.error_of_resolve? hresolve
  · cases h
  · next found _ =>
      cases hdecode : found.decode env with
      | ok text =>
          rw [hdecode] at h
          cases h
      | error e' =>
          rw [hdecode] at h
          obtain rfl := Except.error.inj h
          exact Site.error_of_decode hdecode

end Decoding

/-! ### Tokens and filters -/

namespace Filter

/-- What goes wrong with one token: a regular expression is refused, or a reference fails. -/
inductive Cause (env : Environment) (root candidate : Site) : Error → Prop
  | pattern {reason : String} : Cause env root candidate (.pattern reason)
  | root {reference : Reference} {e : Error} :
      reference.value env root = .error e → Cause env root candidate e
  | candidate {reference : Reference} {e : Error} :
      reference.value env candidate = .error e → Cause env root candidate e

variable {env : Environment} {root candidate : Site} {e : Error}

/-- Only a search can fail between two operands. -/
theorem error_of_applyBinary {op : Operator} {left right : Operand}
    (h : applyBinary env op left right = some (.error e)) : ∃ reason, e = .pattern reason := by
  cases op with
  | search =>
      rw [applyBinary, searchText] at h
      split at h
      · split at h
        · cases h
        · obtain rfl := Except.error.inj (Option.some.inj h)
          exact ⟨_, rfl⟩
      · cases h
  | _ => cases h

/-- Pushing fails only where the outcome did, and with its error. -/
theorem error_of_push {stack : List Operand} {outcome : Except Error Operand}
    (h : push stack outcome = .error (.failed e)) : outcome = .error e := by
  cases outcome with
  | ok v => cases h
  | error e' =>
      obtain rfl : e' = e := by simpa [push] using h
      rfl

/-- An operator fails with an error of a pattern. -/
theorem error_of_stepOperator {op : Operator} {stack : List Operand}
    (h : stepOperator env op stack = .error (.failed e)) : ∃ reason, e = .pattern reason := by
  rw [stepOperator.eq_def] at h
  split at h
  · cases h
  · split at h
    · next hresult =>
        obtain rfl := error_of_push h
        exact error_of_applyBinary hresult
    · cases h
  · cases h

/-- A token fails for a regular expression, or as a reference does. -/
theorem error_of_step {stack : List Operand} {t : Token}
    (h : step env root candidate stack t = .error (.failed e)) : Cause env root candidate e := by
  cases t with
  | operator op =>
      obtain ⟨reason, rfl⟩ := error_of_stepOperator h
      exact .pattern
  | candidate reference =>
      rw [step] at h
      split at h
      · exact .candidate (error_of_push h)
      · cases h
  | root reference => exact .root (error_of_push h)
  | _ => cases h

/-- A filter fails with an error that has a cause. -/
theorem error_of_run {stack : List Operand} {ts : List Token}
    (h : run env root candidate stack ts = .error (.failed e)) : Cause env root candidate e := by
  induction ts generalizing stack with
  | nil => cases h
  | cons t ts ih =>
      rw [run] at h
      split at h
      · next halt hstep =>
          obtain rfl := Except.error.inj h
          exact error_of_step hstep
      · exact ih h

/-- **Why a filter fails**: its operands and operators do not fit together, a regular
expression is refused, or one of its references fails. -/
theorem error_of_holds {ts : List Token} (h : holds env ts root candidate = .error e) :
    e = .unevaluable (Token.displayAll ts) ∨ Cause env root candidate e := by
  rw [holds] at h
  split at h
  · cases h
  · exact .inl (Except.error.inj h).symm
  · cases h
  · exact .inl (Except.error.inj h).symm
  · next hrun =>
      obtain rfl := Except.error.inj h
      exact .inr (error_of_run hrun)

end Filter

end JsonPath
