import JsonPath.Environment.Standard
import JsonPath.Proofs.Filter.Balance
import JsonPath.Proofs.Filter.Expression

/-!
# Evaluating a Filter as a Tree

A filter is evaluated in postfix order on a stack (`Filter.run`). Here it is evaluated as the
tree that it stands for: the value of an operator comes from the values of its operands, the
left one first, and the first error on the way is the error of the whole (`Expression.value`).
Running the postfix order of a tree puts exactly that value on the stack, whatever lies below
it and whatever tokens follow, so the stack never runs out and one operand is left at the end.

The exception is a candidate that is no container. The first reference to it in postfix order
rejects it, and by then some parts of the tree have been evaluated: those which are
*completed* (`Expression.Completes`), that is, which end before that reference. The result is
the error of such a part, or else false, however the reference is surrounded.

All of this holds in every environment, whatever it makes of regular expressions and of strings.

## Main results

* `Filter.run_postorder`: **running a tree** puts its value on the stack.
* `Filter.run_postorder_rejected`: what happens if it refers to a candidate that is no
  container.
* `Filter.holds_postorder`: **a filter holds** if the value of its tree counts as true.
-/

namespace JsonPath

namespace Filter

/-- The result of an operator that stands between two operands. -/
def operation (env : Environment) (op : Operator) (h : op.role = .binary) (left right : Operand) :
    Except Error Operand :=
  (applyBinary env op left right).get
    (Option.isSome_iff_ne_none.2 (applyBinary_ne_none h left right))

/-- An operator between operands gives what its operation does. -/
theorem applyBinary_eq (env : Environment) {op : Operator} (h : op.role = .binary)
    (left right : Operand) :
    applyBinary env op left right = some (operation env op h left right) :=
  (Option.some_get _).symm

end Filter

namespace Token

/-- The value of an operand. A token that is none has no value. -/
def value (env : Environment) (root candidate : Site) : Token → Except Error Operand
  | .root reference => reference.value env root
  | .candidate reference => reference.value env candidate
  | .text s => .ok (.text s)
  | .number literal => .ok (.double literal.value)
  | _ => .ok .absent

/-- Whether a token refers to the candidate. -/
def isCandidate : Token → Bool
  | .candidate _ => true
  | _ => false

end Token

namespace Expression

/-- The value of a filter: the operands of an operator are evaluated first, from left to
right, also those of `&&` and `||`, and the first error is the error of the whole. -/
def value (env : Environment) (root candidate : Site) : Expression → Except Error Operand
  | .operand t _ => t.value env root candidate
  | .group e => e.value env root candidate
  | .negation e => (e.value env root candidate).map fun v => truth (!v.isTruthy)
  | .binary op h l r =>
      match l.value env root candidate with
      | .error e => .error e
      | .ok left =>
        match r.value env root candidate with
        | .error e => .error e
        | .ok right => Filter.operation env op h left right

/-- Whether a filter refers to the candidate. -/
def hasCandidate : Expression → Bool
  | .operand t _ => t.isCandidate
  | .group e => e.hasCandidate
  | .negation e => e.hasCandidate
  | .binary _ _ l r => l.hasCandidate || r.hasCandidate

/-- A part of a filter that ends, in postfix order, before the first reference to the
candidate. -/
inductive Completes : Expression → Expression → Prop
  /-- The whole filter, if it has no such reference. -/
  | self {e : Expression} : e.hasCandidate = false → Completes e e
  /-- A part of what stands in parentheses. -/
  | group {e f : Expression} : Completes e f → Completes (.group e) f
  /-- A part of what `!` stands before. -/
  | negation {e f : Expression} : Completes e f → Completes (.negation e) f
  /-- A part of the left operand. -/
  | left {op : Operator} {h : op.role = .binary} {l r f : Expression} :
      Completes l f → Completes (.binary op h l r) f
  /-- A part of the right operand, if the left one has no such reference. -/
  | right {op : Operator} {h : op.role = .binary} {l r f : Expression} :
      l.hasCandidate = false → Completes r f → Completes (.binary op h l r) f

namespace Completes

variable {e f l r : Expression} {op : Operator} {hop : op.role = .binary}

/-- Parentheses complete where what they enclose does. -/
theorem group_iff (h : e.hasCandidate = true) :
    (Expression.group e).Completes f ↔ e.Completes f := by
  refine ⟨fun hf => ?_, .group⟩
  cases hf with
  | self hself => exact absurd (h.symm.trans hself) (by decide)
  | group hf => exact hf

/-- A negation completes where its operand does. -/
theorem negation_iff (h : e.hasCandidate = true) :
    (Expression.negation e).Completes f ↔ e.Completes f := by
  refine ⟨fun hf => ?_, .negation⟩
  cases hf with
  | self hself => exact absurd (h.symm.trans hself) (by decide)
  | negation hf => exact hf

/-- A reference on the left ends what is completed. -/
theorem binary_iff_left (h : l.hasCandidate = true) :
    (Expression.binary op hop l r).Completes f ↔ l.Completes f := by
  refine ⟨fun hf => ?_, .left⟩
  cases hf with
  | self hself =>
      rw [hasCandidate, h] at hself
      cases hself
  | left hf => exact hf
  | right hl _ => exact absurd (h.symm.trans hl) (by decide)

/-- If the first reference is on the right, all of the left is completed. -/
theorem binary_iff_or (hl : l.hasCandidate = false) (hr : r.hasCandidate = true) :
    (Expression.binary op hop l r).Completes f ↔ l.Completes f ∨ r.Completes f := by
  constructor
  · intro hf
    cases hf with
    | self hself =>
        rw [hasCandidate, hl, hr] at hself
        cases hself
    | left hf => exact .inl hf
    | right _ hf => exact .inr hf
  · rintro (hf | hf)
    · exact .left hf
    · exact .right hl hf

end Completes

variable {env : Environment} {root candidate : Site}

/-- If a filter has a value, its parts have. -/
theorem Completes.exists_value {e f : Expression} (h : e.Completes f) {v : Operand}
    (hv : e.value env root candidate = .ok v) :
    ∃ w, f.value env root candidate = .ok w := by
  induction h generalizing v with
  | self _ => exact ⟨v, hv⟩
  | group _ ih => exact ih hv
  | negation _ ih =>
      obtain ⟨w, hw, -⟩ := map_eq_ok_iff.1 hv
      exact ih hw
  | left _ ih =>
      rw [value] at hv
      split at hv
      · cases hv
      · next w hw => exact ih hw
  | right _ _ ih =>
      rw [value] at hv
      split at hv
      · cases hv
      · split at hv
        · cases hv
        · next w hw => exact ih hw

end Expression

namespace Filter

variable {env : Environment} {root candidate : Site}

/-! ### Steps -/

/-- The outcome of a part of a filter, as it comes to the stack. -/
def continueWith (env : Environment) (root candidate : Site) (stack : List Operand)
    (tokens : List Token) : Except Error Operand → Except Halt (List Operand)
  | .ok v => run env root candidate (v :: stack) tokens
  | .error e => .error (.failed e)

/-- A token puts its outcome on the stack, or it ends the run. -/
theorem run_of_push {t : Token} {stack stack' : List Operand} {outcome : Except Error Operand}
    (h : step env root candidate stack t = push stack' outcome) (ts : List Token) :
    run env root candidate stack (t :: ts) =
      continueWith env root candidate stack' ts outcome := by
  rw [run, h]
  cases outcome <;> rfl

/-- An operand comes to the stack, unless it refers to a candidate that is no container. -/
theorem run_operand {t : Token} (ht : t.role = .operand)
    (h : candidate.node.isContainer = true ∨ t.isCandidate = false) (stack : List Operand)
    (ts : List Token) :
    run env root candidate stack (t :: ts) =
      continueWith env root candidate stack ts (t.value env root candidate) := by
  refine run_of_push ?_ ts
  cases t with
  | root reference => rfl
  | candidate reference =>
      have hcontainer : candidate.node.isContainer = true := by simpa [Token.isCandidate] using h
      exact if_pos hcontainer
  | text s => rfl
  | number literal => rfl
  | opening => cases ht
  | closing => cases ht
  | operator op => exact (Arrangement.role_ne_operand op ht).elim

/-- `!` takes its operand off the stack and puts the opposite truth value on. -/
theorem run_not (v : Operand) (stack : List Operand) (ts : List Token) :
    run env root candidate (v :: stack) (.operator .not :: ts) =
      run env root candidate (truth (!v.isTruthy) :: stack) ts :=
  rfl

/-- Every other operator takes two operands off and puts its result on. -/
theorem run_binary {op : Operator} (h : op.role = .binary) (left right : Operand)
    (stack : List Operand) (ts : List Token) :
    run env root candidate (right :: left :: stack) (.operator op :: ts) =
      continueWith env root candidate stack ts (operation env op h left right) := by
  refine run_of_push ?_ ts
  simp only [step, stepOperator, h, applyBinary_eq env h]

/-! ### Runs -/

variable (env root) in
/-- **Running a tree** puts its value on the stack, or fails with its error, whatever lies on
the stack below and whatever tokens follow. -/
theorem run_postorder (e : Expression)
    (h : candidate.node.isContainer = true ∨ e.hasCandidate = false) (stack : List Operand)
    (ts : List Token) :
    run env root candidate stack (e.postorder ++ ts) =
      continueWith env root candidate stack ts (e.value env root candidate) := by
  induction e generalizing stack ts with
  | operand t ht => exact run_operand ht h stack ts
  | group e ih => exact ih h stack ts
  | negation e ih =>
      rw [Expression.postorder, List.append_assoc, ih h, Expression.value]
      cases e.value env root candidate with
      | error err => rfl
      | ok v => exact run_not v stack ts
  | binary op hop l r ihl ihr =>
      have hl : candidate.node.isContainer = true ∨ l.hasCandidate = false :=
        h.imp_right fun h => (Bool.or_eq_false_iff.1 h).1
      have hr : candidate.node.isContainer = true ∨ r.hasCandidate = false :=
        h.imp_right fun h => (Bool.or_eq_false_iff.1 h).2
      rw [Expression.postorder, List.append_assoc, List.append_assoc, ihl hl, Expression.value]
      cases l.value env root candidate with
      | error err => rfl
      | ok left =>
          dsimp only [continueWith]
          rw [ihr hr]
          cases r.value env root candidate with
          | error err => rfl
          | ok right => exact run_binary hop left right stack ts

/-- How the run of a tree ends that refers to a candidate which is no container: the candidate
is rejected, or a part that is completed before fails. -/
def CutShort (env : Environment) (root candidate : Site) (e : Expression)
    (outcome : Except Halt (List Operand)) : Prop :=
  (outcome = .error .rejected ∧
      ∀ f, e.Completes f → ∃ v, f.value env root candidate = .ok v) ∨
    ∃ f err, e.Completes f ∧ f.value env root candidate = .error err ∧
      outcome = .error (.failed err)

/-- Only the parts that are completed matter. -/
theorem CutShort.of_completes_iff {e e' : Expression} {outcome : Except Halt (List Operand)}
    (h : CutShort env root candidate e outcome)
    (hparts : ∀ f, e'.Completes f ↔ e.Completes f) :
    CutShort env root candidate e' outcome := by
  simpa only [CutShort, hparts] using h

variable (env root) in
/-- **Running a tree that refers to a candidate which is no container** rejects the candidate,
unless a part that is completed before fails: then it fails with the error of that part. -/
theorem run_postorder_rejected {e : Expression} (hcandidate : candidate.node.isContainer = false)
    (h : e.hasCandidate = true) (stack : List Operand) (ts : List Token) :
    CutShort env root candidate e (run env root candidate stack (e.postorder ++ ts)) := by
  induction e generalizing stack ts with
  | operand t ht =>
      refine .inl ⟨?_, ?_⟩
      · cases t with
        | candidate reference =>
            have hne : ¬ candidate.node.isContainer = true := by simp [hcandidate]
            rw [Expression.postorder, List.singleton_append, run, step, if_neg hne]
        | _ => cases h
      · intro f hf
        cases hf with
        | self hself => exact absurd (h.symm.trans hself) (by decide)
  | group e ih => exact (ih h stack ts).of_completes_iff fun _ => Expression.Completes.group_iff h
  | negation e ih =>
      rw [Expression.postorder, List.append_assoc]
      exact (ih h stack _).of_completes_iff fun _ => Expression.Completes.negation_iff h
  | binary op hop l r ihl ihr =>
      rw [Expression.postorder, List.append_assoc, List.append_assoc]
      cases hl : l.hasCandidate with
      | true =>
          exact (ihl hl stack _).of_completes_iff fun _ => Expression.Completes.binary_iff_left hl
      | false =>
          have hr : r.hasCandidate = true := by simpa [Expression.hasCandidate, hl] using h
          rw [run_postorder env root l (.inr hl)]
          cases hvalue : l.value env root candidate with
          | error err => exact .inr ⟨l, err, .left (.self hl), hvalue, rfl⟩
          | ok v =>
              dsimp only [continueWith]
              rcases ihr hr (v :: stack) ([.operator op] ++ ts) with
                ⟨hrun, hparts⟩ | ⟨f, err, hf, herr, hrun⟩
              · refine .inl ⟨hrun, fun f hf => ?_⟩
                rcases (Expression.Completes.binary_iff_or hl hr).1 hf with hf | hf
                · exact hf.exists_value hvalue
                · exact hparts f hf
              · exact .inr ⟨f, err, .right hl hf, herr, hrun⟩

/-! ### Whether a filter holds -/

/-- The postfix order of a tree leaves one operand more. -/
theorem height_postorder (e : Expression) (n : Nat) (ts : List Token) :
    height n (e.postorder ++ ts) = height (n + 1) ts := by
  induction e generalizing n ts with
  | operand t ht =>
      rw [Expression.postorder, List.singleton_append, height, ht]
      rfl
  | group e ih => exact ih n ts
  | negation e ih =>
      rw [Expression.postorder, List.append_assoc, ih]
      rfl
  | binary op hop l r ihl ihr =>
      have hrole : (Token.operator op).role = .binary := hop
      rw [Expression.postorder, List.append_assoc, List.append_assoc, ihl, ihr,
        List.singleton_append, height, hrole]
      rfl

/-- **A filter holds if the value of its tree counts as true**, and it is never refused. A
candidate that the filter refers to and that is no container makes it false, whatever
operators stand around the reference, unless a part that is completed before fails. -/
theorem holds_postorder (env : Environment) (root candidate : Site) (e : Expression) :
    (∀ expression,
      holds env e.postorder root candidate ≠ .error (.unevaluable expression)) ∧
    (candidate.node.isContainer = true ∨ e.hasCandidate = false →
      holds env e.postorder root candidate =
        (e.value env root candidate).map Operand.isTruthy) ∧
    (candidate.node.isContainer = false → e.hasCandidate = true →
      (holds env e.postorder root candidate = .ok false ∧
        ∀ f, e.Completes f → ∃ v, f.value env root candidate = .ok v) ∨
      ∃ f err, e.Completes f ∧ f.value env root candidate = .error err ∧
        holds env e.postorder root candidate = .error err) := by
  refine ⟨fun expression => ?_, fun h => ?_, fun hcandidate h => ?_⟩
  · have hheight : height 0 e.postorder = some 1 := by
      simpa [height] using height_postorder e 0 []
    exact holds_ne_unevaluable hheight root candidate expression
  · have hrun := run_postorder env root e h [] []
    rw [List.append_nil] at hrun
    rw [holds, hrun]
    cases e.value env root candidate <;> rfl
  · have hrun := run_postorder_rejected env root hcandidate h [] []
    rw [List.append_nil] at hrun
    rcases hrun with ⟨hrun, hparts⟩ | ⟨f, err, hf, herr, hrun⟩
    · exact .inl ⟨by rw [holds, hrun], hparts⟩
    · exact .inr ⟨f, err, hf, herr, by rw [holds, hrun]⟩

/-- The filter `!@.a || 'a'`. -/
def negatedOrText : Expression :=
  .binary .or rfl (.negation (.operand (.candidate ⟨"@.a", [.name "a"]⟩) rfl))
    (.operand (.text "a") rfl)

/-- `!@.a || 'a'` holds for an array, and for no value that has no children. -/
theorem holds_postorder_negatedOrText :
    (holds .standard negatedOrText.postorder ⟨0, .null⟩ ⟨0, .array (.close [])⟩ = .ok true ∧
      holds .standard negatedOrText.postorder ⟨0, .null⟩ ⟨0, .null⟩ = .ok false) ∧
    (Site.mk 0 (.array (.close []))).node.isContainer = true ∧
    (Site.mk 0 .null).node.isContainer = false ∧ negatedOrText.hasCandidate = true := by
  refine ⟨⟨?_, ?_⟩, rfl, rfl, rfl⟩
  · exact ((holds_postorder .standard ⟨0, .null⟩ ⟨0, .array (.close [])⟩
      negatedOrText).2.1 (.inl rfl)).trans (by decide +kernel)
  · rcases (holds_postorder .standard ⟨0, .null⟩ ⟨0, .null⟩ negatedOrText).2.2 rfl rfl with
      ⟨hfalse, -⟩ | ⟨f, err, hcompletes, -, -⟩
    · exact hfalse
    · rcases hcompletes with h | - | - | (h | - | (h | -)) | ⟨h, -⟩ <;> cases h

end Filter

end JsonPath
