import JsonPath.Filter.Predicate
import JsonPath.Proofs.Filter.Arranging
import JsonPath.Proofs.Filter.Failing

/-!
# The Operands of a Filter

Two counts meet in this module. While a filter is read, every operand and every operator
that was fed is either in the output or on the stack, and the operands exceed the binary
operators by one for every place where an operand is complete: at the end that is once,
and once more for every parenthesis that opened directly after an operand. While a stored
filter is evaluated, an operand puts a value on the stack and a binary operator takes one
off, so what is left at the end is that same excess.

Hence a filter in which a parenthesis opens after an operand leaves too many operands when
it is evaluated, and is refused then.

## Main results

* `Arrangement.WellFormed.feedAll`: **the stack of a filter that is read** — it holds the
  parentheses that are open, none that closed, and no parenthesis is ever sent off.
* `Arrangement.countP_feedAll`, `Arrangement.operands_feedAll`: what was fed is kept, and
  operands and binary operators balance.
* `Filter.operands_of_height`: what is left on the stack of an evaluation.
* `Filter.holds_ne_unevaluable`: a filter that leaves one operand is never refused.
-/

namespace JsonPath

namespace Filter

/-- How many operands there are. -/
def operands (ts : List Token) : Nat :=
  ts.countP fun t => t.role == .operand

/-- How many binary operators there are. -/
def binaries (ts : List Token) : Nat :=
  ts.countP fun t => t.role == .binary

/-- How many parentheses open directly after an operand or a closing parenthesis;
`previous` is the role of what stands before the tokens. -/
def juxtapositions : Role → List Token → Nat
  | _, [] => 0
  | previous, t :: ts =>
    (if previous = .operand ∧ t = .opening then 1 else 0) + juxtapositions t.trail ts

/-- How many operands are on the stack after a token with a role, given how many were
before: `none` if an operator finds too few. -/
def heightAfter : Role → Nat → Option Nat
  | .operand, n => some (n + 1)
  | .unary, n + 1 => some (n + 1)
  | .binary, n + 2 => some (n + 1)
  | .none, n => some n
  | _, _ => none

/-- How many operands are on the stack after tokens in postfix order. -/
def height (n : Nat) : List Token → Option Nat
  | [] => some n
  | t :: ts => (heightAfter t.role n).bind fun n => height n ts

end Filter

/-! ### While a filter is read -/

namespace Arrangement

/-- What holds of an arrangement at any time: one parenthesis is open around the filter and
the others are on the stack, no closing parenthesis is, and the output has none of
either. -/
structure WellFormed (a : Arrangement) : Prop where
  /-- The parentheses that are open inside the filter wait. -/
  opened : a.stack.count .opening + 1 = a.depth
  /-- No closing parenthesis waits. -/
  closed : .closing ∉ a.stack
  /-- No parenthesis was sent off. -/
  sent : ∀ t ∈ a.output, t.role ≠ .none

/-- Before the first token an arrangement is well-formed. -/
theorem wellFormed_start : WellFormed start :=
  ⟨rfl, by simp [start], by simp [start]⟩

/-- What waits and is no parenthesis that opened is no parenthesis. -/
theorem WellFormed.role_ne_none {a : Arrangement} (ha : a.WellFormed) {t : Token}
    (ht : t ∈ a.stack) (hne : t ≠ .opening) : t.role ≠ .none := by
  cases t with
  | opening => exact absurd rfl hne
  | closing => exact absurd ht ha.closed
  | operator op => cases op <;> decide
  | _ => exact fun h => by cases h

/-- **One token keeps the arrangement well formed.** -/
theorem WellFormed.feed {a b : Arrangement} {t : Token} (ha : a.WellFormed)
    (h : a.feed t = some (.more b)) : b.WellFormed := by
  rcases feed_eq_more h with ⟨rfl, rfl⟩ | ⟨rfl, -, hd, w, stack, hstack, hw, rfl⟩ |
    ⟨op, rfl, -, w, stack, hstack, hw, rfl⟩ | ⟨ht, -, rfl⟩
  · exact ⟨by simp [← ha.opened], by simpa using ha.closed, ha.sent⟩
  · have hmem : ∀ t ∈ w, t ∈ a.stack := fun t ht => by simp [hstack, ht]
    refine ⟨?_, fun hc => ha.closed (by simp [hstack, hc]), fun t ht => ?_⟩
    · have hopened := ha.opened
      have hnone : w.count .opening = 0 := List.count_eq_zero_of_not_mem fun hc => hw _ hc rfl
      simp only [hstack, List.count_append, hnone, List.count_cons_self] at hopened ⊢
      omega
    · exact (List.mem_append.1 ht).elim (ha.sent t) fun ht => ha.role_ne_none (hmem t ht) (hw t ht)
  · have hmem : ∀ t ∈ w, t ∈ a.stack := fun t ht => by simp [hstack, ht]
    have hne : ∀ t ∈ w, t ≠ .opening := by
      rintro t ht rfl
      simpa [precedes] using hw _ ht
    refine ⟨?_, ?_, fun t ht => ?_⟩
    · have hopened := ha.opened
      have hnone : w.count .opening = 0 := List.count_eq_zero_of_not_mem fun hc => hne _ hc rfl
      simp only [hstack, List.count_append, hnone] at hopened
      simpa using hopened
    · simpa using fun hc => ha.closed (by simp [hstack, hc])
    · exact (List.mem_append.1 ht).elim (ha.sent t)
        fun ht => ha.role_ne_none (hmem t ht) (hne t ht)
  · refine ⟨ha.opened, ha.closed, fun u hu => ?_⟩
    rcases List.mem_append.1 hu with hu | hu
    · exact ha.sent u hu
    · obtain rfl : u = t := by simpa using hu
      rw [ht]
      decide

/-- Any number of tokens keep the arrangement well formed. -/
theorem WellFormed.feedAll {a b : Arrangement} {ts : List Token} (ha : a.WellFormed)
    (h : a.feedAll ts = some b) : b.WellFormed := by
  induction ts generalizing a with
  | nil =>
      obtain rfl : a = b := Option.some.inj h
      exact ha
  | cons t ts ih =>
      obtain ⟨c, hc, hts⟩ := exists_of_feedAll_cons h
      exact ih (ha.feed hc) hts

/-- **What is fed is kept.** Of the tokens that are no parentheses, as many of each role as
were fed are in the output or on the stack. -/
theorem countP_feedAll {a b : Arrangement} {ts : List Token} (h : a.feedAll ts = some b)
    {r : Role} (hr : r ≠ .none) :
    (b.output ++ b.stack).countP (fun t => t.role == r) =
      (a.output ++ a.stack).countP (fun t => t.role == r) +
        ts.countP (fun t => t.role == r) := by
  induction ts generalizing a with
  | nil =>
      obtain rfl : a = b := Option.some.inj h
      rfl
  | cons t ts ih =>
      obtain ⟨c, hc, hts⟩ := exists_of_feedAll_cons h
      have hparen : (Role.none == r) = false := by simpa using hr.symm
      rw [ih hts, List.countP_cons]
      rcases feed_eq_more hc with ⟨rfl, rfl⟩ | ⟨rfl, -, hd, w, stack, hstack, hw, rfl⟩ |
        ⟨op, rfl, -, w, stack, hstack, hw, rfl⟩ | ⟨ht, -, rfl⟩
      · simp [Token.role, hparen]
      · simp [hstack, Token.role, hparen]
      · simp [hstack, List.countP_cons]
        omega
      · simp [List.countP_cons]
        omega

/-- **Operands and binary operators balance.** Between two times at which no operand, or an
operand, is complete, as many operands as binary operators are fed, apart from one operand
more for every parenthesis that opens after an operand. -/
theorem operands_feedAll {a b : Arrangement} {ts : List Token} (h : a.feedAll ts = some b) :
    Filter.operands ts + (if a.previous = .operand then 1 else 0) =
      Filter.binaries ts + (if b.previous = .operand then 1 else 0) +
        Filter.juxtapositions a.previous ts := by
  induction ts generalizing a with
  | nil =>
      obtain rfl : a = b := Option.some.inj h
      rfl
  | cons t ts ih =>
      obtain ⟨c, hc, hts⟩ := exists_of_feedAll_cons h
      have hrest := ih hts
      rw [Filter.operands, Filter.binaries, List.countP_cons, List.countP_cons,
        Filter.juxtapositions]
      rw [Filter.operands, Filter.binaries] at hrest
      rcases feed_eq_more hc with ⟨rfl, rfl⟩ | ⟨rfl, hprev, -, _, _, -, -, rfl⟩ |
        ⟨op, rfl, hadmits, _, _, -, -, rfl⟩ | ⟨ht, hprev, rfl⟩
      · simp [Token.role, Token.trail] at hrest ⊢
        omega
      · simp [Token.role, Token.trail, hprev] at hrest ⊢
        omega
      · have htrail : (Token.operator op).trail = op.role := rfl
        cases hop : op.role with
        | none => cases op <;> cases hop
        | operand => exact absurd hop (role_ne_operand op)
        | unary =>
            have hprev : a.previous ≠ .operand := by simpa [admits, hop] using hadmits
            simp [Token.role, htrail, hop, hprev] at hrest ⊢
            omega
        | binary =>
            have hprev : a.previous = .operand := by simpa [admits, hop] using hadmits
            simp [Token.role, htrail, hop, hprev] at hrest ⊢
            omega
      · have htrail : t.trail = .operand := by
          cases t with
          | closing => rfl
          | _ => exact ht
        simp [ht, htrail, hprev] at hrest ⊢
        omega

end Arrangement

/-- No parenthesis is counted exactly if none opens behind an operand. -/
theorem Filter.juxtapositions_eq_zero_iff {previous : Role} {ts : List Token} :
    juxtapositions previous ts = 0 ↔
      (∀ t ∈ ts.head?, previous = .operand → t ≠ .opening) ∧ NoJuxtaposition ts := by
  induction ts generalizing previous with
  | nil => simp [juxtapositions, NoJuxtaposition]
  | cons t ts ih =>
      rw [juxtapositions, Nat.add_eq_zero_iff, ih, NoJuxtaposition, NoJuxtaposition,
        List.isChain_cons]
      simp

/-! ### While a filter is evaluated -/

namespace Filter

/-- **What is left on the stack.** An operand adds one value, a binary operator takes one
off. -/
theorem operands_of_height {n m : Nat} {ts : List Token} (h : height n ts = some m) :
    m + binaries ts = n + operands ts := by
  induction ts generalizing n with
  | nil =>
      obtain rfl : n = m := Option.some.inj h
      rfl
  | cons t ts ih =>
      obtain ⟨k, hk, hts⟩ := Option.bind_eq_some_iff.1 h
      have hrest := ih hts
      rw [operands, binaries] at hrest ⊢
      rw [List.countP_cons, List.countP_cons]
      rw [heightAfter.eq_def] at hk
      split at hk
      · next ht =>
          obtain rfl := Option.some.inj hk
          simp [ht]
          omega
      · next ht =>
          obtain rfl := Option.some.inj hk
          simpa [ht] using hrest
      · next ht =>
          obtain rfl := Option.some.inj hk
          simp [ht]
          omega
      · next ht =>
          obtain rfl := Option.some.inj hk
          simpa [ht] using hrest
      · cases hk

variable {env : Environment}

/-- An operator between two operands has a result unless it is `!`. -/
theorem applyBinary_ne_none {op : Operator} (h : op.role = .binary) (left right : Operand) :
    applyBinary env op left right ≠ none := by
  cases op <;> first | exact absurd h (by decide) | exact fun h => by cases h

/-- Pushing an outcome finds no operand missing. -/
theorem push_ne_unevaluable (stack : List Operand) (outcome : Except Error Operand) :
    push stack outcome ≠ .error .unevaluable := by
  cases outcome <;> exact fun h => by cases h

/-- Pushing a value makes the stack higher by one. -/
theorem length_of_push {stack stack' : List Operand} {outcome : Except Error Operand}
    (h : push stack outcome = .ok stack') : stack'.length = stack.length + 1 := by
  cases outcome with
  | ok v =>
      obtain rfl : v :: stack = stack' := by simpa [push] using h
      rfl
  | error e => cases h

/-- **An operator takes and gives what its role says**, whatever the operands are. -/
theorem heightAfter_of_stepOperator {op : Operator} {stack stack' : List Operand}
    (h : stepOperator env op stack = .ok stack') :
    heightAfter op.role stack.length = some stack'.length := by
  rw [stepOperator.eq_def] at h
  split at h
  · next v stack hop =>
      obtain rfl : truth (!v.isTruthy) :: stack = stack' := by simpa using h
      rw [hop]
      rfl
  · next right left stack hop =>
      split at h
      · rw [hop, length_of_push h]
        rfl
      · cases h
  · cases h

/-- An operator lacks an operand only if the count says so. -/
theorem heightAfter_of_stepOperator_unevaluable {op : Operator} {stack : List Operand}
    (h : stepOperator env op stack = .error .unevaluable) :
    heightAfter op.role stack.length = none := by
  cases hop : op.role with
  | operand => exact absurd hop (Arrangement.role_ne_operand op)
  | none => cases op <;> cases hop
  | unary =>
      rcases stack with - | ⟨v, stack⟩
      · rfl
      · simp [stepOperator, hop] at h
  | binary =>
      rcases stack with - | ⟨right, - | ⟨left, stack⟩⟩
      · rfl
      · rfl
      · simp only [stepOperator, hop] at h
        split at h
        · exact absurd h (push_ne_unevaluable _ _)
        · next hnone => exact absurd hnone (applyBinary_ne_none hop _ _)

/-- **One token changes the stack as its role says**, whatever the document is. -/
theorem heightAfter_of_step {root candidate : Site} {stack stack' : List Operand} {t : Token}
    (h : step env root candidate stack t = .ok stack') :
    heightAfter t.role stack.length = some stack'.length := by
  cases t with
  | operator op => exact heightAfter_of_stepOperator h
  | candidate reference =>
      rw [step] at h
      split at h
      · rw [length_of_push h]
        rfl
      · cases h
  | root reference =>
      rw [length_of_push h]
      rfl
  | text s =>
      obtain rfl : .text s :: stack = stack' := by simpa [step] using h
      rfl
  | number literal =>
      obtain rfl : .double literal.value :: stack = stack' := by simpa [step] using h
      rfl
  | opening =>
      obtain rfl : stack = stack' := by simpa [step] using h
      rfl
  | closing =>
      obtain rfl : stack = stack' := by simpa [step] using h
      rfl

/-- A step that finds operands missing is one that the heights forbid. -/
theorem heightAfter_of_step_unevaluable {root candidate : Site} {stack : List Operand}
    {t : Token} (h : step env root candidate stack t = .error .unevaluable) :
    heightAfter t.role stack.length = none := by
  cases t with
  | operator op => exact heightAfter_of_stepOperator_unevaluable h
  | candidate reference =>
      rw [step] at h
      split at h
      · exact absurd h (push_ne_unevaluable _ _)
      · cases h
  | root reference => exact absurd h (push_ne_unevaluable _ _)
  | _ => cases h

/-- A whole evaluation leaves as many values as the count says. -/
theorem height_of_run {root candidate : Site} {stack stack' : List Operand} {ts : List Token}
    (h : run env root candidate stack ts = .ok stack') :
    height stack.length ts = some stack'.length := by
  induction ts generalizing stack with
  | nil =>
      obtain rfl : stack = stack' := by simpa [run] using h
      rfl
  | cons t ts ih =>
      rw [run] at h
      split at h
      · cases h
      · next stack'' hstep =>
          rw [height, heightAfter_of_step hstep, Option.bind_some, ih h]

/-- A run that finds operands missing is one that the heights forbid. -/
theorem height_of_run_unevaluable {root candidate : Site} {stack : List Operand}
    {ts : List Token} (h : run env root candidate stack ts = .error .unevaluable) :
    height stack.length ts = none := by
  induction ts generalizing stack with
  | nil => cases h
  | cons t ts ih =>
      rw [run] at h
      split at h
      · next halt hstep =>
          obtain rfl : halt = .unevaluable := by simpa using h
          rw [height, heightAfter_of_step_unevaluable hstep, Option.bind_none]
      · next stack'' hstep =>
          rw [height, heightAfter_of_step hstep, Option.bind_some, ih h]

/-- What goes wrong on the way is something else than a missing operand. -/
theorem run_ne_failed_unevaluable (root candidate : Site) (stack : List Operand)
    (ts : List Token) (expression : String) :
    run env root candidate stack ts ≠ .error (.failed (.unevaluable expression)) := by
  have value_ne (reference : Reference) (base : Site) :
      reference.value env base ≠ .error (.unevaluable expression) := by
    intro h
    obtain ⟨_, _, he⟩ := Reference.error_of_value h
    cases he
  intro h
  cases error_of_run h with
  | root he => exact value_ne _ _ he
  | candidate he => exact value_ne _ _ he

/-- **A filter that leaves one operand is never refused**, whatever the document is and
whatever candidate is tested. -/
theorem holds_ne_unevaluable {ts : List Token} (h : height 0 ts = some 1)
    (root candidate : Site) (expression : String) :
    holds env ts root candidate ≠ .error (.unevaluable expression) := by
  rw [holds]
  split
  · exact fun h => by cases h
  · next stack hne hrun =>
      have hlength := (height_of_run hrun).symm.trans h
      rcases stack with - | ⟨v, - | ⟨w, stack⟩⟩
      · cases hlength
      · exact (hne v rfl).elim
      · cases hlength
  · exact fun h => by cases h
  · next hrun => exact absurd ((height_of_run_unevaluable hrun).symm.trans h) (by simp)
  · next e hrun =>
      intro he
      obtain rfl : e = .unevaluable expression := by simpa using he
      exact run_ne_failed_unevaluable _ _ _ _ _ hrun

end Filter

end JsonPath
