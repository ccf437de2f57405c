import Mathlib.Data.List.Chain
import JsonPath.Filter.Token

/-!
# Filters as Trees

A filter is a sentence of the grammar `E ::= operand | (E) | !E | E binop E`. The grammar
alone is ambiguous; the precedences single out one tree for each sentence. This module
defines the trees (`Expression`), the sentences (`Sentence`) and the condition under which
a tree groups its operators as their precedences demand (`Expression.Ordered`), and proves
that the ordered trees are a normal form for the sentences.

A tree is *ordered* if no operator stands under one that binds more tightly, except in
parentheses. On the left of an operator equally tight operators may stand, on the right
they may not, so operators of one precedence group from the left; under `!`, which binds
tightest of all, there is never a binary operator.

## Main results

* `Expression.sentence_tokens`, `Sentence.exists_ordered`: the sentences are exactly the
  token lists of the ordered trees.
* `Expression.Ordered.eq_of_tokens_eq`: **a sentence has one ordered tree** — the tokens
  of an ordered tree determine it, parentheses included.
* `Expression.postorder_bare`: parentheses leave no trace in the postfix order.
-/

namespace JsonPath

/-- A filter as a tree, with its parentheses. -/
inductive Expression where
  /-- A literal or a reference. -/
  | operand (token : Token) (h : token.role = .operand)
  /-- A filter in parentheses. -/
  | group (inner : Expression)
  /-- `!` before a filter. -/
  | negation (inner : Expression)
  /-- An operator between two filters. -/
  | binary (op : Operator) (h : op.role = .binary) (left right : Expression)

/-- The sentences of the grammar `E ::= operand | (E) | !E | E binop E`. -/
inductive Sentence : List Token → Prop
  | operand {t : Token} : t.role = .operand → Sentence [t]
  | group {ts : List Token} : Sentence ts → Sentence (.opening :: (ts ++ [.closing]))
  | negation {ts : List Token} : Sentence ts → Sentence (.operator .not :: ts)
  | binary {op : Operator} {ts us : List Token} :
      op.role = .binary → Sentence ts → Sentence us → Sentence (ts ++ .operator op :: us)

namespace Expression

/-- The tokens of a filter as it is written. -/
def tokens : Expression → List Token
  | .operand t _ => [t]
  | .group e => .opening :: (e.tokens ++ [.closing])
  | .negation e => .operator .not :: e.tokens
  | .binary op _ l r => l.tokens ++ .operator op :: r.tokens

/-- The tokens of a filter in postfix order: every operator after its operands, and no
parentheses. -/
def postorder : Expression → List Token
  | .operand t _ => [t]
  | .group e => e.postorder
  | .negation e => e.postorder ++ [.operator .not]
  | .binary op _ l r => l.postorder ++ r.postorder ++ [.operator op]

/-- The filter without its parentheses. -/
def bare : Expression → Expression
  | .operand t h => .operand t h
  | .group e => e.bare
  | .negation e => .negation e.bare
  | .binary op h l r => .binary op h l.bare r.bare

/-- How loosely the outermost operator binds that is not in parentheses; zero if there is
none. -/
def looseness : Expression → Nat
  | .operand _ _ => 0
  | .group _ => 0
  | .negation _ => Operator.not.precedence
  | .binary op _ _ _ => op.precedence

/-- The operators of a filter are grouped as their precedences demand. -/
def Ordered : Expression → Prop
  | .operand _ _ => True
  | .group e => e.Ordered
  | .negation e => e.looseness ≤ Operator.not.precedence ∧ e.Ordered
  | .binary op _ l r =>
      l.looseness ≤ op.precedence ∧ r.looseness < op.precedence ∧ l.Ordered ∧ r.Ordered

/-- **Parentheses leave no trace in the postfix order.** -/
theorem postorder_bare (e : Expression) : e.bare.postorder = e.postorder := by
  induction e with
  | operand t h => rfl
  | group e ih => exact ih
  | negation e ih => rw [bare, postorder, ih, postorder]
  | binary op h l r ihl ihr => rw [bare, postorder, ihl, ihr, postorder]

/-- `!` binds more tightly than every other operator. -/
theorem not_precedence_lt {op : Operator} (h : op.role = .binary) :
    Operator.not.precedence < op.precedence := by
  cases op <;> first | decide | exact absurd h (by decide)

/-- Every expression has a token. -/
theorem tokens_ne_nil (e : Expression) : e.tokens ≠ [] := by
  cases e <;> simp [tokens]

/-- The tokens of every tree are a sentence. -/
theorem sentence_tokens (e : Expression) : Sentence e.tokens := by
  induction e with
  | operand t h => exact .operand h
  | group e ih => exact .group ih
  | negation e ih => exact .negation ih
  | binary op h l r ihl ihr => exact .binary h ihl ihr

/-! ### Every sentence has an ordered tree

Two ordered trees with an operator between them make an ordered tree: the operator sinks
into the side whose outermost operator binds more loosely. -/

/-- `!` before an ordered tree gives a sentence with an ordered tree. -/
theorem exists_negation {e : Expression} (he : e.Ordered) :
    ∃ f : Expression, f.Ordered ∧ f.tokens = .operator .not :: e.tokens ∧
      f.looseness ≤ max Operator.not.precedence e.looseness := by
  induction e with
  | operand t h => exact ⟨.negation (.operand t h), ⟨Nat.zero_le _, he⟩, rfl, le_max_left _ _⟩
  | group e _ => exact ⟨.negation (.group e), ⟨Nat.zero_le _, he⟩, rfl, le_max_left _ _⟩
  | negation e _ => exact ⟨.negation (.negation e), ⟨le_refl _, he⟩, rfl, le_max_left _ _⟩
  | binary op h l r ihl _ =>
      obtain ⟨hl, hr, hlo, hro⟩ := he
      obtain ⟨f, hfo, hft, hfl⟩ := ihl hlo
      have hop := not_precedence_lt h
      refine ⟨.binary op h f r, ⟨?_, hr, hfo, hro⟩, ?_, le_max_right _ _⟩
      · exact hfl.trans (max_le hop.le hl)
      · rw [tokens, hft, tokens, List.cons_append]

/-- A tree whose outermost operator binds more loosely than `!` is a binary operator
between two trees. -/
theorem exists_eq_binary {e : Expression} (h : Operator.not.precedence < e.looseness) :
    ∃ (op : Operator) (hop : op.role = .binary) (l r : Expression), e = .binary op hop l r := by
  cases e with
  | operand t ht => exact absurd h (Nat.not_lt_zero _)
  | group e => exact absurd h (Nat.not_lt_zero _)
  | negation e => exact absurd h (lt_irrefl _)
  | binary op hop l r => exact ⟨op, hop, l, r, rfl⟩

/-- A binary operator between ordered trees gives a sentence with an ordered tree. The
induction is on the two trees together: the operator is the outermost one unless one of
the trees has an outermost operator that binds more loosely; of two such the looser one,
and of two equally loose the right one, stays outermost. -/
theorem exists_binary {op : Operator} (hop : op.role = .binary) {l r : Expression}
    (hl : l.Ordered) (hr : r.Ordered) :
    ∃ f : Expression, f.Ordered ∧ f.tokens = l.tokens ++ .operator op :: r.tokens ∧
      f.looseness ≤ max op.precedence (max l.looseness r.looseness) := by
  have hnot := not_precedence_lt hop
  by_cases hmid : l.looseness ≤ op.precedence ∧ r.looseness < op.precedence
  · exact ⟨.binary op hop l r, ⟨hmid.1, hmid.2, hl, hr⟩, rfl, le_max_left _ _⟩
  by_cases hright : op.precedence ≤ r.looseness ∧ l.looseness ≤ r.looseness
  · obtain ⟨op', hop', l', r', rfl⟩ := exists_eq_binary (hnot.trans_le hright.1)
    obtain ⟨hl', hr', hlo', hro'⟩ := hr
    obtain ⟨f, hfo, hft, hfl⟩ := exists_binary hop hl hlo'
    refine ⟨.binary op' hop' f r', ⟨?_, hr', hfo, hro'⟩, ?_, ?_⟩
    · exact hfl.trans (max_le hright.1 (max_le hright.2 hl'))
    · rw [tokens, hft, tokens, List.append_assoc, List.cons_append]
    · exact (le_max_right _ _).trans (le_max_right _ _)
  · have hlt : op.precedence < l.looseness ∧ r.looseness < l.looseness := by omega
    obtain ⟨op', hop', l', r', rfl⟩ := exists_eq_binary (hnot.trans hlt.1)
    obtain ⟨hl', hr', hlo', hro'⟩ := hl
    obtain ⟨f, hfo, hft, hfl⟩ := exists_binary hop hro' hr
    refine ⟨.binary op' hop' l' f, ⟨hl', ?_, hlo', hfo⟩, ?_, ?_⟩
    · exact hfl.trans_lt (max_lt hlt.1 (max_lt hr' hlt.2))
    · rw [tokens, hft, tokens, List.append_assoc, List.cons_append]
    · exact (le_max_left _ _).trans (le_max_right _ _)
termination_by sizeOf l + sizeOf r

end Expression

/-- **Every sentence has an ordered tree.** -/
theorem Sentence.exists_ordered {ts : List Token} (h : Sentence ts) :
    ∃ e : Expression, e.Ordered ∧ e.tokens = ts := by
  induction h with
  | operand ht => exact ⟨.operand _ ht, trivial, rfl⟩
  | group _ ih =>
      obtain ⟨e, he, rfl⟩ := ih
      exact ⟨.group e, he, rfl⟩
  | negation _ ih =>
      obtain ⟨e, he, rfl⟩ := ih
      obtain ⟨f, hf, hft, -⟩ := Expression.exists_negation he
      exact ⟨f, hf, hft⟩
  | binary hop _ _ ihl ihr =>
      obtain ⟨l, hl, rfl⟩ := ihl
      obtain ⟨r, hr, rfl⟩ := ihr
      obtain ⟨f, hf, hft, -⟩ := Expression.exists_binary hop hl hr
      exact ⟨f, hf, hft⟩

namespace Expression

/-! ### A sentence has one ordered tree

An operator is *outermost* in a list of tokens if as many parentheses open before it as
close. No operator that is outermost in the tokens of an ordered tree binds more loosely
than the tree does, which is why the root of the tree can be found in its tokens. -/

/-- Parentheses are paired. -/
theorem count_opening_tokens (e : Expression) :
    e.tokens.count .opening = e.tokens.count .closing := by
  induction e with
  | operand t h =>
      have hopen : t ≠ .opening := by rintro rfl; exact absurd h (by decide)
      have hclose : t ≠ .closing := by rintro rfl; exact absurd h (by decide)
      simp [tokens, hopen, hclose]
  | group e ih => simp [tokens, ih]
  | negation e ih => simp [tokens, ih]
  | binary op h l r ihl ihr => simp [tokens, ihl, ihr]

/-- No parenthesis closes before it was opened. -/
theorem count_closing_le {e : Expression} {x y : List Token} (h : e.tokens = x ++ y) :
    x.count .closing ≤ x.count .opening := by
  induction e generalizing x y with
  | operand t ht =>
      have hclose : .closing ∉ x := by
        intro hx
        obtain rfl : .closing = t := by simpa [tokens, h.symm] using List.mem_append_left y hx
        exact absurd ht (by decide)
      rw [List.count_eq_zero_of_not_mem hclose]
      exact Nat.zero_le _
  | group e ih =>
      rcases x with - | ⟨t, x⟩
      · exact Nat.le_refl _
      obtain ⟨rfl, hx⟩ := List.cons.inj h
      rcases List.append_eq_append_iff.1 hx with ⟨z, rfl, hz⟩ | ⟨z, hz, -⟩
      · have hpair := e.count_opening_tokens
        have hle : z.count .closing ≤ 1 := by
          have := congrArg (List.count .closing) hz
          simp only [List.count_append, List.count_singleton_self] at this
          omega
        simp
        omega
      · have := ih hz
        simp
        omega
  | negation e ih =>
      rcases x with - | ⟨t, x⟩
      · exact Nat.le_refl _
      obtain ⟨rfl, hx⟩ := List.cons.inj h
      simpa using ih hx
  | binary op hop l r ihl ihr =>
      rcases List.append_eq_append_iff.1 h with ⟨z, rfl, hz⟩ | ⟨z, hz, -⟩
      · have hpair := l.count_opening_tokens
        rcases z with - | ⟨t, z⟩
        · simp [hpair]
        obtain ⟨rfl, hzy⟩ := List.cons.inj hz
        have := ihr hzy
        simp
        omega
      · exact ihl hz

/-- **An outermost operator binds at most as loosely as the tree.** -/
theorem Ordered.precedence_le {e : Expression} (he : e.Ordered) {op : Operator}
    (hop : op.role = .binary) {x y : List Token} (h : e.tokens = x ++ .operator op :: y)
    (hx : x.count .opening = x.count .closing) : op.precedence ≤ e.looseness := by
  induction e generalizing x y with
  | operand t ht =>
      have hmem : Token.operator op ∈ (operand t ht).tokens := by simp [h]
      obtain rfl : .operator op = t := by simpa [tokens] using hmem
      exact absurd (ht.symm.trans hop) (by decide)
  | group e ih =>
      rcases x with - | ⟨t, x⟩
      · exact absurd (List.cons.inj h).1 (by simp)
      obtain ⟨rfl, hxy⟩ := List.cons.inj h
      exfalso
      rcases List.append_eq_append_iff.1 hxy with ⟨z, rfl, hz⟩ | ⟨z, hz, -⟩
      · rcases z with - | ⟨t, z⟩
        · exact absurd (List.cons.inj hz).1 (by simp)
        · exact absurd (List.cons.inj hz).2 (by simp)
      · have := count_closing_le hz
        simp at hx
        omega
  | negation e ih =>
      rcases x with - | ⟨t, x⟩
      · obtain rfl : Operator.not = op := by simpa [tokens] using (List.cons.inj h).1
        exact absurd hop (by decide)
      obtain ⟨rfl, hxy⟩ := List.cons.inj h
      exact (ih he.2 hxy (by simpa using hx)).trans he.1
  | binary op' hop' l r ihl ihr =>
      obtain ⟨hl, hr, hlo, hro⟩ := he
      rcases List.append_eq_append_iff.1 h with ⟨z, rfl, hz⟩ | ⟨z, hz, hzy⟩
      · rcases z with - | ⟨t, z⟩
        · obtain rfl : op' = op := by simpa using (List.cons.inj hz).1
          exact le_refl _
        obtain ⟨rfl, hzy⟩ := List.cons.inj hz
        refine (ihr hro hzy ?_).trans hr.le
        simpa [l.count_opening_tokens] using hx
      · rcases z with - | ⟨t, z⟩
        · obtain rfl : op = op' := by simpa using (List.cons.inj hzy).1
          exact le_refl _
        obtain ⟨rfl, -⟩ := List.cons.inj hzy
        exact (ihl hlo hz hx).trans hl

/-- A tree that is no binary operator has no outermost binary operator. -/
theorem Ordered.tokens_ne_binary {e : Expression} (he : e.Ordered)
    (hle : e.looseness ≤ Operator.not.precedence) {op : Operator} (hop : op.role = .binary)
    (l r : Expression) : e.tokens ≠ (binary op hop l r).tokens := by
  intro h
  have := he.precedence_le hop h l.count_opening_tokens
  exact absurd (not_precedence_lt hop) (not_lt.2 (this.trans hle))

/-- Of two ordered ways to split a sentence at an outermost operator neither has its
operator before that of the other: such an operator would bind at most as loosely as the
second and, standing left of it, more loosely. -/
theorem Ordered.not_split_before {op op' : Operator} {hop : op.role = .binary}
    {hop' : op'.role = .binary} {l r l' r' : Expression} (h : (binary op hop l r).Ordered)
    (h' : (binary op' hop' l' r').Ordered) {x : List Token}
    (hl : l'.tokens = l.tokens ++ .operator op :: x)
    (hr : r.tokens = x ++ .operator op' :: r'.tokens) : False := by
  obtain ⟨-, hrl, -, hro⟩ := h
  obtain ⟨hll', -, hlo', -⟩ := h'
  have hle : op.precedence ≤ op'.precedence :=
    (hlo'.precedence_le hop hl l.count_opening_tokens).trans hll'
  have hx : x.count .opening = x.count .closing := by
    have hpair := r.count_opening_tokens
    have hpair' := r'.count_opening_tokens
    simp [hr] at hpair
    omega
  have hlt : op'.precedence < op.precedence :=
    (hro.precedence_le hop' hr hx).trans_lt hrl
  omega

/-- **A sentence has one ordered tree.** -/
theorem Ordered.eq_of_tokens_eq {e f : Expression} (he : e.Ordered) (hf : f.Ordered)
    (h : e.tokens = f.tokens) : e = f := by
  induction e generalizing f with
  | operand t ht =>
      cases f with
      | operand u hu =>
          obtain rfl : t = u := (List.cons.inj h).1
          rfl
      | group f =>
          obtain rfl : t = .opening := (List.cons.inj h).1
          exact absurd ht (by decide)
      | negation f =>
          obtain rfl : t = .operator .not := (List.cons.inj h).1
          exact absurd ht (by decide)
      | binary op hop l r => exact absurd h (he.tokens_ne_binary (Nat.zero_le _) hop l r)
  | group e ih =>
      cases f with
      | operand u hu =>
          obtain rfl : .opening = u := (List.cons.inj h).1
          exact absurd hu (by decide)
      | group f => rw [ih (f := f) he hf (List.append_cancel_right (List.cons.inj h).2)]
      | negation f => exact absurd (List.cons.inj h).1 (by simp)
      | binary op hop l r => exact absurd h (he.tokens_ne_binary (Nat.zero_le _) hop l r)
  | negation e ih =>
      cases f with
      | operand u hu =>
          obtain rfl : .operator .not = u := (List.cons.inj h).1
          exact absurd hu (by decide)
      | group f => exact absurd (List.cons.inj h).1 (by simp)
      | negation f => rw [ih he.2 hf.2 (List.cons.inj h).2]
      | binary op hop l r => exact absurd h (he.tokens_ne_binary (le_refl _) hop l r)
  | binary op hop l r ihl ihr =>
      cases f with
      | operand u hu => exact absurd h.symm (hf.tokens_ne_binary (Nat.zero_le _) hop l r)
      | group f => exact absurd h.symm (hf.tokens_ne_binary (Nat.zero_le _) hop l r)
      | negation f => exact absurd h.symm (hf.tokens_ne_binary (le_refl _) hop l r)
      | binary op' hop' l' r' =>
          rcases List.append_eq_append_iff.1 h with ⟨z, hl, hz⟩ | ⟨z, hl, hz⟩
          · rcases z with - | ⟨t, z⟩
            · obtain ⟨htop, hr⟩ := List.cons.inj hz
              obtain rfl : op = op' := Token.operator.inj htop
              rw [ihl he.2.2.1 hf.2.2.1 (by simpa using hl.symm), ihr he.2.2.2 hf.2.2.2 hr]
            · obtain ⟨rfl, hr⟩ := List.cons.inj hz
              exact (he.not_split_before hf hl hr).elim
          · rcases z with - | ⟨t, z⟩
            · obtain ⟨htop, hr⟩ := List.cons.inj hz
              obtain rfl : op' = op := Token.operator.inj htop
              rw [ihl he.2.2.1 hf.2.2.1 (by simpa using hl), ihr he.2.2.2 hf.2.2.2 hr.symm]
            · obtain ⟨rfl, hr⟩ := List.cons.inj hz
              exact (hf.not_split_before he hl hr).elim

end Expression

end JsonPath
