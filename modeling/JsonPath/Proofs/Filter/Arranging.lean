import Mathlib.Data.List.TakeWhile
import JsonPath.Filter.Postfix
import JsonPath.Proofs.Filter.Expression

/-!
# The Order in Which a Filter is Stored

`Arrangement.run` reads a filter token by token from its text. Here the reading is taken
apart: `Filter.enclosed?` gives the tokens between the parenthesis that opens a filter and
the one that closes it, and `Arrangement.feedAll` feeds a list of tokens to an
arrangement. A run is the two together (`Arrangement.run_eq_ok_iff`), so what is proved of
the order of the tokens is proved about lists.

The order of a tree is found by induction on the tree. After its tokens some operators of
a tree still wait on the stack; the invariant of the induction is that the output and what
waits make up `Expression.arranged`, and that what waits binds at most as loosely as the
tree, so that it goes as soon as an operator arrives that may stand above the tree.

An arriving `!` sends off a `!` that waits, although that one has no operand yet. So
`Expression.arranged` is the postfix order except that of two `!` in a row the first is
stored before its operand; `Expression.Ordered.arranged_eq_postorder_iff` says that the
two orders agree only where no `!` stands directly after another.

## Main results

* `Arrangement.run_eq_ok_iff`: a run is a reading of tokens and a feeding of them.
* `Arrangement.feedAll_tokens`: **feeding an ordered tree** stores `arranged`.
* `Arrangement.beginsWithTree_of_feedAll`: what is fed to the end without a parenthesis
  after an operand begins with an ordered tree.
-/

namespace JsonPath

/-- What a token is for the token after it: a closing parenthesis ends an operand. -/
def Token.trail : Token → Role
  | .closing => .operand
  | t => t.role

/-- How many parentheses are open after a token, given how many were before it. -/
def Token.nesting : Token → Nat → Nat
  | .opening, n => n + 1
  | .closing, n => n - 1
  | _, n => n

/-- The tokens up to the parenthesis that closes the filter, and the rest after it.
`previous` is the role of what stands before them, `opened` counts the parentheses that
were opened inside the filter and not closed. -/
def Filter.enclosed? (previous : Role) (opened : Nat) (s : List Char) :
    Option (List Token × List Char) :=
  match h : Token.next previous s with
  | .error _ => none
  | .ok (t, rest) =>
    have := Token.length_lt_of_next h
    if t = .closing ∧ opened = 0 then some ([], rest)
    else (enclosed? t.trail (t.nesting opened) rest).map fun p => (t :: p.1, p.2)
termination_by s.length

/-- No parenthesis opens directly after an operand or a closing parenthesis. -/
def Filter.NoJuxtaposition (ts : List Token) : Prop :=
  ts.IsChain fun t u => t.trail = .operand → u ≠ .opening

/-- No `!` stands directly after another. -/
def Filter.NoDoubleNegation (ts : List Token) : Prop :=
  ts.IsChain fun t u => t = .operator .not → u ≠ .operator .not

/-- Where a token is refused, nothing is enclosed. -/
theorem Filter.enclosed?_of_error {previous : Role} {n : Nat} {s rest : List Char}
    (h : Token.next previous s = .error rest) : Filter.enclosed? previous n s = none := by
  rw [Filter.enclosed?]
  split
  · rfl
  · next h' => rw [h] at h'; cases h'

/-- A token is enclosed with what follows it, unless it closes the outermost parenthesis. -/
theorem Filter.enclosed?_of_ok {previous : Role} {n : Nat} {s rest : List Char} {t : Token}
    (h : Token.next previous s = .ok (t, rest)) :
    Filter.enclosed? previous n s =
      if t = .closing ∧ n = 0 then some ([], rest)
      else (Filter.enclosed? t.trail (t.nesting n) rest).map fun p => (t :: p.1, p.2) := by
  rw [Filter.enclosed?]
  split
  · next h' => rw [h] at h'; cases h'
  · next h' =>
      rw [h] at h'
      obtain ⟨rfl, rfl⟩ : _ = _ ∧ _ = _ := by simpa using h'
      rfl

namespace Arrangement

/-! ### Feeding one token -/

/-- No operator is an operand. -/
theorem role_ne_operand (op : Operator) : op.role ≠ .operand := by
  cases op <;> decide

/-- An operand goes to the output, unless it follows another one. -/
theorem feed_operand {a : Arrangement} {t : Token} (ht : t.role = .operand)
    (ha : a.previous ≠ .operand) :
    a.feed t = some (.more ⟨a.output ++ [t], a.stack, a.depth, .operand⟩) := by
  cases t with
  | operator op => exact absurd ht (role_ne_operand op)
  | opening => exact absurd ht (by decide)
  | closing => exact absurd ht (by decide)
  | _ => simp [feed, ha]

/-- An opening parenthesis goes on the stack. -/
theorem feed_opening (a : Arrangement) :
    a.feed .opening = some (.more ⟨a.output, .opening :: a.stack, a.depth + 1, .none⟩) :=
  rfl

/-- An operator sends off what precedes it. -/
theorem feed_operator (output w stack : List Token) (d : Nat) {previous : Role}
    {op : Operator} (ha : admits ⟨output, w ++ stack, d, previous⟩ op)
    (hw : ∀ t ∈ w, precedes op t) (hs : ∀ t ∈ stack.head?, ¬ precedes op t) :
    feed ⟨output, w ++ stack, d, previous⟩ (.operator op) =
      some (.more ⟨output ++ w, .operator op :: stack, d, op.role⟩) := by
  have htake : stack.takeWhile (precedes op) = [] := by
    cases stack with
    | nil => rfl
    | cons t stack => simp [hs t (by simp)]
  have hdrop : stack.dropWhile (precedes op) = stack := by
    cases stack with
    | nil => rfl
    | cons t stack => simp [hs t (by simp)]
  simp only [feed, ha, if_true, List.takeWhile_append_of_pos hw,
    List.dropWhile_append_of_pos hw, htake, hdrop, List.append_nil]

/-- A closing parenthesis sends off everything down to its partner. -/
theorem feed_closing (output w stack : List Token) {d : Nat} (hd : 1 < d)
    (hw : ∀ t ∈ w, t ≠ .opening) :
    feed ⟨output, w ++ .opening :: stack, d, .operand⟩ .closing =
      some (.more ⟨output ++ w, stack, d - 1, .operand⟩) := by
  have hw' : ∀ t ∈ w, (t != Token.opening) = true := by simpa using hw
  simp [feed, close?, List.takeWhile_append_of_pos hw', List.dropWhile_append_of_pos hw',
    not_le.2 hd]

/-- **What a token can do.** All that happens to an arrangement when a token is fed to it
that does not close the filter. -/
theorem feed_eq_more {a b : Arrangement} {t : Token} (h : a.feed t = some (.more b)) :
    (t = .opening ∧ b = ⟨a.output, .opening :: a.stack, a.depth + 1, .none⟩) ∨
    (t = .closing ∧ a.previous = .operand ∧ 1 < a.depth ∧ ∃ w stack,
      a.stack = w ++ .opening :: stack ∧ (∀ u ∈ w, u ≠ .opening) ∧
      b = ⟨a.output ++ w, stack, a.depth - 1, .operand⟩) ∨
    (∃ op, t = .operator op ∧ a.admits op ∧ ∃ w stack, a.stack = w ++ stack ∧
      (∀ u ∈ w, precedes op u) ∧
      b = ⟨a.output ++ w, .operator op :: stack, a.depth, op.role⟩) ∨
    (t.role = .operand ∧ a.previous ≠ .operand ∧
      b = ⟨a.output ++ [t], a.stack, a.depth, .operand⟩) := by
  cases t with
  | opening =>
      simp only [feed, Option.some.injEq, Fed.more.injEq] at h
      exact .inl ⟨rfl, h.symm⟩
  | closing =>
      simp only [feed, close?] at h
      split at h
      · cases h
      next hprev =>
      split at h
      · cases h
      next hdepth =>
      split at h
      · cases h
      next t stack hstack =>
      simp only [Option.some.injEq, Fed.more.injEq] at h
      have hsplit := List.takeWhile_append_dropWhile (p := (· != Token.opening)) (l := a.stack)
      have ht : t = .opening := by
        have := List.head_dropWhile_not (· != Token.opening) (l := a.stack) (by simp [hstack])
        simpa [hstack] using this
      rw [hstack, ht] at hsplit
      refine .inr (.inl ⟨rfl, by simpa using hprev, not_le.1 hdepth, _, stack,
        hsplit.symm, ?_, h.symm⟩)
      intro u hu
      simpa using List.mem_takeWhile_imp hu
  | operator op =>
      simp only [feed] at h
      split at h
      · next hadmits =>
        simp only [Option.some.injEq, Fed.more.injEq] at h
        exact .inr (.inr (.inl ⟨op, rfl, hadmits, _, _,
          List.takeWhile_append_dropWhile.symm, fun _ => List.mem_takeWhile_imp, h.symm⟩))
      · cases h
  | _ =>
      simp only [feed] at h
      split at h
      · cases h
      next hprev =>
      simp only [Option.some.injEq, Fed.more.injEq] at h
      exact .inr (.inr (.inr ⟨rfl, by simpa using hprev, h.symm⟩))

/-- A token opens at most one more parenthesis. -/
theorem depth_le_of_feed {a b : Arrangement} {t : Token} (h : a.feed t = some (.more b)) :
    b.depth ≤ a.depth + 1 := by
  rcases feed_eq_more h with ⟨-, rfl⟩ | ⟨-, -, -, w, stack, -, -, rfl⟩ |
    ⟨op, -, -, w, stack, -, -, rfl⟩ | ⟨-, -, rfl⟩
  · exact Nat.le_refl _
  · exact (Nat.sub_le _ _).trans (Nat.le_succ _)
  · exact Nat.le_succ _
  · exact Nat.le_succ _

/-- The parenthesis that closes the filter changes nothing. -/
theorem feed_eq_done {a b : Arrangement} {t : Token} (h : a.feed t = some (.done b)) :
    t = .closing ∧ a.previous = .operand ∧ a.depth ≤ 1 ∧ b = a := by
  cases t with
  | closing =>
      simp only [feed, close?] at h
      split at h
      · cases h
      next hprev =>
      split at h
      · next hdepth =>
        simp only [Option.some.injEq, Fed.done.injEq] at h
        exact ⟨rfl, by simpa using hprev, hdepth, h.symm⟩
      · split at h <;> cases h
  | opening => cases h
  | operator op =>
      simp only [feed] at h
      split at h <;> cases h
  | _ =>
      simp only [feed] at h
      split at h <;> cases h

/-- A token that was fed decides what may follow and how many parentheses are open. -/
theorem previous_of_feed {a b : Arrangement} {t : Token} (h : a.feed t = some (.more b))
    (ha : 1 ≤ a.depth) :
    b.previous = t.trail ∧ 1 ≤ b.depth ∧ b.depth - 1 = t.nesting (a.depth - 1) ∧
      ¬ (t = .closing ∧ a.depth - 1 = 0) := by
  rcases feed_eq_more h with ⟨rfl, rfl⟩ | ⟨rfl, -, hd, w, stack, -, -, rfl⟩ |
    ⟨op, rfl, -, w, stack, -, -, rfl⟩ | ⟨ht, -, rfl⟩
  · exact ⟨rfl, by simp, by simp [Token.nesting, Nat.sub_add_cancel ha], by simp⟩
  · exact ⟨rfl, Nat.le_sub_of_add_le hd, rfl, by simp; omega⟩
  · exact ⟨rfl, ha, rfl, by simp⟩
  · cases t with
    | operator op => exact absurd ht (role_ne_operand op)
    | opening => exact absurd ht (by decide)
    | closing => exact absurd ht (by decide)
    | _ => exact ⟨rfl, ha, rfl, by simp⟩

/-! ### Feeding a list of tokens -/

/-- Feeds tokens none of which closes the filter. -/
def feedAll (a : Arrangement) : List Token → Option Arrangement
  | [] => some a
  | t :: ts =>
    match a.feed t with
    | some (.more b) => b.feedAll ts
    | _ => none

/-- Tokens are fed one after the other. -/
theorem feedAll_cons {a b : Arrangement} {t : Token} (h : a.feed t = some (.more b))
    (ts : List Token) : a.feedAll (t :: ts) = b.feedAll ts := by
  rw [feedAll, h]

/-- Where all tokens are accepted, the first is. -/
theorem exists_of_feedAll_cons {a c : Arrangement} {t : Token} {ts : List Token}
    (h : a.feedAll (t :: ts) = some c) :
    ∃ b, a.feed t = some (.more b) ∧ b.feedAll ts = some c := by
  rw [feedAll] at h
  split at h
  · next b hb => exact ⟨b, hb, h⟩
  · cases h

/-- Tokens that are joined are fed one part after the other. -/
theorem feedAll_append (a : Arrangement) (ts us : List Token) :
    a.feedAll (ts ++ us) = (a.feedAll ts).bind fun b => b.feedAll us := by
  induction ts generalizing a with
  | nil => rfl
  | cons t ts ih =>
      rw [List.cons_append, feedAll, feedAll]
      split
      · exact ih _
      · rfl

/-- **A run is a reading and a feeding.** An arrangement reads its filter to the end
exactly if the text has tokens up to the closing parenthesis, all of them can be fed, and
the last of them ends an operand. -/
theorem run_eq_ok_iff {a b : Arrangement} {s rest : List Char} (ha : 1 ≤ a.depth) :
    a.run s = .ok (b, rest) ↔
      ∃ tokens, Filter.enclosed? a.previous (a.depth - 1) s = some (tokens, rest) ∧
        a.feedAll tokens = some b ∧ b.previous = .operand ∧ b.depth = 1 := by
  fun_induction run a s with
  | case1 a s err h => simp [Filter.enclosed?_of_error h]
  | case2 a s t after h _ hfeed =>
      rw [Filter.enclosed?_of_ok h]
      constructor
      · exact fun h => by cases h
      rintro ⟨tokens, htokens, hall, hprev, -⟩
      split at htokens
      · next hclose =>
        obtain ⟨rfl, rfl⟩ : [] = tokens ∧ after = rest := by simpa using htokens
        obtain rfl : a = b := by simpa [feedAll] using hall
        rw [hclose.1] at hfeed
        have hd : a.depth ≤ 1 := by omega
        simp [feed, close?, hprev, hd] at hfeed
      · obtain ⟨p, -, hp⟩ := Option.map_eq_some_iff.1 htokens
        obtain ⟨rfl, -⟩ := Prod.mk.inj hp
        obtain ⟨c, hc, -⟩ := exists_of_feedAll_cons hall
        rw [hfeed] at hc
        cases hc
  | case3 a s t after h _ c hfeed =>
      obtain ⟨rfl, hprev, hd, rfl⟩ := feed_eq_done hfeed
      rw [Filter.enclosed?_of_ok h, if_pos ⟨rfl, by omega⟩]
      constructor
      · intro hok
        obtain ⟨rfl, rfl⟩ : c = b ∧ after = rest := by simpa using hok
        exact ⟨[], rfl, rfl, hprev, by omega⟩
      · rintro ⟨tokens, htokens, hall, -, -⟩
        obtain ⟨rfl, rfl⟩ : [] = tokens ∧ after = rest := by simpa using htokens
        obtain rfl : c = b := by simpa [feedAll] using hall
        rfl
  | case4 a s t after h _ c hfeed ih =>
      obtain ⟨hprev, hd, hdepth, hopen⟩ := previous_of_feed hfeed ha
      rw [Filter.enclosed?_of_ok h, if_neg hopen, ih hd, hprev, hdepth]
      constructor
      · rintro ⟨tokens, htokens, hall, hlast⟩
        exact ⟨t :: tokens, by rw [htokens]; rfl, by rw [feedAll_cons hfeed, hall], hlast⟩
      · rintro ⟨tokens, htokens, hall, hlast⟩
        obtain ⟨p, hp, hpt⟩ := Option.map_eq_some_iff.1 htokens
        obtain ⟨rfl, rfl⟩ := Prod.mk.inj hpt
        exact ⟨p.1, hp, by rwa [feedAll_cons hfeed] at hall, hlast⟩

end Arrangement

/-! ### The order in which a tree is stored -/

namespace Expression

/-- The tokens of a filter in the order in which they are stored: the postfix order, except
that of two `!` in a row the first comes before its operand. -/
def arranged : Expression → List Token
  | .operand t _ => [t]
  | .group e => e.arranged
  | .negation (.negation e) => .operator .not :: (negation e).arranged
  | .negation e => e.arranged ++ [.operator .not]
  | .binary op _ l r => l.arranged ++ r.arranged ++ [.operator op]

/-- A negation of what is none stands behind its operand. -/
theorem arranged_negation {e : Expression} (h : ∀ f, e ≠ .negation f) :
    (negation e).arranged = e.arranged ++ [.operator .not] := by
  cases e with
  | negation f => exact absurd rfl (h f)
  | _ => rfl

/-- The stored tokens are as many as those of the postfix order. -/
theorem length_arranged (e : Expression) : e.arranged.length = e.postorder.length := by
  induction e with
  | operand t h => rfl
  | group e ih => exact ih
  | negation e ih =>
      by_cases hne : ∃ f, e = .negation f
      · obtain ⟨f, rfl⟩ := hne
        rw [arranged, postorder, List.length_cons, ih, List.length_append]
        rfl
      · rw [arranged_negation fun f hf => hne ⟨f, hf⟩, postorder, List.length_append, ih,
          List.length_append]
  | binary op h l r ihl ihr => simp [arranged, postorder, ihl, ihr]

/-- A postfix order begins with an operand. -/
theorem exists_postorder_eq_cons (e : Expression) :
    ∃ t ts, e.postorder = t :: ts ∧ t.role = .operand := by
  induction e with
  | operand t h => exact ⟨t, [], rfl, h⟩
  | group e ih => exact ih
  | negation e ih =>
      obtain ⟨t, ts, hts, ht⟩ := ih
      exact ⟨t, ts ++ [.operator .not], by rw [postorder, hts, List.cons_append], ht⟩
  | binary op h l r ihl _ =>
      obtain ⟨t, ts, hts, ht⟩ := ihl
      exact ⟨t, ts ++ r.postorder ++ [.operator op], by simp [postorder, hts], ht⟩

/-- The first token of a tree: `!` only if the tree is a negation or has one on its left. -/
theorem Ordered.head_tokens_ne_not {e : Expression} (he : e.Ordered)
    (hle : e.looseness ≤ Operator.not.precedence) (hne : ∀ f, e ≠ .negation f) :
    ∀ t ∈ e.tokens.head?, t ≠ .operator .not := by
  intro t ht
  cases e with
  | operand u hu =>
      obtain rfl : u = t := by simpa [tokens] using ht
      rintro rfl
      exact absurd hu (by decide)
  | group e =>
      obtain rfl : Token.opening = t := by simpa [tokens] using ht
      simp
  | negation e => exact absurd rfl (hne e)
  | binary op hop l r => exact absurd (not_precedence_lt hop) (not_lt.2 hle)

/-- What stands under a lone `!` is an operand or in parentheses. -/
theorem Ordered.looseness_lt {e : Expression} (he : (negation e).Ordered)
    (hne : ∀ f, e ≠ .negation f) : e.looseness < Operator.not.precedence := by
  cases e with
  | operand t h => exact Nat.zero_lt_two
  | group e => exact Nat.zero_lt_two
  | negation e => exact absurd rfl (hne e)
  | binary op hop l r => exact absurd (not_precedence_lt hop) (not_lt.2 he.1)

/-- The last token of a tree ends an operand. -/
theorem trail_getLast_tokens (e : Expression) : ∀ t ∈ e.tokens.getLast?, t.trail = .operand := by
  induction e with
  | operand u hu =>
      intro t ht
      obtain rfl : u = t := by simpa [tokens] using ht
      cases u <;> first | exact hu | exact absurd hu (by decide)
  | group e ih =>
      intro t ht
      obtain rfl : Token.closing = t := by
        rw [tokens, ← List.cons_append, List.getLast?_concat] at ht
        exact Option.some.inj ht
      rfl
  | negation e ih =>
      intro t ht
      rw [tokens, List.getLast?_cons_of_ne_nil e.tokens_ne_nil] at ht
      exact ih t ht
  | binary op hop l r _ ih =>
      intro t ht
      rw [tokens, List.getLast?_append_of_ne_nil _ (List.cons_ne_nil _ _),
        List.getLast?_cons_of_ne_nil r.tokens_ne_nil] at ht
      exact ih t ht

/-- A pair of parentheses brings in no double negation. -/
theorem noDoubleNegation_group (e : Expression) :
    Filter.NoDoubleNegation (group e).tokens ↔ Filter.NoDoubleNegation e.tokens := by
  rw [Filter.NoDoubleNegation, tokens, List.isChain_cons, List.isChain_append]
  simp [Filter.NoDoubleNegation]

/-- A negation of what is none brings in no double negation. -/
theorem Ordered.noDoubleNegation_negation {e : Expression} (he : (negation e).Ordered)
    (hne : ∀ f, e ≠ .negation f) :
    Filter.NoDoubleNegation (negation e).tokens ↔ Filter.NoDoubleNegation e.tokens := by
  rw [Filter.NoDoubleNegation, tokens, List.isChain_cons]
  exact and_iff_right fun t ht _ => he.2.head_tokens_ne_not he.1 hne t ht

/-- A double negation between two operands is inside one of them. -/
theorem noDoubleNegation_binary {op : Operator} (hop : op.role = .binary) (l r : Expression) :
    Filter.NoDoubleNegation (binary op hop l r).tokens ↔
      Filter.NoDoubleNegation l.tokens ∧ Filter.NoDoubleNegation r.tokens := by
  have hne : op ≠ .not := by
    rintro rfl
    exact absurd hop (by decide)
  rw [Filter.NoDoubleNegation, tokens, List.isChain_append, List.isChain_cons]
  simp [Filter.NoDoubleNegation, hne]

/-- **The stored order is the postfix order exactly where no `!` stands directly after
another.** The first of two such `!` is stored before its operand, and a postfix order
begins with an operand. -/
theorem Ordered.arranged_eq_postorder_iff {e : Expression} (he : e.Ordered) :
    e.arranged = e.postorder ↔ Filter.NoDoubleNegation e.tokens := by
  induction e with
  | operand t h => exact iff_of_true rfl (List.isChain_singleton t)
  | group e ih => exact (ih he).trans (noDoubleNegation_group e).symm
  | negation e ih =>
      by_cases hne : ∃ f, e = .negation f
      · obtain ⟨f, rfl⟩ := hne
        refine iff_of_false (fun h => ?_) fun h => ?_
        · obtain ⟨t, ts, hts, ht⟩ := (negation (negation f)).exists_postorder_eq_cons
          rw [arranged, hts] at h
          obtain rfl : .operator .not = t := (List.cons.inj h).1
          exact absurd ht (by decide)
        · exact (List.isChain_cons_cons.1 h).1 rfl rfl
      · have hne' : ∀ f, e ≠ .negation f := fun f hf => hne ⟨f, hf⟩
        rw [arranged_negation hne', postorder, List.append_left_inj, ih he.2,
          he.noDoubleNegation_negation hne']
  | binary op hop l r ihl ihr =>
      rw [noDoubleNegation_binary, ← ihl he.2.2.1, ← ihr he.2.2.2, arranged, postorder,
        List.append_left_inj]
      constructor
      · exact fun h => List.append_inj h l.length_arranged
      · rintro ⟨hl, hr⟩
        rw [hl, hr]

end Expression

namespace Arrangement

/-- Nothing on top of the stack goes before an operator that binds at least as tightly as
`k` says. -/
def Holds (k : Nat) (stack : List Token) : Prop :=
  ∀ t ∈ stack.head?, t ≠ .opening → k < t.precedence

/-- Nothing on a stack that holds goes before the operator. -/
theorem Holds.not_precedes {k : Nat} {stack : List Token} (h : Holds k stack)
    {op : Operator} (hop : op.precedence ≤ k) : ∀ t ∈ stack.head?, ¬ precedes op t := by
  intro t ht hp
  simp only [precedes, Bool.and_eq_true, bne_iff_ne, decide_eq_true_eq] at hp
  exact absurd (h t ht hp.1) (not_lt.2 (hp.2.trans hop))

/-- A stack that holds against looser operators holds against tighter ones. -/
theorem Holds.mono {k k' : Nat} {stack : List Token} (h : Holds k stack) (hk : k' ≤ k) :
    Holds k' stack :=
  fun t ht hne => hk.trans_lt (h t ht hne)

/-- An operator that binds more loosely holds. -/
theorem holds_operator {k : Nat} {op : Operator} (h : k < op.precedence)
    (stack : List Token) : Holds k (.operator op :: stack) := by
  intro t ht _
  obtain rfl : Token.operator op = t := by simpa using ht
  exact h

/-- An operator that binds no more loosely goes before. -/
theorem precedes_operator {op op' : Operator} (h : op'.precedence ≤ op.precedence) :
    precedes op (.operator op') := by
  simp [precedes, Token.precedence, h]

/-- Only operators wait, and none binds more loosely than `k` says. -/
def Waits (k : Nat) (waiting : List Token) : Prop :=
  ∀ t ∈ waiting, ∃ op, t = .operator op ∧ op.precedence ≤ k

/-- Nothing waits on an empty stack. -/
theorem waits_nil (k : Nat) : Waits k [] := by
  simp [Waits]

/-- An operator joins what it found waiting above it. -/
theorem Waits.concat {k : Nat} {waiting : List Token} (h : Waits k waiting) {op : Operator}
    (hk : k ≤ op.precedence) : Waits op.precedence (waiting ++ [.operator op]) := by
  intro t ht
  rcases List.mem_append.1 ht with ht | ht
  · obtain ⟨op', rfl, hop'⟩ := h t ht
    exact ⟨op', rfl, hop'.trans hk⟩
  · exact ⟨op, by simpa using ht, le_refl _⟩

/-- What waits goes before an operator that binds no more tightly. -/
theorem Waits.precedes {k : Nat} {waiting : List Token} (h : Waits k waiting) {op : Operator}
    (hk : k ≤ op.precedence) : ∀ t ∈ waiting, precedes op t := by
  intro t ht
  obtain ⟨op', rfl, hop'⟩ := h t ht
  exact precedes_operator (hop'.trans hk)

/-- No parenthesis waits. -/
theorem Waits.ne_opening {k : Nat} {waiting : List Token} (h : Waits k waiting) :
    ∀ t ∈ waiting, t ≠ .opening := by
  intro t ht
  obtain ⟨op, rfl, -⟩ := h t ht
  simp

/-- A negation is admitted where an operand may stand. -/
theorem admits_not {output stack : List Token} {d : Nat} {previous : Role}
    (h : previous ≠ .operand) : admits ⟨output, stack, d, previous⟩ .not := by
  simpa [admits, Operator.role] using h

/-- An operator between operands is admitted behind one. -/
theorem admits_binary {output stack : List Token} {d : Nat} {op : Operator}
    (hop : op.role = .binary) : admits ⟨output, stack, d, .operand⟩ op := by
  simp [admits, hop]

/-- An operator that nothing on the stack precedes waits. -/
theorem feed_operator_of_holds (output stack : List Token) (d : Nat)
    {previous : Role} {op : Operator} (ha : admits ⟨output, stack, d, previous⟩ op)
    (hs : Holds op.precedence stack) :
    feed ⟨output, stack, d, previous⟩ (.operator op) =
      some (.more ⟨output, .operator op :: stack, d, op.role⟩) := by
  have h := feed_operator output [] stack d ha (by simp) (hs.not_precedes (le_refl _))
  rwa [List.append_nil] at h

/-- A second `!` sends off a first one that waits. -/
theorem feedAll_not_not {output stack : List Token} {d : Nat} {previous : Role}
    (hprev : previous ≠ .operand) (hs : Holds Operator.not.precedence stack)
    (ts : List Token) :
    feedAll ⟨output, stack, d, previous⟩ (.operator .not :: .operator .not :: ts) =
      feedAll ⟨output ++ [.operator .not], stack, d, previous⟩ (.operator .not :: ts) := by
  have hfirst := feed_operator_of_holds output stack d (admits_not hprev) hs
  have hsecond := feed_operator output [.operator .not] stack d
    (admits_not (by decide : Role.unary ≠ .operand))
    (by simpa using precedes_operator (le_refl _)) (hs.not_precedes (le_refl _))
  have hlone := feed_operator_of_holds (output ++ [.operator .not]) stack d
    (admits_not hprev) hs
  rw [feedAll_cons hfirst, feedAll_cons hlone]
  exact feedAll_cons hsecond ts

/-- **Feeding an ordered tree.** Where an operand may stand, on a stack from which nothing in the
tree sends anything off, the tokens of an ordered tree can be fed. What they add to the output and
what they leave waiting make up the stored order of the tree, and only operators wait that bind at
most as loosely as the tree. Of two `!` the second sends off the first. -/
theorem feedAll_tokens {e : Expression} (he : e.Ordered) (output stack : List Token)
    {d : Nat} {previous : Role} (hd : 1 ≤ d) (hprev : previous ≠ .operand)
    (hs : Holds e.looseness stack) :
    ∃ sent waiting, feedAll ⟨output, stack, d, previous⟩ e.tokens =
        some ⟨output ++ sent, waiting ++ stack, d, .operand⟩ ∧
      sent ++ waiting = e.arranged ∧ Waits e.looseness waiting := by
  induction e generalizing output stack d previous with
  | operand t ht =>
      refine ⟨[t], [], ?_, rfl, waits_nil _⟩
      exact feedAll_cons (feed_operand ht hprev) []
  | group e ih =>
      obtain ⟨sent, waiting, hfeed, harr, hwait⟩ := ih he output
        (.opening :: stack) (Nat.le_add_left 1 d) (by decide : Role.none ≠ .operand)
        (by simp [Holds])
      refine ⟨sent ++ waiting, [], ?_, by rw [List.append_nil, harr]; rfl, waits_nil _⟩
      have hclose := feed_closing (output ++ sent) waiting stack
        (Nat.lt_add_of_pos_left hd : 1 < d + 1) hwait.ne_opening
      rw [Expression.tokens, feedAll_cons (feed_opening _), feedAll_append, hfeed,
        Option.bind_some, feedAll_cons hclose, List.append_assoc]
      rfl
  | negation e ih =>
      by_cases hne : ∃ f, e = .negation f
      · obtain ⟨f, rfl⟩ := hne
        obtain ⟨sent, waiting, hfeed, harr, hwait⟩ := ih he.2
          (output ++ [.operator .not]) stack hd hprev hs
        refine ⟨.operator .not :: sent, waiting, ?_, by rw [List.cons_append, harr]; rfl, hwait⟩
        rw [Expression.tokens, Expression.tokens, feedAll_not_not hprev hs]
        rw [Expression.tokens, List.append_assoc] at hfeed
        exact hfeed
      · have hne' : ∀ f, e ≠ .negation f := fun f hf => hne ⟨f, hf⟩
        have hlow := Expression.Ordered.looseness_lt he hne'
        obtain ⟨sent, waiting, hfeed, harr, hwait⟩ := ih he.2 output
          (.operator .not :: stack) hd (by decide : Role.unary ≠ .operand)
          (holds_operator hlow stack)
        have hnot := feed_operator_of_holds output stack d (admits_not hprev) hs
        refine ⟨sent, waiting ++ [.operator .not], ?_, ?_, ?_⟩
        · rw [Expression.tokens, feedAll_cons hnot, List.append_assoc]
          exact hfeed
        · rw [← List.append_assoc, harr, Expression.arranged_negation hne']
        · exact hwait.concat hlow.le
  | binary op hop l r ihl ihr =>
      obtain ⟨hl, hr, hlo, hro⟩ := he
      obtain ⟨sent, waiting, hfeed, harr, hwait⟩ := ihl hlo output stack hd hprev
        (hs.mono hl)
      have hmid := feed_operator (output ++ sent) waiting stack d (admits_binary hop)
        (hwait.precedes hl) (hs.not_precedes (le_refl _))
      obtain ⟨sent', waiting', hfeed', harr', hwait'⟩ := ihr hro
        (output ++ sent ++ waiting) (.operator op :: stack) hd
        (role_ne_operand op) (holds_operator hr stack)
      refine ⟨sent ++ waiting ++ sent', waiting' ++ [.operator op], ?_, ?_, ?_⟩
      · rw [Expression.tokens, feedAll_append, hfeed, Option.bind_some, feedAll_cons hmid,
          hfeed']
        simp
      · rw [Expression.arranged, ← harr, ← harr']
        simp
      · exact hwait'.concat hr.le

/-- The tokens begin with those of an ordered tree. The tokens after it are fed to the same
end, from an arrangement with an operand before it and as many parentheses open, and if
there are any, the first of them closes a parenthesis. -/
def BeginsWithTree (a c : Arrangement) (ts : List Token) : Prop :=
  ∃ (e : Expression) (us : List Token) (b : Arrangement), e.Ordered ∧ ts = e.tokens ++ us ∧
    b.previous = .operand ∧ b.depth = a.depth ∧ b.feedAll us = some c ∧
    ∀ t ∈ us.head?, t = .closing

/-- A tree in front of what is fed to the end is extended by the operators behind it, if what
follows each of them begins with a tree. -/
theorem beginsWithTree_of_tree {a b c : Arrangement} {ts us : List Token} {e : Expression}
    (hd : 1 ≤ a.depth) (hj : Filter.NoJuxtaposition ts) (he : e.Ordered) (hts : ts = e.tokens ++ us)
    (hb : b.previous = .operand) (hbd : b.depth = a.depth) (hus : b.feedAll us = some c)
    (hlater : ∀ (b' : Arrangement) (vs : List Token), vs.length < ts.length → 1 ≤ b'.depth →
      b'.previous ≠ .operand → Filter.NoJuxtaposition vs → b'.feedAll vs = some c →
        BeginsWithTree b' c vs) : BeginsWithTree a c ts := by
  rcases us with - | ⟨t, us⟩
  · exact ⟨e, [], b, he, hts, hb, hbd, hus, by simp⟩
  obtain ⟨b', hfeed, hrest⟩ := exists_of_feedAll_cons hus
  obtain ⟨-, hjus, hjoin⟩ := List.isChain_append.1 (hts ▸ hj)
  rcases feed_eq_more hfeed with ⟨rfl, -⟩ | ⟨rfl, -⟩ | ⟨op, rfl, hadmits, _, _, -, -, hb'⟩ |
    ⟨-, hne, -⟩
  · have hlast := List.getLast?_eq_some_getLast e.tokens_ne_nil
    exact absurd rfl (hjoin _ hlast .opening rfl (e.trail_getLast_tokens _ hlast))
  · exact ⟨e, .closing :: us, b, he, hts, hb, hbd, hus, by simp⟩
  · have hop : op.role = .binary := by
      cases op <;> first | rfl | simp [admits, Operator.role, hb] at hadmits
    have hlt : us.length < ts.length := by
      rw [hts, List.length_append, List.length_cons]
      omega
    obtain ⟨f, vs, b'', hf, rfl, hb'', hbd'', hvs, hhead⟩ :=
      hlater b' us hlt (by rw [hb', hbd]; exact hd) (by simp [hb', hop]) hjus.tail hrest
    obtain ⟨g, hg, hgt, -⟩ := Expression.exists_binary hop he hf
    exact ⟨g, vs, b'', hg, by rw [hts, hgt]; simp, hb'', by rw [hbd'', hb', hbd], hvs, hhead⟩
  · exact absurd hb hne

/-- **What is fed to the end begins with a tree.** The induction is on the number of
tokens; an operator after a tree joins it with the tree that is found after the
operator. -/
theorem beginsWithTree_of_feedAll {a c : Arrangement} {ts : List Token} (hd : 1 ≤ a.depth)
    (hprev : a.previous ≠ .operand) (hj : Filter.NoJuxtaposition ts)
    (h : a.feedAll ts = some c) (hc : c.previous = .operand) (hcd : c.depth = 1) :
    BeginsWithTree a c ts := by
  induction hn : ts.length using Nat.strong_induction_on generalizing a ts with
  | _ n ih =>
  have hlater : ∀ (b : Arrangement) (us : List Token), us.length < ts.length → 1 ≤ b.depth →
      b.previous ≠ .operand → Filter.NoJuxtaposition us → b.feedAll us = some c →
        BeginsWithTree b c us :=
    fun b us hlt hbd hb hus hfeed => ih _ (hn ▸ hlt) hbd hb hus hfeed rfl
  rcases ts with - | ⟨t, ts⟩
  · obtain rfl : a = c := Option.some.inj h
    exact absurd hc hprev
  obtain ⟨b, hfeed, hts⟩ := exists_of_feedAll_cons h
  have hlt : ts.length < (t :: ts).length := Nat.lt_succ_self _
  rcases feed_eq_more hfeed with ⟨rfl, hb⟩ | ⟨-, hne, -⟩ | ⟨op, rfl, hadmits, _, _, -, -, hb⟩ |
    ⟨ht, -, hb⟩
  · obtain ⟨e, us, b', he, rfl, hb', hbd', hus, hhead⟩ :=
      hlater b ts hlt (by simp [hb]) (by simp [hb]) hj.tail hts
    rw [hb] at hbd'
    rcases us with - | ⟨u, us⟩
    · obtain rfl : b' = c := Option.some.inj hus
      exact absurd (hcd.symm.trans hbd') (by simp; omega)
    obtain rfl : u = .closing := hhead u rfl
    obtain ⟨b'', hclose, hrest⟩ := exists_of_feedAll_cons hus
    rcases feed_eq_more hclose with ⟨h', -⟩ | ⟨-, -, -, _, _, -, -, hb''⟩ | ⟨_, h', -⟩ | ⟨h', -⟩
    · cases h'
    · exact beginsWithTree_of_tree (e := .group e) (b := b'') hd hj he
        (by simp [Expression.tokens]) (by rw [hb'']) (by rw [hb'', hbd']; rfl) hrest hlater
    · cases h'
    · cases h'
  · exact absurd hne hprev
  · obtain rfl : op = .not := by
      cases op <;> first | rfl | simp [admits, Operator.role, hprev] at hadmits
    obtain ⟨e, us, b', he, rfl, hb', hbd', hus, hhead⟩ :=
      hlater b ts hlt (by rw [hb]; exact hd) (by simp [hb, Operator.role]) hj.tail hts
    obtain ⟨f, hf, hft, -⟩ := Expression.exists_negation he
    exact ⟨f, us, b', hf, by rw [hft]; simp, hb', by rw [hbd', hb], hus, hhead⟩
  · exact beginsWithTree_of_tree (e := .operand t ht) (b := b) hd hj trivial rfl (by rw [hb])
      (by rw [hb]) hts hlater

end Arrangement

end JsonPath
