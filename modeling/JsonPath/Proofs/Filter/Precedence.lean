import JsonPath.Proofs.Filter.Balance
import JsonPath.Proofs.Filter.Lookahead

/-!
# Filters are Read by Precedence

What `Filter.read` stores of a filter, stated for its text. Two things can go wrong in a
filter that is read to its end: a parenthesis opens directly after an operand, and then two
operands stand beside each other in the postfix order; or a `!` stands directly after
another, and then the first is stored before its operand. Without either, reading a filter
is parsing it by precedence (`Filter.read_eq_postorder`).

The evaluation notices the first of the two always, by the operands that are left over. It
notices the second only if nothing else is on the stack: in `a && !!b` the first `!` takes
`a` for its operand. So a filter that leaves exactly one operand is stored in the postfix
order of its tree exactly if no `!` stands directly after another
(`Filter.eq_postorder_iff_of_height`).

## Main results

* `Filter.read_eq_postorder`: **a filter is read by precedence**.
* `Filter.eq_postorder_iff_of_height`: **a filter that can be evaluated** stands for its tree
  exactly where no `!` follows another.
-/

namespace JsonPath

namespace Filter

/-- A filter is read to its end exactly if its tokens can be fed. -/
theorem read_eq_ok_iff {s rest : List Char} {out : List Token} :
    Filter.read ('(' :: s) = .ok (out, rest) ↔
      ∃ tokens b, enclosed? .none 0 s = some (tokens, rest) ∧
        Arrangement.start.feedAll tokens = some b ∧ b.previous = .operand ∧ b.depth = 1 ∧
        out = b.output ++ b.stack := by
  have hstart : 1 ≤ Arrangement.start.depth := le_refl _
  rw [Filter.read]
  constructor
  · intro h
    split at h
    · cases h
    next a tail hrun =>
    split at h
    · cases h
    obtain ⟨rfl, rfl⟩ : a.output ++ a.stack = out ∧ tail = rest := by simpa using h
    obtain ⟨tokens, htokens, hfeed, hprev, hdepth⟩ := (Arrangement.run_eq_ok_iff hstart).1 hrun
    exact ⟨tokens, a, htokens, hfeed, hprev, hdepth, rfl⟩
  · rintro ⟨tokens, b, htokens, hfeed, hprev, hdepth, rfl⟩
    have hrun : Arrangement.start.run s = .ok (b, rest) :=
      (Arrangement.run_eq_ok_iff hstart).2 ⟨tokens, htokens, hfeed, hprev, hdepth⟩
    have hopened := (Arrangement.wellFormed_start.feedAll hfeed).opened
    have hnone : .opening ∉ b.stack := by
      rw [← List.count_eq_zero]
      omega
    rw [hrun]
    simp [hnone]

/-- **An ordered tree is stored** as `Expression.arranged` says. -/
theorem read_of_ordered {e : Expression} (he : e.Ordered) {s rest : List Char}
    (h : enclosed? .none 0 s = some (e.tokens, rest)) :
    Filter.read ('(' :: s) = .ok (e.arranged, rest) := by
  obtain ⟨sent, waiting, hfeed, harr, -⟩ := Arrangement.feedAll_tokens he [] []
    (le_refl 1) (by decide : Role.none ≠ .operand) (by simp [Arrangement.Holds])
  refine read_eq_ok_iff.2 ⟨e.tokens, _, h, hfeed, rfl, rfl, ?_⟩
  rw [List.nil_append, List.append_nil, harr]

/-- **What is read is a tree**, unless a parenthesis opens after an operand. -/
theorem exists_ordered_of_read {s rest : List Char} {out tokens : List Token}
    (h : Filter.read ('(' :: s) = .ok (out, rest))
    (htokens : enclosed? .none 0 s = some (tokens, rest)) (hj : NoJuxtaposition tokens) :
    ∃ e : Expression, e.Ordered ∧ e.tokens = tokens := by
  obtain ⟨tokens', c, htokens', hfeed, hprev, hdepth, -⟩ := read_eq_ok_iff.1 h
  obtain rfl : tokens' = tokens := by simpa [htokens'] using htokens
  obtain ⟨e, us, b, he, rfl, -, hbd, hus, hhead⟩ :=
    Arrangement.beginsWithTree_of_feedAll (le_refl 1) (by decide) hj hfeed hprev hdepth
  rcases us with - | ⟨t, us⟩
  · exact ⟨e, he, by simp⟩
  obtain rfl : t = .closing := hhead t rfl
  obtain ⟨b', hclose, -⟩ := Arrangement.exists_of_feedAll_cons hus
  rcases Arrangement.feed_eq_more hclose with ⟨h', -⟩ | ⟨-, -, hlt, -⟩ | ⟨_, h', -⟩ | ⟨h', -⟩
  · cases h'
  · rw [hbd] at hlt
    exact absurd hlt (by decide)
  · cases h'
  · cases h'

/-- A stored filter that leaves one operand has no parenthesis that opens after an
operand. -/
theorem noJuxtaposition_of_height {s rest : List Char} {out tokens : List Token}
    (h : Filter.read ('(' :: s) = .ok (out, rest))
    (htokens : enclosed? .none 0 s = some (tokens, rest)) (hheight : height 0 out = some 1) :
    NoJuxtaposition tokens := by
  obtain ⟨tokens', b, htokens', hfeed, hprev, -, rfl⟩ := read_eq_ok_iff.1 h
  obtain rfl : tokens' = tokens := by simpa [htokens'] using htokens
  have hleft := operands_of_height hheight
  have hbalance := Arrangement.operands_feedAll hfeed
  have hoperands := Arrangement.countP_feedAll hfeed (by decide : Role.operand ≠ .none)
  have hbinaries := Arrangement.countP_feedAll hfeed (by decide : Role.binary ≠ .none)
  rw [← operands, ← operands] at hoperands
  rw [← binaries, ← binaries] at hbinaries
  have hzero : juxtapositions .none tokens' = 0 := by
    simp [hprev, Arrangement.start, operands, binaries] at *
    omega
  exact (juxtapositions_eq_zero_iff.1 hzero).2

/-- **A filter is read by precedence.** Let no parenthesis open directly after an operand
and no `!` stand directly after another. Then the filter is accepted exactly if its tokens
are a sentence, and it is stored in the postfix order of the one ordered tree of that
sentence. More blanks between the tokens, and more or fewer parentheses around the parts of
the same tree, leave what is stored as it is. -/
theorem read_eq_postorder (s rest : List Char)
    (hs : ∀ tokens after, enclosed? .none 0 s = some (tokens, after) →
      NoJuxtaposition tokens ∧ NoDoubleNegation tokens) :
    ((∃ out, Filter.read ('(' :: s) = .ok (out, rest)) ↔
      ∃ tokens, enclosed? .none 0 s = some (tokens, rest) ∧ Sentence tokens) ∧
    ∀ tokens, enclosed? .none 0 s = some (tokens, rest) → Sentence tokens →
      ∃ e : Expression, e.Ordered ∧ e.tokens = tokens ∧
        (∀ f : Expression, f.Ordered → f.tokens = tokens → f = e) ∧
        Filter.read ('(' :: s) = .ok (e.postorder, rest) ∧
        (∀ s', Respaced .none 0 s s' → Filter.read ('(' :: s') = .ok (e.postorder, rest)) ∧
        ∀ (f : Expression) (s' rest' : List Char), f.Ordered → f.bare = e.bare →
          enclosed? .none 0 s' = some (f.tokens, rest') → NoDoubleNegation f.tokens →
          Filter.read ('(' :: s') = .ok (e.postorder, rest') := by
  have stored {e : Expression} (he : e.Ordered) {s rest : List Char}
      (hs : enclosed? .none 0 s = some (e.tokens, rest)) (hn : NoDoubleNegation e.tokens) :
      Filter.read ('(' :: s) = .ok (e.postorder, rest) := by
    rw [← he.arranged_eq_postorder_iff.2 hn]
    exact read_of_ordered he hs
  refine ⟨⟨?_, ?_⟩, ?_⟩
  · rintro ⟨out, hread⟩
    obtain ⟨tokens, _, htokens, -⟩ := read_eq_ok_iff.1 hread
    obtain ⟨e, -, rfl⟩ := exists_ordered_of_read hread htokens (hs _ _ htokens).1
    exact ⟨e.tokens, htokens, e.sentence_tokens⟩
  · rintro ⟨tokens, htokens, hsentence⟩
    obtain ⟨e, he, rfl⟩ := hsentence.exists_ordered
    exact ⟨e.postorder, stored he htokens (hs _ _ htokens).2⟩
  · intro tokens htokens hsentence
    obtain ⟨e, he, rfl⟩ := hsentence.exists_ordered
    have hn := (hs _ _ htokens).2
    refine ⟨e, he, rfl, fun f hf hft => hf.eq_of_tokens_eq he hft, stored he htokens hn, ?_, ?_⟩
    · intro s' hspaced
      exact stored he (hspaced.enclosed?_eq.trans htokens) hn
    · intro f s' rest' hf hbare htokens' hnf
      rw [← e.postorder_bare, ← hbare, f.postorder_bare]
      exact stored hf htokens' hnf

/-- The tokens of the disjunction are enclosed. -/
theorem enclosed?_disjunction :
    enclosed? .none 0 ['@', '|', '|', '!', '@', ')'] =
      some ([.candidate ⟨"@", []⟩, .operator .or, .operator .not, .candidate ⟨"@", []⟩], []) := by
  rw [enclosed?_of_ok (Token.next_candidate rfl),
    enclosed?_of_ok (by rfl : Token.next _ _ = .ok (.operator .or, ['!', '@', ')'])),
    enclosed?_of_ok (by rfl : Token.next _ _ = .ok (.operator .not, ['@', ')'])),
    enclosed?_of_ok (Token.next_candidate rfl),
    enclosed?_of_ok (by rfl : Token.next _ _ = .ok (.closing, []))]
  rfl

/-- `(@||!@)` is read by precedence. -/
theorem read_disjunction_eq_postorder :
    (∀ tokens after, enclosed? .none 0 ['@', '|', '|', '!', '@', ')'] = some (tokens, after) →
      NoJuxtaposition tokens ∧ NoDoubleNegation tokens) ∧
    ∃ e : Expression, e.Ordered ∧
      e.tokens = [.candidate ⟨"@", []⟩, .operator .or, .operator .not, .candidate ⟨"@", []⟩] ∧
      Filter.read ['(', '@', '|', '|', '!', '@', ')'] = .ok (e.postorder, []) := by
  have hs : ∀ tokens after,
      enclosed? .none 0 ['@', '|', '|', '!', '@', ')'] = some (tokens, after) →
        NoJuxtaposition tokens ∧ NoDoubleNegation tokens := by
    intro tokens after h
    rw [enclosed?_disjunction] at h
    obtain ⟨rfl, rfl⟩ := by simpa using h
    simp [NoJuxtaposition, NoDoubleNegation, Token.trail, Token.role]
  have hright : Sentence [.operator .not, .candidate ⟨"@", []⟩] := .negation (.operand rfl)
  have hleft : Sentence [.candidate ⟨"@", []⟩] := .operand rfl
  obtain ⟨e, he, ht, -, hread, -⟩ :=
    (read_eq_postorder _ _ hs).2 _ enclosed?_disjunction (.binary rfl hleft hright)
  exact ⟨hs, e, he, ht, hread⟩

/-- **A filter that leaves one operand** is never refused when it is evaluated. It has one
ordered tree, it is stored as `Expression.arranged` says, and that is the postfix order of
the tree exactly if no `!` stands directly after another. -/
theorem eq_postorder_iff_of_height {s rest : List Char} {out : List Token}
    (h : Filter.read ('(' :: s) = .ok (out, rest)) (hheight : height 0 out = some 1) :
    (∀ env root candidate expression,
      holds env out root candidate ≠ .error (.unevaluable expression)) ∧
    ∃ e : Expression, e.Ordered ∧ enclosed? .none 0 s = some (e.tokens, rest) ∧
      (∀ f : Expression, f.Ordered → f.tokens = e.tokens → f = e) ∧
      out = e.arranged ∧ (out = e.postorder ↔ NoDoubleNegation e.tokens) := by
  refine ⟨fun _ => holds_ne_unevaluable hheight, ?_⟩
  obtain ⟨tokens, _, htokens, -⟩ := read_eq_ok_iff.1 h
  have hj := noJuxtaposition_of_height h htokens hheight
  obtain ⟨e, he, rfl⟩ := exists_ordered_of_read h htokens hj
  obtain rfl : e.arranged = out := by
    have := (read_of_ordered he htokens).symm.trans h
    simpa using this
  exact ⟨e, he, htokens, fun f hf hft => hf.eq_of_tokens_eq he hft, rfl,
    he.arranged_eq_postorder_iff⟩

/-- The tree of `@ && !!@`. -/
def conjunction : Expression :=
  .binary .and rfl (.operand (.candidate ⟨"@", []⟩) rfl)
    (.negation (.negation (.operand (.candidate ⟨"@", []⟩) rfl)))

/-- The tree of `!@ && !@`. -/
def negatedConjunction : Expression :=
  .binary .and rfl (.negation (.operand (.candidate ⟨"@", []⟩) rfl))
    (.negation (.operand (.candidate ⟨"@", []⟩) rfl))

/-- The tree of the conjunction is ordered. -/
theorem conjunction_ordered : conjunction.Ordered := by
  simp [conjunction, Expression.Ordered, Expression.looseness, Operator.precedence]

/-- The tokens of the conjunction are enclosed. -/
theorem enclosed?_conjunction :
    enclosed? .none 0 ['@', '&', '&', '!', '!', '@', ')'] = some (conjunction.tokens, []) := by
  rw [enclosed?_of_ok (Token.next_candidate rfl),
    enclosed?_of_ok (by rfl : Token.next _ _ = .ok (.operator .and, ['!', '!', '@', ')'])),
    enclosed?_of_ok (by rfl : Token.next _ _ = .ok (.operator .not, ['!', '@', ')'])),
    enclosed?_of_ok (by rfl : Token.next _ _ = .ok (.operator .not, ['@', ')'])),
    enclosed?_of_ok (Token.next_candidate rfl),
    enclosed?_of_ok (by rfl : Token.next _ _ = .ok (.closing, []))]
  rfl

/-- The conjunction is stored as the program of the tree with both operands negated. -/
theorem read_conjunction :
    Filter.read ['(', '@', '&', '&', '!', '!', '@', ')'] =
      .ok (negatedConjunction.postorder, []) :=
  read_of_ordered conjunction_ordered enclosed?_conjunction

/-- `(@&&!!@)` leaves one operand and is not stored in the postfix order of its tree. -/
theorem conjunction_ne_postorder :
    Filter.read ['(', '@', '&', '&', '!', '!', '@', ')'] =
      .ok (negatedConjunction.postorder, []) ∧
    height 0 negatedConjunction.postorder = some 1 ∧
    ∃ e : Expression, e.Ordered ∧ e.tokens = conjunction.tokens ∧
      ¬ NoDoubleNegation e.tokens ∧ negatedConjunction.postorder ≠ e.postorder := by
  have hheight : height 0 negatedConjunction.postorder = some 1 := rfl
  obtain ⟨-, e, he, htokens, -, -, hiff⟩ := eq_postorder_iff_of_height read_conjunction hheight
  have ht : conjunction.tokens = e.tokens := by simpa [enclosed?_conjunction] using htokens
  have hdouble : ¬ NoDoubleNegation e.tokens := by
    rw [← ht]
    simp [conjunction, Expression.tokens, NoDoubleNegation]
  exact ⟨read_conjunction, hheight, e, he, ht.symm, hdouble, fun h => hdouble (hiff.1 h)⟩

/-- A filter can leave one operand and yet be stored in another order than that of its
tree. -/
theorem not_forall_eq_postorder_of_height :
    ¬ ∀ (s rest : List Char) (out : List Token), Filter.read ('(' :: s) = .ok (out, rest) →
      height 0 out = some 1 → ∃ e : Expression, e.Ordered ∧
        enclosed? .none 0 s = some (e.tokens, rest) ∧ out = e.postorder := by
  intro h
  obtain ⟨e, he, htokens, hout⟩ := h _ _ _ read_conjunction rfl
  have ht : conjunction.tokens = e.tokens := by simpa [enclosed?_conjunction] using htokens
  obtain rfl : conjunction = e := conjunction_ordered.eq_of_tokens_eq he ht
  exact absurd hout (by decide)

end Filter

end JsonPath
