import JsonPath.Proofs.Path.Faults

/-!
# What Holds Whenever a Token is Read

A filter is read in rounds: a token is read and fed, and the next round begins with the arrangement
that comes out of it and with what is left of the text. `Arrangement.Reads` says which arrangements
rounds begin with. Each of them comes from feeding the tokens that were read, so it is well formed
(`Arrangement.WellFormed`) and operands and binary operators balance in it.

Whether a parenthesis finds its partner is then a matter of counting. As many parentheses wait as
are open inside the filter; if one is, a closing parenthesis finds it, and if none is, no
parenthesis is left when the filter ends. So neither of the two places at which parentheses could
fail to pair up is ever reached.

## Main definitions

* `Arrangement.Reads`: the tokens that were read, the arrangement after them, and the rest.

## Main results

* `Arrangement.Reads.feedAll_eq`, `Arrangement.Reads.run_eq`: a round goes on from what was fed.
* `Arrangement.Reads.depth_add_length_le`: the depth is bounded by the text that was read.
* `Arrangement.Reads.exists_of_run`: a run ends in a round in which the filter is closed.
* `Filter.balanced_while_read`: **parentheses pair up and operands balance** in every round.
-/

namespace JsonPath

namespace Arrangement

/-- A round of the reading of a filter from `s` begins with the arrangement `a`: the tokens `ts`
were read, and `rest` is what follows them. -/
inductive Reads (s : List Char) : List Token → Arrangement → List Char → Prop
  | start : Reads s [] start s
  | step {ts : List Token} {a b : Arrangement} {rest rest' : List Char} {t : Token} :
      Reads s ts a rest → Token.next a.previous rest = .ok (t, rest') →
        a.feed t = some (.more b) → Reads s (ts ++ [t]) b rest'

namespace Reads

variable {s rest : List Char} {ts : List Token} {a : Arrangement}

/-- The tokens that were read were fed. -/
theorem feedAll_eq (h : Reads s ts a rest) : Arrangement.start.feedAll ts = some a := by
  induction h with
  | start => rfl
  | step _ _ hfeed ih => rw [feedAll_append, ih, Option.bind_some, feedAll_cons hfeed, feedAll]

/-- The whole run is what remains of it in any round. -/
theorem run_eq (h : Reads s ts a rest) : Arrangement.start.run s = a.run rest := by
  induction h with
  | start => rfl
  | step _ hnext hfeed ih => rw [ih, run_of_next hnext, hfeed]

/-- **No more parentheses are open** than characters were read, besides the one around the
filter. -/
theorem depth_add_length_le (h : Reads s ts a rest) : a.depth + rest.length ≤ s.length + 1 := by
  induction h with
  | start => exact (Nat.add_comm _ _).le
  | step _ hnext hfeed ih =>
      have hdepth := depth_le_of_feed hfeed
      have hlength := Token.length_lt_of_next hnext
      omega

/-- The arrangement is well formed in every round. -/
theorem wellFormed (h : Reads s ts a rest) : a.WellFormed :=
  wellFormed_start.feedAll h.feedAll_eq

/-- The operands that were read exceed the binary operators by the operand that is complete, if one
is, and by one for every parenthesis that opened directly after an operand. -/
theorem operands_eq (h : Reads s ts a rest) :
    Filter.operands ts = Filter.binaries ts + (if a.previous = .operand then 1 else 0) +
      Filter.juxtapositions .none ts :=
  operands_feedAll h.feedAll_eq

/-- **A run ends in a round** in which the parenthesis that closes the filter is read. -/
theorem exists_of_run {b : Arrangement} {mid : List Char} (h : Reads s ts a mid)
    (hrun : a.run mid = .ok (b, rest)) :
    ∃ us last, Reads s us b last ∧ Token.next b.previous last = .ok (.closing, rest) ∧
      b.previous = .operand ∧ b.depth ≤ 1 := by
  fun_induction run a mid generalizing ts with
  | case1 => cases hrun
  | case2 => cases hrun
  | case3 a mid t tail hnext _ b' hfeed =>
      obtain ⟨rfl, rfl⟩ := Prod.mk.inj (Except.ok.inj hrun)
      obtain ⟨rfl, hprev, hdepth, rfl⟩ := feed_eq_done hfeed
      exact ⟨ts, mid, h, hnext, hprev, hdepth⟩
  | case4 a mid t tail hnext _ b' hfeed ih => exact ih (h.step hnext hfeed) hrun

/-- **A closing parenthesis finds its partner** if one is open inside the filter: what waits above
the partner is sent off. -/
theorem exists_partner (h : Reads s ts a rest) (hprev : a.previous = .operand)
    (hdepth : 1 < a.depth) :
    ∃ waiting stack, a.stack = waiting ++ .opening :: stack ∧ .opening ∉ waiting ∧
      a.feed .closing = some (.more ⟨a.output ++ waiting, stack, a.depth - 1, .operand⟩) := by
  have hopened := h.wellFormed.opened
  have hmem : .opening ∈ a.stack := by
    rw [← List.count_pos_iff]
    omega
  obtain ⟨waiting, stack, hstack, hwaiting⟩ := List.eq_append_cons_of_mem hmem
  refine ⟨waiting, stack, hstack, hwaiting, ?_⟩
  obtain ⟨output, _, depth, _⟩ := a
  obtain rfl : _ = waiting ++ .opening :: stack := hstack
  obtain rfl : _ = Role.operand := hprev
  exact feed_closing output waiting stack hdepth fun t ht => ne_of_mem_of_not_mem ht hwaiting

end Reads

end Arrangement

namespace Filter

/-- What waits when a filter ends is sent off, and no parenthesis is left to pair up. -/
theorem read_ne_unbalanced (s place expression : List Char) :
    read s ≠ .error (.unbalanced place expression) := by
  intro h
  cases standsIn_of_read h

/-- No path fails for parentheses that do not pair up. -/
theorem ofString_ne_unbalanced (text : String) (position : Nat) (fragment : String) :
    Path.ofString text ≠ .error (.unbalanced position fragment) := by
  intro h
  cases hread : Path.read text.toList with
  | ok p =>
      rw [Path.ofString, hread] at h
      cases h
  | error fault =>
      rw [Path.ofString, hread] at h
      rcases Path.standsIn_of_read hread with rfl | ⟨_⟩ | ⟨_⟩ <;> cases h

/-- **A filter is what its last round leaves.** -/
theorem exists_reads_of_read {s rest : List Char} {out : List Token}
    (h : read ('(' :: s) = .ok (out, rest)) :
    ∃ ts a last, Arrangement.Reads s ts a last ∧
      Token.next a.previous last = .ok (.closing, rest) ∧ a.previous = .operand ∧
      a.depth ≤ 1 ∧ out = a.output ++ a.stack := by
  rw [read] at h
  split at h
  · cases h
  next a tail hrun =>
  split at h
  · cases h
  obtain ⟨rfl, rfl⟩ := Prod.mk.inj (Except.ok.inj h)
  obtain ⟨ts, last, hreads, hlast, hprev, hdepth⟩ := Arrangement.Reads.start.exists_of_run hrun
  exact ⟨ts, a, last, hreads, hlast, hprev, hdepth, rfl⟩

/-- **Parentheses pair up and operands balance in every round.** One parenthesis is open around the
filter, the others wait, none that closes does, and none was sent off; the operands that were read
exceed the binary operators by one if an operand is complete, and by one for every parenthesis that
opened directly after an operand. So a closing parenthesis finds its partner whenever one is open
inside the filter, no filter and no path fails for parentheses that do not pair up, and a filter
that is read to its end has one operand more than it has binary operators, if no parenthesis opened
directly after an operand. -/
theorem balanced_while_read (s : List Char) :
    (∀ ts a rest, Arrangement.Reads s ts a rest →
      Arrangement.start.run s = a.run rest ∧
      1 ≤ a.depth ∧ a.stack.count .opening = a.depth - 1 ∧ .closing ∉ a.stack ∧
      .opening ∉ a.output ∧ .closing ∉ a.output ∧
      operands ts = binaries ts + (if a.previous = .operand then 1 else 0) +
        juxtapositions .none ts ∧
      (a.previous = .operand → 1 < a.depth → ∃ waiting stack,
        a.stack = waiting ++ .opening :: stack ∧ .opening ∉ waiting ∧
        a.feed .closing = some (.more ⟨a.output ++ waiting, stack, a.depth - 1, .operand⟩))) ∧
    (∀ place expression, read s ≠ .error (.unbalanced place expression)) ∧
    (∀ position fragment,
      Path.ofString (String.ofList s) ≠ .error (.unbalanced position fragment)) ∧
    (∀ out rest, read ('(' :: s) = .ok (out, rest) → ∃ ts a last,
      Arrangement.Reads s ts a last ∧ Token.next a.previous last = .ok (.closing, rest) ∧
      a.depth = 1 ∧ operands out = operands ts ∧ binaries out = binaries ts ∧
      operands out = binaries out + 1 + juxtapositions .none ts ∧
      (NoJuxtaposition ts → operands out = binaries out + 1)) := by
  refine ⟨fun ts a rest h => ?_, read_ne_unbalanced s, ofString_ne_unbalanced _,
    fun out rest h => ?_⟩
  · have hformed := h.wellFormed
    have hopened := hformed.opened
    exact ⟨h.run_eq, by omega, by omega, hformed.closed, fun hmem => hformed.sent _ hmem rfl,
      fun hmem => hformed.sent _ hmem rfl, h.operands_eq, h.exists_partner⟩
  · obtain ⟨ts, a, last, hreads, hlast, hprev, hdepth, rfl⟩ := exists_reads_of_read h
    have hfeed := hreads.feedAll_eq
    have hopened := hreads.wellFormed.opened
    have hoperands : operands (a.output ++ a.stack) = operands ts :=
      (Arrangement.countP_feedAll hfeed (by decide)).trans (Nat.zero_add _)
    have hbinaries : binaries (a.output ++ a.stack) = binaries ts :=
      (Arrangement.countP_feedAll hfeed (by decide)).trans (Nat.zero_add _)
    have hbalance := hreads.operands_eq
    rw [if_pos hprev] at hbalance
    refine ⟨ts, a, last, hreads, hlast, by omega, hoperands, hbinaries, by omega, fun hnone => ?_⟩
    have hzero : juxtapositions .none ts = 0 :=
      juxtapositions_eq_zero_iff.2 ⟨by simp, hnone⟩
    omega

/-- A parenthesis opens directly after an operand: the filter is read, with an operand too many. -/
theorem balanced_while_read_group_after_operand :
    ∃ ts a rest, Arrangement.Reads "@(@))".toList ts a rest ∧
      a.stack.count .opening = a.depth - 1 ∧ operands ts = binaries ts + 1 + 1 ∧
      a.previous = .operand ∧ 1 < a.depth ∧
      (∃ waiting stack, a.stack = waiting ++ .opening :: stack ∧ .opening ∉ waiting ∧
        a.feed .closing = some (.more ⟨a.output ++ waiting, stack, a.depth - 1, .operand⟩)) ∧
      ∃ out, read ('(' :: "@(@))".toList) = .ok (out, []) ∧
        ∃ us, operands out = binaries out + 1 + juxtapositions .none us := by
  have hoperand : Arrangement.Reads "@(@))".toList [.candidate ⟨"@", []⟩]
      ⟨[.candidate ⟨"@", []⟩], [], 1, .operand⟩ "(@))".toList :=
    Arrangement.Reads.start.step (by cbv) rfl
  have hopened : Arrangement.Reads "@(@))".toList [.candidate ⟨"@", []⟩, .opening]
      ⟨[.candidate ⟨"@", []⟩], [.opening], 2, .none⟩ "@))".toList :=
    hoperand.step (by cbv) rfl
  have hreads : Arrangement.Reads "@(@))".toList
      [.candidate ⟨"@", []⟩, .opening, .candidate ⟨"@", []⟩]
      ⟨[.candidate ⟨"@", []⟩, .candidate ⟨"@", []⟩], [.opening], 2, .operand⟩ "))".toList :=
    hopened.step (by cbv) rfl
  have hinner : Token.next .operand "))".toList = .ok (.closing, [')']) := by cbv
  have houter : Token.next .operand [')'] = .ok (.closing, []) := by cbv
  have hrun : Arrangement.start.run "@(@))".toList =
      .ok (⟨[.candidate ⟨"@", []⟩, .candidate ⟨"@", []⟩], [], 1, .operand⟩, []) := by
    rw [(hreads.step hinner rfl).run_eq, Arrangement.run_of_next houter]
    rfl
  have hread : read ('(' :: "@(@))".toList) =
      .ok ([.candidate ⟨"@", []⟩, .candidate ⟨"@", []⟩], []) := by
    rw [read, hrun]
    rfl
  obtain ⟨hround, -, -, haccepted⟩ := balanced_while_read "@(@))".toList
  obtain ⟨-, -, hcount, -, -, -, hoperands, hpartner⟩ := hround _ _ _ hreads
  obtain ⟨us, -, -, -, -, -, -, -, hout, -⟩ := haccepted _ _ hread
  exact ⟨_, _, _, hreads, hcount, hoperands, rfl, by decide, hpartner rfl (by decide), _, hread,
    us, hout⟩

end Filter

end JsonPath
